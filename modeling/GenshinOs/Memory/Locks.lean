import GenshinOs.Lib.Locks
import GenshinOs.Memory.Answers

/-!
# Locks of the memory service

The mutexes that the handlers of the memory service take (`src/services/memory/service.rs`), as call
chains. A guard that is bound by `let` lives to the end of its block or to its `drop`, a guard in the
scrutinee of a `match` to the end of the match; a lock that is released before the next one is taken is
a `touch`. The chain of a request depends on the state, and is given in the cases of the handler.

One handler waits for itself: the answered page fault (`requestLocks_deadlocks_iff`).
-/

set_option autoImplicit false

namespace GenshinOs.Memory

open GenshinOs.Lib GenshinOs.Hardware CallChain

/-- The mutexes that a handler may lock: the fields of the service, the page tables of the processes, and
the ones inside the MMU, the physical memory and the swap disk. -/
inductive MemoryMutex where
  | memoryManager
  | pageTables
  | pageTable (pid : Pid)
  | swapManager
  | hardwareMemory
  | swappedPages
  | mmuTables
  | memoryData
  | swapFile
  deriving DecidableEq

namespace MemoryService

/-- Accesses through the MMU: the tables for the translation, then the bytes. A failed translation ends
the access, which only leaves out the second lock. -/
def mmuAccesses (count : Nat) : CallChain MemoryMutex :=
  each (fun _ => touch .mmuTables ++ touch .memoryData) (List.range count)

/-- The eight sectors of a slot, each locked on its own. An error ends the transfer early. -/
def sectorLocks : CallChain MemoryMutex := each (fun _ => touch .swapFile) (List.range 8)

/-- `handle_map_page`: the guard of all tables is kept if the table is there, else it is dropped and
taken once more to make one. -/
def mapPageLocks (s : MemoryService) (pid : Pid) : CallChain MemoryMutex :=
  match s.pageTables.getTable pid with
  | some _ => guard .pageTables (touch (.pageTable pid))
  | none => touch .pageTables ++ touch .pageTables ++ touch (.pageTable pid)

/-- `handle_page_fault`. -/
def pageFaultLocks (s : MemoryService) (pid : Pid) (faultingAddr : VirtAddr) : CallChain MemoryMutex :=
  match s.pageTables.getTable pid with
  | none => touch .pageTables
  | some table =>
    if ((table.lookup faultingAddr).map TableEntry.isPresent).getD false then
      guard .pageTables (touch (.pageTable pid))
    else
      match s.memoryManager.allocateFrames pid 1 with
      | ([], _) =>
        -- the guard of all tables lives on while the swap manager is asked
        guard .pageTables (touch (.pageTable pid) ++ touch .memoryManager ++ touch .swapManager)
      | (_ :: _, manager) =>
        guard .pageTables (touch (.pageTable pid) ++ touch .memoryManager) ++
          mapPageLocks { s with memoryManager := manager } pid

/-- The third stage of an answered fault. The guard of the swap manager is dropped after the page is
written, that of the memory manager after the new frame is taken. -/
def evictLocks (s : MemoryService) (ord : HashOrder) (pid : Pid) : CallChain MemoryMutex :=
  touch .mmuTables ++
    match s.findVictimPage ord pid with
    | none => done
    | some (vpid, vaddr, vframe) =>
      match s.swapManager.allocateSlot vpid (vaddr.toNat / 4096) with
      | (none, _) => touch .swapManager
      | (some slot, swap) =>
        match swap.swapOut slot.number (pageData s.mmu vpid vaddr) with
        | (.error _, _) => guard .swapManager (mmuAccesses 4096 ++ sectorLocks)
        | (.ok (), swap') =>
          let released := releaseVictim { s with swapManager := swap' } vpid vaddr vframe slot.number
          guard .swapManager (mmuAccesses 4096 ++ sectorLocks) ++ touch .mmuTables ++
            guard .memoryManager (touch .swappedPages) ++
            match released.memoryManager.allocateFrames pid 1 with
            | ([], _) => done
            | (_ :: _, _) => touch .mmuTables

/-- The second stage of an answered fault. -/
def allocateOrEvictLocks (s : MemoryService) (ord : HashOrder) (pid : Pid) : CallChain MemoryMutex :=
  match s.memoryManager.allocateFrames pid 1 with
  | (_ :: _, _) => touch .memoryManager ++ touch .mmuTables
  | ([], manager) => touch .memoryManager ++ evictLocks { s with memoryManager := manager } ord pid

/-- `handle_page_fault_with_response`: the guard `swapped` lives to the end of the first stage. -/
def pageFaultWithResponseLocks (s : MemoryService) (ord : HashOrder) (pid : Pid)
    (faultingAddr : VirtAddr) : CallChain MemoryMutex :=
  match s.swappedSlot pid (pageBase faultingAddr) with
  | none => touch .swappedPages ++ allocateOrEvictLocks s ord pid
  | some slot =>
    match s.swapManager.swapIn slot with
    | .error _ => guard .swappedPages (guard .swapManager sectorLocks)
    | .ok data =>
      match s.memoryManager.allocateFrames pid 1 with
      | (_ :: _, _) =>
        guard .swappedPages (guard .swapManager sectorLocks ++ touch .memoryManager ++
          touch .mmuTables ++ mmuAccesses data.length ++
          -- the slot is forgotten: `self.swapped_pages.lock()` with `swapped` alive
          touch .swappedPages ++ touch .swapManager)
      | ([], manager) =>
        guard .swappedPages (guard .swapManager sectorLocks ++ touch .memoryManager) ++
          allocateOrEvictLocks { s with memoryManager := manager } ord pid

/-- `handle_swap_out_with_response`. -/
def swapOutWithResponseLocks (s : MemoryService) (pid : Pid) (virt : VirtAddr) :
    CallChain MemoryMutex :=
  if s.swapManager.enabled = false then touch .swapManager
  else
    match s.swapManager.allocateSlot pid (virt.toNat / 4096) with
    | (none, _) => touch .swapManager
    | (some _, _) =>
      guard .swapManager (touch .mmuTables ++
        (match s.mmu.translate pid virt .read with
        | .error _ => done
        | .ok _ => guard .hardwareMemory (touch .memoryData)) ++ sectorLocks)

/-- `handle_swap_in_with_response`. -/
def swapInWithResponseLocks (s : MemoryService) (pid : Pid) (virt : VirtAddr) :
    CallChain MemoryMutex :=
  match s.slotOfPage pid (virt.toNat / 4096) with
  | none => touch .swapManager
  | some slot =>
    match (s.swapManager.freeSlot slot.number).2.swapIn slot.number with
    | .error _ => guard .swapManager sectorLocks
    | .ok _ =>
      guard .swapManager (sectorLocks ++ touch .mmuTables ++
        match s.mmu.translate pid virt .write with
        | .error _ => done
        | .ok _ => guard .hardwareMemory (touch .memoryData))

/-- The locks of a request that nobody waits for. -/
def memoryRequestLocks (s : MemoryService) : MemoryRequest → CallChain MemoryMutex
  | .allocFrame _ _ => touch .memoryManager
  | .freeFrame _ => touch .memoryManager
  | .mapPage pid _ _ _ => s.mapPageLocks pid
  | .unmapPage _ _ => touch .mmuTables
  | .pageFaultHandler pid faultingAddr _ => s.pageFaultLocks pid faultingAddr
  | .swapOut _ _ => touch .swapManager
  | .swapIn _ _ => touch .swapManager
  | .getStats => done
  | .getFrameMap => done

/-- The locks of a request with a response channel. -/
def memoryRequestWithResponseLocks (s : MemoryService) (ord : HashOrder) :
    MemoryRequest → CallChain MemoryMutex
  | .allocFrame _ _ => touch .memoryManager
  | .freeFrame _ => touch .memoryManager
  | .mapPage _ _ _ _ => touch .mmuTables
  | .unmapPage _ _ => touch .mmuTables
  | .pageFaultHandler pid faultingAddr _ => s.pageFaultWithResponseLocks ord pid faultingAddr
  | .swapOut pid virt => s.swapOutWithResponseLocks pid virt
  | .swapIn pid virt => s.swapInWithResponseLocks pid virt
  | .getStats => touch .memoryManager
  | .getFrameMap => touch .memoryManager

/-- The locks of the thread of the memory service while it handles one request. -/
def eventLocks (s : MemoryService) (e : MemoryEvent) : CallChain MemoryMutex :=
  if e.answered then s.memoryRequestWithResponseLocks e.ord e.req else s.memoryRequestLocks e.req

/-! ## The handlers that come to their end -/

section free

variable (s : MemoryService) (ord : HashOrder) (pid : Pid) (virt : VirtAddr)

@[simp] theorem not_deadlocks_mmuAccesses (count : Nat) : ¬(mmuAccesses count).Deadlocks := by
  simp [mmuAccesses]

@[simp] theorem not_deadlocks_sectorLocks : ¬sectorLocks.Deadlocks := by
  simp [sectorLocks]

/-- The accesses lock the tables and the memory, if there are any. -/
@[simp] theorem mem_locks_mmuAccesses (m : MemoryMutex) (count : Nat) :
    m ∈ (mmuAccesses count).locks ↔ 0 < count ∧ (m = .mmuTables ∨ m = .memoryData) := by
  rw [mmuAccesses, mem_locks_each]
  constructor
  · rintro ⟨i, hi, hm⟩
    exact ⟨Nat.zero_lt_of_lt (List.mem_range.1 hi), by simpa using hm⟩
  · rintro ⟨hcount, hm⟩
    exact ⟨0, List.mem_range.2 hcount, by simpa using hm⟩

/-- The sectors of a slot lock the swap file only. -/
@[simp] theorem mem_locks_sectorLocks (m : MemoryMutex) :
    m ∈ sectorLocks.locks ↔ m = .swapFile := by
  rw [sectorLocks, mem_locks_each]
  constructor
  · rintro ⟨-, -, hm⟩
    simpa using hm
  · intro hm
    exact ⟨0, by decide, by simpa using hm⟩

/-- The handler of `MapPage` locks nothing twice, -/
theorem not_deadlocks_mapPageLocks : ¬(s.mapPageLocks pid).Deadlocks := by
  rw [mapPageLocks]
  cases s.pageTables.getTable pid with
  | none => simp
  | some table => simp

/-- nor does that of a fault without an answer, -/
theorem not_deadlocks_pageFaultLocks : ¬(s.pageFaultLocks pid virt).Deadlocks := by
  rw [pageFaultLocks]
  cases s.pageTables.getTable pid with
  | none => simp
  | some table =>
    dsimp only
    split
    · simp
    · split
      · simp
      · simp [not_deadlocks_mapPageLocks]

/-- the eviction of a page, -/
theorem not_deadlocks_evictLocks : ¬(s.evictLocks ord pid).Deadlocks := by
  rw [evictLocks, deadlocks_append, or_iff_right (deadlocks_touch _)]
  split
  · exact deadlocks_done
  · split
    · exact deadlocks_touch _
    · split
      · simp
      · simp only [deadlocks_append]
        split <;> simp

/-- the search for a frame, -/
theorem not_deadlocks_allocateOrEvictLocks : ¬(s.allocateOrEvictLocks ord pid).Deadlocks := by
  rw [allocateOrEvictLocks]
  split
  · simp
  · simp [not_deadlocks_evictLocks]

/-- and the two requests that move a page to swap -/
theorem not_deadlocks_swapOutWithResponseLocks :
    ¬(s.swapOutWithResponseLocks pid virt).Deadlocks := by
  rw [swapOutWithResponseLocks]
  split
  · exact deadlocks_touch _
  · split
    · exact deadlocks_touch _
    · cases s.mmu.translate pid virt .read with
      | error e => simp
      | ok paddr => simp

/-- and back. -/
theorem not_deadlocks_swapInWithResponseLocks :
    ¬(s.swapInWithResponseLocks pid virt).Deadlocks := by
  rw [swapInWithResponseLocks]
  split
  · exact deadlocks_touch _
  · split
    · simp
    · cases s.mmu.translate pid virt .write with
      | error e => simp
      | ok paddr => simp

/-- No handler without an answer waits for itself. -/
theorem not_deadlocks_memoryRequestLocks (req : MemoryRequest) :
    ¬(s.memoryRequestLocks req).Deadlocks := by
  cases req with
  | mapPage q virt phys prot => exact s.not_deadlocks_mapPageLocks q
  | pageFaultHandler q addr accessType => exact s.not_deadlocks_pageFaultLocks q addr
  | getStats => exact deadlocks_done
  | getFrameMap => exact deadlocks_done
  | _ => exact deadlocks_touch _

end free

/-! ## The handler that waits for itself -/

/-- The fault of a page in swap for which there is a frame: `swapped_pages` is locked twice. -/
theorem pageFaultWithResponseLocks_deadlocks_iff (s : MemoryService) (ord : HashOrder) (pid : Pid)
    (faultingAddr : VirtAddr) (accessType : AccessType) :
    (s.pageFaultWithResponseLocks ord pid faultingAddr).Deadlocks ↔
      s.hangs (.pageFaultHandler pid faultingAddr accessType) = true := by
  simp only [pageFaultWithResponseLocks, hangs]
  cases s.swappedSlot pid (pageBase faultingAddr) with
  | none => simp [not_deadlocks_allocateOrEvictLocks]
  | some slot =>
    dsimp only
    cases s.swapManager.swapIn slot with
    | error e => simp [Except.isOk, Except.toBool]
    | ok data =>
      obtain ⟨frames, manager⟩ := s.memoryManager.allocateFrames pid 1
      cases frames with
      | nil => simp [not_deadlocks_allocateOrEvictLocks]
      | cons frame frames => simp [Except.isOk, Except.toBool]

/-- The service waits for itself exactly at an answered request that `hangs` describes. -/
theorem eventLocks_deadlocks_iff (s : MemoryService) (e : MemoryEvent) :
    (s.eventLocks e).Deadlocks ↔ e.answered = true ∧ s.hangs e.req = true := by
  rw [eventLocks]
  cases e.answered with
  | false =>
    simp only [Bool.false_eq_true, if_false, false_and, iff_false]
    exact s.not_deadlocks_memoryRequestLocks e.req
  | true =>
    simp only [if_true, true_and]
    cases e.req with
    | pageFaultHandler pid faultingAddr accessType =>
      exact s.pageFaultWithResponseLocks_deadlocks_iff e.ord pid faultingAddr accessType
    | swapOut pid virt =>
      simp [memoryRequestWithResponseLocks, hangs, not_deadlocks_swapOutWithResponseLocks]
    | swapIn pid virt =>
      simp [memoryRequestWithResponseLocks, hangs, not_deadlocks_swapInWithResponseLocks]
    | _ => simp [memoryRequestWithResponseLocks, hangs]

end MemoryService

end GenshinOs.Memory
