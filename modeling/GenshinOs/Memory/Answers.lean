import GenshinOs.Memory.Forms

/-!
# Answers of the memory service

How many responses a request to the memory service gets (`handle_envelope` and the handlers in
`src/services/memory/service.rs`). As in the file service a handler that has answered an error and then
returns it is answered twice; this is what happens whenever frames, slots or tables are missing. One
request gets no response at all: a fault on a page in swap for which there is a frame. The handler holds
the lock of the swapped pages while it serves such a fault and takes the same lock again to forget the
slot, so that it never comes to its answer (`hangs`). `memory_answeredOnce_iff` gives the requests that
are answered once, in terms of the state before them.
-/

set_option autoImplicit false

namespace GenshinOs.Memory

open GenshinOs.Lib GenshinOs.Hardware

/-- Does the handler wait for a lock that it holds itself? -/
def MemoryService.hangs (s : MemoryService) : MemoryRequest → Bool
  | .pageFaultHandler pid faultingAddr _ =>
    match s.swappedSlot pid (pageBase faultingAddr) with
    | none => false
    | some slot =>
      (s.swapManager.swapIn slot).isOk && !(s.memoryManager.allocateFrames pid 1).1.isEmpty
  | _ => false

/-- The responses to a request with this identifier. -/
def MemoryService.responses (s : MemoryService) (ord : HashOrder) (id : RequestId) (req : MemoryRequest) :
    List Response :=
  if s.hangs req then [] else (s.handleEnvelope ord req).2.map (Response.ofAnswer id)

/-- A handler leaves exactly one answer: its own, or that of the envelope. -/
def Handled.Once (h : Handled) : Prop :=
  match h.result with
  | .ok () => h.sent.length = 1
  | .error _ => h.sent = []

theorem responses_once_iff (s : MemoryService) (ord : HashOrder) (id : RequestId) (req : MemoryRequest) :
    AnsweredOnce id (s.responses ord id req) ↔
      s.hangs req = false ∧ (s.handleMemoryRequestWithResponse ord req).Once := by
  rw [MemoryService.responses]
  cases hhangs : s.hangs req with
  | true =>
    simp only [if_true, Bool.true_eq_false, false_and, iff_false]
    rintro ⟨response, hnone, -⟩
    cases hnone
  | false =>
    simp only [Bool.false_eq_true, if_false, true_and]
    rw [answeredOnce_map, MemoryService.handleEnvelope, Handled.Once]
    cases (s.handleMemoryRequestWithResponse ord req).result with
    | ok u => exact Iff.rfl
    | error e => simp

/-! ## Frames -/

/-- The number is that of a frame in use. -/
def FrameAllocator.InUse (a : FrameAllocator) (n : Nat) : Prop :=
  n < a.totalFrames ∧ ∃ frame, a.frames[n]? = some frame ∧ frame.allocated = true

theorem free_iff (a : FrameAllocator) (n : Nat) : (a.free n).1 = true ↔ a.InUse n := by
  rw [FrameAllocator.free, FrameAllocator.InUse]
  rcases Nat.lt_or_ge n a.totalFrames with hn | hn
  · cases hf : a.frames[n]? with
    | none => simp [hn]
    | some frame =>
      cases hallocated : frame.allocated with
      | false => simp [hn, hallocated]
      | true => simp [hn, hallocated, Nat.not_le.2 hn]
  · simp [hn, Nat.not_lt.2 hn]

theorem allocateFrames_length_iff {m : PhysicalMemoryManager} (hx : m.Exact) (pid : Pid) (count : Nat) :
    (m.allocateFrames pid count).1.length = count ↔ count ≤ m.allocator.freeQueue.length := by
  rcases Nat.lt_or_ge m.allocator.freeQueue.length count with hshort | henough
  · have hnone : (m.allocateFrames pid count).1 = [] :=
      PhysicalMemoryManager.allocateLoop_short pid count [] hx hshort
    rw [hnone, List.length_nil]
    omega
  · obtain ⟨granted, m', heq, hgrant⟩ := PhysicalMemoryManager.allocateFrames_grant hx pid henough
    have hlength := congrArg List.length hgrant.numbers
    rw [List.length_map, List.length_take] at hlength
    rw [heq]
    show granted.length = count ↔ _
    omega

theorem exhausted_iff {a : FrameAllocator} (hx : a.Exact) : a.Exhausted ↔ a.freeQueue = [] := by
  rw [FrameAllocator.Exhausted]
  cases hq : a.freeQueue with
  | nil => simp
  | cons n rest =>
    obtain ⟨frame, hframe, -⟩ := (hx.mem_queue_iff n).1 (by simp [hq])
    simp [hframe]

/-! ## Slots -/

namespace SwapManager

/-- The slot that is handed out next. -/
def nextSlot (m : SwapManager) : Option SwapSlot :=
  if m.enabled then m.freeQueue.head?.bind fun n => m.slots[n]? else none

/-- A page can be swapped out: there is a slot, and it lies on the disk. -/
def HasSlot (m : SwapManager) : Prop := ∃ slot, m.nextSlot = some slot ∧ m.Backed slot.number

theorem allocateSlot_cases (m : SwapManager) (pid : Pid) (vpn : Nat) :
    (m.nextSlot = none ∧ m.allocateSlot pid vpn = (none, m)) ∨
      ∃ old slot m', m.nextSlot = some old ∧ m.allocateSlot pid vpn = (some slot, m') ∧
        slot.number = old.number ∧ m'.disk = m.disk := by
  rw [nextSlot, allocateSlot]
  cases hen : m.enabled with
  | false => exact Or.inl ⟨rfl, rfl⟩
  | true =>
    cases hq : m.freeQueue with
    | nil => exact Or.inl ⟨rfl, rfl⟩
    | cons n rest =>
      cases hslot : m.slots[n]? with
      | none => exact Or.inl ⟨by simp [hslot], by simp [hslot]⟩
      | some old =>
        exact Or.inr ⟨old, old.occupy pid vpn, { m with
          slots := m.slots.set n (old.occupy pid vpn)
          freeQueue := rest
          processSlots := m.processSlots.insert pid ((m.processSlots.lookup pid).getD [] ++ [n])
          usedSlots := m.usedSlots + 1
          enabled := true }, by simp [hslot], by simp [hslot], rfl, rfl⟩

theorem freeSlot_disk (m : SwapManager) (n : Nat) : (m.freeSlot n).2.disk = m.disk := by
  rcases m.freeSlot_cases n with ⟨heq, -⟩ | ⟨old, -, -, heq⟩
  · rw [heq]
  · rw [heq]
    rfl

end SwapManager

/-! ## Faults -/

/-- A page can be evicted for this process: there is a victim, it can be swapped out, and the frame that
its mapping names is in use. -/
def Evictable (s : MemoryService) (ord : HashOrder) (pid : Pid) : Prop :=
  ∃ vpid vaddr vframe, s.findVictimPage ord pid = some (vpid, vaddr, vframe) ∧ s.swapManager.HasSlot ∧
    s.memoryManager.allocator.InUse (vframe.toNat / 4096)

/-- An empty queue has a frame again exactly when the frame given back was in use. -/
theorem freeFrame_exhausted_iff {m : PhysicalMemoryManager} (hx : m.Exact)
    (hempty : m.allocator.Exhausted) (pid : Pid) (n : Nat) :
    ¬(m.freeFrame pid n).2.allocator.Exhausted ↔ m.allocator.InUse n := by
  have hqueue := (exhausted_iff hx).1 hempty
  have hallocator : (m.freeFrame pid n).2.allocator = (m.allocator.free n).2 := rfl
  rw [exhausted_iff (PhysicalMemoryManager.freeFrame_exact hx pid n), hallocator, ← free_iff]
  rcases m.allocator.free_cases n with hkept | ⟨old, -, -, hfreed⟩
  · simp [hkept, hqueue]
  · simp [hfreed]

theorem once_faultExhausted (s : MemoryService) : ¬(MemoryService.faultExhausted s).Once := by
  simp [MemoryService.faultExhausted, Handled.Once]

theorem once_installFrame (s : MemoryService) (pid : Pid) (page : VirtAddr) (frame : Frame) :
    (s.installFrame pid page frame).Once := by
  rw [MemoryService.installFrame_eq]
  rfl

/-- Without a free frame a fault is answered once exactly when a page can be evicted. -/
theorem once_evictAndInstall_iff {s : MemoryService} (hx : s.memoryManager.Exact)
    (hempty : s.memoryManager.allocator.Exhausted) (ord : HashOrder) (pid : Pid) (page : VirtAddr) :
    (s.evictAndInstall ord pid page).Once ↔ Evictable s ord pid := by
  rw [MemoryService.evictAndInstall, Evictable]
  cases hvictim : s.findVictimPage ord pid with
  | none => simp [once_faultExhausted]
  | some victim =>
    obtain ⟨vpid, vaddr, vframe⟩ := victim
    simp only [Option.some.injEq, Prod.mk.injEq]
    -- the victim is this one: what is left are its slot and its frame
    have hone : (∃ p a f, (vpid = p ∧ vaddr = a ∧ vframe = f) ∧ s.swapManager.HasSlot ∧
        s.memoryManager.allocator.InUse (f.toNat / 4096)) ↔
        s.swapManager.HasSlot ∧ s.memoryManager.allocator.InUse (vframe.toNat / 4096) := by
      constructor
      · rintro ⟨p, a, f, ⟨rfl, rfl, rfl⟩, hboth⟩
        exact hboth
      · exact fun hboth => ⟨vpid, vaddr, vframe, ⟨rfl, rfl, rfl⟩, hboth⟩
    rw [hone]
    rcases s.swapManager.allocateSlot_cases vpid (vaddr.toNat / 4096) with
      ⟨hnone, halloc⟩ | ⟨old, slot, swap, hnext, halloc, hnumber, hdisk⟩
    · rw [halloc]
      simp [once_faultExhausted, SwapManager.HasSlot, hnone]
    · have hslot : s.swapManager.HasSlot ↔ swap.Backed slot.number := by
        rw [SwapManager.Backed, hdisk, hnumber]
        simp [SwapManager.HasSlot, SwapManager.Backed, hnext]
      have hwrite := swap.swapOut_iff slot.number (MemoryService.pageData s.mmu vpid vaddr)
      rw [halloc, hslot]
      rcases hout : swap.swapOut slot.number (MemoryService.pageData s.mmu vpid vaddr) with ⟨e | u, swap'⟩
      · have hback : ¬swap.Backed slot.number := by
          rw [← hwrite, hout]
          simp
        simp [hout, once_faultExhausted, hback]
      · have hback : swap.Backed slot.number := by
          rw [← hwrite, hout]
        simp only [hout, hback, true_and]
        rw [← freeFrame_exhausted_iff hx hempty vpid]
        by_cases hdry : (s.memoryManager.freeFrame vpid (vframe.toNat / 4096)).2.allocator.Exhausted
        · have hframes := allocateFrames_exhausted hdry pid
          simp only [MemoryService.releaseVictim, MemoryService.insertSwapped, hframes,
            once_faultExhausted, hdry, not_true]
        · obtain ⟨n, frame, manager, -, -, hframes, -⟩ := allocateFrames_taken hdry pid
          simp only [MemoryService.releaseVictim, MemoryService.insertSwapped, hframes,
            once_installFrame, hdry, not_false_eq_true]

theorem once_allocateOrEvict_iff {s : MemoryService} (hx : s.memoryManager.Exact) (ord : HashOrder)
    (pid : Pid) (page : VirtAddr) :
    (s.allocateOrEvict ord pid page).Once ↔
      (s.memoryManager.allocator.Exhausted → Evictable s ord pid) := by
  rw [MemoryService.allocateOrEvict]
  by_cases hempty : s.memoryManager.allocator.Exhausted
  · rw [allocateFrames_exhausted hempty]
    simp only [hempty, true_implies]
    exact once_evictAndInstall_iff hx hempty ord pid page
  · obtain ⟨n, frame, manager, -, -, hframes, -⟩ := allocateFrames_taken hempty pid
    simp only [hframes, once_installFrame, hempty, false_implies]

/-- A fault is answered once: the page is in a slot beyond the disk; or it is not in swap and there is a
frame; or there is no frame, and a page can be evicted. -/
def FaultOnce (s : MemoryService) (ord : HashOrder) (pid : Pid) (page : VirtAddr) : Prop :=
  match s.swappedSlot pid page with
  | none => s.memoryManager.allocator.Exhausted → Evictable s ord pid
  | some slot =>
    s.swapManager.Backed slot → s.memoryManager.allocator.Exhausted ∧ Evictable s ord pid

theorem once_pageFault_iff {s : MemoryService} (hx : s.memoryManager.Exact) (ord : HashOrder) (pid : Pid)
    (addr : VirtAddr) (access : AccessType) :
    (s.hangs (.pageFaultHandler pid addr access) = false ∧
        (s.handlePageFaultWithResponse ord pid addr access).Once) ↔
      FaultOnce s ord pid (pageBase addr) := by
  rw [MemoryService.hangs, MemoryService.handlePageFaultWithResponse, FaultOnce]
  cases hslot : s.swappedSlot pid (pageBase addr) with
  | none =>
    simp only [true_and]
    exact once_allocateOrEvict_iff hx ord pid (pageBase addr)
  | some slot =>
    by_cases hback : s.swapManager.Backed slot
    · obtain ⟨data, hin, -⟩ := SwapManager.swapIn_ok hback
      by_cases hempty : s.memoryManager.allocator.Exhausted
      · simp only [hin, allocateFrames_exhausted hempty, List.isEmpty_nil, Bool.not_true, Bool.and_false,
          true_and, hback, hempty, true_implies]
        rw [once_allocateOrEvict_iff hx]
        simp only [hempty, true_implies]
      · obtain ⟨n, frame, manager, -, -, hframes, -⟩ := allocateFrames_taken hempty pid
        simp [hin, hframes, hback, hempty, Except.isOk, Except.toBool]
    · obtain ⟨e, hin⟩ := SwapManager.swapIn_error hback
      simp [hin, hback, Except.isOk, Except.toBool, Handled.Once]

/-! ## Requests -/

/-- The requests that are answered once. -/
def MemoryOnce (s : MemoryService) (ord : HashOrder) : MemoryRequest → Prop
  | .allocFrame count _ => count ≤ s.memoryManager.allocator.freeQueue.length
  | .freeFrame paddr => s.memoryManager.allocator.InUse (paddr.toNat / 4096)
  | .mapPage _ _ _ _ => True
  | .unmapPage pid _ => (s.mmu.pageTables.lookup pid).isSome = true
  | .pageFaultHandler pid addr _ => FaultOnce s ord pid (pageBase addr)
  | .swapOut _ _ => s.swapManager.HasSlot
  | .swapIn pid virt => ∃ slot, s.slotOfPage pid (virt.toNat / 4096) = some slot ∧
      s.swapManager.Backed slot.number
  | .getStats => True
  | .getFrameMap => True

theorem once_allocFrame_iff {s : MemoryService} (hx : s.memoryManager.Exact) (count : Nat) (pid : Pid) :
    (s.handleAllocFrameWithResponse count pid).Once ↔ count ≤ s.memoryManager.allocator.freeQueue.length := by
  rw [← allocateFrames_length_iff hx pid, MemoryService.handleAllocFrameWithResponse]
  by_cases hlength : (s.memoryManager.allocateFrames pid count).1.length = count
  · simp [hlength, Handled.Once]
  · simp [hlength, Handled.Once]

theorem once_freeFrame_iff (s : MemoryService) (paddr : PhysAddr) :
    (s.handleFreeFrameWithResponse paddr).Once ↔
      s.memoryManager.allocator.InUse (paddr.toNat / 4096) := by
  have hfreed : (s.memoryManager.freeFrame 0 (paddr.toNat / 4096)).1 = true ↔
      s.memoryManager.allocator.InUse (paddr.toNat / 4096) := free_iff s.memoryManager.allocator _
  rw [← hfreed, MemoryService.handleFreeFrameWithResponse]
  rcases s.memoryManager.freeFrame 0 (paddr.toNat / 4096) with ⟨freed, manager⟩
  cases freed with
  | true => simp [Handled.Once]
  | false => simp [Handled.Once]

theorem once_unmapPage_iff (s : MemoryService) (pid : Pid) (virt : VirtAddr) :
    (s.handleUnmapPageWithResponse pid virt).Once ↔ (s.mmu.pageTables.lookup pid).isSome = true := by
  rw [MemoryService.handleUnmapPageWithResponse, MMU.unmapPage]
  cases s.mmu.pageTables.lookup pid with
  | none => simp [Handled.Once]
  | some table => simp [Handled.Once]

theorem once_swapOut_iff (s : MemoryService) (pid : Pid) (virt : VirtAddr) :
    (s.handleSwapOutWithResponse pid virt).Once ↔ s.swapManager.HasSlot := by
  rw [MemoryService.handleSwapOutWithResponse]
  cases hen : s.swapManager.enabled with
  | false => simp [Handled.Once, SwapManager.HasSlot, SwapManager.nextSlot, hen]
  | true =>
    simp only [Bool.true_eq_false, if_false]
    rcases s.swapManager.allocateSlot_cases pid (virt.toNat / 4096) with
      ⟨hnone, halloc⟩ | ⟨old, slot, swap, hnext, halloc, hnumber, hdisk⟩
    · simp [halloc, Handled.Once, SwapManager.HasSlot, hnone]
    · have hslot : s.swapManager.HasSlot ↔ swap.Backed slot.number := by
        rw [SwapManager.Backed, hdisk, hnumber]
        simp [SwapManager.HasSlot, SwapManager.Backed, hnext]
      rw [halloc, hslot, ← swap.swapOut_iff slot.number (MemoryService.frameData s.mmu pid virt)]
      rcases hout : swap.swapOut slot.number (MemoryService.frameData s.mmu pid virt) with ⟨e | u, swap'⟩
      · simp [hout, Handled.Once]
      · simp [hout, Handled.Once]

theorem once_swapIn_iff (s : MemoryService) (pid : Pid) (virt : VirtAddr) :
    (s.handleSwapInWithResponse pid virt).Once ↔
      ∃ slot, s.slotOfPage pid (virt.toNat / 4096) = some slot ∧ s.swapManager.Backed slot.number := by
  rw [MemoryService.handleSwapInWithResponse]
  cases hslot : s.slotOfPage pid (virt.toNat / 4096) with
  | none => simp [Handled.Once]
  | some slot =>
    have hdisk : (s.swapManager.freeSlot slot.number).2.Backed slot.number ↔
        s.swapManager.Backed slot.number := by
      rw [SwapManager.Backed, SwapManager.Backed, SwapManager.freeSlot_disk]
    simp only [Option.some.injEq, exists_eq_left', ← hdisk]
    by_cases hback : (s.swapManager.freeSlot slot.number).2.Backed slot.number
    · obtain ⟨data, hin, -⟩ := SwapManager.swapIn_ok hback
      simp only [hin, hback, iff_true]
      -- the copy to memory is answered once however it ends
      split
      · rfl
      · split
        · rfl
        · rfl
    · obtain ⟨e, hin⟩ := SwapManager.swapIn_error hback
      simp [hin, hback, Handled.Once]

/-- A request to the memory service is answered exactly once, with its identifier, on these conditions
and on no others. -/
theorem memory_answeredOnce_iff {s : MemoryService} (hx : s.memoryManager.Exact) (ord : HashOrder)
    (id : RequestId) (req : MemoryRequest) :
    AnsweredOnce id (s.responses ord id req) ↔ MemoryOnce s ord req := by
  rw [responses_once_iff]
  cases req with
  | allocFrame count pid => exact (and_iff_right rfl).trans (once_allocFrame_iff hx count pid)
  | freeFrame paddr => exact (and_iff_right rfl).trans (once_freeFrame_iff s paddr)
  | mapPage pid virt phys prot => exact iff_of_true ⟨rfl, rfl⟩ trivial
  | unmapPage pid virt => exact (and_iff_right rfl).trans (once_unmapPage_iff s pid virt)
  | pageFaultHandler pid addr access => exact once_pageFault_iff hx ord pid addr access
  | swapOut pid virt => exact (and_iff_right rfl).trans (once_swapOut_iff s pid virt)
  | swapIn pid virt => exact (and_iff_right rfl).trans (once_swapIn_iff s pid virt)
  | getStats => exact iff_of_true ⟨rfl, rfl⟩ trivial
  | getFrameMap => exact iff_of_true ⟨rfl, rfl⟩ trivial

end GenshinOs.Memory
