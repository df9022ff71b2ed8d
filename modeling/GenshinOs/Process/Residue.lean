import GenshinOs.Process.Cloning

/-!
# What recycled frames hold

The memory service moves bytes between memory and swap space, and fork copies pages, but no frame is
ever cleared: a frame that is handed on still holds what its last owner stored. The service never looks
at the bytes it moves. So two runs that differ in stored values only go through the same tables, and a
byte differs between them only when it was stored by a process whose values differ: `reads_agree`. Where
a byte comes from is told by a third run, in which the process in question stores zeros and all others
store ones.
-/

set_option autoImplicit false

namespace GenshinOs.Process

open GenshinOs.Lib GenshinOs.Hardware GenshinOs.Memory

/-! ## Bytes and their places -/

/-- A place where a byte is kept: in memory or on the swap disk. -/
inductive Loc where
  | ram (a : Nat)
  | disk (a : Nat)
  deriving DecidableEq

/-- The contents of all places. -/
abbrev Bytes := Loc → UInt8

/-- The MMU with other bytes behind it. -/
def mmuWith (m : MMU) (β : Bytes) : MMU :=
  { m with memory := { m.memory with data := fun a => β (.ram a) } }

/-- The disk with other bytes. -/
def diskWith (d : VirtualDisk) (β : Bytes) : VirtualDisk := { d with file := fun a => β (.disk a) }

/-- The swap with other bytes on its disk. -/
def swapWith (swap : SwapManager) (β : Bytes) : SwapManager :=
  { swap with disk := diskWith swap.disk β }

/-- The service with other bytes in all places. -/
def withBytes (m : MemoryService) (β : Bytes) : MemoryService :=
  { m with mmu := mmuWith m.mmu β, swapManager := swapWith m.swapManager β }

/-- The bytes in memory and on the swap disk. -/
def bytesOf (m : MemoryService) : Bytes
  | .ram a => m.mmu.memory.data a
  | .disk a => m.swapManager.disk.file a

/-- A service with its own bytes. -/
theorem withBytes_bytesOf (m : MemoryService) : withBytes m (bytesOf m) = m := rfl

/-- The byte at a place, zero for none. -/
def fetch (β : Bytes) : Option Loc → UInt8
  | some l => β l
  | none => 0

/-- The place behind an address that a process can read. -/
def readLoc (m : MMU) (pid : Pid) (v : VirtAddr) : Option Loc :=
  match m.translate pid v .read with
  | .ok paddr => if m.memory.InBounds paddr.toNat 1 then some (.ram paddr.toNat) else none
  | .error _ => none

/-- The place behind an address that a process can write. -/
def writeLoc (m : MMU) (pid : Pid) (v : VirtAddr) : Option Loc :=
  match m.translate pid v .write with
  | .ok paddr => if m.memory.InBounds paddr.toNat 1 then some (.ram paddr.toNat) else none
  | .error _ => none

/-- No store of a process goes to the disk. -/
theorem writeLoc_ne_disk (m : MMU) (pid : Pid) (v : VirtAddr) (a : Nat) :
    (writeLoc m pid v = some (.disk a)) = False := by
  rw [writeLoc, eq_iff_iff, iff_false]
  split
  · split
    · simp
    · simp
  · simp

/-- Store a byte at a place, if there is one. -/
def storeAt (β : Bytes) (l : Option Loc) (b : UInt8) : Bytes :=
  fun l' => if l = some l' then b else β l'

/-- Where a byte is read does not depend on the bytes. -/
theorem readU8_mmuWith (m : MMU) (β : Bytes) (pid : Pid) (v : VirtAddr) :
    ((mmuWith m β).readU8 pid v).toOption = (readLoc m pid v).map β := by
  have htrans : (mmuWith m β).translate pid v .read = m.translate pid v .read := rfl
  simp only [MMU.readU8, readLoc, htrans]
  cases m.translate pid v .read with
  | error e => rfl
  | ok paddr =>
    simp only [PhysicalMemory.readU8, PhysicalMemory.checkBounds]
    have hbounds : (mmuWith m β).memory.InBounds paddr.toNat 1 ↔ m.memory.InBounds paddr.toNat 1 :=
      Iff.rfl
    by_cases hin : m.memory.InBounds paddr.toNat 1
    · rw [if_pos hin, if_pos (hbounds.2 hin)]
      rfl
    · rw [if_neg hin, if_neg (fun h => hin (hbounds.1 h))]
      rfl

/-- Nor does where one is stored. -/
theorem writeU8Lossy_mmuWith (m : MMU) (β : Bytes) (pid : Pid) (v : VirtAddr) (b : UInt8) :
    (mmuWith m β).writeU8Lossy pid v b = mmuWith m (storeAt β (writeLoc m pid v) b) := by
  have htrans : (mmuWith m β).translate pid v .write = m.translate pid v .write := rfl
  simp only [MMU.writeU8Lossy, MMU.writeU8, writeLoc, htrans]
  cases m.translate pid v .write with
  | error e => rfl
  | ok paddr =>
    simp only [PhysicalMemory.writeU8, PhysicalMemory.checkBounds]
    have hbounds : (mmuWith m β).memory.InBounds paddr.toNat 1 ↔ m.memory.InBounds paddr.toNat 1 :=
      Iff.rfl
    by_cases hin : m.memory.InBounds paddr.toNat 1
    · rw [if_pos hin, if_pos (hbounds.2 hin)]
      simp only [mmuWith, PhysicalMemory.store, storeAt, Option.some.injEq, Loc.ram.injEq]
      congr 2
      funext a
      rw [Function.update_apply]
      by_cases ha : a = paddr.toNat
      · rw [if_pos ha, if_pos ha.symm]
      · rw [if_neg ha, if_neg (fun h => ha h.symm)]
    · rw [if_neg hin, if_neg (fun h => hin (hbounds.1 h))]
      rfl

/-! ## Moving bytes -/

/-- Where the byte at each place comes from: from the place itself, or from one of the given sources. -/
abbrev Moved := Loc → Option (Option Loc)

/-- The contents after a move out of `γ` over `β`. -/
def moveOver (mv : Moved) (γ β : Bytes) : Bytes := fun l =>
  match mv l with
  | none => β l
  | some source => fetch γ source

/-- Whatever the bytes are, the operation leads to the same tables and moves the bytes the same way. -/
def Moves (f : MemoryService → MemoryService) (m : MemoryService) : Prop :=
  ∃ m' mv, ∀ β, f (withBytes m β) = withBytes m' (moveOver mv β β)

/-- An operation that does not touch the bytes. -/
theorem Moves.of_tables {f : MemoryService → MemoryService} {m : MemoryService} (m' : MemoryService)
    (h : ∀ β, f (withBytes m β) = withBytes m' β) : Moves f m :=
  ⟨m', fun _ => none, fun β => (h β).trans rfl⟩

/-- Two moves after each other. -/
def Moved.after (mv' mv : Moved) : Moved := fun l =>
  match mv' l with
  | none => mv l
  | some none => some none
  | some (some l') =>
    match mv l' with
    | none => some (some l')
    | some source => some source

/-- Two moves one after the other are one. -/
theorem moveOver_after (mv' mv : Moved) (β : Bytes) :
    moveOver mv' (moveOver mv β β) (moveOver mv β β) = moveOver (mv'.after mv) β β := by
  funext l
  simp only [moveOver, Moved.after]
  cases mv' l with
  | none => rfl
  | some source =>
    cases source with
    | none => rfl
    | some l' =>
      show moveOver mv β β l' = _
      simp only [moveOver]
      cases mv l' <;> rfl

/-- Work that moves bytes, and then such work again. -/
theorem Moves.comp {f g : MemoryService → MemoryService} {m : MemoryService} (hf : Moves f m)
    (hg : ∀ m', Moves g m') : Moves (fun m => g (f m)) m := by
  obtain ⟨m', mv, hf⟩ := hf
  obtain ⟨m'', mv', hg⟩ := hg m'
  refine ⟨m'', mv'.after mv, ?_⟩
  intro β
  show g (f (withBytes m β)) = _
  rw [hf, hg, moveOver_after]

/-- A loop of such work. -/
theorem Moves.foldl {α : Type} {f : MemoryService → α → MemoryService}
    (hf : ∀ a m, Moves (fun m => f m a) m) (l : List α) (m : MemoryService) :
    Moves (fun m => l.foldl f m) m := by
  induction l generalizing m with
  | nil => exact Moves.of_tables m fun β => rfl
  | cons a l ih => exact (hf a m).comp ih

/-- The bytes of a list of places. -/
abbrev fetchAll (β : Bytes) (sources : List (Option Loc)) : List UInt8 := sources.map (fetch β)

/-- One byte of those that are fetched. -/
theorem getD_fetchAll (β : Bytes) (sources : List (Option Loc)) (i : Nat) :
    (fetchAll β sources).getD i 0 = fetch β (sources.getD i none) := by
  rw [List.getD_eq_getElem?_getD, List.getD_eq_getElem?_getD, List.getElem?_map]
  cases sources[i]? <;> rfl

/-! ## Bytes of a page -/

/-- The bytes of a page come from fixed places. -/
theorem pageData_mmuWith (m : MMU) (β : Bytes) (pid : Pid) (page : VirtAddr) :
    MemoryService.pageData (mmuWith m β) pid page =
      fetchAll β ((List.range 4096).map fun i => readLoc m pid (page + UInt64.ofNat i)) := by
  rw [MemoryService.pageData, fetchAll, List.map_map]
  apply List.map_congr_left
  intro i _
  have hread := readU8_mmuWith m β pid (page + UInt64.ofNat i)
  simp only [Function.comp_apply]
  split
  · next b heq =>
    rw [heq] at hread
    cases hloc : readLoc m pid (page + UInt64.ofNat i) with
    | none =>
      rw [hloc] at hread
      cases hread
    | some l =>
      rw [hloc] at hread
      exact Option.some.inj hread
  · next e heq =>
    rw [heq] at hread
    cases hloc : readLoc m pid (page + UInt64.ofNat i) with
    | none => rfl
    | some l =>
      rw [hloc] at hread
      cases hread

/-- So do those of a frame. -/
theorem frameData_mmuWith (m : MMU) (pid : Pid) (virt : VirtAddr) :
    ∃ sources, ∀ β, MemoryService.frameData (mmuWith m β) pid virt = fetchAll β sources := by
  have htrans : ∀ β, (mmuWith m β).translate pid virt .read = m.translate pid virt .read :=
    fun β => rfl
  simp only [MemoryService.frameData, htrans]
  have hzeros : ∀ β, List.replicate 4096 (0 : UInt8) = fetchAll β (List.replicate 4096 none) := by
    intro β
    rw [fetchAll, List.map_replicate]
    rfl
  cases m.translate pid virt .read with
  | error e => exact ⟨_, hzeros⟩
  | ok paddr =>
    simp only [PhysicalMemory.readSlice, PhysicalMemory.checkBounds]
    have hbounds : ∀ β, (mmuWith m β).memory.InBounds paddr.toNat 4096 ↔
        m.memory.InBounds paddr.toNat 4096 := fun β => Iff.rfl
    by_cases hin : m.memory.InBounds paddr.toNat 4096
    · refine ⟨(List.range 4096).map fun i => some (.ram (paddr.toNat + i)), ?_⟩
      intro β
      rw [if_pos ((hbounds β).2 hin), fetchAll, List.map_map]
      rfl
    · refine ⟨List.replicate 4096 none, ?_⟩
      intro β
      rw [if_neg (fun h => hin ((hbounds β).1 h))]
      exact hzeros β

/-- Bytes written from an address on. -/
theorem writeBytes_mmuWith (m : MMU) (pid : Pid) (page : VirtAddr) (sources : List (Option Loc)) :
    ∃ mv : Moved, (∀ a, mv (.disk a) = none) ∧ ∀ γ β,
      (mmuWith m β).writeBytes pid page (fetchAll γ sources) = mmuWith m (moveOver mv γ β) := by
  have hloop : ∀ k, ∃ mv : Moved, (∀ a, mv (.disk a) = none) ∧ ∀ γ β,
      ((fetchAll γ sources).zipIdx k).foldl
        (fun m e => m.writeU8Lossy pid (page + UInt64.ofNat e.2) e.1) (mmuWith m β) =
          mmuWith m (moveOver mv γ β) := by
    induction sources with
    | nil => exact fun k => ⟨fun _ => none, fun _ => rfl, fun γ β => rfl⟩
    | cons source sources ih =>
      intro k
      obtain ⟨mv, hdisk, hmv⟩ := ih (k + 1)
      -- a later write goes over the first one
      refine ⟨fun l => match mv l with
        | some s => some s
        | none => if writeLoc m pid (page + UInt64.ofNat k) = some l then some source else none, ?_, ?_⟩
      · intro a
        simp only [hdisk, writeLoc_ne_disk, if_false]
      intro γ β
      rw [fetchAll, List.map_cons, List.zipIdx_cons, List.foldl_cons, writeU8Lossy_mmuWith, hmv]
      congr 1
      funext l
      simp only [moveOver, storeAt]
      cases mv l with
      | some s => rfl
      | none =>
        simp only
        split <;> rfl
  exact hloop 0

/-! ## Swap space -/

/-- The bytes of a slot come from fixed places. -/
theorem swapIn_swapWith (swap : SwapManager) (slotNum : Nat) :
    ∃ r : Except String (List (Option Loc)), ∀ β,
      (swapWith swap β).swapIn slotNum = r.map (fetchAll β) := by
  -- whether a slot is on the disk does not depend on the bytes
  refine ⟨if SwapManager.startSector slotNum + 8 ≤ swap.disk.totalSectors then
    .ok ((List.range (8 * sectorSize)).map fun j =>
      some (.disk (SwapManager.startSector slotNum * sectorSize + j)))
    else .error ("swap_in: " ++ (swap.disk.beyond (SwapManager.startSector slotNum)).display), ?_⟩
  intro β
  rw [SwapManager.swapIn_eq]
  by_cases hfit : SwapManager.startSector slotNum + 8 ≤ swap.disk.totalSectors
  · rw [if_pos hfit, if_pos (show _ ≤ (swapWith swap β).disk.totalSectors from hfit), Except.map, fetchAll,
      List.map_map]
    rfl
  · rw [if_neg hfit, if_neg (show ¬_ ≤ (swapWith swap β).disk.totalSectors from hfit)]
    rfl

/-- Where the bytes of a disk come from after a page is written to a slot. -/
def slotMoves (d : VirtualDisk) (start : Nat) (sources : List (Option Loc)) : Moved
  | .ram _ => none
  | .disk a =>
    if start ≤ a / sectorSize ∧ a / sectorSize < start + 8 ∧ a / sectorSize < d.totalSectors then
      some (sources.getD ((a / sectorSize - start) * sectorSize + a % sectorSize) none)
    else none

/-- What is written to a slot goes to fixed places. -/
theorem swapOut_swapWith (swap : SwapManager) (slotNum : Nat) (sources : List (Option Loc)) :
    ∃ (r : Except String Unit) (mv : Moved), (∀ a, mv (.ram a) = none) ∧ ∀ γ β,
      (swapWith swap β).swapOut slotNum (fetchAll γ sources) = (r, swapWith swap (moveOver mv γ β)) := by
  refine ⟨if SwapManager.startSector slotNum + 8 ≤ swap.disk.totalSectors then .ok ()
    else .error ("swap_out: " ++ (swap.disk.beyond (SwapManager.startSector slotNum)).display),
    slotMoves swap.disk (SwapManager.startSector slotNum) sources, fun a => rfl, ?_⟩
  intro γ β
  rw [SwapManager.swapOut_eq]
  refine Prod.ext rfl ?_
  simp only [swapWith, diskWith, moveOver, slotMoves, SwapManager.mk.injEq, VirtualDisk.mk.injEq, and_true,
    true_and]
  funext a
  by_cases hslot : SwapManager.startSector slotNum ≤ a / sectorSize ∧
      a / sectorSize < SwapManager.startSector slotNum + 8 ∧ a / sectorSize < swap.disk.totalSectors
  · rw [if_pos hslot]
    exact (if_pos hslot).trans (getD_fetchAll γ sources _)
  · rw [if_neg hslot]
    exact if_neg hslot

/-- To take a slot does not look at the bytes, -/
theorem allocateSlot_swapWith (swap : SwapManager) (β : Bytes) (pid : Pid) (vpn : Nat) :
    (swapWith swap β).allocateSlot pid vpn =
      ((swap.allocateSlot pid vpn).1, swapWith (swap.allocateSlot pid vpn).2 β) := by
  have hqueue : (swapWith swap β).freeQueue = swap.freeQueue := rfl
  have hslots : (swapWith swap β).slots = swap.slots := rfl
  have henabled : (swapWith swap β).enabled = swap.enabled := rfl
  simp only [SwapManager.allocateSlot, hqueue, hslots, henabled]
  split
  · rfl
  split
  · rfl
  split <;> rfl

/-- nor does to give one back. -/
theorem freeSlot_swapWith (swap : SwapManager) (β : Bytes) (slotNum : Nat) :
    (swapWith swap β).freeSlot slotNum =
      ((swap.freeSlot slotNum).1, swapWith (swap.freeSlot slotNum).2 β) := by
  have htotal : (swapWith swap β).totalSlots = swap.totalSlots := rfl
  have hslots : (swapWith swap β).slots = swap.slots := rfl
  simp only [SwapManager.freeSlot, htotal, hslots]
  split
  · rfl
  split
  · rfl
  split <;> rfl

/-! ## The handlers -/

section handlers

variable (m : MemoryService)

/-- Frames are handed out as they are, -/
theorem moves_allocFrame (count : Nat) (pid : Pid) :
    Moves (fun m => (m.handleAllocFrame count pid).service) m :=
  Moves.of_tables ((m.handleAllocFrame count pid).service) fun _ => rfl

/-- with an answer or without. -/
theorem moves_allocFrameWithResponse (count : Nat) (pid : Pid) :
    Moves (fun m => (m.handleAllocFrameWithResponse count pid).service) m := by
  apply Moves.of_tables ((m.handleAllocFrameWithResponse count pid).service)
  intro β
  have hmanager : (withBytes m β).memoryManager = m.memoryManager := rfl
  simp only [MemoryService.handleAllocFrameWithResponse, hmanager]
  split <;> rfl

/-- So they are taken back, -/
theorem moves_freeFrame (paddr : PhysAddr) :
    Moves (fun m => (m.handleFreeFrame paddr).service) m :=
  Moves.of_tables ((m.handleFreeFrame paddr).service) fun _ => rfl

/-- with an answer or without. -/
theorem moves_freeFrameWithResponse (paddr : PhysAddr) :
    Moves (fun m => (m.handleFreeFrameWithResponse paddr).service) m := by
  apply Moves.of_tables ((m.handleFreeFrameWithResponse paddr).service)
  intro β
  have hmanager : (withBytes m β).memoryManager = m.memoryManager := rfl
  simp only [MemoryService.handleFreeFrameWithResponse, hmanager]
  split <;> rfl

/-- A mapping in the tables of the service moves nothing. -/
theorem moves_mapPage (pid : Pid) (virt : VirtAddr) (phys : PhysAddr) (prot : MemProt) :
    Moves (fun m => (m.handleMapPage pid virt phys prot).service) m := by
  apply Moves.of_tables ((m.handleMapPage pid virt phys prot).service)
  intro β
  have htables : (withBytes m β).pageTables = m.pageTables := rfl
  simp only [MemoryService.handleMapPage, htables]
  split <;> rfl

/-- To unmap does not look at the bytes, -/
theorem unmapPage_mmuWith (mmu : MMU) (β : Bytes) (pid : Pid) (virt : VirtAddr) :
    (mmuWith mmu β).unmapPage pid virt = (mmu.unmapPage pid virt).map fun mmu => mmuWith mmu β := by
  have htables : (mmuWith mmu β).pageTables = mmu.pageTables := rfl
  simp only [MMU.unmapPage, htables]
  split <;> rfl

/-- and moves none, -/
theorem moves_unmapPage (pid : Pid) (virt : VirtAddr) :
    Moves (fun m => (m.handleUnmapPage pid virt).service) m := by
  apply Moves.of_tables ((m.handleUnmapPage pid virt).service)
  intro β
  have hunmap : (withBytes m β).mmu.unmapPage pid virt = _ := unmapPage_mmuWith m.mmu β pid virt
  simp only [MemoryService.handleUnmapPage, hunmap]
  cases m.mmu.unmapPage pid virt <;> rfl

/-- with an answer or without. -/
theorem moves_unmapPageWithResponse (pid : Pid) (virt : VirtAddr) :
    Moves (fun m => (m.handleUnmapPageWithResponse pid virt).service) m := by
  apply Moves.of_tables ((m.handleUnmapPageWithResponse pid virt).service)
  intro β
  have hunmap : (withBytes m β).mmu.unmapPage pid virt = _ := unmapPage_mmuWith m.mmu β pid virt
  simp only [MemoryService.handleUnmapPageWithResponse, hunmap]
  cases m.mmu.unmapPage pid virt <;> rfl

/-- Nor does a mapping in the MMU. -/
theorem moves_mapPageWithResponse (pid : Pid) (virt : VirtAddr) (phys : PhysAddr) (prot : MemProt) :
    Moves (fun m => (m.handleMapPageWithResponse pid virt phys prot).service) m :=
  Moves.of_tables ((m.handleMapPageWithResponse pid virt phys prot).service) fun _ => rfl

/-- A fault message without an answer touches the other page tables only. -/
theorem moves_pageFault (pid : Pid) (addr : VirtAddr) (access : AccessType) :
    Moves (fun m => (m.handlePageFault pid addr access).service) m := by
  have hmap : ∀ (m : MemoryService) β virt phys prot,
      ((withBytes m β).handleMapPage pid virt phys prot).service =
        withBytes (m.handleMapPage pid virt phys prot).service β := by
    intro m β virt phys prot
    have htables : (withBytes m β).pageTables = m.pageTables := rfl
    simp only [MemoryService.handleMapPage, htables]
    split <;> rfl
  apply Moves.of_tables ((m.handlePageFault pid addr access).service)
  intro β
  have htables : (withBytes m β).pageTables = m.pageTables := rfl
  have hmanager : (withBytes m β).memoryManager = m.memoryManager := rfl
  have henabled : (withBytes m β).swapManager.enabled = m.swapManager.enabled := rfl
  have hspace : (withBytes m β).swapManager.hasSpace = m.swapManager.hasSpace := rfl
  simp only [MemoryService.handlePageFault, htables, hmanager, henabled, hspace]
  split
  · rfl
  split
  · rfl
  split
  · split <;> rfl
  · next frame _ manager _ =>
    exact hmap { m with memoryManager := manager } β addr frame.address _

/-- A move to the disk leaves the memory, -/
theorem mmuWith_moveOver {mv : Moved} (hram : ∀ a, mv (.ram a) = none) (mmu : MMU) (γ β : Bytes) :
    mmuWith mmu (moveOver mv γ β) = mmuWith mmu β := by
  simp only [mmuWith, moveOver, hram]

/-- and a move to the memory leaves the disk. -/
theorem swapWith_moveOver {mv : Moved} (hdisk : ∀ a, mv (.disk a) = none) (swap : SwapManager)
    (γ β : Bytes) : swapWith swap (moveOver mv γ β) = swapWith swap β := by
  simp only [swapWith, diskWith, moveOver, hdisk]

/-- The disk has changed, the memory has not. -/
theorem withSwap_moveOver {mv : Moved} (hram : ∀ a, mv (.ram a) = none) (m : MemoryService)
    (swap : SwapManager) (γ β : Bytes) :
    { withBytes m β with swapManager := swapWith swap (moveOver mv γ β) } =
      withBytes { m with swapManager := swap } (moveOver mv γ β) := by
  rw [withBytes, withBytes, mmuWith_moveOver hram]

/-- Whether there was a page to unmap does not depend on the bytes. -/
theorem unmapLossy_mmuWith (mmu : MMU) (β : Bytes) (pid : Pid) (virt : VirtAddr) :
    MemoryService.unmapLossy (mmuWith mmu β) pid virt =
      mmuWith (MemoryService.unmapLossy mmu pid virt) β := by
  simp only [MemoryService.unmapLossy, unmapPage_mmuWith]
  cases mmu.unmapPage pid virt <;> rfl

/-- Nor does what becomes of the tables when a page is evicted. -/
theorem releaseVictim_withBytes (m : MemoryService) (β : Bytes) (vpid : Pid) (vaddr : VirtAddr)
    (vframe : PhysAddr) (slot : Nat) :
    (withBytes m β).releaseVictim vpid vaddr vframe slot =
      withBytes (m.releaseVictim vpid vaddr vframe slot) β := by
  have hunmap := unmapLossy_mmuWith m.mmu β vpid vaddr
  simp only [MemoryService.releaseVictim]
  show MemoryService.insertSwapped { withBytes m β with
    mmu := MemoryService.unmapLossy (mmuWith m.mmu β) vpid vaddr
    memoryManager := _ } vpid vaddr slot = _
  rw [hunmap]
  rfl

/-- An eviction moves the bytes of the page to the disk. -/
theorem moves_evictAndInstall (ord : HashOrder) (pid : Pid) (page : VirtAddr) :
    Moves (fun m => (m.evictAndInstall ord pid page).service) m := by
  cases hvictim : m.findVictimPage ord pid with
  | none =>
    apply Moves.of_tables m
    intro β
    have hvictim' : (withBytes m β).findVictimPage ord pid = none := hvictim
    simp only [MemoryService.evictAndInstall, hvictim']
    rfl
  | some victim =>
    obtain ⟨vpid, vaddr, vframe⟩ := victim
    -- the victim and its slot are found in the tables, which do not depend on the bytes
    have hvictim' : ∀ β, (withBytes m β).findVictimPage ord pid = some (vpid, vaddr, vframe) :=
      fun β => hvictim
    have hslot : ∀ β, (withBytes m β).swapManager.allocateSlot vpid (vaddr.toNat / 4096) = _ :=
      fun β => allocateSlot_swapWith m.swapManager β vpid (vaddr.toNat / 4096)
    have hdata : ∀ β, MemoryService.pageData (withBytes m β).mmu vpid vaddr = _ :=
      fun β => pageData_mmuWith m.mmu β vpid vaddr
    cases halloc : m.swapManager.allocateSlot vpid (vaddr.toNat / 4096) with
    | mk slot swap =>
      rw [halloc] at hslot
      cases slot with
      | none =>
        apply Moves.of_tables { m with swapManager := swap }
        intro β
        simp only [MemoryService.evictAndInstall, hvictim', hslot]
        rfl
      | some slot =>
        -- the one stage at which bytes move, from memory to the slot
        obtain ⟨r, mv, hram, hout⟩ := swapOut_swapWith swap slot.number
          ((List.range 4096).map fun i => readLoc m.mmu vpid (vaddr + UInt64.ofNat i))
        have hbytes := fun β => withSwap_moveOver hram m swap β β
        cases r with
        | error e =>
          refine ⟨{ m with swapManager := swap }, mv, ?_⟩
          intro β
          simp only [MemoryService.evictAndInstall, hvictim', hslot, hdata, hout]
          exact hbytes β
        | ok u =>
          cases hframes : ((m.releaseVictim vpid vaddr vframe slot.number).memoryManager.allocateFrames
              pid 1) with
          | mk frames manager =>
            have hframes' : ∀ β, ((withBytes { m with swapManager := swap } β).releaseVictim vpid vaddr
                vframe slot.number).memoryManager.allocateFrames pid 1 = (frames, manager) :=
              fun β => hframes
            cases frames with
            | nil =>
              refine ⟨{ MemoryService.releaseVictim { m with swapManager := swap } vpid vaddr vframe
                slot.number with memoryManager := manager }, mv, ?_⟩
              intro β
              simp only [MemoryService.evictAndInstall, hvictim', hslot, hdata, hout, hbytes, hframes']
              simp only [MemoryService.faultExhausted, releaseVictim_withBytes]
              rfl
            | cons frame rest =>
              refine ⟨(MemoryService.installFrame { MemoryService.releaseVictim
                { m with swapManager := swap } vpid vaddr vframe slot.number with
                  memoryManager := manager } pid page frame).service, mv, ?_⟩
              intro β
              simp only [MemoryService.evictAndInstall, hvictim', hslot, hdata, hout, hbytes, hframes']
              simp only [releaseVictim_withBytes]
              rfl

/-- A free frame is mapped as it is. -/
theorem moves_allocateOrEvict (ord : HashOrder) (pid : Pid) (page : VirtAddr) :
    Moves (fun m => (m.allocateOrEvict ord pid page).service) m := by
  cases halloc : m.memoryManager.allocateFrames pid 1 with
  | mk frames manager =>
    have halloc' : ∀ β, (withBytes m β).memoryManager.allocateFrames pid 1 = (frames, manager) :=
      fun β => halloc
    cases frames with
    | cons frame rest =>
      apply Moves.of_tables
        ((MemoryService.installFrame { m with memoryManager := manager } pid page frame).service)
      intro β
      simp only [MemoryService.allocateOrEvict, halloc']
      rfl
    | nil =>
      obtain ⟨m', mv, hevict⟩ := moves_evictAndInstall { m with memoryManager := manager } ord pid page
      refine ⟨m', mv, ?_⟩
      intro β
      simp only [MemoryService.allocateOrEvict, halloc']
      exact hevict β

/-- The page comes back with its bytes. -/
theorem moves_restorePage (pid : Pid) (page : VirtAddr) (slot : Nat) (sources : List (Option Loc))
    (frame : Frame) :
    ∃ m' mv, ∀ β, (withBytes m β).restorePage pid page slot (fetchAll β sources) frame =
      withBytes m' (moveOver mv β β) := by
  obtain ⟨mv, hdisk, hwrite⟩ := writeBytes_mmuWith
    (MemoryService.mapLossy m.mmu pid page frame.address PageFlags.presentWritable) pid page sources
  refine ⟨m.restorePage pid page slot (fetchAll (bytesOf m) sources) frame, mv, ?_⟩
  intro β
  have hmmu : (MemoryService.mapLossy (withBytes m β).mmu pid page frame.address
      PageFlags.presentWritable).writeBytes pid page (fetchAll β sources) =
        mmuWith (MemoryService.mapLossy m.mmu pid page frame.address PageFlags.presentWritable)
          (moveOver mv β β) := hwrite β β
  have hmmu' : (MemoryService.mapLossy m.mmu pid page frame.address
      PageFlags.presentWritable).writeBytes pid page (fetchAll (bytesOf m) sources) =
        mmuWith (MemoryService.mapLossy m.mmu pid page frame.address PageFlags.presentWritable)
          (moveOver mv (bytesOf m) (bytesOf m)) := hwrite (bytesOf m) (bytesOf m)
  have hfree : (withBytes m β).swapManager.freeSlot slot = _ := freeSlot_swapWith m.swapManager β slot
  simp only [MemoryService.restorePage, hmmu, hmmu', hfree]
  rw [← swapWith_moveOver hdisk (m.swapManager.freeSlot slot).2 β β]
  rfl

/-- A fault moves bytes to the disk, or back from it. -/
theorem moves_pageFaultWithResponse (ord : HashOrder) (pid : Pid) (addr : VirtAddr)
    (access : AccessType) :
    Moves (fun m => (m.handlePageFaultWithResponse ord pid addr access).service) m := by
  cases hswapped : m.swappedSlot pid (pageBase addr) with
  | none =>
    -- a new page
    obtain ⟨m', mv, hserved⟩ := moves_allocateOrEvict m ord pid (pageBase addr)
    refine ⟨m', mv, ?_⟩
    intro β
    have hswapped' : (withBytes m β).swappedSlot pid (pageBase addr) = none := hswapped
    simp only [MemoryService.handlePageFaultWithResponse, hswapped']
    exact hserved β
  | some slot =>
    have hswapped' : ∀ β, (withBytes m β).swappedSlot pid (pageBase addr) = some slot :=
      fun β => hswapped
    -- a page from its slot: which one does not depend on the bytes
    obtain ⟨r, hin⟩ := swapIn_swapWith m.swapManager slot
    have hin' : ∀ β, (withBytes m β).swapManager.swapIn slot = r.map (fetchAll β) := hin
    cases r with
    | error e =>
      apply Moves.of_tables m
      intro β
      simp only [MemoryService.handlePageFaultWithResponse, hswapped', hin', Except.map]
    | ok sources =>
      cases halloc : m.memoryManager.allocateFrames pid 1 with
      | mk frames manager =>
        have halloc' : ∀ β, (withBytes m β).memoryManager.allocateFrames pid 1 = (frames, manager) :=
          fun β => halloc
        cases frames with
        | cons frame rest =>
          obtain ⟨m', mv, hrestore⟩ := moves_restorePage { m with memoryManager := manager } pid
            (pageBase addr) slot sources frame
          refine ⟨m', mv, ?_⟩
          intro β
          simp only [MemoryService.handlePageFaultWithResponse, hswapped', hin', Except.map, halloc']
          exact hrestore β
        | nil =>
          obtain ⟨m', mv, hserved⟩ := moves_allocateOrEvict { m with memoryManager := manager } ord pid
            (pageBase addr)
          refine ⟨m', mv, ?_⟩
          intro β
          simp only [MemoryService.handlePageFaultWithResponse, hswapped', hin', Except.map, halloc']
          exact hserved β

/-- A slot that is taken moves nothing; -/
theorem moves_swapOut (pid : Pid) (virt : VirtAddr) :
    Moves (fun m => (m.handleSwapOut pid virt).service) m := by
  apply Moves.of_tables ((m.handleSwapOut pid virt).service)
  intro β
  have henabled : (withBytes m β).swapManager.enabled = m.swapManager.enabled := rfl
  have hslot : (withBytes m β).swapManager.allocateSlot pid (virt.toNat / 4096) = _ :=
    allocateSlot_swapWith m.swapManager β pid (virt.toNat / 4096)
  simp only [MemoryService.handleSwapOut, henabled, hslot]
  split
  · rfl
  · cases m.swapManager.allocateSlot pid (virt.toNat / 4096) with
    | mk slot swap => cases slot <;> rfl

/-- with an answer the bytes of the page go there. -/
theorem moves_swapOutWithResponse (pid : Pid) (virt : VirtAddr) :
    Moves (fun m => (m.handleSwapOutWithResponse pid virt).service) m := by
  have henabled : ∀ β, (withBytes m β).swapManager.enabled = m.swapManager.enabled := fun β => rfl
  have hslot : ∀ β, (withBytes m β).swapManager.allocateSlot pid (virt.toNat / 4096) = _ :=
    fun β => allocateSlot_swapWith m.swapManager β pid (virt.toNat / 4096)
  -- the page is read, from places that do not depend on the bytes
  obtain ⟨sources, hdata⟩ := frameData_mmuWith m.mmu pid virt
  have hdata' : ∀ β, MemoryService.frameData (withBytes m β).mmu pid virt = fetchAll β sources := hdata
  simp only [MemoryService.handleSwapOutWithResponse]
  cases hon : m.swapManager.enabled with
  | false =>
    apply Moves.of_tables m
    intro β
    simp only [henabled, hon, if_true]
  | true =>
    cases halloc : m.swapManager.allocateSlot pid (virt.toNat / 4096) with
    | mk slot swap =>
      rw [halloc] at hslot
      cases slot with
      | none =>
        apply Moves.of_tables { m with swapManager := swap }
        intro β
        simp only [henabled, hon, Bool.true_eq_false, if_false, hslot]
        rfl
      | some slot =>
        obtain ⟨r, mv, hram, hout⟩ := swapOut_swapWith swap slot.number sources
        refine ⟨{ m with swapManager := swap }, mv, ?_⟩
        intro β
        simp only [henabled, hon, Bool.true_eq_false, if_false, hslot, hdata', hout]
        cases r with
        | error e => exact withSwap_moveOver hram m swap β β
        | ok u => exact withSwap_moveOver hram m swap β β

/-- Which slot a page has does not depend on the bytes. -/
theorem slotOfPage_withBytes (m : MemoryService) (β : Bytes) (pid : Pid) (vpn : Nat) :
    (withBytes m β).slotOfPage pid vpn = m.slotOfPage pid vpn := rfl

/-- A slot that is given back moves nothing. -/
theorem moves_swapIn (pid : Pid) (virt : VirtAddr) :
    Moves (fun m => (m.handleSwapIn pid virt).service) m := by
  apply Moves.of_tables ((m.handleSwapIn pid virt).service)
  intro β
  have hfree : ∀ slotNum, (withBytes m β).swapManager.freeSlot slotNum = _ :=
    fun slotNum => freeSlot_swapWith m.swapManager β slotNum
  simp only [MemoryService.handleSwapIn, slotOfPage_withBytes, hfree]
  split <;> rfl

/-- Bytes written at a physical address. -/
theorem writeSlice_moves (memory : PhysicalMemory) (addr : Nat) (sources : List (Option Loc)) :
    (∃ e, ∀ γ β : Bytes, ({ memory with data := fun a => β (.ram a) }).writeSlice addr
        (fetchAll γ sources) = .error e) ∨
      ∃ mv : Moved, (∀ a, mv (.disk a) = none) ∧ ∀ γ β : Bytes,
        ({ memory with data := fun a => β (.ram a) }).writeSlice addr (fetchAll γ sources) =
          .ok { memory with data := fun a => moveOver mv γ β (.ram a) } := by
  have hlength : ∀ γ, (fetchAll γ sources).length = sources.length := fun γ => List.length_map ..
  -- the check looks at the length only, which is that of the sources
  by_cases hin : memory.InBounds addr sources.length
  · right
    refine ⟨fun l => match l with
      | .disk _ => none
      | .ram a => if addr ≤ a ∧ a - addr < sources.length then some (sources.getD (a - addr) none)
        else none, fun a => rfl, ?_⟩
    intro γ β
    have hin' : ({ memory with data := fun a => β (.ram a) } : PhysicalMemory).InBounds addr
        (fetchAll γ sources).length := by
      rw [hlength]
      exact hin
    simp only [PhysicalMemory.writeSlice, PhysicalMemory.checkBounds, if_pos hin']
    congr 2
    funext a
    -- bytes of the slice come from the sources, all others stay
    by_cases haddr : addr ≤ a
    · by_cases hoff : a - addr < sources.length
      · simp only [moveOver, haddr, hoff, and_self, if_true]
        rw [List.getD_eq_getElem?_getD, List.getElem?_map, List.getElem?_eq_getElem hoff,
          List.getD_eq_getElem?_getD, List.getElem?_eq_getElem hoff]
        rfl
      · simp only [moveOver, haddr, hoff, and_false, if_true, if_false]
        rw [List.getD_eq_getElem?_getD, List.getElem?_eq_none (by rw [hlength]; omega)]
        rfl
    · simp only [moveOver, haddr, false_and, if_false]
  · left
    refine ⟨.outOfBounds addr sources.length memory.size, ?_⟩
    intro γ β
    have hin' : ¬({ memory with data := fun a => β (.ram a) } : PhysicalMemory).InBounds addr
        sources.length := hin
    simp only [PhysicalMemory.writeSlice, PhysicalMemory.checkBounds, hlength, if_neg hin']

/-- With an answer the bytes of the slot go to the page. -/
theorem moves_swapInWithResponse (pid : Pid) (virt : VirtAddr) :
    Moves (fun m => (m.handleSwapInWithResponse pid virt).service) m := by
  simp only [MemoryService.handleSwapInWithResponse]
  cases hslot : m.slotOfPage pid (virt.toNat / 4096) with
  | none =>
    apply Moves.of_tables m
    intro β
    simp only [slotOfPage_withBytes, hslot]
  | some slot =>
    -- the slot is freed before it is read, and the bytes stay on the disk
    have hfree : ∀ β, (withBytes m β).swapManager.freeSlot slot.number = _ :=
      fun β => freeSlot_swapWith m.swapManager β slot.number
    obtain ⟨r, hin⟩ := swapIn_swapWith (m.swapManager.freeSlot slot.number).2 slot.number
    have htrans : ∀ β, (withBytes m β).mmu.translate pid virt .write = m.mmu.translate pid virt .write :=
      fun β => rfl
    cases r with
    | error e =>
      apply Moves.of_tables { m with swapManager := (m.swapManager.freeSlot slot.number).2 }
      intro β
      simp only [slotOfPage_withBytes, hslot, hfree, hin, Except.map]
      rfl
    | ok sources =>
      cases hpaddr : m.mmu.translate pid virt .write with
      | error e =>
        apply Moves.of_tables { m with swapManager := (m.swapManager.freeSlot slot.number).2 }
        intro β
        simp only [slotOfPage_withBytes, hslot, hfree, hin, Except.map, htrans, hpaddr]
        rfl
      | ok paddr =>
        -- the page goes to the frame whole or not at all
        rcases writeSlice_moves m.mmu.memory paddr.toNat sources with ⟨e, he⟩ | ⟨mv, hdisk, hwrite⟩
        · have hwrite' : ∀ β, (withBytes m β).mmu.memory.writeSlice paddr.toNat (fetchAll β sources) =
              .error e := fun β => he β β
          apply Moves.of_tables { m with swapManager := (m.swapManager.freeSlot slot.number).2 }
          intro β
          simp only [slotOfPage_withBytes, hslot, hfree, hin, Except.map, htrans, hpaddr, hwrite']
          rfl
        · have hwrite' : ∀ β, (withBytes m β).mmu.memory.writeSlice paddr.toNat (fetchAll β sources) =
              .ok { m.mmu.memory with data := fun a => moveOver mv β β (.ram a) } :=
            fun β => hwrite β β
          refine ⟨{ m with swapManager := (m.swapManager.freeSlot slot.number).2 }, mv, ?_⟩
          intro β
          simp only [slotOfPage_withBytes, hslot, hfree, hin, Except.map, htrans, hpaddr, hwrite']
          rw [← swapWith_moveOver hdisk (m.swapManager.freeSlot slot.number).2 β β]
          rfl

/-- Whatever the service handles, it does not look at the bytes. -/
theorem moves_take (e : MemoryEvent) : Moves (fun m => m.take e) m := by
  obtain ⟨ord, req, answered⟩ := e
  cases answered with
  | true =>
    simp only [MemoryService.take, if_true, handleEnvelope_service]
    cases req with
    | allocFrame count pid => exact moves_allocFrameWithResponse m count pid
    | freeFrame paddr => exact moves_freeFrameWithResponse m paddr
    | mapPage pid virt phys prot => exact moves_mapPageWithResponse m pid virt phys prot
    | unmapPage pid virt => exact moves_unmapPageWithResponse m pid virt
    | pageFaultHandler pid addr access => exact moves_pageFaultWithResponse m ord pid addr access
    | swapOut pid virt => exact moves_swapOutWithResponse m pid virt
    | swapIn pid virt => exact moves_swapInWithResponse m pid virt
    | getStats => exact Moves.of_tables m fun _ => rfl
    | getFrameMap => exact Moves.of_tables m fun _ => rfl
  | false =>
    simp only [MemoryService.take, Bool.false_eq_true, if_false, MemoryService.handleMessage]
    cases req with
    | allocFrame count pid => exact moves_allocFrame m count pid
    | freeFrame paddr => exact moves_freeFrame m paddr
    | mapPage pid virt phys prot => exact moves_mapPage m pid virt phys prot
    | unmapPage pid virt => exact moves_unmapPage m pid virt
    | pageFaultHandler pid addr access => exact moves_pageFault m pid addr access
    | swapOut pid virt => exact moves_swapOut m pid virt
    | swapIn pid virt => exact moves_swapIn m pid virt
    | getStats => exact Moves.of_tables m fun _ => rfl
    | getFrameMap => exact Moves.of_tables m fun _ => rfl

end handlers

/-! ## Copies of fork -/

/-- A byte of a page is copied to its place in the other page. -/
theorem moves_copyByte (parent child : Pid) (page : VirtAddr) (o : Nat) (m : MemoryService) :
    Moves (fun m => { m with mmu := copyByte parent child page m.mmu o }) m := by
  cases hloc : readLoc m.mmu parent (page + UInt64.ofNat o) with
  | none =>
    -- the parent has no byte there, and nothing is written
    apply Moves.of_tables m
    intro β
    have hread := readU8_mmuWith m.mmu β parent (page + UInt64.ofNat o)
    rw [hloc] at hread
    show { withBytes m β with mmu := copyByte parent child page (mmuWith m.mmu β) o } = _
    rw [copyByte]
    split
    · next b heq =>
      rw [heq] at hread
      cases hread
    · rfl
  | some l =>
    refine ⟨m, fun l' => if writeLoc m.mmu child (page + UInt64.ofNat o) = some l'
      then some (some l) else none, ?_⟩
    intro β
    have hread := readU8_mmuWith m.mmu β parent (page + UInt64.ofNat o)
    rw [hloc] at hread
    -- one byte moves, from its place in the parent to its place in the child
    have hmove : storeAt β (writeLoc m.mmu child (page + UInt64.ofNat o)) (β l) =
        moveOver (fun l' => if writeLoc m.mmu child (page + UInt64.ofNat o) = some l'
          then some (some l) else none) β β := by
      funext l'
      simp only [storeAt, moveOver]
      split <;> rfl
    have hdisk : ∀ a, storeAt β (writeLoc m.mmu child (page + UInt64.ofNat o)) (β l) (.disk a) =
        β (.disk a) := by
      intro a
      simp only [storeAt, writeLoc_ne_disk, if_false]
    show { withBytes m β with mmu := copyByte parent child page (mmuWith m.mmu β) o } = _
    rw [copyByte]
    split
    · next b heq =>
      rw [heq] at hread
      cases Option.some.inj hread
      rw [writeU8Lossy_mmuWith, ← hmove]
      simp only [withBytes, swapWith, diskWith, hdisk]
    · next e heq =>
      rw [heq] at hread
      cases hread

/-- The copy of a page moves each of its bytes. -/
theorem moves_copyInto (parent child : Pid) (page : VirtAddr) (m : MemoryService) :
    Moves (fun m => Machine.copyInto m parent child page) m := by
  have hloop := Moves.foldl (fun o m => moves_copyByte parent child page o m) (List.range 4096) m
  have heq : ∀ (l : List Nat) (m : MemoryService),
      l.foldl (fun m o => { m with mmu := copyByte parent child page m.mmu o }) m =
        { m with mmu := l.foldl (copyByte parent child page) m.mmu } := by
    intro l
    induction l with
    | nil => exact fun m => rfl
    | cons o l ih =>
      intro m
      rw [List.foldl_cons, ih, List.foldl_cons]
  simp only [heq, ← copyPage_eq] at hloop
  exact hloop

/-! ## Runs -/

/-- What happens to the memory: the service handles a request, a process stores a byte, fork copies a
page. The image of a program is stored by the process that executes it. -/
inductive MemoryAct where
  | handle (e : MemoryEvent)
  | store (pid : Pid) (vaddr : VirtAddr) (value : UInt8)
  | copyPage (parent child : Pid) (page : VirtAddr)

/-- An act on the memory service. -/
def MemoryAct.perform (m : MemoryService) : MemoryAct → MemoryService
  | .handle e => m.take e
  | .store pid vaddr value => { m with mmu := m.mmu.writeU8Lossy pid vaddr value }
  | .copyPage parent child page => Machine.copyInto m parent child page

/-- The same act, except for the value that a process other than `q` stores. -/
inductive SameBut (q : Pid) : MemoryAct → MemoryAct → Prop
  | same (act : MemoryAct) : SameBut q act act
  | foreign {pid : Pid} (h : pid ≠ q) (vaddr : VirtAddr) (value value' : UInt8) :
      SameBut q (.store pid vaddr value) (.store pid vaddr value')

/-- The act with a mark in place of the value: one for a byte of another process. -/
def MemoryAct.mark (q : Pid) : MemoryAct → MemoryAct
  | .store pid vaddr _ => .store pid vaddr (if pid = q then 0 else 1)
  | act => act

/-- Three services that differ in bytes only; where the third is not marked, the first two agree. -/
def Marked (m m' mark : MemoryService) : Prop :=
  ∃ (t : MemoryService) (β β' μ : Bytes), m = withBytes t β ∧ m' = withBytes t β' ∧
    mark = withBytes t μ ∧ ∀ l, μ l = 1 ∨ β l = β' l

/-- Work that moves bytes moves the marks along. -/
theorem Marked.moves {m m' mark : MemoryService} (h : Marked m m' mark)
    {f : MemoryService → MemoryService} (hf : ∀ m, Moves f m) : Marked (f m) (f m') (f mark) := by
  obtain ⟨t, β, β', μ, rfl, rfl, rfl, hl⟩ := h
  obtain ⟨t', mv, hmv⟩ := hf t
  refine ⟨t', _, _, _, hmv β, hmv β', hmv μ, ?_⟩
  intro l
  simp only [moveOver]
  cases mv l with
  | none => exact hl l
  | some source =>
    cases source with
    | none => exact Or.inr rfl
    | some l' => exact hl l'

/-- A store puts its byte into a fixed place. -/
theorem store_withBytes (t : MemoryService) (β : Bytes) (pid : Pid) (vaddr : VirtAddr) (value : UInt8) :
    MemoryAct.perform (withBytes t β) (.store pid vaddr value) =
      withBytes t (storeAt β (writeLoc t.mmu pid vaddr) value) := by
  have hdisk : ∀ a, storeAt β (writeLoc t.mmu pid vaddr) value (.disk a) = β (.disk a) := by
    intro a
    simp only [storeAt, writeLoc_ne_disk, if_false]
  have hmmu : (withBytes t β).mmu.writeU8Lossy pid vaddr value = _ :=
    writeU8Lossy_mmuWith t.mmu β pid vaddr value
  simp only [MemoryAct.perform, hmmu]
  simp only [withBytes, swapWith, diskWith, hdisk]

/-- A store with a mark of its own, or of the same byte in both runs. -/
theorem Marked.store {m m' mark : MemoryService} (h : Marked m m' mark) (pid : Pid) (vaddr : VirtAddr)
    {value value' marker : UInt8} (hvalue : marker = 1 ∨ value = value') :
    Marked (MemoryAct.perform m (.store pid vaddr value)) (MemoryAct.perform m' (.store pid vaddr value'))
      (MemoryAct.perform mark (.store pid vaddr marker)) := by
  obtain ⟨t, β, β', μ, rfl, rfl, rfl, hl⟩ := h
  refine ⟨t, _, _, _, store_withBytes t β pid vaddr value, store_withBytes t β' pid vaddr value',
    store_withBytes t μ pid vaddr marker, ?_⟩
  intro l
  simp only [storeAt]
  split
  · exact hvalue
  · exact hl l

/-- One act in the two runs and in the marked one. -/
theorem Marked.step {q : Pid} {m m' mark : MemoryService} (h : Marked m m' mark) {act act' : MemoryAct}
    (hact : SameBut q act act') :
    Marked (MemoryAct.perform m act) (MemoryAct.perform m' act')
      (MemoryAct.perform mark (act.mark q)) := by
  cases hact with
  | foreign hpid vaddr value value' =>
    apply h.store
    rw [if_neg hpid]
    exact Or.inl rfl
  | same act =>
    cases act with
    | handle e => exact h.moves fun m => moves_take m e
    | store pid vaddr value => exact h.store pid vaddr (Or.inr rfl)
    | copyPage parent child page => exact h.moves (moves_copyInto parent child page)

/-- Two runs that differ in the bytes of one process. -/
theorem Marked.run {q : Pid} {acts acts' : List MemoryAct} (hacts : List.Forall₂ (SameBut q) acts acts')
    {m m' mark : MemoryService} (h : Marked m m' mark) :
    Marked (acts.foldl MemoryAct.perform m) (acts'.foldl MemoryAct.perform m')
      ((acts.map (MemoryAct.mark q)).foldl MemoryAct.perform mark) := by
  induction hacts generalizing m m' mark with
  | nil => exact h
  | cons hact _ ih => exact ih (h.step hact)

/-- The swap at boot, with other bytes on its disk. -/
theorem swapWith_new (config : SwapConfig) (disk : VirtualDisk) (β : Bytes) :
    swapWith (SwapManager.new config disk) β = SwapManager.new config (diskWith disk β) := rfl

/-- At boot nothing is marked. -/
theorem bootMemory_marked (size : UInt64) (swapImage : Nat → UInt8) :
    Marked (bootMemory size swapImage) (bootMemory size swapImage) (bootMemory size fun _ => 0) := by
  refine ⟨bootMemory size swapImage, bytesOf (bootMemory size swapImage),
    bytesOf (bootMemory size swapImage), fun _ => 0, (withBytes_bytesOf _).symm,
    (withBytes_bytesOf _).symm, ?_, fun l => Or.inr rfl⟩
  simp only [bootMemory, MemoryService.new, withBytes, swapWith_new]
  congr 1

/-- Two runs that differ only in the values that other processes store: a byte that a process reads is
the same in both, unless the marked run shows that it was stored by another process. -/
theorem reads_agree {q : Pid} {acts acts' : List MemoryAct}
    (hacts : List.Forall₂ (SameBut q) acts acts') (size : UInt64) (swapImage : Nat → UInt8)
    (v : VirtAddr)
    (hown : ((acts.map (MemoryAct.mark q)).foldl MemoryAct.perform
      (bootMemory size fun _ => 0)).mmu.readU8 q v ≠ .ok 1) :
    ((acts.foldl MemoryAct.perform (bootMemory size swapImage)).mmu.readU8 q v).toOption =
      ((acts'.foldl MemoryAct.perform (bootMemory size swapImage)).mmu.readU8 q v).toOption := by
  obtain ⟨t, β, β', μ, hrun, hrun', hmark, hl⟩ := (bootMemory_marked size swapImage).run hacts
  rw [hmark] at hown
  rw [hrun, hrun']
  have hread := readU8_mmuWith t.mmu β q v
  have hread' := readU8_mmuWith t.mmu β' q v
  have hreadMark := readU8_mmuWith t.mmu μ q v
  refine hread.trans (Eq.trans ?_ hread'.symm)
  cases hloc : readLoc t.mmu q v with
  | none => rfl
  | some l =>
    rcases hl l with hmarked | heq
    · exfalso
      apply hown
      rw [hloc, Option.map_some, hmarked] at hreadMark
      cases hcase : (mmuWith t.mmu μ).readU8 q v with
      | error e =>
        rw [hcase] at hreadMark
        cases hreadMark
      | ok b =>
        rw [hcase] at hreadMark
        rw [← Option.some.inj hreadMark]
        exact hcase
    · rw [Option.map_some, Option.map_some, heq]

/-- Process 1 stores a byte, gives its page and its frame back, and process 2 faults. -/
def handedOn (value : UInt8) : List MemoryAct :=
  [.handle ⟨HashOrder.stored, .pageFaultHandler 1 0 .write, true⟩, .store 1 0 value,
    .handle ⟨HashOrder.stored, .unmapPage 1 0, false⟩, .handle ⟨HashOrder.stored, .freeFrame 0, false⟩,
    .handle ⟨HashOrder.stored, .pageFaultHandler 2 0 .read, true⟩]

/-- The two runs differ in what process 2 stores. -/
theorem handedOn_sameBut (value value' : UInt8) :
    List.Forall₂ (SameBut 2) (handedOn value) (handedOn value') :=
  .cons (.same _) (.cons (.foreign (by decide) 0 value value')
    (.cons (.same _) (.cons (.same _) (.cons (.same _) .nil))))

/-- With two frames the second process gets one that nobody has used. -/
theorem reads_agree_unused :
    (((handedOn 7).foldl MemoryAct.perform (bootMemory 8192 fun _ => 0)).mmu.readU8 2 0).toOption =
      (((handedOn 8).foldl MemoryAct.perform (bootMemory 8192 fun _ => 0)).mmu.readU8 2 0).toOption :=
  reads_agree (handedOn_sameBut 7 8) 8192 (fun _ => 0) 0 (by
    intro hread
    have hzero : ((((handedOn 7).map (MemoryAct.mark 2)).foldl MemoryAct.perform
        (bootMemory 8192 fun _ => 0)).mmu.readU8 2 0).toOption = some 0 := by decide +kernel
    rw [hread] at hzero
    exact absurd hzero (by decide))

/-- With one frame it reads what the first process stored. -/
theorem recycled_frame_read :
    List.Forall₂ (SameBut 2) (handedOn 7) (handedOn 8) ∧
      (((handedOn 7).foldl MemoryAct.perform (bootMemory 4096 fun _ => 0)).mmu.readU8 2 0).toOption ≠
        (((handedOn 8).foldl MemoryAct.perform
          (bootMemory 4096 fun _ => 0)).mmu.readU8 2 0).toOption :=
  ⟨handedOn_sameBut 7 8, by decide +kernel⟩

end GenshinOs.Process
