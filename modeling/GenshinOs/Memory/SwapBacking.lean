import GenshinOs.Memory.Answers
import GenshinOs.Memory.SwapTable

/-!
# Slots and the swap disk

The number of slots comes from the configuration, the number of sectors from the disk that
`MemoryService::new` opens: 262144 slots of eight sectors over a disk of 256 sectors. Only the first 32
slots lie on the disk, and numbers are handed out from the front of a queue whatever lies behind them.
A page written to a slot comes back exactly when the slot is one of these.

A request that was given a slot beyond the disk fails after the slot is taken, and does not free it. In
every run this is what happens to a failing `SwapOut`, and, besides an eviction that frees no frame, to
a failing page fault: `slots_backed_iff`.
-/

set_option autoImplicit false

namespace GenshinOs.Memory

open GenshinOs.Lib GenshinOs.Hardware

namespace SwapManager

/-! ## Histories -/

/-- What is done with slots. -/
inductive SlotOp
  | allocate (pid : Pid) (vpn : Nat)
  | free (n : Nat)
  | swapOut (n : Nat) (data : List UInt8)

/-- An operation on the slots. -/
def perform (m : SwapManager) : SlotOp → SwapManager
  | .allocate pid vpn => (m.allocateSlot pid vpn).2
  | .free n => (m.freeSlot n).2
  | .swapOut n data => (m.swapOut n data).2

/-- The manager after a history. -/
def after (m : SwapManager) (ops : List SlotOp) : SwapManager := ops.foldl perform m

/-- Operations one after the other. -/
theorem after_append (m : SwapManager) (ops ops' : List SlotOp) :
    m.after (ops ++ ops') = (m.after ops).after ops' := List.foldl_append

/-- The manager of a service: exact, with its 262144 slots over 256 sectors. -/
structure Mismatched (m : SwapManager) : Prop where
  exact : m.Exact
  total_eq : m.totalSlots = 262144
  sectors_eq : m.disk.totalSectors = 256

/-- Slots and disk keep their sizes in an operation, -/
theorem Mismatched.perform {m : SwapManager} (h : m.Mismatched) (op : SlotOp) :
    (m.perform op).Mismatched := by
  cases op with
  | allocate pid vpn =>
    show (m.allocateSlot pid vpn).2.Mismatched
    rcases hslot : m.allocateSlot pid vpn with ⟨_ | slot, m'⟩
    · rw [allocateSlot_none hslot]
      exact h
    · obtain ⟨hexact, hdisk, -, -, -, htotal, -⟩ := allocateSlot_spec h.exact hslot
      refine ⟨hexact, htotal.trans h.total_eq, ?_⟩
      show m'.disk.totalSectors = 256
      rw [hdisk]
      exact h.sectors_eq
  | free n =>
    show (m.freeSlot n).2.Mismatched
    obtain ⟨hexact, hdisk, htotal, -⟩ := freeSlot_spec h.exact n
    refine ⟨hexact, htotal.trans h.total_eq, ?_⟩
    rw [hdisk]
    exact h.sectors_eq
  | swapOut n data =>
    -- a write changes the bytes of the disk and nothing else
    have hx := h.exact
    exact ⟨⟨hx.length_eq, hx.total_le, hx.number_eq, hx.queue_nodup, hx.queue_free⟩, h.total_eq,
      (m.swapOut_totalSectors n data).trans h.sectors_eq⟩

/-- and in every list of them. -/
theorem Mismatched.after {m : SwapManager} (h : m.Mismatched) (ops : List SlotOp) :
    (m.after ops).Mismatched := by
  induction ops generalizing m with
  | nil => exact h
  | cons op ops ih => exact ih (h.perform op)

/-- Eight sectors for each slot: the disk ends behind slot 31. -/
theorem Mismatched.backed_iff {m : SwapManager} (h : m.Mismatched) {n : Nat}
    (hn : n < m.totalSlots) : m.Backed n ↔ n < 32 := by
  have htotal := h.total_eq
  rw [Backed, h.sectors_eq, startSector]
  omega

/-- The number of the slot that is handed out next. -/
theorem Mismatched.nextSlot_lt {m : SwapManager} (h : m.Mismatched) {slot : SwapSlot}
    (hnext : m.nextSlot = some slot) : slot.number < m.totalSlots := by
  rcases m.allocateSlot_cases 0 0 with ⟨hnone, -⟩ | ⟨old, taken, m', hold, halloc, hnumber, -⟩
  · rw [hnone] at hnext
    cases hnext
  · rw [hold] at hnext
    cases hnext
    obtain ⟨-, -, -, -, hlt, htotal, -⟩ := allocateSlot_spec h.exact halloc
    rw [← hnumber, ← htotal]
    exact hlt

/-- The sizes at boot. -/
theorem mismatched_boot (size : UInt64) (swapImage : Nat → UInt8) :
    (bootMemory size swapImage).swapManager.Mismatched where
  exact := default_exact ⟨swapImage, 256⟩
  total_eq := by
    show 1024 * 1024 * 1024 / 4096 = 262144
    norm_num
  sectors_eq := rfl

/-! ## A page through its slot -/

/-- A page that is written to the slot comes back, and all other slots keep what they have. -/
def Works (m : SwapManager) (n : Nat) (data : List UInt8) : Prop :=
  (m.swapOut n data).1 = .ok () ∧ (m.swapOut n data).2.swapIn n = .ok data ∧
    ∀ other, other < m.totalSlots → other ≠ n → (m.swapOut n data).2.swapIn other = m.swapIn other

/-- A slot with the same bytes is read with the same result. -/
theorem swapIn_congr {m m' : SwapManager} (htotal : m'.disk.totalSectors = m.disk.totalSectors)
    {n : Nat} (hbytes : ∀ k, k < 4096 → m'.slotByte n k = m.slotByte n k) :
    m'.swapIn n = m.swapIn n := by
  have hpage : m'.disk.bytesOf (startSector n) 8 = m.disk.bytesOf (startSector n) 8 := by
    rw [VirtualDisk.bytesOf, VirtualDisk.bytesOf]
    apply List.map_congr_left
    intro k hk
    rw [List.mem_range, sectorSize] at hk
    exact hbytes k (by omega)
  rw [swapIn_eq, swapIn_eq, hpage, htotal, VirtualDisk.beyond, VirtualDisk.beyond, htotal]

/-- What was written is what is read. -/
theorem swapIn_swapOut {m : SwapManager} {n : Nat} {data : List UInt8} (hlength : data.length = 4096)
    (hok : (m.swapOut n data).1 = .ok ()) : (m.swapOut n data).2.swapIn n = .ok data := by
  obtain ⟨hbacked, hstored⟩ := swapOut_ok hok
  obtain ⟨read, hread, hreadlength, hbytes⟩ := swapIn_ok hbacked
  have heq : read = data := by
    apply List.ext_getElem (hreadlength.trans hlength.symm)
    intro k hk hk'
    have hbyte := (hbytes k (by omega)).trans (hstored k (by omega))
    simpa [List.getD_eq_getElem?_getD, hk, hk'] using hbyte
  rw [hread, heq]

/-- Every other slot is read as before, whether the write succeeds or not. -/
theorem Exact.swapIn_other {m : SwapManager} (hx : m.Exact) {n other : Nat} (hn : n < m.totalSlots)
    (hother : other < m.totalSlots) (hne : other ≠ n) (data : List UInt8) :
    (m.swapOut n data).2.swapIn other = m.swapIn other := by
  apply swapIn_congr (m.swapOut_totalSectors n data)
  intro k hk
  exact swapOut_slotByte_of_ne data (hx.startSector_ne hother hn hne) hk

/-- Writing a page to a slot works exactly for the slots on the disk. -/
theorem Mismatched.works_iff {m : SwapManager} (h : m.Mismatched) {n : Nat} (hn : n < m.totalSlots)
    {data : List UInt8} (hlength : data.length = 4096) : m.Works n data ↔ n < 32 := by
  rw [← h.backed_iff hn, ← m.swapOut_iff n data]
  constructor
  · exact fun hworks => hworks.1
  · intro hok
    exact ⟨hok, swapIn_swapOut hlength hok,
      fun other hother hne => h.exact.swapIn_other hn hother hne data⟩

/-- The slot that is handed out next, if there is one, lies on the disk. -/
def FrontBacked (m : SwapManager) : Prop := ∀ slot, m.nextSlot = some slot → slot.number < 32

/-- A slot that is handed out works exactly if it was handed out from the first 32 numbers. -/
theorem Mismatched.works_allocated_iff {m m' : SwapManager} (h : m.Mismatched) {pid : Pid} {vpn : Nat}
    {slot : SwapSlot} (halloc : m.allocateSlot pid vpn = (some slot, m')) {data : List UInt8}
    (hlength : data.length = 4096) : m'.Works slot.number data ↔ m.FrontBacked := by
  have hnew : m'.Mismatched := by
    have hperform := h.perform (.allocate pid vpn)
    rw [SwapManager.perform, halloc] at hperform
    exact hperform
  obtain ⟨-, -, -, -, hlt, -, -⟩ := allocateSlot_spec h.exact halloc
  rw [hnew.works_iff hlt hlength, FrontBacked]
  rcases m.allocateSlot_cases pid vpn with ⟨-, hnone⟩ | ⟨old, taken, m'', hold, htaken, hnumber, -⟩
  · rw [halloc] at hnone
    cases hnone
  · rw [halloc] at htaken
    cases htaken
    simp [hold, hnumber]

end SwapManager

open SwapManager (SlotOp)

/-! ## What the requests do to the slots -/

variable {s s' s'' : MemoryService}

/-- From one service to the other the slots went through a history, and the frames stay exact. -/
structure Managed (s s' : MemoryService) : Prop where
  slots : ∃ ops, s'.swapManager = s.swapManager.after ops
  frames : s.memoryManager.Exact → s'.memoryManager.Exact

/-- Two pieces of work. -/
theorem Managed.trans (h : Managed s s') (h' : Managed s' s'') : Managed s s'' := by
  obtain ⟨ops, hops⟩ := h.slots
  obtain ⟨ops', hops'⟩ := h'.slots
  refine ⟨⟨ops ++ ops', ?_⟩, fun hx => h'.frames (h.frames hx)⟩
  rw [SwapManager.after_append, ← hops]
  exact hops'

/-- Slots and frames stay as they are. -/
theorem managed_of_eq (hslots : s'.swapManager = s.swapManager)
    (hframes : s'.memoryManager = s.memoryManager) : Managed s s' := by
  refine ⟨⟨[], hslots⟩, fun hx => ?_⟩
  rw [hframes]
  exact hx

/-- An operation on the slots, -/
theorem managed_perform (op : SlotOp) (hslots : s'.swapManager = s.swapManager.perform op)
    (hframes : s'.memoryManager = s.memoryManager) : Managed s s' := by
  refine ⟨⟨[op], hslots⟩, fun hx => ?_⟩
  rw [hframes]
  exact hx

/-- in particular one that is taken. -/
theorem managed_taken {pid : Pid} {vpn : Nat} {result : Option SwapSlot} {swap : SwapManager}
    (halloc : s.swapManager.allocateSlot pid vpn = (result, swap)) :
    Managed s { s with swapManager := swap } := by
  have hswap : swap = s.swapManager.perform (.allocate pid vpn) := by
    show swap = (s.swapManager.allocateSlot pid vpn).2
    rw [halloc]
  exact managed_perform (.allocate pid vpn) hswap rfl

/-- A slot is taken and a page is written to it. -/
theorem managed_written {pid : Pid} {vpn : Nat} {slot : SwapSlot} {swap swap' : SwapManager}
    {data : List UInt8} {result : Except String Unit}
    (halloc : s.swapManager.allocateSlot pid vpn = (some slot, swap))
    (hout : swap.swapOut slot.number data = (result, swap')) :
    Managed s { s with swapManager := swap' } := by
  have hswap : swap' = swap.perform (.swapOut slot.number data) := by
    show swap' = (swap.swapOut slot.number data).2
    rw [hout]
  have hwritten : Managed { s with swapManager := swap } { s with swapManager := swap' } :=
    managed_perform (.swapOut slot.number data) hswap rfl
  exact (managed_taken halloc).trans hwritten

/-- Frames are handed out, -/
theorem managed_allocateFrames (pid : Pid) (count : Nat) (hslots : s'.swapManager = s.swapManager)
    (hframes : s'.memoryManager = (s.memoryManager.allocateFrames pid count).2) : Managed s s' := by
  refine ⟨⟨[], hslots⟩, fun hx => ?_⟩
  rw [hframes]
  exact (PhysicalMemoryManager.allocateFrames_keeps hx pid count).exact

/-- in particular one, -/
theorem managed_framed {pid : Pid} {result : List Frame} {manager : PhysicalMemoryManager}
    (hframes : s.memoryManager.allocateFrames pid 1 = (result, manager)) :
    Managed s { s with memoryManager := manager } := by
  have hmanager : manager = (s.memoryManager.allocateFrames pid 1).2 := by rw [hframes]
  exact managed_allocateFrames pid 1 rfl hmanager

/-- or taken back. -/
theorem managed_freeFrame (pid : Pid) (n : Nat) (hslots : s'.swapManager = s.swapManager)
    (hframes : s'.memoryManager = (s.memoryManager.freeFrame pid n).2) : Managed s s' := by
  refine ⟨⟨[], hslots⟩, fun hx => ?_⟩
  rw [hframes]
  exact PhysicalMemoryManager.freeFrame_exact hx pid n

/-- A mapping concerns neither. -/
theorem managed_mapPage (s : MemoryService) (pid : Pid) (virt : VirtAddr) (phys : PhysAddr)
    (prot : MemProt) : Managed s (s.handleMapPage pid virt phys prot).service := by
  rw [MemoryService.handleMapPage]
  split
  · exact managed_of_eq rfl rfl
  · exact managed_of_eq rfl rfl
  · exact managed_of_eq rfl rfl

/-- Nor does a fault in the tables of the service. -/
theorem managed_pageFault (s : MemoryService) (pid : Pid) (addr : VirtAddr) (access : AccessType) :
    Managed s (s.handlePageFault pid addr access).service := by
  rw [MemoryService.handlePageFault]
  split
  · exact managed_of_eq rfl rfl
  split
  · exact managed_of_eq rfl rfl
  rcases hframes : s.memoryManager.allocateFrames pid 1 with ⟨_ | ⟨frame, rest⟩, manager⟩
  · show Managed s (if _ then (_ : Handled) else _).service
    split
    · exact managed_framed hframes
    · exact managed_framed hframes
  · apply (managed_framed hframes).trans
    exact managed_mapPage _ pid addr frame.address (MemoryService.faultProt access)

/-- An eviction takes a slot and a frame, -/
theorem managed_evictAndInstall (s : MemoryService) (ord : HashOrder) (pid : Pid) (page : VirtAddr) :
    Managed s (s.evictAndInstall ord pid page).service := by
  rw [MemoryService.evictAndInstall]
  cases s.findVictimPage ord pid with
  | none => exact managed_of_eq rfl rfl
  | some victim =>
    obtain ⟨vpid, vaddr, vframe⟩ := victim
    -- one fact for each stage: allocate, write, release, install
    rcases hslot : s.swapManager.allocateSlot vpid (vaddr.toNat / 4096) with ⟨_ | slot, swap⟩
    · simp only [hslot]
      exact managed_taken hslot
    · rcases hout : swap.swapOut slot.number (MemoryService.pageData s.mmu vpid vaddr) with
        ⟨e | u, swap'⟩
      · simp only [hslot, hout]
        exact managed_written hslot hout
      · have hreleased : Managed s (MemoryService.releaseVictim { s with swapManager := swap' } vpid vaddr
            vframe slot.number) :=
          (managed_written hslot hout).trans (managed_freeFrame vpid (vframe.toNat / 4096) rfl rfl)
        simp only [hslot, hout]
        generalize MemoryService.releaseVictim { s with swapManager := swap' } vpid vaddr vframe
          slot.number = released at hreleased
        rcases hframes : released.memoryManager.allocateFrames pid 1 with ⟨_ | ⟨frame, rest⟩, manager⟩
        · exact hreleased.trans (managed_framed hframes)
        · exact (hreleased.trans (managed_framed hframes)).trans (managed_of_eq rfl rfl)

/-- unless a frame is free, -/
theorem managed_allocateOrEvict (s : MemoryService) (ord : HashOrder) (pid : Pid) (page : VirtAddr) :
    Managed s (s.allocateOrEvict ord pid page).service := by
  rw [MemoryService.allocateOrEvict]
  rcases hframes : s.memoryManager.allocateFrames pid 1 with ⟨_ | ⟨frame, rest⟩, manager⟩
  · exact (managed_framed hframes).trans (managed_evictAndInstall _ ord pid page)
  · exact (managed_framed hframes).trans (managed_of_eq rfl rfl)

/-- and so does a fault, which may give a slot back. -/
theorem managed_pageFaultWithResponse (s : MemoryService) (ord : HashOrder) (pid : Pid) (addr : VirtAddr)
    (access : AccessType) : Managed s (s.handlePageFaultWithResponse ord pid addr access).service := by
  rw [MemoryService.handlePageFaultWithResponse]
  cases s.swappedSlot pid (pageBase addr) with
  | none => exact managed_allocateOrEvict s ord pid (pageBase addr)
  | some slot =>
    cases hin : s.swapManager.swapIn slot with
    | error e =>
      simp only [hin]
      exact managed_of_eq rfl rfl
    | ok data =>
      rcases hframes : s.memoryManager.allocateFrames pid 1 with ⟨_ | ⟨frame, rest⟩, manager⟩
      · simp only [hin]
        exact (managed_framed hframes).trans (managed_allocateOrEvict _ ord pid (pageBase addr))
      · simp only [hin]
        exact (managed_framed hframes).trans (managed_perform (.free slot) rfl rfl)

/-- A slot is taken, -/
theorem managed_swapOut (s : MemoryService) (pid : Pid) (virt : VirtAddr) :
    Managed s (s.handleSwapOut pid virt).service := by
  rw [MemoryService.handleSwapOut]
  split
  · exact managed_of_eq rfl rfl
  · rcases hslot : s.swapManager.allocateSlot pid (virt.toNat / 4096) with ⟨_ | slot, swap⟩
    · exact managed_taken hslot
    · exact managed_taken hslot

/-- written, and perhaps given back. -/
theorem managed_swapOutWithResponse (s : MemoryService) (pid : Pid) (virt : VirtAddr) :
    Managed s (s.handleSwapOutWithResponse pid virt).service := by
  rw [MemoryService.handleSwapOutWithResponse]
  split
  · exact managed_of_eq rfl rfl
  · rcases hslot : s.swapManager.allocateSlot pid (virt.toNat / 4096) with ⟨_ | slot, swap⟩
    · exact managed_taken hslot
    · rcases hout : swap.swapOut slot.number (MemoryService.frameData s.mmu pid virt) with
        ⟨e | u, swap'⟩
      · simp only [hout]
        exact managed_written hslot hout
      · simp only [hout]
        exact managed_written hslot hout

/-- A slot is given back, -/
theorem managed_swapIn (s : MemoryService) (pid : Pid) (virt : VirtAddr) :
    Managed s (s.handleSwapIn pid virt).service := by
  rw [MemoryService.handleSwapIn]
  cases s.slotOfPage pid (virt.toNat / 4096) with
  | none => exact managed_of_eq rfl rfl
  | some slot => exact managed_perform (.free slot.number) rfl rfl

/-- after it was read. -/
theorem managed_swapInWithResponse (s : MemoryService) (pid : Pid) (virt : VirtAddr) :
    Managed s (s.handleSwapInWithResponse pid virt).service := by
  rw [MemoryService.handleSwapInWithResponse]
  cases s.slotOfPage pid (virt.toNat / 4096) with
  | none => exact managed_of_eq rfl rfl
  | some slot =>
    simp only
    -- the slot is free whatever becomes of the page
    split
    · exact managed_perform (.free slot.number) rfl rfl
    split
    · exact managed_perform (.free slot.number) rfl rfl
    split
    · exact managed_perform (.free slot.number) rfl rfl
    · exact managed_perform (.free slot.number) rfl rfl

/-- What every request does, in either form. -/
theorem managed_take (s : MemoryService) (e : MemoryEvent) : Managed s (s.take e) := by
  obtain ⟨ord, req, answered⟩ := e
  cases answered with
  | false =>
    show Managed s (s.handleMemoryRequest req).service
    cases req with
    | allocFrame count pid => exact managed_allocateFrames pid count rfl rfl
    -- the service frees on request under process 0
    | freeFrame paddr => exact managed_freeFrame 0 (paddr.toNat / 4096) rfl rfl
    | mapPage pid virt phys prot => exact managed_mapPage s pid virt phys prot
    | unmapPage pid virt =>
      simp only [MemoryService.handleMemoryRequest, MemoryService.handleUnmapPage]
      split
      · exact managed_of_eq rfl rfl
      · exact managed_of_eq rfl rfl
    | pageFaultHandler pid addr access => exact managed_pageFault s pid addr access
    | swapOut pid virt => exact managed_swapOut s pid virt
    | swapIn pid virt => exact managed_swapIn s pid virt
    | getStats => exact managed_of_eq rfl rfl
    | getFrameMap => exact managed_of_eq rfl rfl
  | true =>
    show Managed s (s.handleEnvelope ord req).1
    rw [handleEnvelope_service]
    cases req with
    | allocFrame count pid =>
      simp only [MemoryService.handleMemoryRequestWithResponse,
        MemoryService.handleAllocFrameWithResponse]
      split
      · exact managed_allocateFrames pid count rfl rfl
      · exact managed_allocateFrames pid count rfl rfl
    | freeFrame paddr =>
      simp only [MemoryService.handleMemoryRequestWithResponse,
        MemoryService.handleFreeFrameWithResponse]
      split
      · exact managed_freeFrame 0 (paddr.toNat / 4096) rfl rfl
      · exact managed_freeFrame 0 (paddr.toNat / 4096) rfl rfl
    | mapPage pid virt phys prot => exact managed_of_eq rfl rfl
    | unmapPage pid virt =>
      simp only [MemoryService.handleMemoryRequestWithResponse,
        MemoryService.handleUnmapPageWithResponse]
      split
      · exact managed_of_eq rfl rfl
      · exact managed_of_eq rfl rfl
    | pageFaultHandler pid addr access => exact managed_pageFaultWithResponse s ord pid addr access
    | swapOut pid virt => exact managed_swapOutWithResponse s pid virt
    | swapIn pid virt => exact managed_swapInWithResponse s pid virt
    | getStats => exact managed_of_eq rfl rfl
    | getFrameMap => exact managed_of_eq rfl rfl

/-- In every state of every run the slots are what a history of slot operations leaves, and the frames
are exact. -/
theorem managed_run (s : MemoryService) (events : List MemoryEvent) :
    Managed s (runTrace memoryTransition s events).1 ∧
      ∀ t ∈ (runTrace memoryTransition s events).2, Managed s t.pre := by
  have hinv := memoryTrace_invariant (I := fun s' => Managed s s') (managed_of_eq rfl rfl) events
    fun t _ hpre => hpre.trans (managed_take t.pre t.act)
  exact ⟨hinv.1, fun t ht => (hinv.2 t ht).1⟩

/-- From boot on the frames are counted exactly, -/
theorem Managed.exact_boot {size : UInt64} {swapImage : Nat → UInt8}
    (h : Managed (bootMemory size swapImage) s) : s.memoryManager.Exact :=
  h.frames (FrameAllocator.new_exact size.toNat 4096)

/-- and slots and disk have their sizes. -/
theorem Managed.mismatched_boot {size : UInt64} {swapImage : Nat → UInt8}
    (h : Managed (bootMemory size swapImage) s) : s.swapManager.Mismatched := by
  obtain ⟨ops, hops⟩ := h.slots
  rw [hops]
  exact (SwapManager.mismatched_boot size swapImage).after ops

/-! ## Requests that fail -/

/-- The handler returns an error or answers one. -/
def Handled.Fails (h : Handled) : Prop := h.result ≠ .ok () ∨ ∃ e, Except.error e ∈ h.sent

/-- The handler of a request, in the form that the request has. -/
def MemoryService.handled (s : MemoryService) (e : MemoryEvent) : Handled :=
  if e.answered then s.handleMemoryRequestWithResponse e.ord e.req else s.handleMemoryRequest e.req

/-- If it fails, no slot is occupied that was free before. -/
def Handled.GivesBack (h : Handled) (s : MemoryService) : Prop :=
  h.Fails → ∀ n, h.service.swapManager.Occupied n → s.swapManager.Occupied n

/-- A page fault or a `SwapOut` that fails leaves no slot occupied. -/
def GivesBack (s : MemoryService) (e : MemoryEvent) : Prop :=
  match e.req with
  | .pageFaultHandler _ _ _ => (s.handled e).GivesBack s
  | .swapOut _ _ => (s.handled e).GivesBack s
  | _ => True

/-- A fault comes to an eviction: there is no frame, and its page is not in a slot that cannot be
read. -/
def NeedsEviction (s : MemoryService) (pid : Pid) (page : VirtAddr) : Prop :=
  s.memoryManager.allocator.Exhausted ∧
    ∀ slot, s.swappedSlot pid page = some slot → s.swapManager.Backed slot

/-- An eviction that takes a slot ends well: the slot lies on the disk, and the frame of the victim is
in use. -/
def EvictionBacked (s : MemoryService) (ord : HashOrder) (pid : Pid) : Prop :=
  ∀ vpid vaddr vframe slot, s.findVictimPage ord pid = some (vpid, vaddr, vframe) →
    s.swapManager.nextSlot = some slot →
    slot.number < 32 ∧ s.memoryManager.allocator.InUse (vframe.toNat / 4096)

/-- When a page fault or a `SwapOut` gives back what it took. Without a response channel no page is
written. -/
def HasBacking (s : MemoryService) (e : MemoryEvent) : Prop :=
  match e.answered, e.req with
  | true, .pageFaultHandler pid addr _ =>
    NeedsEviction s pid (pageBase addr) → EvictionBacked s e.ord pid
  | true, .swapOut _ _ => s.swapManager.FrontBacked
  | _, _ => True

/-- A handler that leaves the slots gives back what it took. -/
theorem givesBack_of_slots {h : Handled} (heq : h.service.swapManager.slots = s.swapManager.slots) :
    h.GivesBack s := by
  intro _ n hn
  rw [SwapManager.Occupied, heq] at hn
  exact hn

/-- So does one that maps a frame, -/
theorem givesBack_installFrame (s' : MemoryService) (pid : Pid) (page : VirtAddr) (frame : Frame) :
    (s'.installFrame pid page frame).GivesBack s := by
  rw [MemoryService.installFrame_eq]
  rintro (herror | ⟨e, he⟩)
  · exact absurd rfl herror
  · simp at he

/-- and one that finds no frame, -/
theorem givesBack_faultExhausted (s : MemoryService) : (MemoryService.faultExhausted s).GivesBack s :=
  givesBack_of_slots rfl

/-- which fails. -/
theorem fails_faultExhausted (s : MemoryService) : (MemoryService.faultExhausted s).Fails := by
  left
  simp [MemoryService.faultExhausted]

/-- The slot that was taken is occupied whatever is written to it, and it was free before. -/
theorem not_givesBack_taken (hx : s.swapManager.Exact) {pid : Pid} {vpn : Nat} {slot : SwapSlot}
    {swap : SwapManager} (hslot : s.swapManager.allocateSlot pid vpn = (some slot, swap)) {h : Handled}
    (hfails : h.Fails) (hsame : h.service.swapManager.slots = swap.slots) : ¬h.GivesBack s := by
  intro hgives
  obtain ⟨-, -, hfree, hoccupied, -⟩ := SwapManager.allocateSlot_spec hx hslot
  refine hfree (hgives hfails slot.number ?_)
  rw [SwapManager.Occupied, hsame]
  exact hoccupied

/-- An eviction keeps no slot for nothing exactly when it is backed. -/
theorem givesBack_evictAndInstall_iff (hx : s.memoryManager.Exact) (hm : s.swapManager.Mismatched)
    (hempty : s.memoryManager.allocator.Exhausted) (ord : HashOrder) (pid : Pid) (page : VirtAddr) :
    (s.evictAndInstall ord pid page).GivesBack s ↔ EvictionBacked s ord pid := by
  rw [MemoryService.evictAndInstall, EvictionBacked]
  cases hvictim : s.findVictimPage ord pid with
  | none => simpa using givesBack_faultExhausted s
  | some victim =>
    obtain ⟨vpid, vaddr, vframe⟩ := victim
    simp only [Option.some.injEq, Prod.mk.injEq]
    rcases s.swapManager.allocateSlot_cases vpid (vaddr.toNat / 4096) with
      ⟨hnone, halloc⟩ | ⟨old, slot, swap, hnext, halloc, hnumber, hdisk⟩
    · rw [halloc]
      simpa [hnone] using givesBack_faultExhausted s
    · -- the victim and the slot are these
      have hone : (∀ p a f next, (vpid = p ∧ vaddr = a ∧ vframe = f) →
          s.swapManager.nextSlot = some next →
          next.number < 32 ∧ s.memoryManager.allocator.InUse (f.toNat / 4096)) ↔
          old.number < 32 ∧ s.memoryManager.allocator.InUse (vframe.toNat / 4096) := by
        constructor
        · exact fun hall => hall vpid vaddr vframe old ⟨rfl, rfl, rfl⟩ hnext
        · rintro hboth p a f next ⟨rfl, rfl, rfl⟩ hnext'
          rw [hnext] at hnext'
          cases hnext'
          exact hboth
      have hback : swap.Backed slot.number ↔ old.number < 32 := by
        rw [SwapManager.Backed, hdisk, hnumber]
        exact hm.backed_iff (hm.nextSlot_lt hnext)
      rw [hone, halloc, ← hback,
        ← swap.swapOut_iff slot.number (MemoryService.pageData s.mmu vpid vaddr)]
      rcases hout : swap.swapOut slot.number (MemoryService.pageData s.mmu vpid vaddr) with ⟨e | u, swap'⟩
      · have hkept : swap'.slots = swap.slots := by rw [SwapManager.swapOut_disk hout]
        simp only [hout, reduceCtorEq, false_and, iff_false]
        exact not_givesBack_taken hm.exact halloc (fails_faultExhausted _) hkept
      · have hkept : swap'.slots = swap.slots := by rw [SwapManager.swapOut_disk hout]
        simp only [hout, true_and]
        rw [← freeFrame_exhausted_iff hx hempty vpid]
        by_cases hdry : (s.memoryManager.freeFrame vpid (vframe.toNat / 4096)).2.allocator.Exhausted
        · have hframes := allocateFrames_exhausted hdry pid
          simp only [MemoryService.releaseVictim, MemoryService.insertSwapped, hframes, hdry, not_true,
            iff_false]
          exact not_givesBack_taken hm.exact halloc (fails_faultExhausted _) hkept
        · obtain ⟨n, frame, manager, -, -, hframes, -⟩ := allocateFrames_taken hdry pid
          simp only [MemoryService.releaseVictim, MemoryService.insertSwapped, hframes, hdry,
            not_false_eq_true, iff_true]
          exact givesBack_installFrame _ pid page (frame.allocate pid)

/-- With a free frame there is no eviction. -/
theorem givesBack_allocateOrEvict_iff (hx : s.memoryManager.Exact) (hm : s.swapManager.Mismatched)
    (ord : HashOrder) (pid : Pid) (page : VirtAddr) :
    (s.allocateOrEvict ord pid page).GivesBack s ↔
      (s.memoryManager.allocator.Exhausted → EvictionBacked s ord pid) := by
  rw [MemoryService.allocateOrEvict]
  by_cases hempty : s.memoryManager.allocator.Exhausted
  · rw [allocateFrames_exhausted hempty]
    simp only [hempty, true_implies]
    exact givesBack_evictAndInstall_iff hx hm hempty ord pid page
  · obtain ⟨n, frame, manager, -, -, hframes, -⟩ := allocateFrames_taken hempty pid
    simp only [hframes, hempty, false_implies, iff_true]
    exact givesBack_installFrame _ pid page (frame.allocate pid)

/-- A fault evicts when it finds no frame. -/
theorem givesBack_pageFault_iff (hx : s.memoryManager.Exact) (hm : s.swapManager.Mismatched)
    (ord : HashOrder) (pid : Pid) (addr : VirtAddr) (access : AccessType) :
    (s.handlePageFaultWithResponse ord pid addr access).GivesBack s ↔
      (NeedsEviction s pid (pageBase addr) → EvictionBacked s ord pid) := by
  rw [MemoryService.handlePageFaultWithResponse, NeedsEviction]
  cases hslot : s.swappedSlot pid (pageBase addr) with
  | none => simpa using givesBack_allocateOrEvict_iff hx hm ord pid (pageBase addr)
  | some slot =>
    simp only [Option.some.injEq, forall_eq']
    by_cases hback : s.swapManager.Backed slot
    · obtain ⟨data, hin, -⟩ := SwapManager.swapIn_ok hback
      by_cases hempty : s.memoryManager.allocator.Exhausted
      · simp only [hin, allocateFrames_exhausted hempty, hback, and_true]
        exact givesBack_allocateOrEvict_iff hx hm ord pid (pageBase addr)
      · -- the page comes back to the frame, and the fault is served
        obtain ⟨n, frame, manager, -, -, hframes, -⟩ := allocateFrames_taken hempty pid
        simp only [hin, hframes, hempty, false_and, false_implies, iff_true]
        rintro (herror | ⟨e, he⟩)
        · exact absurd rfl herror
        · simp at he
    · obtain ⟨e, hin⟩ := SwapManager.swapIn_error hback
      simp only [hin, hback, and_false, false_implies, iff_true]
      exact givesBack_of_slots rfl

/-- A page is written to the first free slot. -/
theorem givesBack_swapOut_iff (hm : s.swapManager.Mismatched) (pid : Pid) (virt : VirtAddr) :
    (s.handleSwapOutWithResponse pid virt).GivesBack s ↔ s.swapManager.FrontBacked := by
  rw [MemoryService.handleSwapOutWithResponse, SwapManager.FrontBacked]
  cases hen : s.swapManager.enabled with
  | false =>
    have hnone : s.swapManager.nextSlot = none := by simp [SwapManager.nextSlot, hen]
    simp only [if_true, hnone, reduceCtorEq, false_implies, implies_true, iff_true]
    exact givesBack_of_slots rfl
  | true =>
    simp only [Bool.true_eq_false, if_false]
    rcases s.swapManager.allocateSlot_cases pid (virt.toNat / 4096) with
      ⟨hnone, halloc⟩ | ⟨old, slot, swap, hnext, halloc, hnumber, hdisk⟩
    · simp only [halloc, hnone, reduceCtorEq, false_implies, implies_true, iff_true]
      exact givesBack_of_slots rfl
    · have hback : swap.Backed slot.number ↔ old.number < 32 := by
        rw [SwapManager.Backed, hdisk, hnumber]
        exact hm.backed_iff (hm.nextSlot_lt hnext)
      simp only [halloc, hnext, Option.some.injEq, forall_eq', ← hback]
      rw [← swap.swapOut_iff slot.number (MemoryService.frameData s.mmu pid virt)]
      rcases hout : swap.swapOut slot.number (MemoryService.frameData s.mmu pid virt) with ⟨e | u, swap'⟩
      · have hkept : swap'.slots = swap.slots := by rw [SwapManager.swapOut_disk hout]
        simp only [reduceCtorEq, iff_false]
        exact not_givesBack_taken hm.exact halloc (Or.inl (by simp)) hkept
      · simp only [iff_true]
        rintro (herror | ⟨e, he⟩)
        · exact absurd rfl herror
        · simp at he

/-- Without a response channel a `SwapOut` fails only if it got no slot. -/
theorem givesBack_plainSwapOut (s : MemoryService) (pid : Pid) (virt : VirtAddr) :
    (s.handleSwapOut pid virt).GivesBack s := by
  rw [MemoryService.handleSwapOut]
  split
  · exact givesBack_of_slots rfl
  rcases hslot : s.swapManager.allocateSlot pid (virt.toNat / 4096) with ⟨_ | slot, swap⟩
  · exact givesBack_of_slots (by rw [SwapManager.allocateSlot_none hslot])
  · rintro (herror | ⟨e, he⟩)
    · exact absurd rfl herror
    · simp at he

/-- A fault in the tables of the service takes no slot. -/
theorem givesBack_plainPageFault (s : MemoryService) (pid : Pid) (addr : VirtAddr)
    (access : AccessType) : (s.handlePageFault pid addr access).GivesBack s :=
  givesBack_of_slots (handlePageFault_kept s pid addr access).slots

/-- Exactly when a request gives back the slot that it took and could not write. -/
theorem givesBack_iff (hx : s.memoryManager.Exact) (hm : s.swapManager.Mismatched) (e : MemoryEvent) :
    GivesBack s e ↔ HasBacking s e := by
  obtain ⟨ord, req, answered⟩ := e
  cases req with
  | pageFaultHandler pid addr access =>
    cases answered with
    | true => exact givesBack_pageFault_iff hx hm ord pid addr access
    | false => exact iff_of_true (givesBack_plainPageFault s pid addr access) trivial
  | swapOut pid virt =>
    cases answered with
    | true => exact givesBack_swapOut_iff hm pid virt
    | false => exact iff_of_true (givesBack_plainSwapOut s pid virt) trivial
  | _ => cases answered <;> exact iff_of_true trivial trivial

/-- Which slots work, after every history of allocations, frees and writes, and which requests of a run
give their slot back when they fail. -/
theorem slots_backed_iff (size : UInt64) (swapImage : Nat → UInt8) :
    (∀ (ops : List SlotOp) (pid : Pid) (vpn : Nat) (slot : SwapSlot) (m : SwapManager)
        (data : List UInt8),
      ((bootMemory size swapImage).swapManager.after ops).allocateSlot pid vpn = (some slot, m) →
      data.length = 4096 →
      (m.Works slot.number data ↔ ((bootMemory size swapImage).swapManager.after ops).FrontBacked)) ∧
    ∀ events : List MemoryEvent,
      ∀ t ∈ (runTrace memoryTransition (bootMemory size swapImage) events).2,
        (GivesBack t.pre t.act ↔ HasBacking t.pre t.act) := by
  have hboot := SwapManager.mismatched_boot size swapImage
  constructor
  · intro ops pid vpn slot m data halloc hlength
    exact (hboot.after ops).works_allocated_iff halloc hlength
  · intro events t ht
    have hmanaged := (managed_run (bootMemory size swapImage) events).2 t ht
    exact givesBack_iff hmanaged.exact_boot hmanaged.mismatched_boot t.act

/-- The first slot lies on the disk. -/
theorem slots_backed_first :
    ∃ slot m, (bootMemory 4096 fun _ => 0).swapManager.allocateSlot 1 0 = (some slot, m) ∧
      m.Works slot.number (List.replicate 4096 7) := by
  have hnext : (bootMemory 4096 fun _ => 0).swapManager.nextSlot = some (SwapSlot.new 0 4096) := by
    rw [bootMemory_eq]
    decide +kernel
  rcases (bootMemory 4096 fun _ => 0).swapManager.allocateSlot_cases 1 0 with
    ⟨hnone, -⟩ | ⟨old, slot, m, -, halloc, -⟩
  · rw [hnext] at hnone
    cases hnone
  · refine ⟨slot, m, halloc, ?_⟩
    have hworks := (slots_backed_iff 4096 fun _ => 0).1 [] 1 0 slot m (List.replicate 4096 7) halloc
      List.length_replicate
    apply hworks.2
    intro slot' hslot'
    have heq := hnext.symm.trans hslot'
    cases heq
    decide

/-- Process 1 swaps out its first page 32 times; nobody waits for an answer, and nothing is written. -/
def fillingEvents : List MemoryEvent := List.replicate 32 ⟨HashOrder.stored, .swapOut 1 0, false⟩

/-- The next slot is the first one beyond the disk: a page cannot be written to it, and the request that
was given the slot fails and keeps it. -/
theorem slot_beyond_disk :
    (∃ slot m, ((bootMemory 4096 fun _ => 0).swapManager.after
        (List.replicate 32 (.allocate 1 0))).allocateSlot 1 0 = (some slot, m) ∧
      ¬m.Works slot.number (List.replicate 4096 7)) ∧
    ¬GivesBack (runTrace memoryTransition (bootMemory 4096 fun _ => 0) fillingEvents).1
      ⟨HashOrder.stored, .swapOut 1 0, true⟩ := by
  constructor
  · have hnext : ((bootMemory 4096 fun _ => 0).swapManager.after
        (List.replicate 32 (.allocate 1 0))).nextSlot = some (SwapSlot.new 32 4096) := by
      rw [bootMemory_eq]
      decide +kernel
    have hm := (SwapManager.mismatched_boot 4096 fun _ => 0).after (List.replicate 32 (.allocate 1 0))
    rcases SwapManager.allocateSlot_cases _ 1 0 with ⟨hnone, -⟩ | ⟨old, slot, m, -, halloc, -⟩
    · rw [hnext] at hnone
      cases hnone
    · refine ⟨slot, m, halloc, ?_⟩
      rw [hm.works_allocated_iff halloc List.length_replicate]
      exact fun hfront => absurd (hfront _ hnext) (by decide)
  · have hnext : (runTrace memoryTransition (bootMemory 4096 fun _ => 0)
        fillingEvents).1.swapManager.nextSlot = some (SwapSlot.new 32 4096) := by
      rw [bootMemory_eq]
      decide +kernel
    have hmanaged := (managed_run (bootMemory 4096 fun _ => 0) fillingEvents).1
    rw [givesBack_iff hmanaged.exact_boot hmanaged.mismatched_boot]
    exact fun hfront => absurd (hfront _ hnext) (by decide)

end GenshinOs.Memory
