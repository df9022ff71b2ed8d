import GenshinOs.Memory.Service

/-!
# The record of swapped pages

The page-fault handler remembers in `swappedPages` which slot holds which page; the slots themselves
carry the process and the page they were given out for. `Recorded` says that the two agree and that no
slot is recorded twice. `SwapStep` lists what a request can do to them, whatever its form. The
explicit swap-in frees a slot without a look at the record, and this is the only way to break it:
`slots_recorded`.
-/

set_option autoImplicit false

namespace GenshinOs.Memory

open GenshinOs.Lib GenshinOs.Hardware

variable {s s' : MemoryService}

/-- Every recorded page has its own slot, which is in use for just this page. -/
structure Recorded (s : MemoryService) : Prop where
  slot : ∀ pid v n, s.swappedSlot pid v = some n →
    ∃ slot, s.swapManager.slots[n]? = some slot ∧ slot.occupied = true ∧
      slot.owner = some pid ∧ slot.vpn = some (v.toNat / 4096)
  distinct : ∀ pid v pid' v' n, s.swappedSlot pid v = some n → s.swappedSlot pid' v' = some n →
    pid = pid' ∧ v = v'

/-- A swap-in request names no page whose slot is recorded. -/
def LeavesRecord (t : Transition MemoryService MemoryEvent) : Prop :=
  match t.act.req with
  | .swapIn pid virt => ∀ slot, t.pre.slotOfPage pid (virt.toNat / 4096) = some slot →
      ∀ q v, t.pre.swappedSlot q v ≠ some slot.number
  | _ => True

/-! ## What a request does to slots and record -/

/-- The slot table and the record are the same; the disk may differ. -/
structure SwapKept (s s' : MemoryService) : Prop where
  slots : s'.swapManager.slots = s.swapManager.slots
  freeQueue : s'.swapManager.freeQueue = s.swapManager.freeQueue
  totalSlots : s'.swapManager.totalSlots = s.swapManager.totalSlots
  swappedPages : s'.swappedPages = s.swappedPages

theorem SwapKept.swappedSlot (h : SwapKept s s') (pid : Pid) (v : VirtAddr) :
    s'.swappedSlot pid v = s.swappedSlot pid v := by
  rw [MemoryService.swappedSlot, h.swappedPages]
  rfl

/-- What a request does to the slots and the record, if it frees no recorded slot. -/
inductive SwapStep (s s' : MemoryService) : Prop
  | kept (h : SwapKept s s')
  | taken (pid : Pid) (vpn : Nat) {slot : SwapSlot} {swap : SwapManager}
      (hslot : s.swapManager.allocateSlot pid vpn = (some slot, swap))
      (h : SwapKept { s with swapManager := swap } s')
  | freed {n : Nat} (hfree : ∀ q v, s.swappedSlot q v ≠ some n)
      (h : SwapKept { s with swapManager := (s.swapManager.freeSlot n).2 } s')
  | restored (pid : Pid) (page : VirtAddr) {n : Nat} (hslot : s.swappedSlot pid page = some n)
      (h : SwapKept (MemoryService.removeSwapped
        { s with swapManager := (s.swapManager.freeSlot n).2 } pid page) s')
  | evicted (pid : Pid) (page : VirtAddr) {slot : SwapSlot} {swap : SwapManager}
      (hslot : s.swapManager.allocateSlot pid (page.toNat / 4096) = (some slot, swap))
      (h : SwapKept (MemoryService.insertSwapped { s with swapManager := swap } pid page slot.number)
        s')

theorem SwapStep.refl (s : MemoryService) : SwapStep s s := .kept ⟨rfl, rfl, rfl, rfl⟩

theorem handleMapPage_kept (s : MemoryService) (pid : Pid) (virt : VirtAddr) (phys : PhysAddr)
    (prot : MemProt) : SwapKept s (s.handleMapPage pid virt phys prot).service := by
  simp only [MemoryService.handleMapPage]
  split
  · exact ⟨rfl, rfl, rfl, rfl⟩
  · exact ⟨rfl, rfl, rfl, rfl⟩
  · exact ⟨rfl, rfl, rfl, rfl⟩

theorem handlePageFault_kept (s : MemoryService) (pid : Pid) (addr : VirtAddr)
    (access : AccessType) : SwapKept s (s.handlePageFault pid addr access).service := by
  simp only [MemoryService.handlePageFault]
  split
  · exact ⟨rfl, rfl, rfl, rfl⟩
  split
  · exact ⟨rfl, rfl, rfl, rfl⟩
  split
  · split
    · exact ⟨rfl, rfl, rfl, rfl⟩
    · exact ⟨rfl, rfl, rfl, rfl⟩
  · next frame rest manager _ =>
    have hmap := handleMapPage_kept { s with memoryManager := manager } pid addr frame.address
      (MemoryService.faultProt access)
    exact ⟨hmap.slots, hmap.freeQueue, hmap.totalSlots, hmap.swappedPages⟩

theorem evictAndInstall_step (s : MemoryService) (ord : HashOrder) (pid : Pid) (page : VirtAddr) :
    SwapStep s (s.evictAndInstall ord pid page).service := by
  simp only [MemoryService.evictAndInstall]
  split
  · exact SwapStep.refl s
  next vpid vaddr vframe _ =>
  split
  · next swap hnone =>
    rw [SwapManager.allocateSlot_none hnone]
    exact SwapStep.refl s
  next slot swap hslot =>
  split
  · next swap' hout =>
    rw [SwapManager.swapOut_disk hout]
    exact .taken vpid (vaddr.toNat / 4096) hslot ⟨rfl, rfl, rfl, rfl⟩
  next swap' hout =>
  rw [SwapManager.swapOut_disk hout]
  split
  · exact .evicted vpid vaddr hslot ⟨rfl, rfl, rfl, rfl⟩
  · rw [MemoryService.installFrame_eq]
    exact .evicted vpid vaddr hslot ⟨rfl, rfl, rfl, rfl⟩

/-- A step from a service that differs only in its frames is a step from the service itself. -/
theorem SwapStep.of_manager {manager : PhysicalMemoryManager}
    (h : SwapStep { s with memoryManager := manager } s') : SwapStep s s' := by
  cases h with
  | kept h => exact .kept ⟨h.slots, h.freeQueue, h.totalSlots, h.swappedPages⟩
  | taken q vpn hslot h =>
    exact .taken q vpn hslot ⟨h.slots, h.freeQueue, h.totalSlots, h.swappedPages⟩
  | freed hfree h =>
    exact .freed hfree ⟨h.slots, h.freeQueue, h.totalSlots, h.swappedPages⟩
  | restored q v hslot h =>
    exact .restored q v hslot ⟨h.slots, h.freeQueue, h.totalSlots, h.swappedPages⟩
  | evicted q v hslot h =>
    exact .evicted q v hslot ⟨h.slots, h.freeQueue, h.totalSlots, h.swappedPages⟩

theorem allocateOrEvict_step (s : MemoryService) (ord : HashOrder) (pid : Pid) (page : VirtAddr) :
    SwapStep s (s.allocateOrEvict ord pid page).service := by
  simp only [MemoryService.allocateOrEvict]
  split
  · rw [MemoryService.installFrame_eq]
    exact .kept ⟨rfl, rfl, rfl, rfl⟩
  · exact (evictAndInstall_step _ ord pid page).of_manager

theorem handlePageFaultWithResponse_step (s : MemoryService) (ord : HashOrder) (pid : Pid)
    (addr : VirtAddr) (access : AccessType) :
    SwapStep s (s.handlePageFaultWithResponse ord pid addr access).service := by
  simp only [MemoryService.handlePageFaultWithResponse]
  split
  · exact allocateOrEvict_step s ord pid (pageBase addr)
  next slot hslot =>
  split
  · exact SwapStep.refl s
  split
  · exact .restored pid (pageBase addr) hslot ⟨rfl, rfl, rfl, rfl⟩
  · exact (allocateOrEvict_step _ ord pid (pageBase addr)).of_manager

theorem handleSwapOut_step (s : MemoryService) (pid : Pid) (virt : VirtAddr) :
    SwapStep s (s.handleSwapOut pid virt).service := by
  simp only [MemoryService.handleSwapOut]
  split
  · exact SwapStep.refl s
  split
  · next swap hnone =>
    rw [SwapManager.allocateSlot_none hnone]
    exact SwapStep.refl s
  · next slot swap hslot => exact .taken pid (virt.toNat / 4096) hslot ⟨rfl, rfl, rfl, rfl⟩

theorem handleSwapOutWithResponse_step (s : MemoryService) (pid : Pid) (virt : VirtAddr) :
    SwapStep s (s.handleSwapOutWithResponse pid virt).service := by
  simp only [MemoryService.handleSwapOutWithResponse]
  split
  · exact SwapStep.refl s
  split
  · next swap hnone =>
    rw [SwapManager.allocateSlot_none hnone]
    exact SwapStep.refl s
  next slot swap hslot =>
  split
  · next swap' hout =>
    rw [SwapManager.swapOut_disk hout]
    exact .taken pid (virt.toNat / 4096) hslot ⟨rfl, rfl, rfl, rfl⟩
  · next swap' hout =>
    rw [SwapManager.swapOut_disk hout]
    exact .taken pid (virt.toNat / 4096) hslot ⟨rfl, rfl, rfl, rfl⟩

theorem handleSwapIn_step (s : MemoryService) (pid : Pid) (virt : VirtAddr)
    (hleaves : ∀ slot, s.slotOfPage pid (virt.toNat / 4096) = some slot →
      ∀ q v, s.swappedSlot q v ≠ some slot.number) :
    SwapStep s (s.handleSwapIn pid virt).service := by
  simp only [MemoryService.handleSwapIn]
  split
  · exact SwapStep.refl s
  · next slot hslot => exact .freed (hleaves slot hslot) ⟨rfl, rfl, rfl, rfl⟩

theorem handleSwapInWithResponse_step (s : MemoryService) (pid : Pid) (virt : VirtAddr)
    (hleaves : ∀ slot, s.slotOfPage pid (virt.toNat / 4096) = some slot →
      ∀ q v, s.swappedSlot q v ≠ some slot.number) :
    SwapStep s (s.handleSwapInWithResponse pid virt).service := by
  simp only [MemoryService.handleSwapInWithResponse]
  split
  · exact SwapStep.refl s
  next slot hslot =>
  have hfreed : ∀ s', SwapKept { s with swapManager := (s.swapManager.freeSlot slot.number).2 } s' →
      SwapStep s s' := fun s' h => .freed (hleaves slot hslot) h
  split
  · exact hfreed _ ⟨rfl, rfl, rfl, rfl⟩
  split
  · exact hfreed _ ⟨rfl, rfl, rfl, rfl⟩
  split
  · exact hfreed _ ⟨rfl, rfl, rfl, rfl⟩
  · exact hfreed _ ⟨rfl, rfl, rfl, rfl⟩

/-- A request without a response channel. -/
theorem handleMessage_step {ord : HashOrder} {req : MemoryRequest}
    (hleaves : LeavesRecord ⟨s, ⟨ord, req, false⟩, s'⟩) : SwapStep s (s.handleMessage req) := by
  cases req with
  | allocFrame count pid => exact .kept ⟨rfl, rfl, rfl, rfl⟩
  | freeFrame paddr => exact .kept ⟨rfl, rfl, rfl, rfl⟩
  | mapPage pid virt phys prot => exact .kept (handleMapPage_kept s pid virt phys prot)
  | unmapPage pid virt =>
    simp only [MemoryService.handleMessage, MemoryService.handleMemoryRequest,
      MemoryService.handleUnmapPage]
    split
    · exact .kept ⟨rfl, rfl, rfl, rfl⟩
    · exact SwapStep.refl s
  | pageFaultHandler pid addr access => exact .kept (handlePageFault_kept s pid addr access)
  | swapOut pid virt => exact handleSwapOut_step s pid virt
  | swapIn pid virt => exact handleSwapIn_step s pid virt hleaves
  | getStats => exact SwapStep.refl s
  | getFrameMap => exact SwapStep.refl s

/-- A request with a response channel. -/
theorem handleEnvelope_step {ord : HashOrder} {req : MemoryRequest}
    (hleaves : LeavesRecord ⟨s, ⟨ord, req, true⟩, s'⟩) :
    SwapStep s (s.handleEnvelope ord req).1 := by
  rw [handleEnvelope_service]
  -- frames and mappings leave the record; faults and swaps have their own lemmas
  cases req with
  | allocFrame count pid =>
    simp only [MemoryService.handleMemoryRequestWithResponse,
      MemoryService.handleAllocFrameWithResponse]
    split
    · exact .kept ⟨rfl, rfl, rfl, rfl⟩
    · exact .kept ⟨rfl, rfl, rfl, rfl⟩
  | freeFrame paddr =>
    simp only [MemoryService.handleMemoryRequestWithResponse,
      MemoryService.handleFreeFrameWithResponse]
    split
    · exact .kept ⟨rfl, rfl, rfl, rfl⟩
    · exact .kept ⟨rfl, rfl, rfl, rfl⟩
  | mapPage pid virt phys prot =>
    simp only [MemoryService.handleMemoryRequestWithResponse,
      MemoryService.handleMapPageWithResponse]
    split
    · exact .kept ⟨rfl, rfl, rfl, rfl⟩
    · exact SwapStep.refl s
  | unmapPage pid virt =>
    simp only [MemoryService.handleMemoryRequestWithResponse,
      MemoryService.handleUnmapPageWithResponse]
    split
    · exact .kept ⟨rfl, rfl, rfl, rfl⟩
    · exact SwapStep.refl s
  | pageFaultHandler pid addr access => exact handlePageFaultWithResponse_step s ord pid addr access
  | swapOut pid virt => exact handleSwapOutWithResponse_step s pid virt
  | swapIn pid virt => exact handleSwapInWithResponse_step s pid virt hleaves
  | getStats => exact SwapStep.refl s
  | getFrameMap => exact SwapStep.refl s

/-- What every request does, in either form. -/
theorem take_step {e : MemoryEvent} (hleaves : LeavesRecord ⟨s, e, s'⟩) :
    SwapStep s (s.take e) := by
  obtain ⟨ord, req, answered⟩ := e
  cases answered with
  | false => exact handleMessage_step hleaves
  | true => exact handleEnvelope_step hleaves

/-! ## The record stays true -/

/-- The queue of free slots is exact and the record is true. -/
structure Bookkept (s : MemoryService) : Prop extends Recorded s where
  exact_slots : s.swapManager.Exact

theorem Bookkept.kept (hb : Bookkept s) (h : SwapKept s s') : Bookkept s' where
  slot := by
    intro pid v n hn
    rw [h.swappedSlot] at hn
    rw [h.slots]
    exact hb.slot pid v n hn
  distinct := by
    intro pid v pid' v' n hn hn'
    rw [h.swappedSlot] at hn hn'
    exact hb.distinct pid v pid' v' n hn hn'
  exact_slots := by
    have hx := hb.exact_slots
    refine ⟨?_, ?_, ?_, ?_, ?_⟩
    · rw [h.slots, h.totalSlots]
      exact hx.length_eq
    · rw [h.totalSlots]
      exact hx.total_le
    · rw [h.slots]
      exact hx.number_eq
    · rw [h.freeQueue]
      exact hx.queue_nodup
    · rw [h.freeQueue, h.slots]
      exact hx.queue_free

/-- A slot that was free is not recorded. -/
theorem Bookkept.unrecorded (hb : Bookkept s) {n : Nat} (hfree : ¬s.swapManager.Occupied n) (q : Pid)
    (v : VirtAddr) : s.swappedSlot q v ≠ some n := by
  intro hn
  obtain ⟨slot, hslot, hocc, -⟩ := hb.slot q v n hn
  exact hfree ⟨slot, hslot, hocc⟩

theorem Bookkept.taken (hb : Bookkept s) {pid : Pid} {vpn : Nat} {slot : SwapSlot}
    {swap : SwapManager} (hslot : s.swapManager.allocateSlot pid vpn = (some slot, swap)) :
    Bookkept { s with swapManager := swap } where
  slot := by
    intro q v n hn
    obtain ⟨-, -, hfree, -⟩ := SwapManager.allocateSlot_spec hb.exact_slots hslot
    obtain ⟨-, -, -, hslots⟩ := SwapManager.allocateSlot_slots hb.exact_slots hslot
    have hne : n ≠ slot.number := by
      rintro rfl
      exact hb.unrecorded hfree q v hn
    rw [hslots, if_neg hne]
    exact hb.slot q v n hn
  distinct := hb.distinct
  exact_slots := (SwapManager.allocateSlot_spec hb.exact_slots hslot).1

theorem Bookkept.evicted (hb : Bookkept s) {pid : Pid} {page : VirtAddr} {slot : SwapSlot}
    {swap : SwapManager}
    (hslot : s.swapManager.allocateSlot pid (page.toNat / 4096) = (some slot, swap)) :
    Bookkept (MemoryService.insertSwapped { s with swapManager := swap } pid page slot.number) := by
  have htaken := hb.taken hslot
  obtain ⟨-, -, hfree, -⟩ := SwapManager.allocateSlot_spec hb.exact_slots hslot
  obtain ⟨hocc, howner, hvpn, hslots⟩ := SwapManager.allocateSlot_slots hb.exact_slots hslot
  refine ⟨⟨?_, ?_⟩, htaken.exact_slots⟩
  · intro q v n hn
    rw [MemoryService.insertSwapped_swappedSlot] at hn
    split at hn
    · next heq =>
      cases hn
      obtain ⟨rfl, rfl⟩ := heq
      refine ⟨slot, ?_, hocc, howner, hvpn⟩
      show swap.slots[slot.number]? = some slot
      rw [hslots, if_pos rfl]
    · exact htaken.slot q v n hn
  · intro q v q' v' n hn hn'
    rw [MemoryService.insertSwapped_swappedSlot] at hn hn'
    -- the new slot was free, so no other page is recorded in it
    split at hn
    · next heq =>
      split at hn'
      · next heq' => exact ⟨heq.1.trans heq'.1.symm, heq.2.trans heq'.2.symm⟩
      · cases hn
        exact absurd hn' (hb.unrecorded hfree q' v')
    · split at hn'
      · cases hn'
        exact absurd hn (hb.unrecorded hfree q v)
      · exact hb.distinct q v q' v' n hn hn'

theorem Bookkept.freed (hb : Bookkept s) {n : Nat} (hfree : ∀ q v, s.swappedSlot q v ≠ some n) :
    Bookkept { s with swapManager := (s.swapManager.freeSlot n).2 } where
  slot := by
    intro q v k hk
    have hne : k ≠ n := by
      rintro rfl
      exact hfree q v hk
    rw [SwapManager.freeSlot_slots s.swapManager hne]
    exact hb.slot q v k hk
  distinct := hb.distinct
  exact_slots := (SwapManager.freeSlot_spec hb.exact_slots n).1

theorem Bookkept.restored (hb : Bookkept s) {pid : Pid} {page : VirtAddr} {n : Nat}
    (hslot : s.swappedSlot pid page = some n) :
    Bookkept (MemoryService.removeSwapped
      { s with swapManager := (s.swapManager.freeSlot n).2 } pid page) := by
  -- without its page the slot is not recorded any more
  have hremoved : Bookkept (s.removeSwapped pid page) := by
    refine ⟨⟨?_, ?_⟩, hb.exact_slots⟩
    · intro q v k hk
      rw [MemoryService.removeSwapped_swappedSlot] at hk
      split at hk
      · cases hk
      · exact hb.slot q v k hk
    · intro q v q' v' k hk hk'
      rw [MemoryService.removeSwapped_swappedSlot] at hk hk'
      split at hk
      · cases hk
      · split at hk'
        · cases hk'
        · exact hb.distinct q v q' v' k hk hk'
  refine hremoved.freed ?_
  intro q v hq
  rw [MemoryService.removeSwapped_swappedSlot] at hq
  split at hq
  · cases hq
  · next hne => exact hne (hb.distinct q v pid page n hq hslot)

theorem Bookkept.step (hb : Bookkept s) (h : SwapStep s s') : Bookkept s' := by
  cases h with
  | kept h => exact hb.kept h
  | taken pid vpn hslot h => exact (hb.taken hslot).kept h
  | freed hfree h => exact (hb.freed hfree).kept h
  | restored pid page hslot h => exact (hb.restored hslot).kept h
  | evicted pid page hslot h => exact (hb.evicted hslot).kept h

theorem bookkept_boot (size : UInt64) (swapImage : Nat → UInt8) :
    Bookkept (bootMemory size swapImage) where
  slot := by
    intro pid v n hn
    cases hn
  distinct := by
    intro pid v pid' v' n hn
    cases hn
  exact_slots := SwapManager.default_exact _

/-- Whatever the requests, as long as no explicit swap-in frees a recorded slot the record agrees with
the slots, in every state of the run. -/
theorem slots_recorded (size : UInt64) (swapImage : Nat → UInt8) (events : List MemoryEvent)
    (h : ∀ t ∈ (runTrace memoryTransition (bootMemory size swapImage) events).2, LeavesRecord t) :
    Recorded (runTrace memoryTransition (bootMemory size swapImage) events).1 ∧
      ∀ t ∈ (runTrace memoryTransition (bootMemory size swapImage) events).2,
        Recorded t.pre ∧ Recorded t.post := by
  have hinv := memoryTrace_invariant (bookkept_boot size swapImage) events
    fun t ht hpre => hpre.step (take_step (h t ht))
  refine ⟨hinv.1.toRecorded, ?_⟩
  intro t ht
  exact ⟨(hinv.2 t ht).1.toRecorded, (hinv.2 t ht).2.toRecorded⟩

/-- Three processes take the only frame from one another, which leaves two recorded slots. Process 5 is given
a slot on request and gives it back. -/
def sparedEvents : List MemoryEvent :=
  [⟨HashOrder.stored, .pageFaultHandler 1 0 .read, true⟩,
    ⟨HashOrder.stored, .pageFaultHandler 2 0 .read, true⟩,
    ⟨HashOrder.stored, .pageFaultHandler 3 0 .read, true⟩, ⟨HashOrder.stored, .swapOut 5 0, false⟩,
    ⟨HashOrder.stored, .swapIn 5 0, false⟩]

/-- The two recorded slots stay as they are. -/
theorem slots_recorded_spared :
    Recorded (runTrace memoryTransition (bootMemory 4096 fun _ => 0) sparedEvents).1 ∧
      (runTrace memoryTransition (bootMemory 4096 fun _ => 0) sparedEvents).1.swappedSlot 1 0 = some 0 ∧
      (runTrace memoryTransition (bootMemory 4096 fun _ => 0) sparedEvents).1.swappedSlot 2 0 = some 1 := by
  have hslots : (runTrace memoryTransition (bootMemory 4096 fun _ => 0) sparedEvents).1.swappedSlot 1 0 =
        some 0 ∧
      (runTrace memoryTransition (bootMemory 4096 fun _ => 0) sparedEvents).1.swappedSlot 2 0 = some 1 := by
    rw [bootMemory_eq]
    decide +kernel
  -- the slot that comes back is the third one, and the record has other slots only
  have hspared : ∀ {s : MemoryService} {t : Transition MemoryService MemoryEvent}, t.pre = s →
      t.act.req = .swapIn 5 0 → ((s.slotOfPage 5 0).all fun slot => slot.number == 2) = true →
      (s.swappedPages.entries.all fun e => e.2.entries.all fun e' => e'.2 != 2) = true → LeavesRecord t := by
    rintro s ⟨pre, ⟨ord, req, answered⟩, post⟩ rfl rfl hthird hothers slot hslot q v hrecorded
    obtain ⟨pages, hpages, hpage⟩ := Option.bind_eq_some_iff.1 hrecorded
    have hnumber : slot.number = 2 := beq_iff_eq.1 ((Option.all_eq_true _ _).1 hthird slot hslot)
    have hentry := List.all_eq_true.1 (List.all_eq_true.1 hothers ⟨q, pages⟩ (AList.mem_lookup_iff.1 hpages))
      ⟨v, slot.number⟩ (AList.mem_lookup_iff.1 hpage)
    rw [hnumber] at hentry
    cases hentry
  refine ⟨(slots_recorded 4096 (fun _ => 0) _ ?_).1, hslots⟩
  intro t ht
  simp only [sparedEvents, runTrace, memoryTransition, List.cons_append, List.nil_append, List.mem_cons,
    List.not_mem_nil, or_false] at ht
  rcases ht with rfl | rfl | rfl | rfl | rfl
  · trivial
  · trivial
  · trivial
  · trivial
  · rw [bootMemory_eq]
    exact hspared rfl rfl (by decide +kernel) (by decide +kernel)

/-- Process 2 takes the only frame from process 1, whose page goes to a slot; then an explicit swap-in
frees this slot. -/
def strayEvents : List MemoryEvent :=
  [⟨HashOrder.stored, .pageFaultHandler 1 0 .read, true⟩,
    ⟨HashOrder.stored, .pageFaultHandler 2 0 .read, true⟩, ⟨HashOrder.stored, .swapIn 1 0, false⟩]

/-- The record points to a free slot. -/
theorem recorded_slot_freed :
    ¬Recorded (runTrace memoryTransition (bootMemory 4096 fun _ => 0) strayEvents).1 := by
  have hfinal : (runTrace memoryTransition (bootMemory 4096 fun _ => 0) strayEvents).1.swappedSlot 1 0
        = some 0 ∧
      (runTrace memoryTransition (bootMemory 4096 fun _ => 0)
        strayEvents).1.swapManager.slots[0]?.map SwapSlot.occupied = some false := by
    rw [bootMemory_eq]
    decide +kernel
  intro h
  obtain ⟨slot, hslot, hocc, -⟩ := h.slot 1 0 0 hfinal.1
  have hfree := hfinal.2
  rw [hslot, Option.map_some, hocc] at hfree
  cases hfree

end GenshinOs.Memory
