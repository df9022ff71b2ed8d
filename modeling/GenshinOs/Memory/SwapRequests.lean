import GenshinOs.Hardware.Translation
import GenshinOs.Memory.Answers

/-!
# Swapping on request

The requests that write a page to swap and bring it back. Every swap-out takes a new slot, and a
swap-in takes the first slot of the page that the process has, frees it, and reports success also
when the page is not mapped. A swap-in is therefore sure to restore the page as it was at the last
swap-out when there is one slot only and the page can be written; a swap-out is sure to save the
page when its address is aligned and all of it can be read.

The slots of a process change by one at a time: `getProcessSlots_allocateSlot` and
`getProcessSlots_freeSlot`. The invariant is about the newest slot of every page.
-/

set_option autoImplicit false

namespace GenshinOs.Memory

open GenshinOs.Lib GenshinOs.Hardware

namespace SwapManager

variable {m : SwapManager}

/-- The slot numbers of a process. -/
def slotNums (m : SwapManager) (pid : Pid) : List Nat := (m.processSlots.lookup pid).getD []

theorem getProcessSlots_eq (m : SwapManager) (pid : Pid) :
    m.getProcessSlots pid = (m.slotNums pid).filterMap m.getSlot := by
  rw [getProcessSlots, slotNums]
  cases m.processSlots.lookup pid <;> rfl

/-- The lists have the slots that are in use by their processes, each once. -/
structure Listed (m : SwapManager) : Prop where
  exact : m.Exact
  listed : ∀ pid, ∀ n ∈ m.slotNums pid, ∃ slot, m.slots[n]? = some slot ∧
    slot.occupied = true ∧ slot.owner = some pid
  nodup : ∀ pid, (m.slotNums pid).Nodup

theorem Listed.new (disk : VirtualDisk) : (new SwapConfig.default disk).Listed where
  exact := default_exact disk
  listed _ _ hn := absurd hn List.not_mem_nil
  nodup _ := List.nodup_nil

/-- A listed slot is found, with its number. -/
theorem Listed.getSlot (h : m.Listed) {pid : Pid} {n : Nat} (hn : n ∈ m.slotNums pid) :
    ∃ slot, m.getSlot n = some slot ∧ slot.number = n ∧ slot.owner = some pid := by
  obtain ⟨slot, hslot, -, howner⟩ := h.listed pid n hn
  have hlt : n < m.totalSlots := by
    rw [← h.exact.length_eq]
    exact (List.getElem?_eq_some_iff.1 hslot).1
  refine ⟨slot, ?_, h.exact.number_eq n slot hslot, howner⟩
  rw [SwapManager.getSlot, if_pos hlt, hslot]

theorem Listed.mem_getProcessSlots (h : m.Listed) {pid : Pid} {slot : SwapSlot}
    (hslot : slot ∈ m.getProcessSlots pid) :
    slot.number ∈ m.slotNums pid ∧ m.slots[slot.number]? = some slot ∧ slot.owner = some pid := by
  rw [getProcessSlots_eq, List.mem_filterMap] at hslot
  obtain ⟨n, hn, hget⟩ := hslot
  obtain ⟨slot', hget', hnum, howner⟩ := h.getSlot hn
  rw [hget] at hget'
  cases hget'
  rw [hnum]
  refine ⟨hn, ?_, howner⟩
  rw [SwapManager.getSlot] at hget
  split at hget
  · exact hget
  · cases hget

/-- The slots of a process have the numbers of its list. -/
theorem Listed.numbers (h : m.Listed) (pid : Pid) :
    (m.getProcessSlots pid).map SwapSlot.number = m.slotNums pid := by
  have hlist : ∀ nums : List Nat, (∀ n ∈ nums, n ∈ m.slotNums pid) →
      (nums.filterMap m.getSlot).map SwapSlot.number = nums := by
    intro nums
    induction nums with
    | nil => exact fun _ => rfl
    | cons n nums ih =>
      intro hall
      obtain ⟨slot, hget, hnum, -⟩ := h.getSlot (hall n List.mem_cons_self)
      rw [List.filterMap_cons_some hget, List.map_cons, hnum,
        ih fun k hk => hall k (List.mem_cons_of_mem n hk)]
  rw [getProcessSlots_eq]
  exact hlist _ fun n hn => hn

/-! ## Taking and freeing a slot -/

theorem slotNums_allocateSlot {m' : SwapManager} (hx : m.Exact) {pid : Pid} {vpn : Nat}
    {slot : SwapSlot} (halloc : m.allocateSlot pid vpn = (some slot, m')) (q : Pid) :
    m'.slotNums q = if q = pid then m.slotNums q ++ [slot.number] else m.slotNums q := by
  obtain ⟨n, rest, old, -, hold, rfl, rfl⟩ := allocateSlot_some halloc
  have hnum : (old.occupy pid vpn).number = n := hx.number_eq n old hold
  rw [hnum]
  simp only [slotNums, HashMap.lookup_insert_eq]
  rcases eq_or_ne q pid with rfl | hne
  · simp
  · simp [hne]

theorem Listed.allocateSlot {m' : SwapManager} (h : m.Listed) {pid : Pid} {vpn : Nat}
    {slot : SwapSlot} (halloc : m.allocateSlot pid vpn = (some slot, m')) : m'.Listed := by
  obtain ⟨hexact, -, hfree, -⟩ := allocateSlot_spec h.exact halloc
  obtain ⟨hocc, howner, -, hslots⟩ := allocateSlot_slots h.exact halloc
  -- the new slot was free, so it is in no list
  have hnew : ∀ q, slot.number ∉ m.slotNums q := by
    intro q hmem
    obtain ⟨s, hs, hsocc, -⟩ := h.listed q _ hmem
    exact hfree ⟨s, hs, hsocc⟩
  have hold : ∀ q, ∀ n ∈ m.slotNums q, ∃ s, m'.slots[n]? = some s ∧ s.occupied = true ∧
      s.owner = some q := by
    intro q n hn
    rw [hslots, if_neg (by rintro rfl; exact hnew q hn)]
    exact h.listed q n hn
  refine ⟨hexact, fun q n hn => ?_, fun q => ?_⟩
  · rw [slotNums_allocateSlot h.exact halloc] at hn
    split at hn
    · next hq =>
      rcases List.mem_append.1 hn with hn | hn
      · exact hold q n hn
      · rw [List.mem_singleton.1 hn, hslots, if_pos rfl, hq]
        exact ⟨slot, rfl, hocc, howner⟩
    · exact hold q n hn
  · rw [slotNums_allocateSlot h.exact halloc]
    split
    · rw [List.nodup_append]
      refine ⟨h.nodup q, List.nodup_singleton _, ?_⟩
      rintro n hn k hk rfl
      rw [List.mem_singleton.1 hk] at hn
      exact hnew q hn
    · exact h.nodup q

/-- A swap-out adds its slot behind the others of its process. -/
theorem getProcessSlots_allocateSlot {m' : SwapManager} (h : m.Listed) {pid : Pid} {vpn : Nat}
    {slot : SwapSlot} (halloc : m.allocateSlot pid vpn = (some slot, m')) (q : Pid) :
    m'.getProcessSlots q =
      if q = pid then m.getProcessSlots q ++ [slot] else m.getProcessSlots q := by
  obtain ⟨-, -, hfree, -, hlt, htotal, -⟩ := allocateSlot_spec h.exact halloc
  obtain ⟨-, -, -, hslots⟩ := allocateSlot_slots h.exact halloc
  have hsame : ∀ q, (m.slotNums q).filterMap m'.getSlot = (m.slotNums q).filterMap m.getSlot := by
    intro q
    apply List.filterMap_congr
    intro n hn
    have hne : n ≠ slot.number := by
      rintro rfl
      obtain ⟨s, hs, hsocc, -⟩ := h.listed q _ hn
      exact hfree ⟨s, hs, hsocc⟩
    rw [SwapManager.getSlot, SwapManager.getSlot, htotal, hslots, if_neg hne]
  have hget : m'.getSlot slot.number = some slot := by
    rw [SwapManager.getSlot, if_pos hlt, hslots, if_pos rfl]
  rw [getProcessSlots_eq, slotNums_allocateSlot h.exact halloc]
  split
  · rw [List.filterMap_append, hsame, ← getProcessSlots_eq, List.filterMap_cons_some hget]
    rfl
  · rw [hsame, ← getProcessSlots_eq]

theorem slotNums_released (n : Nat) (slot : SwapSlot) (q : Pid) :
    (m.released n slot).slotNums q =
      if q = slot.owner.getD 0 then (m.slotNums q).erase n else m.slotNums q := by
  rw [slotNums, released, HashMap.lookup_adjust, slotNums]
  split
  · next hq =>
    rw [hq]
    cases m.processSlots.lookup (slot.owner.getD 0) with
    | none => rfl
    | some nums => rfl
  · rfl

theorem slotNums_freeSlot (h : m.Listed) (n : Nat) (q : Pid) :
    (m.freeSlot n).2.slotNums q = (m.slotNums q).filter (· ≠ n) := by
  -- a slot that is not the process's own is not in its list
  have hout : n ∉ m.slotNums q → (m.slotNums q).filter (· ≠ n) = m.slotNums q := by
    intro hnot
    rw [List.filter_eq_self]
    intro k hk
    rw [decide_eq_true_eq]
    rintro rfl
    exact hnot hk
  rcases m.freeSlot_cases n with ⟨heq, hidle⟩ | ⟨old, hold, -, heq⟩
  · rw [heq, hout]
    intro hmem
    obtain ⟨s, hs, hocc, -⟩ := h.listed q n hmem
    exact hidle (h.exact.lt_of_occupied ⟨s, hs, hocc⟩) ⟨s, hs, hocc⟩
  · rw [heq, slotNums_released]
    split
    · rw [(h.nodup q).erase_eq_filter]
      apply List.filter_congr
      intro k _
      rw [Bool.eq_iff_iff]
      simp
    · next hq =>
      rw [hout]
      intro hmem
      obtain ⟨s, hs, -, howner⟩ := h.listed q n hmem
      rw [hold] at hs
      cases hs
      rw [howner] at hq
      exact hq rfl

theorem Listed.freeSlot (h : m.Listed) (n : Nat) : (m.freeSlot n).2.Listed := by
  refine ⟨(freeSlot_spec h.exact n).1, fun q k hk => ?_, fun q => ?_⟩
  · rw [slotNums_freeSlot h, List.mem_filter, decide_eq_true_eq] at hk
    rw [freeSlot_slots m hk.2]
    exact h.listed q k hk.1
  · rw [slotNums_freeSlot h]
    exact (h.nodup q).filter _

/-- Freeing a slot takes it out of the slots of its process. -/
theorem getProcessSlots_freeSlot (h : m.Listed) (n : Nat) (q : Pid) :
    (m.freeSlot n).2.getProcessSlots q = (m.getProcessSlots q).filter (·.number ≠ n) := by
  have htotal := (freeSlot_spec h.exact n).2.2.1
  rw [getProcessSlots_eq, getProcessSlots_eq, slotNums_freeSlot h]
  have hlist : ∀ nums : List Nat, (∀ k ∈ nums, k ∈ m.slotNums q) →
      (nums.filter (· ≠ n)).filterMap (m.freeSlot n).2.getSlot =
        (nums.filterMap m.getSlot).filter (·.number ≠ n) := by
    intro nums
    induction nums with
    | nil => exact fun _ => rfl
    | cons k nums ih =>
      intro hall
      obtain ⟨slot, hget, hnum, -⟩ := h.getSlot (hall k List.mem_cons_self)
      have hrest := ih fun j hj => hall j (List.mem_cons_of_mem k hj)
      rw [List.filterMap_cons_some hget]
      rcases eq_or_ne k n with rfl | hne
      · rw [List.filter_cons_of_neg (by simp), List.filter_cons_of_neg (by simp [hnum])]
        exact hrest
      · have hget' : (m.freeSlot n).2.getSlot k = some slot := by
          rw [SwapManager.getSlot, htotal, freeSlot_slots m hne]
          exact hget
        rw [List.filter_cons_of_pos (by simpa using hne), List.filterMap_cons_some hget',
          List.filter_cons_of_pos (by simpa [hnum] using hne), hrest]
  exact hlist _ fun k hk => hk

/-! ## The slots of a page -/

/-- The slots that a process has for a page, the oldest first. -/
def pageSlots (m : SwapManager) (pid : Pid) (vpn : Nat) : List SwapSlot :=
  (m.getProcessSlots pid).filter fun slot => slot.vpn == some vpn

theorem pageSlots_allocateSlot {m' : SwapManager} (h : m.Listed) {pid : Pid} {vpn : Nat}
    {slot : SwapSlot} (halloc : m.allocateSlot pid vpn = (some slot, m')) (q : Pid) (page : Nat) :
    m'.pageSlots q page =
      if q = pid ∧ page = vpn then m.pageSlots q page ++ [slot] else m.pageSlots q page := by
  obtain ⟨-, -, hvpn, -⟩ := allocateSlot_slots h.exact halloc
  rw [pageSlots, getProcessSlots_allocateSlot h halloc]
  rcases eq_or_ne q pid with rfl | hq
  · rw [if_pos rfl, List.filter_append]
    rcases eq_or_ne page vpn with rfl | hp
    · simp [hvpn, pageSlots]
    · simp [hvpn, hp, hp.symm, pageSlots]
  · simp [hq, pageSlots]

theorem Listed.mem_pageSlots (h : m.Listed) {pid : Pid} {vpn : Nat} {slot : SwapSlot}
    (hslot : slot ∈ m.pageSlots pid vpn) :
    m.slots[slot.number]? = some slot ∧ slot.owner = some pid ∧ slot.vpn = some vpn := by
  rw [pageSlots, List.mem_filter, beq_iff_eq] at hslot
  obtain ⟨-, hat, howner⟩ := h.mem_getProcessSlots hslot.1
  exact ⟨hat, howner, hslot.2⟩

theorem Listed.pageSlots_nodup (h : m.Listed) (pid : Pid) (vpn : Nat) :
    ((m.pageSlots pid vpn).map SwapSlot.number).Nodup := by
  have hnodup := h.nodup pid
  rw [← h.numbers pid] at hnodup
  exact hnodup.sublist (List.filter_sublist.map SwapSlot.number)

/-- Freeing the oldest slot of a page leaves the others, and the slots of other pages. -/
theorem pageSlots_freeSlot (h : m.Listed) {pid : Pid} {vpn : Nat} {slot : SwapSlot}
    {rest : List SwapSlot} (hslots : m.pageSlots pid vpn = slot :: rest) (q : Pid) (page : Nat) :
    (m.freeSlot slot.number).2.pageSlots q page =
      if q = pid ∧ page = vpn then rest else m.pageSlots q page := by
  have hfilter : (m.freeSlot slot.number).2.pageSlots q page =
      (m.pageSlots q page).filter (·.number ≠ slot.number) := by
    rw [pageSlots, getProcessSlots_freeSlot h, pageSlots, List.filter_filter, List.filter_filter]
    apply List.filter_congr
    intro s _
    exact Bool.and_comm _ _
  rw [hfilter]
  obtain ⟨hat, howner, hvpn⟩ := h.mem_pageSlots (by rw [hslots]; exact List.mem_cons_self)
  split
  · next heq =>
    -- the numbers of the slots are distinct: only the first one goes
    have hnodup := h.pageSlots_nodup pid vpn
    rw [hslots, List.map_cons, List.nodup_cons] at hnodup
    rw [heq.1, heq.2, hslots, List.filter_cons_of_neg (by simp), List.filter_eq_self]
    intro s hs
    rw [decide_eq_true_eq]
    intro hnum
    exact hnodup.1 (hnum ▸ List.mem_map_of_mem hs)
  · next hne =>
    rw [List.filter_eq_self]
    intro s hs
    rw [decide_eq_true_eq]
    intro hnum
    -- a slot with this number is that slot, and so of the same page
    obtain ⟨hat', howner', hvpn'⟩ := h.mem_pageSlots hs
    rw [hnum, hat] at hat'
    cases hat'
    rw [howner] at howner'
    rw [hvpn] at hvpn'
    exact hne ⟨(Option.some.inj howner').symm, (Option.some.inj hvpn').symm⟩

end SwapManager

theorem slotOfPage_eq (s : MemoryService) (pid : Pid) (vpn : Nat) :
    s.slotOfPage pid vpn = (s.swapManager.pageSlots pid vpn).head? := by
  rw [MemoryService.slotOfPage, SwapManager.pageSlots, List.head?_filter]

/-! ## Events and history -/

/-- What happens between the service and the processes whose pages it swaps. -/
inductive SwapEvent where
  | swapOut (pid : Pid) (virt : VirtAddr)
  | swapIn (pid : Pid) (virt : VirtAddr)
  | writeU8 (pid : Pid) (vaddr : VirtAddr) (value : UInt8)
  | table (op : TableOp)
  deriving DecidableEq, Repr

/-- One event, with the answers of a request. The swap handlers do not look at a hash order. -/
def MemoryService.swapStep (s : MemoryService) : SwapEvent → MemoryService × List Answer
  | .swapOut pid virt => s.handleEnvelope HashOrder.stored (.swapOut pid virt)
  | .swapIn pid virt => s.handleEnvelope HashOrder.stored (.swapIn pid virt)
  | .writeU8 pid vaddr value => ({ s with mmu := s.mmu.writeU8Lossy pid vaddr value }, [])
  | .table op => ({ s with mmu := s.mmu.perform op }, [])

/-- The request was answered with success. -/
def succeeded : List Answer → Bool
  | .ok _ :: _ => true
  | _ => false

/-- A step as a transition. -/
def swapTransition (s : MemoryService) (e : SwapEvent) :
    MemoryService × List (Transition MemoryService SwapEvent) :=
  ((s.swapStep e).1, [⟨s, e, (s.swapStep e).1⟩])

/-- The bytes of each page as they were read at its last successful swap-out. -/
abbrev Saved := Pid → VirtAddr → Option (Nat → Option UInt8)

/-- A page as its process reads it, byte by byte. -/
def pageRead (m : MMU) (pid : Pid) (virt : VirtAddr) : Nat → Option UInt8 :=
  fun i => (m.readU8 pid (virt + UInt64.ofNat i)).toOption

/-- What is recorded of a step: the bytes of a page that went to swap. -/
def recordSaved (g : Saved) (t : Transition MemoryService SwapEvent) : Saved :=
  match t.act with
  | .swapOut pid virt =>
    if succeeded (t.pre.swapStep t.act).2 then
      fun q page => if q = pid ∧ page = virt then some (pageRead t.pre.mmu pid virt) else g q page
    else g
  | _ => g

/-- A swap-in of a page that is answered with success leaves the page mapped, with the bytes of the
last successful swap-out. -/
def Restores (g : Saved) (t : Transition MemoryService SwapEvent) : Prop :=
  match t.act with
  | .swapIn pid virt => virt.toNat % 4096 = 0 → succeeded (t.pre.swapStep t.act).2 = true →
    ∃ bytes, g pid virt = some bytes ∧ ∀ i < 4096, ∃ b, bytes i = some b ∧
      t.post.mmu.readU8 pid (virt + UInt64.ofNat i) = .ok b
  | _ => True

/-- A page that is swapped out starts at its address and can be read; a page that is swapped in has
no second slot and can be written. -/
def SwapOrderly (_ : Saved) (t : Transition MemoryService SwapEvent) : Prop :=
  match t.act with
  | .swapOut pid virt => virt.toNat % 4096 = 0 ∧
    ∀ i < 4096, ∃ b, t.pre.mmu.readU8 pid (virt + UInt64.ofNat i) = .ok b
  | .swapIn pid virt => virt.toNat % 4096 = 0 →
    (t.pre.swapManager.pageSlots pid (virt.toNat / 4096)).length ≤ 1 ∧
      ∃ paddr, t.pre.mmu.translate pid virt .write = .ok paddr
  | _ => True

/-- The newest slot of every page holds what the page had at its last successful swap-out. -/
structure Kept (g : Saved) (s : MemoryService) : Prop where
  listed : s.swapManager.Listed
  tables : ∃ map, MMU.Refines PageSize.fourK s.mmu map
  newest : ∀ pid (virt : VirtAddr) slot, virt.toNat % 4096 = 0 →
    (s.swapManager.pageSlots pid (virt.toNat / 4096)).getLast? = some slot →
    s.swapManager.Backed slot.number →
    ∃ bytes, g pid virt = some bytes ∧
      ∀ i < 4096, bytes i = some (s.swapManager.slotByte slot.number i)

/-! ## Bytes of a page -/

/-- Byte `i` of an aligned page is byte `i` of its frame. -/
theorem readU8_in_page {m : MMU} {map : PageMap} (h : MMU.Refines PageSize.fourK m map) {pid : Pid}
    {virt : VirtAddr} (halign : virt.toNat % 4096 = 0) {i : Nat} (hi : i < 4096) (b : UInt8) :
    m.readU8 pid (virt + UInt64.ofNat i) = .ok b ↔
      ∃ first, m.translate pid virt .read = .ok first ∧ m.memory.InBounds (first.toNat + i) 1 ∧
        m.memory.data (first.toNat + i) = b := by
  have hfit : virt.toNat % PageSize.fourK.bytes.toNat + i < PageSize.fourK.bytes.toNat := by
    show virt.toNat % 4096 + i < 4096
    omega
  rw [MMU.readU8_eq_ok_iff]
  constructor
  · rintro ⟨paddr, htrans, hread⟩
    obtain ⟨first, hfirst, hsum⟩ := (h.translate_in_page hfit paddr).1 htrans
    rw [hsum] at hread
    exact ⟨first, hfirst, (PhysicalMemory.readU8_eq_ok_iff ..).1 hread⟩
  · rintro ⟨first, hfirst, hb, hdata⟩
    have hval : (UInt64.ofNat (first.toNat + i)).toNat = first.toNat + i := by
      have := hb.1
      rw [UInt64.toNat_ofNat', Nat.mod_eq_of_lt (by omega)]
    refine ⟨UInt64.ofNat (first.toNat + i), (h.translate_in_page hfit _).2 ⟨first, hfirst, hval⟩, ?_⟩
    rw [hval]
    exact (PhysicalMemory.readU8_eq_ok_iff ..).2 ⟨hb, hdata⟩

/-- A swap-out of a page that can be read saves what is read. -/
theorem pageRead_eq_frameData {m : MMU} {map : PageMap} (h : MMU.Refines PageSize.fourK m map)
    {pid : Pid} {virt : VirtAddr} (halign : virt.toNat % 4096 = 0)
    (hread : ∀ i < 4096, ∃ b, m.readU8 pid (virt + UInt64.ofNat i) = .ok b) {i : Nat}
    (hi : i < 4096) :
    pageRead m pid virt i = some ((MemoryService.frameData m pid virt).getD i 0) := by
  obtain ⟨b, hb⟩ := hread 4095 (by omega)
  obtain ⟨first, hfirst, hend, -⟩ := (readU8_in_page h halign (by omega) b).1 hb
  have hbounds : m.memory.InBounds first.toNat 4096 := by
    obtain ⟨h1, h2⟩ := hend
    exact ⟨by omega, by omega⟩
  have hslice : MemoryService.frameData m pid virt =
      (List.range 4096).map fun i => m.memory.data (first.toNat + i) := by
    simp only [MemoryService.frameData, hfirst, PhysicalMemory.readSlice,
      PhysicalMemory.checkBounds, if_pos hbounds]
  have hbyte : m.readU8 pid (virt + UInt64.ofNat i) = .ok (m.memory.data (first.toNat + i)) :=
    (readU8_in_page h halign hi _).2 ⟨first, hfirst, ⟨by have := hbounds.1; omega,
      by have := hbounds.2; omega⟩, rfl⟩
  rw [pageRead, hbyte, hslice, List.getD_eq_getElem?_getD]
  simp [hi, Except.toOption]

theorem writeSlice_eq_ok {memory memory' : PhysicalMemory} {addr : Nat} {data : List UInt8}
    (h : memory.writeSlice addr data = .ok memory') :
    memory.InBounds addr data.length ∧ memory'.size = memory.size ∧
      ∀ i < data.length, memory'.data (addr + i) = data.getD i 0 := by
  unfold PhysicalMemory.writeSlice PhysicalMemory.checkBounds at h
  by_cases hb : memory.InBounds addr data.length
  · simp only [hb, if_true, Except.ok.injEq] at h
    subst h
    refine ⟨hb, rfl, fun i hi => ?_⟩
    simp [List.getD_eq_getElem?_getD, hi]
  · simp [hb] at h

/-! ## The steps -/

/-- The lists do not depend on the disk. -/
theorem SwapManager.Listed.withDisk {m : SwapManager} (h : m.Listed) (d : VirtualDisk) :
    { m with disk := d }.Listed :=
  ⟨⟨h.exact.length_eq, h.exact.total_le, h.exact.number_eq, h.exact.queue_nodup,
    h.exact.queue_free⟩, h.listed, h.nodup⟩

/-- What a swap-out does: nothing, or it takes a slot and writes the page to it. -/
theorem swapOut_cases (s : MemoryService) (pid : Pid) (virt : VirtAddr) :
    ((s.swapStep (.swapOut pid virt)).1 = s ∧ succeeded (s.swapStep (.swapOut pid virt)).2 = false) ∨
    ∃ slot m', s.swapManager.allocateSlot pid (virt.toNat / 4096) = (some slot, m') ∧
      (s.swapStep (.swapOut pid virt)).1 = { s with
        swapManager := (m'.swapOut slot.number (MemoryService.frameData s.mmu pid virt)).2 } ∧
      (succeeded (s.swapStep (.swapOut pid virt)).2 = true ↔ m'.Backed slot.number) := by
  simp only [MemoryService.swapStep, MemoryService.handleEnvelope,
    MemoryService.handleMemoryRequestWithResponse, MemoryService.handleSwapOutWithResponse]
  cases hen : s.swapManager.enabled with
  | false => exact Or.inl ⟨rfl, rfl⟩
  | true =>
    simp only [Bool.true_eq_false, if_false]
    rcases halloc : s.swapManager.allocateSlot pid (virt.toNat / 4096) with ⟨_ | slot, m'⟩
    · obtain rfl := SwapManager.allocateSlot_none halloc
      exact Or.inl ⟨rfl, rfl⟩
    · refine Or.inr ⟨slot, m', rfl, ?_⟩
      rw [← m'.swapOut_iff slot.number (MemoryService.frameData s.mmu pid virt)]
      rcases hout : m'.swapOut slot.number (MemoryService.frameData s.mmu pid virt) with ⟨e | u, m''⟩
      · simp [succeeded, hout]
      · simp [succeeded, hout]

/-- What a swap-in does: nothing, or it frees the oldest slot of the page; success means that the
slot was read and that its bytes were stored if the page could be written. -/
theorem swapIn_cases (s : MemoryService) (pid : Pid) (virt : VirtAddr) :
    ((s.swapStep (.swapIn pid virt)).1 = s ∧ succeeded (s.swapStep (.swapIn pid virt)).2 = false) ∨
    ∃ slot rest memory, s.swapManager.pageSlots pid (virt.toNat / 4096) = slot :: rest ∧
      (s.swapStep (.swapIn pid virt)).1 = { s with
        swapManager := (s.swapManager.freeSlot slot.number).2,
        mmu := { s.mmu with memory := memory } } ∧
      (succeeded (s.swapStep (.swapIn pid virt)).2 = true →
        ∃ data, (s.swapManager.freeSlot slot.number).2.swapIn slot.number = .ok data ∧
          ∀ paddr, s.mmu.translate pid virt .write = .ok paddr →
            s.mmu.memory.writeSlice paddr.toNat data = .ok memory) := by
  simp only [MemoryService.swapStep, MemoryService.handleEnvelope,
    MemoryService.handleMemoryRequestWithResponse, MemoryService.handleSwapInWithResponse,
    slotOfPage_eq]
  cases hslots : s.swapManager.pageSlots pid (virt.toNat / 4096) with
  | nil => exact Or.inl ⟨rfl, rfl⟩
  | cons slot rest =>
    simp only [List.head?_cons]
    -- the slot is given back before it is read
    cases hin : (s.swapManager.freeSlot slot.number).2.swapIn slot.number with
    | error e => exact Or.inr ⟨slot, rest, s.mmu.memory, rfl, rfl, fun h => by cases h⟩
    | ok data =>
      -- an untranslated page counts as success, without its bytes
      cases htrans : s.mmu.translate pid virt .write with
      | error e => exact Or.inr ⟨slot, rest, s.mmu.memory, rfl, rfl, fun _ => ⟨data, hin, fun _ h => by cases h⟩⟩
      | ok paddr =>
        cases hwrite : s.mmu.memory.writeSlice paddr.toNat data with
        | error e =>
          refine Or.inr ⟨slot, rest, s.mmu.memory, rfl, ?_⟩
          simp [succeeded, hwrite]
        | ok memory =>
          refine Or.inr ⟨slot, rest, memory, rfl, ?_⟩
          simp only [hwrite]
          refine ⟨trivial, fun _ => ⟨data, hin, fun paddr' hpaddr => ?_⟩⟩
          cases hpaddr
          exact hwrite

theorem toNat_of_aligned {v w : VirtAddr} (hv : v.toNat % 4096 = 0) (hw : w.toNat % 4096 = 0)
    (h : v.toNat / 4096 = w.toNat / 4096) : v = w := by
  apply UInt64.toNat_inj.1
  omega

section steps

variable {g : Saved} {s : MemoryService}

theorem recordSaved_swapOut_self {s' : MemoryService} {pid : Pid} {virt : VirtAddr}
    (hok : succeeded (s.swapStep (.swapOut pid virt)).2 = true) :
    recordSaved g ⟨s, .swapOut pid virt, s'⟩ pid virt = some (pageRead s.mmu pid virt) := by
  simp only [recordSaved, if_pos hok, and_self, if_true]

theorem recordSaved_swapOut_of_ne {s' : MemoryService} {pid q : Pid} {virt v : VirtAddr}
    (hne : ¬(q = pid ∧ v = virt)) :
    recordSaved g ⟨s, .swapOut pid virt, s'⟩ q v = g q v := by
  simp only [recordSaved]
  split
  · exact if_neg hne
  · rfl

theorem Kept.swapOut (h : Kept g s) {pid : Pid} {virt : VirtAddr} (halign : virt.toNat % 4096 = 0)
    (hread : ∀ i < 4096, ∃ b, s.mmu.readU8 pid (virt + UInt64.ofNat i) = .ok b) :
    Kept (recordSaved g ⟨s, .swapOut pid virt, (s.swapStep (.swapOut pid virt)).1⟩)
      (s.swapStep (.swapOut pid virt)).1 := by
  rcases swapOut_cases s pid virt with ⟨hsame, hfail⟩ | ⟨slot, m', halloc, hnew, hiff⟩
  · simp only [recordSaved, hfail, hsame]
    exact h
  · obtain ⟨map, hmap⟩ := h.tables
    obtain ⟨hexact, hdisk, hfree, -, hlt, htotal, -⟩ :=
      SwapManager.allocateSlot_spec h.listed.exact halloc
    have hback : ∀ n, (m'.swapOut slot.number
        (MemoryService.frameData s.mmu pid virt)).2.Backed n ↔ m'.Backed n := fun n =>
      m'.swapOut_backed_iff slot.number n _
    have hslots : ∀ q page, (m'.swapOut slot.number
        (MemoryService.frameData s.mmu pid virt)).2.pageSlots q page =
        if q = pid ∧ page = virt.toNat / 4096 then s.swapManager.pageSlots q page ++ [slot]
        else s.swapManager.pageSlots q page := by
      intro q page
      rw [← SwapManager.pageSlots_allocateSlot h.listed halloc]
      rfl
    rw [hnew]
    refine ⟨(h.listed.allocateSlot halloc).withDisk _, ⟨map, hmap⟩, ?_⟩
    intro q v slot' hv hlast hbacked
    simp only [hslots] at hlast
    rw [hback] at hbacked
    split at hlast
    · -- the newest slot of the page is the one just written
      next heq =>
      rw [List.getLast?_append, List.getLast?_singleton, Option.some_or] at hlast
      cases hlast
      obtain rfl : v = virt := toNat_of_aligned hv halign heq.2
      have hok := hiff.2 hbacked
      refine ⟨pageRead s.mmu pid v, by simp [recordSaved, hok, heq.1], fun i hi => ?_⟩
      have hwritten := (m'.swapOut_iff slot.number (MemoryService.frameData s.mmu pid v)).2 hbacked
      rw [pageRead_eq_frameData hmap halign hread hi, (SwapManager.swapOut_ok hwritten).2 i hi]
    · next hne =>
      -- another page: its slot is in use, so it is not the new one
      have hmem : slot' ∈ s.swapManager.pageSlots q (v.toNat / 4096) := List.mem_of_getLast? hlast
      obtain ⟨hnum, -, howner⟩ := h.listed.mem_getProcessSlots (List.mem_of_mem_filter hmem)
      obtain ⟨occ, hat, hocc, -⟩ := h.listed.listed q _ hnum
      have hother : slot'.number ≠ slot.number := by
        intro heq
        exact hfree ⟨occ, heq ▸ hat, hocc⟩
      have hlt' : slot'.number < m'.totalSlots := by
        rw [htotal]
        exact h.listed.exact.lt_of_occupied ⟨occ, hat, hocc⟩
      have hbyte : ∀ i < 4096, (m'.swapOut slot.number
          (MemoryService.frameData s.mmu pid virt)).2.slotByte slot'.number i =
          s.swapManager.slotByte slot'.number i := by
        intro i hi
        rw [SwapManager.swapOut_slotByte_of_ne _ (hexact.startSector_ne hlt' hlt hother) hi,
          SwapManager.slotByte, hdisk, SwapManager.slotByte]
      rw [SwapManager.Backed, hdisk] at hbacked
      obtain ⟨bytes, hg, hbytes⟩ := h.newest q v slot' hv hlast hbacked
      refine ⟨bytes, ?_, fun i hi => by rw [hbytes i hi, hbyte i hi]⟩
      rw [recordSaved_swapOut_of_ne, hg]
      rintro ⟨rfl, rfl⟩
      exact hne ⟨rfl, rfl⟩

theorem Kept.swapIn (h : Kept g s) (pid : Pid) (virt : VirtAddr) :
    Kept g (s.swapStep (.swapIn pid virt)).1 := by
  rcases swapIn_cases s pid virt with ⟨hsame, -⟩ | ⟨slot, rest, memory, hslots, hnew, -⟩
  · rw [hsame]
    exact h
  · obtain ⟨map, hmap⟩ := h.tables
    have hdisk := (SwapManager.freeSlot_spec h.listed.exact slot.number).2.1
    rw [hnew]
    refine ⟨h.listed.freeSlot slot.number, ⟨map, hmap.pageSize_eq, hmap.mapped_eq⟩, ?_⟩
    intro q v slot' hv hlast hbacked
    rw [SwapManager.pageSlots_freeSlot h.listed hslots] at hlast
    -- what is left of a page ends in the same slot as before
    have hbefore : (s.swapManager.pageSlots q (v.toNat / 4096)).getLast? = some slot' := by
      split at hlast
      · next heq =>
        rw [heq.1, heq.2, hslots, List.getLast?_cons, hlast]
        rfl
      · exact hlast
    rw [SwapManager.Backed, hdisk] at hbacked
    obtain ⟨bytes, hg, hbytes⟩ := h.newest q v slot' hv hbefore hbacked
    refine ⟨bytes, hg, fun i hi => ?_⟩
    rw [hbytes i hi, SwapManager.slotByte, SwapManager.slotByte, hdisk]

/-- A page that can be written can be read. -/
theorem translate_read_of_write {m : MMU} {pid : Pid} {virt : VirtAddr} {paddr : PhysAddr}
    (h : m.translate pid virt .write = .ok paddr) : m.translate pid virt .read = .ok paddr := by
  rw [MMU.translate_eq_ok_iff] at h ⊢
  obtain ⟨entry, hentry, hallows, hpaddr⟩ := h
  exact ⟨entry, hentry, ⟨hallows.1, fun hne => absurd rfl hne⟩, hpaddr⟩

theorem Kept.restores (h : Kept g s) {pid : Pid} {virt : VirtAddr} (halign : virt.toNat % 4096 = 0)
    (hone : (s.swapManager.pageSlots pid (virt.toNat / 4096)).length ≤ 1) {paddr : PhysAddr}
    (htrans : s.mmu.translate pid virt .write = .ok paddr)
    (hok : succeeded (s.swapStep (.swapIn pid virt)).2 = true) :
    ∃ bytes, g pid virt = some bytes ∧ ∀ i < 4096, ∃ b, bytes i = some b ∧
      (s.swapStep (.swapIn pid virt)).1.mmu.readU8 pid (virt + UInt64.ofNat i) = .ok b := by
  rcases swapIn_cases s pid virt with ⟨-, hfail⟩ | ⟨slot, rest, memory, hslots, hnew, hdata⟩
  · rw [hfail] at hok
    cases hok
  · obtain ⟨map, hmap⟩ := h.tables
    obtain ⟨data, hin, hwrite⟩ := hdata hok
    have hdisk := (SwapManager.freeSlot_spec h.listed.exact slot.number).2.1
    -- the only slot of the page is its newest
    have hlast : (s.swapManager.pageSlots pid (virt.toNat / 4096)).getLast? = some slot := by
      rw [hslots] at hone ⊢
      obtain rfl : rest = [] := List.length_eq_zero_iff.1 (by simpa using hone)
      rfl
    have hbacked : (s.swapManager.freeSlot slot.number).2.Backed slot.number := by
      by_contra hnot
      obtain ⟨e, he⟩ := SwapManager.swapIn_error hnot
      rw [hin] at he
      cases he
    obtain ⟨data', hin', hlen, hbytes⟩ := SwapManager.swapIn_ok hbacked
    rw [hin] at hin'
    cases hin'
    obtain ⟨hbounds, hsize, hstored⟩ := writeSlice_eq_ok (hwrite paddr htrans)
    rw [hlen] at hbounds hstored
    rw [SwapManager.Backed, hdisk] at hbacked
    obtain ⟨bytes, hg, hsaved⟩ := h.newest pid virt slot halign hlast hbacked
    refine ⟨bytes, hg, fun i hi => ⟨_, hsaved i hi, ?_⟩⟩
    rw [hnew]
    have hmap' : MMU.Refines PageSize.fourK { s.mmu with memory := memory } map :=
      ⟨hmap.pageSize_eq, hmap.mapped_eq⟩
    apply (readU8_in_page hmap' halign hi _).2
    refine ⟨paddr, translate_read_of_write htrans, ?_, ?_⟩
    · have h1 := hbounds.1
      have h2 := hbounds.2
      exact ⟨by omega, by rw [hsize]; omega⟩
    · rw [hstored i hi, hbytes i hi, SwapManager.slotByte, hdisk, SwapManager.slotByte]

/-- A step that meets the condition keeps the invariant and restores what it should. -/
theorem Kept.step (h : Kept g s) {e : SwapEvent}
    (hok : SwapOrderly g ⟨s, e, (s.swapStep e).1⟩) :
    Kept (recordSaved g ⟨s, e, (s.swapStep e).1⟩) (s.swapStep e).1 ∧
      Restores g ⟨s, e, (s.swapStep e).1⟩ := by
  cases e with
  | swapOut pid virt => exact ⟨h.swapOut hok.1 hok.2, trivial⟩
  | swapIn pid virt =>
    refine ⟨h.swapIn pid virt, fun halign hsucc => ?_⟩
    obtain ⟨hone, paddr, htrans⟩ := hok halign
    exact h.restores halign hone htrans hsucc
  | writeU8 pid vaddr value =>
    obtain ⟨map, hmap⟩ := h.tables
    obtain ⟨htables, hsize, -⟩ := s.mmu.writeU8Lossy_tables pid vaddr value
    refine ⟨⟨h.listed, ⟨map, hsize.trans hmap.pageSize_eq, fun q v => ?_⟩, h.newest⟩, trivial⟩
    rw [← hmap.mapped_eq]
    show ((s.mmu.writeU8Lossy pid vaddr value).pageTables.lookup q).bind _ = _
    rw [htables]
    rfl
  | table op =>
    obtain ⟨map, hmap⟩ := h.tables
    exact ⟨⟨h.listed, ⟨_, hmap.perform op⟩, h.newest⟩, trivial⟩

end steps

theorem kept_boot (size : UInt64) (swapImage : Nat → UInt8) :
    Kept (fun _ _ => none) (bootMemory size swapImage) where
  listed := SwapManager.Listed.new _
  tables := ⟨_, MMU.Refines.new _ _⟩
  newest pid virt slot _ hlast := by
    have hnone : (bootMemory size swapImage).swapManager.pageSlots pid (virt.toNat / 4096) = [] := rfl
    rw [hnone] at hlast
    cases hlast

/-- A successful swap-in restores the page as of the last successful swap-out, in every run that
swaps out whole readable pages and brings in pages with one slot that can be written. -/
theorem swapIn_restores (size : UInt64) (swapImage : Nat → UInt8) (events : List SwapEvent)
    (h : Along recordSaved SwapOrderly (fun _ _ => none)
      (runTrace swapTransition (bootMemory size swapImage) events).2) :
    Along recordSaved Restores (fun _ _ => none)
      (runTrace swapTransition (bootMemory size swapImage) events).2 := by
  obtain ⟨hchain, hmem⟩ := runTrace_single (f := fun s e => (MemoryService.swapStep s e).1)
    (fun s e => (rfl : swapTransition s e = _)) (bootMemory size swapImage) events
  refine (hchain.segment ?_ _ (kept_boot size swapImage) h).2
  intro t ht g hkept hok
  obtain ⟨pre, act, post⟩ := t
  obtain rfl : post = (pre.swapStep act).1 := hmem _ ht
  exact hkept.step hok

/-- A page is written, swapped out, overwritten and swapped in. -/
theorem swapIn_restores_once :
    Along recordSaved Restores (fun _ _ => none)
      (runTrace swapTransition (bootMemory 8192 fun _ => 0)
        [.table (.mapPage 1 0x1000 0 PageFlags.presentWritable), .writeU8 1 0x1000 1,
          .swapOut 1 0x1000, .writeU8 1 0x1000 2, .swapIn 1 0x1000]).2 := by
  refine swapIn_restores 8192 (fun _ => 0) _ ⟨trivial, trivial, ⟨by decide, ?_⟩, trivial, ?_, trivial⟩
  · intro i hi
    have hkept := ((kept_boot 8192 fun _ => 0).step
      (e := .table (.mapPage 1 0x1000 0 PageFlags.presentWritable)) trivial).1
    obtain ⟨map, hmap⟩ := (hkept.step (e := .writeU8 1 0x1000 1) trivial).1.tables
    refine ⟨_, (readU8_in_page hmap (by decide) hi _).2 ⟨0, by decide +kernel, ?_, rfl⟩⟩
    show 0 + i + 1 < 2 ^ 64 ∧ 0 + i + 1 ≤ 8192
    omega
  · intro _
    refine ⟨?_, 0, ?_⟩
    · rw [bootMemory_eq]
      decide +kernel
    · rw [bootMemory_eq]
      decide +kernel

/-- To restore pages means in particular to give a page back that has just been swapped out. -/
theorem Restores.at_once {g : Saved} {s : MemoryService} {pid : Pid} {virt : VirtAddr}
    (halign : virt.toNat % 4096 = 0) (hout : succeeded (s.swapStep (.swapOut pid virt)).2 = true)
    (hin : succeeded ((s.swapStep (.swapOut pid virt)).1.swapStep (.swapIn pid virt)).2 = true)
    (h : Along recordSaved Restores g
      (runTrace swapTransition s [.swapOut pid virt, .swapIn pid virt]).2) {i : Nat} (hi : i < 4096) :
    ∃ b, pageRead s.mmu pid virt i = some b ∧
      ((s.swapStep (.swapOut pid virt)).1.swapStep (.swapIn pid virt)).1.mmu.readU8 pid
        (virt + UInt64.ofNat i) = .ok b := by
  obtain ⟨-, h, -⟩ := h
  obtain ⟨bytes, hg, hbytes⟩ := h halign hin
  have hrecorded : pageRead s.mmu pid virt = bytes :=
    Option.some.inj ((recordSaved_swapOut_self hout).symm.trans hg)
  rw [hrecorded]
  exact hbytes i hi

/-- A page is swapped out with the byte 1 and gets the byte 2. -/
def onceSwapped : List SwapEvent :=
  [.table (.mapPage 1 0x1000 0 PageFlags.presentWritable), .writeU8 1 0x1000 1, .swapOut 1 0x1000,
    .writeU8 1 0x1000 2]

/-- Swapped out again and then in, the page has the byte of the first swap-out. -/
theorem older_page_restored :
    ¬ Along recordSaved Restores (fun _ _ => none)
      (runTrace swapTransition (bootMemory 8192 fun _ => 0)
        (onceSwapped ++ [.swapOut 1 0x1000, .swapIn 1 0x1000])).2 := by
  have hsaved : pageRead (runTrace swapTransition (bootMemory 8192 fun _ => 0) onceSwapped).1.mmu 1
      0x1000 0 = some 2 := by
    rw [bootMemory_eq]
    decide +kernel
  have hrun : succeeded ((runTrace swapTransition (bootMemory 8192 fun _ => 0)
        onceSwapped).1.swapStep (.swapOut 1 0x1000)).2 = true ∧
      succeeded (((runTrace swapTransition (bootMemory 8192 fun _ => 0)
        onceSwapped).1.swapStep (.swapOut 1 0x1000)).1.swapStep (.swapIn 1 0x1000)).2 = true ∧
      (((runTrace swapTransition (bootMemory 8192 fun _ => 0)
        onceSwapped).1.swapStep (.swapOut 1 0x1000)).1.swapStep (.swapIn 1 0x1000)).1.mmu.readU8 1
        (0x1000 + UInt64.ofNat 0) = .ok 1 := by
    rw [bootMemory_eq]
    decide +kernel
  rw [runTrace_append, along_append]
  rintro ⟨-, h⟩
  obtain ⟨b, hb, hread⟩ := Restores.at_once (by decide) hrun.1 hrun.2.1 h (i := 0) (by decide)
  rw [hsaved] at hb
  rw [hrun.2.2] at hread
  cases hb
  cases hread

end GenshinOs.Memory
