import GenshinOs.Lib.Ledger
import GenshinOs.Memory.SwapRequests
import GenshinOs.Memory.FreeFrames

/-!
# Swap slot tables

The swap manager with the checks that the machine makes: an index outside of the slots, an occupied slot
without an owner and a counter below zero stop the program (`none`). The four tables of the manager are the
slots with their owners, the queue of the free slots, the lists of the processes and the counter. Owners,
queue and lists are a ledger; an operation on the manager is an operation on the ledger.

The loop over the slots of a process runs after the list of the process is removed, so within the loop the
owners agree with the lists as they would be if the process still had the rest of its list
(`freeAll_spec`). At its end nothing is left of it, and the tables agree again. So no check fails in any
sequence of operations, and the tables are exact after it (`slot_tables_exact`).
-/

set_option autoImplicit false

namespace GenshinOs.Memory

open GenshinOs.Lib GenshinOs.Hardware

namespace SwapManager

/-! ## Operations with checks -/

/-- Swap is on. -/
def enable (m : SwapManager) : SwapManager := { m with enabled := true }

/-- Swap is off. -/
def disable (m : SwapManager) : SwapManager := { m with enabled := false }

/-- A slot is taken; `none` where the code would panic. -/
def allocateSlotChecked (m : SwapManager) (pid : Pid) (vpn : Nat) :
    Option (Option SwapSlot × SwapManager) :=
  if m.enabled = false then some (none, m)
  else
    match m.freeQueue with
    | [] => some (none, m)
    | slotNum :: rest => do
      let slot ← m.slots[slotNum]?
      return (some (slot.occupy pid vpn),
        { m with
          slots := m.slots.set slotNum (slot.occupy pid vpn)
          freeQueue := rest
          processSlots := m.processSlots.insert pid
            ((m.processSlots.lookup pid).getD [] ++ [slotNum])
          usedSlots := m.usedSlots + 1 })

/-- A slot is given back; `none` where the code would panic. -/
def freeSlotChecked (m : SwapManager) (slotNum : Nat) : Option (Bool × SwapManager) :=
  if slotNum ≥ m.totalSlots then some (false, m)
  else do
    let slot ← m.slots[slotNum]?
    if slot.occupied = false then return (false, m)
    else
      let pid ← slot.owner
      let usedSlots ← FrameAllocator.lower m.usedSlots
      return (true,
        { m with
          slots := m.slots.set slotNum slot.free
          freeQueue := m.freeQueue ++ [slotNum]
          processSlots := HashMap.adjust m.processSlots pid fun slots => slots.erase slotNum
          usedSlots := usedSlots })

/-- The loop over the slots of a process, with the number of those that are freed so far. -/
def freeAllChecked (m : SwapManager) : List Nat → Nat → Option (Nat × SwapManager)
  | [], freed => some (freed, m)
  | slotNum :: rest, freed => do
    let result ← m.freeSlotChecked slotNum
    result.2.freeAllChecked rest (if result.1 then freed + 1 else freed)

/-- The list of a process is removed. -/
def unlisted (m : SwapManager) (pid : Pid) : SwapManager :=
  { m with processSlots := m.processSlots.erase pid }

/-- All slots of a process are given back; `none` where the code would panic. -/
def freeProcessSlotsChecked (m : SwapManager) (pid : Pid) : Option (Nat × SwapManager) :=
  match m.processSlots.lookup pid with
  | some slotNums => (m.unlisted pid).freeAllChecked slotNums 0
  | none => some (0, m)

/-- The loop without checks. -/
def freeAll (m : SwapManager) : List Nat → Nat → Nat × SwapManager
  | [], freed => (freed, m)
  | slotNum :: rest, freed =>
    let result := m.freeSlot slotNum
    result.2.freeAll rest (if result.1 then freed + 1 else freed)

/-- The same without the checks. -/
def freeProcessSlots (m : SwapManager) (pid : Pid) : Nat × SwapManager :=
  match m.processSlots.lookup pid with
  | some slotNums => (m.unlisted pid).freeAll slotNums 0
  | none => (0, m)

/-- Operations on the slot tables. -/
inductive Request where
  | allocateSlot (pid : Pid) (vpn : Nat)
  | freeSlot (slotNum : Nat)
  | freeProcessSlots (pid : Pid)
  | enable
  | disable

/-- The manager after an operation, if no check fails. -/
def serveChecked (m : SwapManager) : Request → Option SwapManager
  | .allocateSlot pid vpn => (m.allocateSlotChecked pid vpn).map Prod.snd
  | .freeSlot slotNum => (m.freeSlotChecked slotNum).map Prod.snd
  | .freeProcessSlots pid => (m.freeProcessSlotsChecked pid).map Prod.snd
  | .enable => some m.enable
  | .disable => some m.disable

/-- A request of the interface. -/
def serve (m : SwapManager) : Request → SwapManager
  | .allocateSlot pid vpn => (m.allocateSlot pid vpn).2
  | .freeSlot slotNum => (m.freeSlot slotNum).2
  | .freeProcessSlots pid => (m.freeProcessSlots pid).2
  | .enable => m.enable
  | .disable => m.disable

/-! ## The slots and their counter -/

/-- The slots have their numbers, the occupied ones have owners, and the counter is how many these are. -/
structure Tallied (m : SwapManager) : Prop where
  length_eq : m.slots.length = m.totalSlots
  number_eq : ∀ (n : Nat) (s : SwapSlot), m.slots[n]? = some s → s.number = n
  owner_eq : ∀ s ∈ m.slots, s.owner.isSome = s.occupied
  used_eq : m.usedSlots = m.slots.countP SwapSlot.occupied

section slots

variable {m : SwapManager} {n : Nat} {old : SwapSlot}

/-- The lists, the queue and the switch do not matter to the slots. -/
theorem Tallied.of_slots (h : m.Tallied) {m' : SwapManager} (hslots : m'.slots = m.slots)
    (htotal : m'.totalSlots = m.totalSlots) (hused : m'.usedSlots = m.usedSlots) : m'.Tallied := by
  refine ⟨?_, ?_, ?_, ?_⟩
  · rw [hslots, htotal]
    exact h.length_eq
  · rw [hslots]
    exact h.number_eq
  · rw [hslots]
    exact h.owner_eq
  · rw [hslots, hused]
    exact h.used_eq

/-- One slot is replaced, and the counter is adjusted. -/
theorem Tallied.set (h : m.Tallied) (hold : m.slots[n]? = some old) {slot : SwapSlot}
    (hnumber : slot.number = old.number) (howner : slot.owner.isSome = slot.occupied) {m' : SwapManager}
    (hslots : m'.slots = m.slots.set n slot) (htotal : m'.totalSlots = m.totalSlots)
    (hused : m'.usedSlots = m.usedSlots - (if old.occupied then 1 else 0) + if slot.occupied then 1 else 0) :
    m'.Tallied := by
  obtain ⟨hlt, hget⟩ := List.getElem?_eq_some_iff.1 hold
  refine ⟨?_, ?_, ?_, ?_⟩
  · rw [hslots, List.length_set, htotal]
    exact h.length_eq
  · intro i s hs
    rw [hslots, getElem?_set_slot hold] at hs
    split at hs
    · next hi =>
      cases hs
      rw [hnumber, ← hi]
      exact h.number_eq n old hold
    · exact h.number_eq i s hs
  · intro s hs
    rw [hslots] at hs
    rcases List.mem_or_eq_of_mem_set hs with hs | rfl
    · exact h.owner_eq s hs
    · exact howner
  · rw [hslots, List.countP_set hlt, hget, hused, h.used_eq]

theorem new_tallied (config : SwapConfig) (disk : VirtualDisk) : (new config disk).Tallied where
  length_eq := by simp [new]
  number_eq n s hs := by
    simp only [new, List.getElem?_map, Option.map_eq_some_iff] at hs
    obtain ⟨i, hi, rfl⟩ := hs
    have hin := (List.getElem?_eq_some_iff.1 hi).2
    rw [List.getElem_range] at hin
    exact hin.symm
  owner_eq s hs := by
    obtain ⟨i, -, rfl⟩ := List.mem_map.1 hs
    rfl
  used_eq := by
    refine (List.countP_eq_zero.2 fun s hs => ?_).symm
    obtain ⟨i, -, rfl⟩ := List.mem_map.1 hs
    exact Bool.false_ne_true

/-- After the slot at the front of the queue is given to a process. -/
def given (m : SwapManager) (slotNum : Nat) (rest : List Nat) (slot : SwapSlot) (pid : Pid) (vpn : Nat) :
    SwapManager :=
  { m with
    slots := m.slots.set slotNum (slot.occupy pid vpn)
    freeQueue := rest
    processSlots := m.processSlots.insert pid ((m.processSlots.lookup pid).getD [] ++ [slotNum])
    usedSlots := m.usedSlots + 1 }

theorem Tallied.exists_owner (h : m.Tallied) (hold : m.slots[n]? = some old) (hocc : old.occupied = true) :
    ∃ pid, old.owner = some pid := by
  rw [← Option.isSome_iff_exists, h.owner_eq old (List.mem_of_getElem? hold)]
  exact hocc

theorem Tallied.owner_none_iff (h : m.Tallied) (hold : m.slots[n]? = some old) :
    old.owner = none ↔ old.occupied = false := by
  rw [← h.owner_eq old (List.mem_of_getElem? hold), Option.isSome_eq_false_iff, Option.isNone_iff_eq_none]

/-- An occupied slot is counted. -/
theorem Tallied.used_pos (h : m.Tallied) (hold : m.slots[n]? = some old) (hocc : old.occupied = true) :
    1 ≤ m.usedSlots := by
  rw [h.used_eq, List.one_le_countP_iff]
  exact ⟨old, List.mem_of_getElem? hold, hocc⟩

/-- A free finds the slot, its owner, and a counter above zero. -/
theorem freeSlotChecked_eq (h : m.Tallied) (n : Nat) : m.freeSlotChecked n = some (m.freeSlot n) := by
  rw [freeSlotChecked, freeSlot]
  split
  · rfl
  · next hlt =>
    obtain ⟨old, hold⟩ : ∃ old, m.slots[n]? = some old := by
      rw [ge_iff_le, Nat.not_le, ← h.length_eq] at hlt
      exact ⟨_, List.getElem?_eq_getElem hlt⟩
    simp only [hold, Option.bind_eq_bind, Option.bind_some]
    by_cases hfree : old.occupied = false
    · rw [if_pos hfree, if_pos hfree]
      rfl
    · have hocc : old.occupied = true := eq_true_of_ne_false hfree
      obtain ⟨pid, howner⟩ := h.exists_owner hold hocc
      rw [if_neg hfree, if_neg hfree, howner, FrameAllocator.lower_eq (h.used_pos hold hocc)]
      rfl

theorem Tallied.released (h : m.Tallied) (hold : m.slots[n]? = some old) (hocc : old.occupied = true) :
    (m.released n old).Tallied := by
  have hnumber : old.free.number = old.number := rfl
  refine h.set hold hnumber rfl rfl rfl ?_
  rw [hocc]
  rfl

theorem Tallied.given (h : m.Tallied) {rest : List Nat} {pid : Pid} {vpn : Nat}
    (hold : m.slots[n]? = some old) (hfree : old.occupied = false) :
    (m.given n rest old pid vpn).Tallied := by
  have hnumber : (old.occupy pid vpn).number = old.number := rfl
  refine h.set hold hnumber rfl rfl rfl ?_
  rw [hfree]
  rfl

theorem Tallied.freeSlot (h : m.Tallied) (n : Nat) : (m.freeSlot n).2.Tallied := by
  rcases m.freeSlot_cases n with ⟨heq, -⟩ | ⟨old, hold, hocc, heq⟩
  · rw [heq]
    exact h
  · rw [heq]
    exact h.released hold hocc

theorem freeAllChecked_eq (h : m.Tallied) (slotNums : List Nat) (freed : Nat) :
    m.freeAllChecked slotNums freed = some (m.freeAll slotNums freed) := by
  induction slotNums generalizing m freed with
  | nil => rfl
  | cons slotNum rest ih =>
    rw [freeAllChecked, freeSlotChecked_eq h, freeAll]
    exact ih (h.freeSlot slotNum) _

theorem freeProcessSlotsChecked_eq (h : m.Tallied) (pid : Pid) :
    m.freeProcessSlotsChecked pid = some (m.freeProcessSlots pid) := by
  rw [freeProcessSlotsChecked, freeProcessSlots]
  cases m.processSlots.lookup pid with
  | none => rfl
  | some slotNums =>
    -- the slots are the same without the list of the process
    have hrest : (m.unlisted pid).Tallied := h.of_slots rfl rfl rfl
    exact freeAllChecked_eq hrest slotNums 0

end slots

/-! ## The ledger -/

/-- The process that a slot belongs to. -/
def ownerOf (m : SwapManager) (slotNum : Nat) : Option Pid := m.slots[slotNum]?.bind SwapSlot.owner

/-- The owners, the queue and the lists. -/
def ledger (m : SwapManager) : Ledger Pid := ⟨m.ownerOf, m.freeQueue, m.slotNums⟩

/-- The ledger as it would be if the list of the process were another one. -/
def owing (m : SwapManager) (pid : Pid) (slotNums : List Nat) : Ledger Pid :=
  ⟨m.ownerOf, m.freeQueue, Function.update m.slotNums pid slotNums⟩

section ledger

variable {m : SwapManager} {n : Nat} {old : SwapSlot} {pid : Pid}

theorem ownerOf_set (hold : m.slots[n]? = some old) {slot : SwapSlot} {m' : SwapManager}
    (hslots : m'.slots = m.slots.set n slot) : m'.ownerOf = Function.update m.ownerOf n slot.owner := by
  funext i
  rw [ownerOf, hslots, getElem?_set_slot hold]
  rcases eq_or_ne i n with rfl | hne
  · rw [if_pos rfl, Function.update_self]
    rfl
  · rw [if_neg hne.symm, Function.update_of_ne hne]
    rfl

theorem slotNums_taken (howner : old.owner = some pid) :
    (m.released n old).slotNums = Function.update m.slotNums pid ((m.slotNums pid).erase n) := by
  funext q
  rw [slotNums_released, howner, Option.getD_some, Function.update_apply]
  split
  · next hq => rw [hq]
  · rfl

theorem slotNums_given (rest : List Nat) (slot : SwapSlot) (vpn : Nat) :
    (m.given n rest slot pid vpn).slotNums = Function.update m.slotNums pid (m.slotNums pid ++ [n]) := by
  funext q
  rw [slotNums, given, HashMap.lookup_insert_eq, Function.update_apply]
  split
  · rfl
  · rfl

theorem ledger_given {rest : List Nat} (hqueue : m.freeQueue = n :: rest) (hold : m.slots[n]? = some old)
    (vpn : Nat) : (m.given n rest old pid vpn).ledger = m.ledger.handOut pid n := by
  have htail : m.ledger.queue.tail = rest := congrArg List.tail hqueue
  rw [ledger, slotNums_given, ownerOf_set hold rfl, Ledger.handOut, htail]
  rfl

theorem ledger_released (hold : m.slots[n]? = some old) (howner : old.owner = some pid) :
    (m.released n old).ledger = m.ledger.takeBack pid n := by
  rw [ledger, slotNums_taken howner, ownerOf_set hold rfl]
  rfl

/-- In the loop, a free takes the front of the rest of the list. -/
theorem owing_released (hold : m.slots[n]? = some old) (howner : old.owner = some pid) (rest : List Nat) :
    (m.released n old).owing pid rest = (m.owing pid (n :: rest)).takeBack pid n := by
  rw [owing, slotNums_taken howner, ownerOf_set hold rfl, Function.update_idem, owing, Ledger.takeBack]
  simp only [Function.update_self, Function.update_idem, List.erase_cons_head]
  rfl

theorem slotNums_unlisted (m : SwapManager) (pid : Pid) : (m.unlisted pid).slotNums pid = [] := by
  rw [slotNums, unlisted, HashMap.lookup_erase_eq, if_pos rfl]
  rfl

/-- Without the list, the ledger would be as before if the process still had it. -/
theorem owing_unlisted (m : SwapManager) (pid : Pid) :
    (m.unlisted pid).owing pid (m.slotNums pid) = m.ledger := by
  have hlists : Function.update (m.unlisted pid).slotNums pid (m.slotNums pid) = m.slotNums := by
    funext q
    rw [Function.update_apply]
    split
    · next hq => rw [hq]
    · next hq =>
      rw [slotNums, unlisted, HashMap.lookup_erase_eq, if_neg hq]
      rfl
  rw [owing, hlists]
  rfl

/-- The loop frees every slot of the list. -/
theorem freeAll_spec (ht : m.Tallied) (hgone : m.slotNums pid = []) {slotNums : List Nat}
    (h : (m.owing pid slotNums).Agree m.totalSlots) (freed : Nat) :
    (m.freeAll slotNums freed).2.Tallied ∧ (m.freeAll slotNums freed).2.totalSlots = m.totalSlots ∧
      (m.freeAll slotNums freed).2.ledger = (m.owing pid slotNums).takeBackAll pid slotNums ∧
      (m.freeAll slotNums freed).1 = freed + slotNums.length := by
  induction slotNums generalizing m freed with
  | nil =>
    refine ⟨ht, rfl, ?_, rfl⟩
    -- nothing is left of the list
    rw [freeAll, Ledger.takeBackAll, owing, ← hgone, Function.update_eq_self]
    rfl
  | cons n rest ih =>
    have howner : m.ownerOf n = some pid := by
      apply (h.mem_lists_iff pid n).1
      show n ∈ Function.update m.slotNums pid (n :: rest) pid
      rw [Function.update_self]
      exact List.mem_cons_self
    obtain ⟨s, hs, hspid⟩ := Option.bind_eq_some_iff.1 howner
    have hsocc : s.occupied = true := by
      rw [← ht.owner_eq s (List.mem_of_getElem? hs), hspid]
      rfl
    rw [freeAll]
    rcases m.freeSlot_cases n with ⟨-, hidle⟩ | ⟨old, hold, hocc, heq⟩
    · exact absurd ⟨s, hs, hsocc⟩ (hidle (h.owner_lt n pid howner))
    · cases hs.symm.trans hold
      -- the owner is the process of the list, so the next free is about the rest of it
      have hgone' : (m.released n s).slotNums pid = [] := by
        rw [slotNums_taken hspid, Function.update_self, hgone]
        rfl
      have hagree : ((m.released n s).owing pid rest).Agree m.totalSlots := by
        rw [owing_released hold hspid]
        exact h.takeBack howner
      obtain ⟨htallied, htotal, hledger, hcount⟩ := ih (ht.released hold hocc) hgone' hagree (freed + 1)
      simp only [heq, if_true]
      refine ⟨htallied, htotal, ?_, ?_⟩
      · rw [hledger, owing_released hold hspid]
        rfl
      · rw [hcount, List.length_cons]
        omega

end ledger

/-! ## The tables agree -/

/-- Slots and counter are right, and so are owners, queue and lists. -/
structure TablesAgree (m : SwapManager) : Prop where
  tallied : m.Tallied
  agree : m.ledger.Agree m.totalSlots

section agree

variable {m : SwapManager}

theorem new_tablesAgree (config : SwapConfig) (disk : VirtualDisk) : (new config disk).TablesAgree where
  tallied := new_tallied config disk
  agree := by
    have hfresh : (new config disk).ledger = Ledger.fresh (new config disk).totalSlots := by
      have howner : (new config disk).ownerOf = fun _ => none := by
        funext n
        rw [ownerOf, Option.bind_eq_none_iff]
        intro s hs
        obtain ⟨i, -, rfl⟩ := List.mem_map.1 (List.mem_of_getElem? hs)
        rfl
      rw [ledger, howner]
      rfl
    rw [hfresh]
    exact Ledger.fresh_agree _

/-- A number is queued when its slot is free. -/
theorem TablesAgree.mem_queue_iff (h : m.TablesAgree) (n : Nat) :
    n ∈ m.freeQueue ↔ ∃ s, m.slots[n]? = some s ∧ s.occupied = false := by
  have hqueue : n ∈ m.freeQueue ↔ n < m.totalSlots ∧ m.ownerOf n = none := h.agree.mem_queue_iff n
  rw [hqueue, ← h.tallied.length_eq]
  constructor
  · rintro ⟨hlt, hnone⟩
    have hslot := List.getElem?_eq_getElem hlt
    refine ⟨_, hslot, ?_⟩
    apply (h.tallied.owner_none_iff hslot).1
    exact Option.bind_eq_none_iff.1 hnone _ hslot
  · rintro ⟨s, hs, hfree⟩
    refine ⟨(List.getElem?_eq_some_iff.1 hs).1, ?_⟩
    rw [ownerOf, hs]
    exact (h.tallied.owner_none_iff hs).2 hfree

/-- An allocation finds nothing, or hands out the front of the queue. -/
theorem TablesAgree.allocateSlot (h : m.TablesAgree) (pid : Pid) (vpn : Nat) :
    (m.allocateSlot pid vpn).2.TablesAgree := by
  cases halloc : m.allocateSlot pid vpn with
  | mk result m' =>
    cases result with
    | none =>
      rw [allocateSlot_none halloc]
      exact h
    | some slot =>
      obtain ⟨n, rest, old, hqueue, hold, rfl, rfl⟩ := allocateSlot_some halloc
      -- the front of the queue is free, so it is not counted yet
      obtain ⟨s, hs, hfree⟩ := (h.mem_queue_iff n).1 (by rw [hqueue]; exact List.mem_cons_self)
      cases hs.symm.trans hold
      show (m.given n rest old pid vpn).TablesAgree
      refine ⟨h.tallied.given hold hfree, ?_⟩
      rw [ledger_given hqueue hold]
      exact h.agree.handOut hqueue pid

theorem TablesAgree.freeSlot (h : m.TablesAgree) (n : Nat) : (m.freeSlot n).2.TablesAgree := by
  rcases m.freeSlot_cases n with ⟨heq, -⟩ | ⟨old, hold, hocc, heq⟩
  · rw [heq]
    exact h
  · rw [heq]
    obtain ⟨pid, howner⟩ := h.tallied.exists_owner hold hocc
    refine ⟨h.tallied.released hold hocc, ?_⟩
    rw [ledger_released hold howner]
    apply h.agree.takeBack
    exact Option.bind_eq_some_iff.2 ⟨old, hold, howner⟩

/-- A process gives back all of its slots; the answer is how many these were. -/
theorem TablesAgree.freeProcessSlots_spec (h : m.TablesAgree) (pid : Pid) :
    (m.freeProcessSlots pid).2.TablesAgree ∧ (m.freeProcessSlots pid).2.slotNums pid = [] ∧
      (m.freeProcessSlots pid).1 = (m.slotNums pid).length := by
  rw [freeProcessSlots]
  cases hlookup : m.processSlots.lookup pid with
  | none =>
    have hnone : m.slotNums pid = [] := by
      rw [slotNums, hlookup]
      rfl
    refine ⟨h, hnone, ?_⟩
    rw [hnone]
    rfl
  | some slotNums =>
    have hlist : m.slotNums pid = slotNums := by
      rw [SwapManager.slotNums, hlookup]
      rfl
    -- the loop starts without the list, but the ledger is as if the process still had it
    have htallied : (m.unlisted pid).Tallied := h.tallied.of_slots rfl rfl rfl
    have howing := owing_unlisted m pid
    rw [hlist] at howing
    have hagree := h.agree
    rw [← howing] at hagree
    obtain ⟨hafter, htotal, hledger, hcount⟩ := freeAll_spec htallied (slotNums_unlisted m pid) hagree 0
    obtain ⟨hback, hempty⟩ := h.agree.takeBackAll hlist
    rw [howing] at hledger
    -- afterwards nothing is left of the list, and this is also what the manager has
    refine ⟨⟨hafter, ?_⟩, ?_, ?_⟩
    · rw [hledger, htotal]
      exact hback
    · show (freeAll _ slotNums 0).2.ledger.lists pid = []
      rw [hledger]
      exact hempty
    · rw [hcount, hlist, Nat.zero_add]

/-- The front of the queue is the number of a slot. -/
theorem allocateSlotChecked_eq (h : m.TablesAgree) (pid : Pid) (vpn : Nat) :
    m.allocateSlotChecked pid vpn = some (m.allocateSlot pid vpn) := by
  rw [allocateSlotChecked, allocateSlot]
  split
  · rfl
  · cases hqueue : m.freeQueue with
    | nil => rfl
    | cons n rest =>
      obtain ⟨slot, hslot, -⟩ := (h.mem_queue_iff n).1 (by rw [hqueue]; exact List.mem_cons_self)
      simp only [hslot]
      rfl

/-- As long as the tables agree the checks do not matter. -/
theorem serveChecked_eq (h : m.TablesAgree) (req : Request) : m.serveChecked req = some (m.serve req) := by
  cases req with
  | allocateSlot pid vpn =>
    rw [serveChecked, allocateSlotChecked_eq h]
    rfl
  | freeSlot n =>
    rw [serveChecked, freeSlotChecked_eq h.tallied]
    rfl
  | freeProcessSlots pid =>
    rw [serveChecked, freeProcessSlotsChecked_eq h.tallied]
    rfl
  | enable => rfl
  | disable => rfl

theorem TablesAgree.serve (h : m.TablesAgree) (req : Request) : (m.serve req).TablesAgree := by
  cases req with
  | allocateSlot pid vpn => exact h.allocateSlot pid vpn
  | freeSlot n => exact h.freeSlot n
  | freeProcessSlots pid => exact (h.freeProcessSlots_spec pid).1
  | enable => exact ⟨h.tallied.of_slots rfl rfl rfl, h.agree⟩
  | disable => exact ⟨h.tallied.of_slots rfl rfl rfl, h.agree⟩

end agree

/-! ## Counts -/

/-- What the queue, the counter and the lists say about the slots. -/
structure SlotTablesExact (m : SwapManager) : Prop where
  length_eq : m.slots.length = m.totalSlots
  number_eq : ∀ (n : Nat) (s : SwapSlot), m.slots[n]? = some s → s.number = n
  queue_free : ∀ n, (∃ s, m.slots[n]? = some s ∧ s.occupied = false) → m.freeQueue.count n = 1
  queue_other : ∀ n, (∀ s, m.slots[n]? = some s → s.occupied = true) → n ∉ m.freeQueue
  usedSlots_eq : m.usedSlots = m.slots.countP fun s => s.occupied
  owned : ∀ (n : Nat) (s : SwapSlot), m.slots[n]? = some s → s.occupied = true →
    ∃ pid slotNums, s.owner = some pid ∧ m.processSlots.lookup pid = some slotNums ∧
      slotNums.count n = 1
  listed : ∀ pid slotNums, m.processSlots.lookup pid = some slotNums → ∀ n ∈ slotNums,
    ∃ s, m.slots[n]? = some s ∧ s.occupied = true ∧ s.owner = some pid
  hasSpace_iff : m.hasSpace = true ↔ ∃ s ∈ m.slots, s.occupied = false

section counts

variable {m : SwapManager}

/-- A number is in the list of a process when its slot belongs to the process. -/
theorem TablesAgree.mem_slotNums_iff (h : m.TablesAgree) (pid : Pid) (n : Nat) :
    n ∈ m.slotNums pid ↔ ∃ s, m.slots[n]? = some s ∧ s.occupied = true ∧ s.owner = some pid := by
  have hlists : n ∈ m.slotNums pid ↔ m.ownerOf n = some pid := h.agree.mem_lists_iff pid n
  rw [hlists, ownerOf, Option.bind_eq_some_iff]
  constructor
  · rintro ⟨s, hs, howner⟩
    refine ⟨s, hs, ?_, howner⟩
    rw [← h.tallied.owner_eq s (List.mem_of_getElem? hs), howner]
    rfl
  · rintro ⟨s, hs, -, howner⟩
    exact ⟨s, hs, howner⟩

theorem TablesAgree.slotTablesExact (h : m.TablesAgree) : m.SlotTablesExact := by
  refine ⟨h.tallied.length_eq, h.tallied.number_eq, ?_, ?_, h.tallied.used_eq, ?_, ?_, ?_⟩
  · intro n hn
    have hnodup : m.freeQueue.Nodup := h.agree.queue_nodup
    exact List.count_eq_one_of_mem hnodup ((h.mem_queue_iff n).2 hn)
  · intro n hn hmem
    obtain ⟨s, hs, hfree⟩ := (h.mem_queue_iff n).1 hmem
    rw [hn s hs] at hfree
    cases hfree
  · intro n s hs hocc
    obtain ⟨pid, howner⟩ := h.tallied.exists_owner hs hocc
    have hmem : n ∈ m.slotNums pid := (h.mem_slotNums_iff pid n).2 ⟨s, hs, hocc, howner⟩
    have hnodup : (m.slotNums pid).Nodup := h.agree.lists_nodup pid
    -- a process with a slot has a list
    cases hlookup : m.processSlots.lookup pid with
    | none =>
      rw [slotNums, hlookup] at hmem
      cases hmem
    | some slotNums =>
      rw [SwapManager.slotNums, hlookup] at hmem hnodup
      exact ⟨pid, slotNums, howner, hlookup, List.count_eq_one_of_mem hnodup hmem⟩
  · intro pid slotNums hlookup n hn
    apply (h.mem_slotNums_iff pid n).1
    rw [SwapManager.slotNums, hlookup]
    exact hn
  · rw [hasSpace, Bool.not_eq_true', List.isEmpty_eq_false_iff_exists_mem]
    constructor
    · rintro ⟨n, hn⟩
      obtain ⟨s, hs, hfree⟩ := (h.mem_queue_iff n).1 hn
      exact ⟨s, List.mem_of_getElem? hs, hfree⟩
    · rintro ⟨s, hs, hfree⟩
      obtain ⟨n, hn⟩ := List.mem_iff_getElem?.1 hs
      exact ⟨n, (h.mem_queue_iff n).2 ⟨s, hn, hfree⟩⟩

end counts

/-- After every sequence of operations, none of which is stopped by a check, the slot tables are exact. -/
theorem slot_tables_exact (config : SwapConfig) (disk : VirtualDisk) (reqs : List Request) :
    ∃ m, reqs.foldlM serveChecked (new config disk) = some m ∧ m.SlotTablesExact := by
  have hrun : ∀ m : SwapManager, m.TablesAgree →
      ∃ m', reqs.foldlM serveChecked m = some m' ∧ m'.TablesAgree := by
    induction reqs with
    | nil => exact fun m h => ⟨m, rfl, h⟩
    | cons req reqs ih =>
      intro m h
      obtain ⟨m', hrest, h'⟩ := ih (m.serve req) (h.serve req)
      refine ⟨m', ?_, h'⟩
      rw [List.foldlM_cons, serveChecked_eq h]
      exact hrest
  obtain ⟨m, hm, h⟩ := hrun _ (new_tablesAgree config disk)
  exact ⟨m, hm, h.slotTablesExact⟩

end SwapManager

end GenshinOs.Memory
