import Mathlib.Data.List.Basic
import Mathlib.Data.List.Nodup

/-!
# Numbers that are handed out

The numbers below a bound are handed out to owners and taken back. Three records are kept of them: the owner
of each number, a queue of the numbers that nobody has, and the numbers of each owner as a list. `Agree` says
that the three records tell the same, and that the queue and the lists have no number twice. Handing out the
front of the queue and taking back a number from its owner keep it.
-/

set_option autoImplicit false

namespace GenshinOs.Lib

/-- The records of the numbers that are handed out. -/
structure Ledger (κ : Type) where
  owner : Nat → Option κ
  queue : List Nat
  lists : κ → List Nat

namespace Ledger

variable {κ : Type}

/-- The records tell the same about the numbers below `total`. -/
structure Agree (l : Ledger κ) (total : Nat) : Prop where
  owner_lt : ∀ n k, l.owner n = some k → n < total
  queue_nodup : l.queue.Nodup
  mem_queue_iff : ∀ n, n ∈ l.queue ↔ n < total ∧ l.owner n = none
  lists_nodup : ∀ k, (l.lists k).Nodup
  mem_lists_iff : ∀ k n, n ∈ l.lists k ↔ l.owner n = some k

/-- Nobody has a number yet. -/
def fresh (total : Nat) : Ledger κ := ⟨fun _ => none, List.range total, fun _ => []⟩

variable {l : Ledger κ} {total n : Nat}

theorem fresh_agree (total : Nat) : (fresh total : Ledger κ).Agree total where
  owner_lt _ _ hn := by cases hn
  queue_nodup := List.nodup_range
  mem_queue_iff n := by
    rw [fresh, List.mem_range]
    exact (and_iff_left rfl).symm
  lists_nodup _ := List.nodup_nil
  mem_lists_iff k n := iff_of_false List.not_mem_nil fun hn => by cases hn

variable [DecidableEq κ]

/-- A number goes from the front of the queue to an owner. -/
def handOut (l : Ledger κ) (k : κ) (n : Nat) : Ledger κ :=
  ⟨Function.update l.owner n (some k), l.queue.tail, Function.update l.lists k (l.lists k ++ [n])⟩

/-- A number goes from its owner to the end of the queue. -/
def takeBack (l : Ledger κ) (k : κ) (n : Nat) : Ledger κ :=
  ⟨Function.update l.owner n none, l.queue ++ [n], Function.update l.lists k ((l.lists k).erase n)⟩

/-- An owner gives back numbers, one after the other. -/
def takeBackAll (l : Ledger κ) (k : κ) : List Nat → Ledger κ
  | [] => l
  | n :: rest => (l.takeBack k n).takeBackAll k rest

theorem Agree.handOut {rest : List Nat} (h : l.Agree total) (hqueue : l.queue = n :: rest) (k : κ) :
    (l.handOut k n).Agree total := by
  have hnodup := h.queue_nodup
  rw [hqueue, List.nodup_cons] at hnodup
  obtain ⟨hlt, hnone⟩ := (h.mem_queue_iff n).1 (by rw [hqueue]; exact List.mem_cons_self)
  -- nobody has the front of the queue
  have hnew : ∀ k', n ∉ l.lists k' := by
    intro k' hmem
    rw [h.mem_lists_iff, hnone] at hmem
    cases hmem
  have htail : (l.handOut k n).queue = rest := congrArg List.tail hqueue
  refine ⟨?_, ?_, ?_, ?_, ?_⟩
  · intro n' k' howner
    rcases eq_or_ne n' n with rfl | hne
    · exact hlt
    · apply h.owner_lt n' k'
      rw [← howner]
      exact (Function.update_of_ne hne _ _).symm
  · rw [htail]
    exact hnodup.2
  · intro n'
    rw [htail, Ledger.handOut]
    rcases eq_or_ne n' n with rfl | hne
    · simp [hnodup.1]
    · simp only [Function.update_of_ne hne]
      rw [← h.mem_queue_iff, hqueue, List.mem_cons, or_iff_right hne]
  · intro k'
    rw [Ledger.handOut]
    rcases eq_or_ne k' k with rfl | hne
    · simp only [Function.update_self]
      exact (h.lists_nodup k').append (List.nodup_singleton n) (List.disjoint_singleton.2 (hnew k'))
    · simp only [Function.update_of_ne hne]
      exact h.lists_nodup k'
  · intro k' n'
    rw [Ledger.handOut]
    rcases eq_or_ne n' n with rfl | hnum
    · rcases eq_or_ne k' k with rfl | hne
      · simp
      · simp [hne, hne.symm, hnew k']
    · simp only [Function.update_of_ne hnum]
      rw [← h.mem_lists_iff]
      rcases eq_or_ne k' k with rfl | hne
      · simp [hnum]
      · simp [hne]

theorem Agree.takeBack {k : κ} (h : l.Agree total) (howner : l.owner n = some k) :
    (l.takeBack k n).Agree total := by
  have hqueue : n ∉ l.queue := by
    intro hmem
    rw [h.mem_queue_iff, howner] at hmem
    cases hmem.2
  refine ⟨?_, ?_, ?_, ?_, ?_⟩
  · intro n' k' howner'
    rcases eq_or_ne n' n with rfl | hne
    · exact h.owner_lt n' k howner
    · apply h.owner_lt n' k'
      rw [← howner']
      exact (Function.update_of_ne hne _ _).symm
  · rw [Ledger.takeBack]
    exact h.queue_nodup.append (List.nodup_singleton n) (List.disjoint_singleton.2 hqueue)
  · intro n'
    rw [Ledger.takeBack, List.mem_append, List.mem_singleton]
    rcases eq_or_ne n' n with rfl | hne
    · simp [h.owner_lt n' k howner]
    · simp only [Function.update_of_ne hne]
      rw [← h.mem_queue_iff, or_iff_left hne]
  · intro k'
    rw [Ledger.takeBack]
    rcases eq_or_ne k' k with rfl | hne
    · simp only [Function.update_self]
      exact (h.lists_nodup k').erase n
    · simp only [Function.update_of_ne hne]
      exact h.lists_nodup k'
  · intro k' n'
    rw [Ledger.takeBack]
    rcases eq_or_ne n' n with rfl | hnum
    · -- only its owner had it, and it is taken out of that list
      rcases eq_or_ne k' k with rfl | hne
      · simp [(h.lists_nodup k').mem_erase_iff]
      · simp [hne, h.mem_lists_iff, howner, hne.symm]
    · simp only [Function.update_of_ne hnum]
      rw [← h.mem_lists_iff]
      rcases eq_or_ne k' k with rfl | hne
      · simp [List.mem_erase_of_ne hnum]
      · simp [hne]

/-- Whoever gives back all numbers of his list has none then. -/
theorem Agree.takeBackAll {k : κ} {nums : List Nat} (h : l.Agree total) (hnums : l.lists k = nums) :
    (l.takeBackAll k nums).Agree total ∧ (l.takeBackAll k nums).lists k = [] := by
  induction nums generalizing l with
  | nil => exact ⟨h, hnums⟩
  | cons n rest ih =>
    have howner : l.owner n = some k := by
      rw [← h.mem_lists_iff, hnums]
      exact List.mem_cons_self
    apply ih (h.takeBack howner)
    -- the front is the one that is taken out of the list
    show Function.update l.lists k ((l.lists k).erase n) k = rest
    rw [Function.update_self, hnums, List.erase_cons_head]

end Ledger

end GenshinOs.Lib
