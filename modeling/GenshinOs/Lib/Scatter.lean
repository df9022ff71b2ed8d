import Mathlib.Logic.Function.Basic

/-!
# Scattered stores

A run of stores through a partial map of addresses to places. Every entry goes to its place, and is
dropped when it has none; what two entries put in one place is what the later one put there. So a place
holds the last entry that belongs there, or what it held before.
-/

set_option autoImplicit false

namespace GenshinOs.Lib

section Scatter

variable {ε : Type*} {α : Type*} {β : Type*} [DecidableEq α] (place : ε → Option α) (value : ε → β)

/-- Store one entry at its place. -/
def deposit (mem : α → β) (entry : ε) : α → β :=
  match place entry with
  | none => mem
  | some a => Function.update mem a (value entry)

/-- Store the entries, one after the other. -/
def scatter (mem : α → β) (entries : List ε) : α → β := entries.foldl (deposit place value) mem

/-- The last of the entries that belong to a place. -/
def lastAt (a : α) : List ε → Option β
  | [] => none
  | entry :: entries =>
    (lastAt a entries).or (if place entry = some a then some (value entry) else none)

theorem deposit_apply (mem : α → β) (entry : ε) (a : α) :
    deposit place value mem entry a = if place entry = some a then value entry else mem a := by
  cases h : place entry with
  | none => simp [deposit, h]
  | some a' =>
    rcases eq_or_ne a' a with rfl | hne
    · simp [deposit, h]
    · simp [deposit, h, hne, Ne.symm hne]

/-- A place holds the last entry that belongs there. -/
theorem scatter_apply (mem : α → β) (entries : List ε) (a : α) :
    scatter place value mem entries a = (lastAt place value a entries).getD (mem a) := by
  induction entries generalizing mem with
  | nil => rfl
  | cons entry entries ih =>
    -- the later entries have the last word; without them it is the first one's
    have hrest := ih (deposit place value mem entry)
    rw [scatter] at hrest
    rw [scatter, List.foldl_cons, hrest, lastAt, Option.getD_or, deposit_apply]
    congr 1
    split
    · rfl
    · rfl

variable {place value}

theorem lastAt_eq_none {a : α} {entries : List ε} (h : ∀ entry ∈ entries, place entry ≠ some a) :
    lastAt place value a entries = none := by
  induction entries with
  | nil => rfl
  | cons entry entries ih =>
    rw [lastAt, ih fun e he => h e (List.mem_cons_of_mem entry he), if_neg (h entry List.mem_cons_self),
      Option.none_or]

/-- When all entries of a place have one value, that is its last one. -/
theorem lastAt_of_agreeing {a : α} {b : β} {entries : List ε}
    (hagree : ∀ entry ∈ entries, place entry = some a → value entry = b)
    (hsome : ∃ entry ∈ entries, place entry = some a) : lastAt place value a entries = some b := by
  induction entries with
  | nil =>
    obtain ⟨entry, hmem, -⟩ := hsome
    cases hmem
  | cons entry entries ih =>
    rw [lastAt]
    -- a later entry wins, and has the same value
    by_cases hlater : ∃ e ∈ entries, place e = some a
    · rw [ih (fun e he => hagree e (List.mem_cons_of_mem entry he)) hlater, Option.some_or]
    · -- no later entry goes there, so it is the first one
      have hnone : ∀ e ∈ entries, place e ≠ some a := fun e he hplace => hlater ⟨e, he, hplace⟩
      obtain ⟨e, hmem, he⟩ := hsome
      rcases List.mem_cons.1 hmem with rfl | hmem
      · rw [lastAt_eq_none hnone, Option.none_or, if_pos he, hagree e List.mem_cons_self he]
      · exact absurd he (hnone e hmem)

end Scatter

end GenshinOs.Lib
