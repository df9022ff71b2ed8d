import Mathlib.Data.List.Basic

/-!
# First in, first out

A machine that takes items in and gives items out and holds some in between. If one step appends what comes
in behind what is held and takes what goes out from the front, then over every run the items that came out
are the first of those that were there or came in, in the same order, and the others are still held.
-/

set_option autoImplicit false

namespace GenshinOs.Lib

section Fifo

variable {σ : Type*} {ι : Type*} {α : Type*} (step : σ → ι → σ)

/-- The items that a run shows, one step after the other. -/
def collect (items : σ → ι → List α) : σ → List ι → List α
  | _, [] => []
  | s, i :: is => items s i ++ collect items (step s i) is

variable {step} {held : σ → List α} {came went : σ → ι → List α}

/-- One step keeps the order: what is held and what comes in is what goes out and what is held then. -/
def StepKeepsOrder (step : σ → ι → σ) (held : σ → List α) (came went : σ → ι → List α) : Prop :=
  ∀ s i, held s ++ came s i = went s i ++ held (step s i)

theorem collect_keeps_order (h : StepKeepsOrder step held came went) (s : σ) (is : List ι) :
    held s ++ collect step came s is = collect step went s is ++ held (is.foldl step s) := by
  induction is generalizing s with
  | nil => rw [collect, collect, List.append_nil, List.nil_append, List.foldl_nil]
  | cons i is ih =>
    rw [collect, collect, List.foldl_cons, ← List.append_assoc, h s i, List.append_assoc, ih (step s i),
      List.append_assoc]

/-- From an empty machine, what goes out is a prefix of what came in. -/
theorem collect_prefix (h : StepKeepsOrder step held came went) {s : σ} (hempty : held s = [])
    (is : List ι) : collect step went s is <+: collect step came s is := by
  have horder := collect_keeps_order h s is
  rw [hempty, List.nil_append] at horder
  exact ⟨held (is.foldl step s), horder.symm⟩

/-- The same for the inputs of one kind, when the order rests on an invariant that these inputs keep. -/
theorem collect_keeps_order_of {I : σ → Prop} {ok : ι → Prop}
    (h : ∀ s i, I s → ok i → I (step s i) ∧ held s ++ came s i = went s i ++ held (step s i)) {s : σ}
    (hs : I s) {is : List ι} (hok : ∀ i ∈ is, ok i) :
    held s ++ collect step came s is = collect step went s is ++ held (is.foldl step s) := by
  induction is generalizing s with
  | nil => rw [collect, collect, List.append_nil, List.nil_append, List.foldl_nil]
  | cons i is ih =>
    obtain ⟨hnext, horder⟩ := h s i hs (hok i List.mem_cons_self)
    rw [collect, collect, List.foldl_cons, ← List.append_assoc, horder, List.append_assoc,
      ih hnext fun j hj => hok j (List.mem_cons_of_mem i hj), List.append_assoc]

theorem collect_filter (p : α → Bool) (s : σ) (is : List ι) :
    (collect step came s is).filter p = collect step (fun s i => (came s i).filter p) s is := by
  induction is generalizing s with
  | nil => rfl
  | cons i is ih => rw [collect, collect, List.filter_append, ih]

theorem collect_filterMap {β : Type*} (f : α → Option β) (s : σ) (is : List ι) :
    (collect step came s is).filterMap f = collect step (fun s i => (came s i).filterMap f) s is := by
  induction is generalizing s with
  | nil => rfl
  | cons i is ih => rw [collect, collect, List.filterMap_append, ih]

/-- Inputs that are only looked at through a function. -/
theorem collect_map {κ : Type*} (g : κ → ι) (s : σ) (ks : List κ) :
    collect (fun s k => step s (g k)) (fun s k => came s (g k)) s ks = collect step came s (ks.map g) := by
  induction ks generalizing s with
  | nil => rfl
  | cons k ks ih => rw [collect, ih, List.map_cons, collect]

theorem collect_append (s : σ) (is js : List ι) :
    collect step came s (is ++ js) = collect step came s is ++ collect step came (is.foldl step s) js := by
  induction is generalizing s with
  | nil => rfl
  | cons i is ih => rw [List.cons_append, collect, collect, ih, List.foldl_cons, List.append_assoc]

end Fifo

end GenshinOs.Lib
