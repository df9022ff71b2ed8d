import Mathlib.Data.List.Count
import Mathlib.Logic.Function.Iterate

/-!
# Interleaving

Components take turns on a shared store, of which each one sees a part. When a turn depends on the
part of its component alone, and leaves the parts of the others as they are, a component computes in
every interleaving what it would compute by itself: `Private.projection`. So the order of the turns of
different components does not matter, only how many each one gets.
-/

set_option autoImplicit false

namespace GenshinOs.Lib

section alone

variable {L L' σ V ο : Type*}

/-- Some turns of one component by itself. -/
def alone (turn : L → σ → ο × L × σ) : Nat → L → σ → List ο × L × σ
  | 0, l, s => ([], l, s)
  | n + 1, l, s =>
    let r := turn l s
    let rest := alone turn n r.2.1 r.2.2
    (r.1 :: rest.1, rest.2)

theorem alone_iterate (turn : L → σ → ο × L × σ) (n : Nat) (l : L) (s : σ) :
    (alone turn n l s).2 = (fun x : L × σ => (turn x.1 x.2).2)^[n] (l, s) := by
  induction n generalizing l s with
  | zero => rfl
  | succ n ih =>
    rw [Function.iterate_succ_apply]
    exact ih _ _

/-- What holds of one turn, seen through two maps, holds of any number of turns. -/
theorem alone_image {turn : L → σ → ο × L × σ} {turn' : L' → V → ο × L' × V} (Inv : L → σ → Prop)
    (f : L → L') (view : σ → V)
    (hkeeps : ∀ l s, Inv l s → Inv (turn l s).2.1 (turn l s).2.2)
    (hturn : ∀ l s, Inv l s → turn' (f l) (view s) =
      ((turn l s).1, f (turn l s).2.1, view (turn l s).2.2))
    (n : Nat) {l : L} {s : σ} (hinv : Inv l s) :
    alone turn' n (f l) (view s) =
      ((alone turn n l s).1, f (alone turn n l s).2.1, view (alone turn n l s).2.2) := by
  induction n generalizing l s with
  | zero => rfl
  | succ n ih =>
    have hrest := ih (hkeeps l s hinv)
    simp only [alone, hturn l s hinv, hrest]

end alone

variable {ι L σ V ο : Type*} [DecidableEq ι]

/-- Take turns in the order of a list, and collect what comes out of them. -/
def takeTurns (turn : ι → L → σ → ο × L × σ) : (ι → L) → σ → List ι → List (ι × ο) × (ι → L) × σ
  | ls, s, [] => ([], ls, s)
  | ls, s, i :: order =>
    let r := turn i (ls i) s
    let rest := takeTurns turn (Function.update ls i r.2.1) r.2.2 order
    ((i, r.1) :: rest.1, rest.2)

/-- What comes out of the turns of one component. -/
def outputsOf (i : ι) (out : List (ι × ο)) : List ο := (out.filter fun o => o.1 = i).map Prod.snd

/-- The turns of the components work on their own parts of the store. -/
structure Private (turn : ι → L → σ → ο × L × σ) (solo : L → V → ο × L × V) (view : ι → σ → V)
    (Inv : (ι → L) → σ → Prop) : Prop where
  keeps : ∀ {ls s}, Inv ls s → ∀ i,
    Inv (Function.update ls i (turn i (ls i) s).2.1) (turn i (ls i) s).2.2
  own : ∀ {ls s}, Inv ls s → ∀ i, solo (ls i) (view i s) =
    ((turn i (ls i) s).1, (turn i (ls i) s).2.1, view i (turn i (ls i) s).2.2)
  frame : ∀ {ls s}, Inv ls s → ∀ i j, j ≠ i → view j (turn i (ls i) s).2.2 = view j s

namespace Private

variable {turn : ι → L → σ → ο × L × σ} {solo : L → V → ο × L × V} {view : ι → σ → V}
  {Inv : (ι → L) → σ → Prop}

theorem invariant (h : Private turn solo view Inv) (order : List ι) {ls : ι → L} {s : σ}
    (hinv : Inv ls s) : Inv (takeTurns turn ls s order).2.1 (takeTurns turn ls s order).2.2 := by
  induction order generalizing ls s with
  | nil => exact hinv
  | cons i order ih => exact ih (h.keeps hinv i)

/-- A component makes in every interleaving the turns that it would make by itself. -/
theorem projection (h : Private turn solo view Inv) (order : List ι) {ls : ι → L} {s : σ}
    (hinv : Inv ls s) (i : ι) :
    alone solo (order.count i) (ls i) (view i s) =
      (outputsOf i (takeTurns turn ls s order).1, (takeTurns turn ls s order).2.1 i,
        view i (takeTurns turn ls s order).2.2) := by
  induction order generalizing ls s with
  | nil => rfl
  | cons j order ih =>
    have hrest := ih (h.keeps hinv j)
    rcases eq_or_ne j i with rfl | hne
    · -- a turn of the component itself
      rw [Function.update_self] at hrest
      rw [List.count_cons_self, alone, h.own hinv j]
      simp only [hrest, takeTurns, outputsOf, List.filter_cons_of_pos, decide_true, List.map_cons]
    · -- a turn of another component, which this one does not see
      rw [Function.update_of_ne hne.symm, h.frame hinv j i hne.symm] at hrest
      rw [List.count_cons_of_ne hne, hrest]
      simp only [takeTurns, outputsOf]
      rw [List.filter_cons_of_neg (by simpa using hne)]

end Private

end GenshinOs.Lib
