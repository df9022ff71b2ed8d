import Mathlib.Data.List.Count

/-!
# Ranking

A goal that is reached by counted moves, whoever makes them and in whatever order. As long as a move does
not reach the goal it does not raise the rank of the state, and a counted one lowers it; so a run with
more counted moves than the rank says has reached the goal (`Ranking.reached`).
-/

set_option autoImplicit false

namespace GenshinOs.Lib

variable {σ α : Type*}

/-- Every move of a run is allowed where it is made. -/
def Allowed (step : σ → α → σ) (ok : σ → α → Prop) : σ → List α → Prop
  | _, [] => True
  | s, a :: moves => ok s a ∧ Allowed step ok (step s a) moves

/-- A rank that no move raises and that counted moves lower, as long as the goal is not reached. -/
structure Ranking (step : σ → α → σ) (ok goal : σ → α → Prop) (counted : α → Bool) (Inv : σ → Prop)
    (rank : σ → Nat) : Prop where
  keeps : ∀ {s a}, Inv s → ok s a → ¬goal s a → Inv (step s a)
  stays : ∀ {s a}, Inv s → ok s a → ¬goal s a → rank (step s a) ≤ rank s
  falls : ∀ {s a}, Inv s → ok s a → ¬goal s a → counted a = true → rank (step s a) < rank s

/-- More counted moves than the rank has do not pass without the goal. -/
theorem Ranking.reached {step : σ → α → σ} {ok goal : σ → α → Prop} {counted : α → Bool}
    {Inv : σ → Prop} {rank : σ → Nat} (h : Ranking step ok goal counted Inv rank) {s : σ} (hinv : Inv s)
    {moves : List α} (hok : Allowed step ok s moves) (hmany : rank s < moves.countP counted) :
    ∃ done a rest, moves = done ++ a :: rest ∧ goal (done.foldl step s) a := by
  induction moves generalizing s with
  | nil => exact absurd hmany (Nat.not_lt_zero _)
  | cons a moves ih =>
    by_cases hgoal : goal s a
    · exact ⟨[], a, moves, rfl, hgoal⟩
    · have hrest : rank (step s a) < moves.countP counted := by
        cases hcounted : counted a with
        | true =>
          have hlower := h.falls hinv hok.1 hgoal hcounted
          rw [List.countP_cons_of_pos hcounted] at hmany
          omega
        | false =>
          have hnothigher := h.stays hinv hok.1 hgoal
          rw [List.countP_cons_of_neg (by simp [hcounted])] at hmany
          omega
      obtain ⟨done, b, rest, hsplit, hreached⟩ := ih (h.keeps hinv hok.1 hgoal) hok.2 hrest
      exact ⟨a :: done, b, rest, by rw [hsplit, List.cons_append], hreached⟩

end GenshinOs.Lib
