import Mathlib.Logic.Function.Iterate

/-!
# Triples with step counts

Rules of pre- and postconditions for a machine that is given by its step. A triple says that the
postcondition holds after a known number of steps, so it is about total correctness, and the number of
steps of a loop is part of what is proved.
-/

set_option autoImplicit false

namespace GenshinOs.Lib

variable {σ : Type*}

/-- From every state with `P`, exactly `n` steps lead to a state with `Q`. -/
def Triple (step : σ → σ) (P : σ → Prop) (n : Nat) (Q : σ → Prop) : Prop :=
  ∀ s, P s → Q (step^[n] s)

namespace Triple

variable {step : σ → σ} {P P' Q Q' R : σ → Prop} {m n : Nat}

theorem one (h : ∀ s, P s → Q (step s)) : Triple step P 1 Q := h

theorem consequence (hpre : ∀ s, P' s → P s) (h : Triple step P n Q) (hpost : ∀ s, Q s → Q' s) :
    Triple step P' n Q' := fun s hs => hpost _ (h s (hpre s hs))

/-- One block of steps after the other. -/
theorem seq (h : Triple step P n Q) (h' : Triple step Q m R) : Triple step P (n + m) R := by
  intro s hs
  rw [Nat.add_comm, Function.iterate_add_apply]
  exact h' _ (h s hs)

/-- A loop whose body counts down takes its steps as often as the counter says. -/
theorem loop {I : Nat → σ → Prop} (hbody : ∀ k, Triple step (I (k + 1)) n (I k)) (k : Nat) :
    Triple step (I k) (n * k) (I 0) := by
  induction k with
  | zero => exact fun s hs => hs
  | succ k ih =>
    rw [Nat.mul_succ, Nat.add_comm (n * k) n]
    exact (hbody k).seq ih

end Triple

end GenshinOs.Lib
