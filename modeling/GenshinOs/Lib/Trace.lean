import Mathlib.Tactic

/-!
# Traces of a transition system

A run is recorded as the list of its atomic transitions, each with the state before and after it.
`Chain` says that the transitions fit together. The two induction rules are used for safety
properties: `Chain.invariant` for a predicate on states, and `Chain.coupled` for a predicate on a
state together with a history variable that is computed from the transitions seen so far. In both
rules the step obligation may use a guard that the run meets at every transition. For machines with
outputs, `outputs_eq_of_related` compares two runs over all inputs.
-/

set_option autoImplicit false

namespace GenshinOs.Lib

variable {σ : Type*} {ε : Type*} {γ : Type*} {η : Type*}

/-- An atomic transition with its source and target. -/
structure Transition (σ : Type*) (ε : Type*) where
  pre : σ
  act : ε
  post : σ

/-- The transitions lead from one state to another without gaps. -/
inductive Chain : σ → List (Transition σ ε) → σ → Prop
  | nil (s : σ) : Chain s [] s
  | cons (t : Transition σ ε) {tr : List (Transition σ ε)} {s' : σ} :
      Chain t.post tr s' → Chain t.pre (t :: tr) s'

theorem Chain.single (t : Transition σ ε) : Chain t.pre [t] t.post :=
  Chain.cons t (Chain.nil t.post)

theorem Chain.append {s s' s'' : σ} {tr tr' : List (Transition σ ε)} (h : Chain s tr s')
    (h' : Chain s' tr' s'') : Chain s (tr ++ tr') s'' := by
  induction h with
  | nil s => exact h'
  | cons t _ ih => exact Chain.cons t (ih h')

/-- A predicate that every transition of the trace preserves holds all along the trace. -/
theorem Chain.invariant {I : σ → Prop} {s s' : σ} {tr : List (Transition σ ε)}
    (h : Chain s tr s') (h0 : I s) (hstep : ∀ t ∈ tr, I t.pre → I t.post) :
    I s' ∧ ∀ t ∈ tr, I t.pre ∧ I t.post := by
  induction h with
  | nil s => exact ⟨h0, by simp⟩
  | cons t _ ih =>
    have hpost : I t.post := hstep t List.mem_cons_self h0
    obtain ⟨hend, hall⟩ := ih hpost fun u hu => hstep u (List.mem_cons_of_mem t hu)
    refine ⟨hend, fun u hu => ?_⟩
    rcases List.mem_cons.1 hu with rfl | hu
    · exact ⟨h0, hpost⟩
    · exact hall u hu

/-- The history variable after a trace. -/
def history (upd : γ → Transition σ ε → γ) (g : γ) (tr : List (Transition σ ε)) : γ :=
  tr.foldl upd g

@[simp] theorem history_nil (upd : γ → Transition σ ε → γ) (g : γ) : history upd g [] = g := rfl

@[simp] theorem history_cons (upd : γ → Transition σ ε → γ) (g : γ) (t : Transition σ ε)
    (tr : List (Transition σ ε)) : history upd g (t :: tr) = history upd (upd g t) tr := rfl

theorem history_append (upd : γ → Transition σ ε → γ) (g : γ) (tr tr' : List (Transition σ ε)) :
    history upd g (tr ++ tr') = history upd (history upd g tr) tr' := List.foldl_append

/-- A condition on each transition and the history before it holds along the whole trace. -/
def Along (upd : γ → Transition σ ε → γ) (ok : γ → Transition σ ε → Prop) :
    γ → List (Transition σ ε) → Prop
  | _, [] => True
  | g, t :: tr => ok g t ∧ Along upd ok (upd g t) tr

instance decidableAlong (upd : γ → Transition σ ε → γ) (ok : γ → Transition σ ε → Prop)
    [∀ g t, Decidable (ok g t)] (g : γ) (tr : List (Transition σ ε)) :
    Decidable (Along upd ok g tr) :=
  match tr with
  | [] => isTrue trivial
  | t :: tr => @instDecidableAnd _ _ _ (decidableAlong upd ok (upd g t) tr)

theorem along_append (upd : γ → Transition σ ε → γ) (ok : γ → Transition σ ε → Prop) (g : γ)
    (tr tr' : List (Transition σ ε)) :
    Along upd ok g (tr ++ tr') ↔ Along upd ok g tr ∧ Along upd ok (history upd g tr) tr' := by
  induction tr generalizing g with
  | nil => simp [Along]
  | cons t tr ih => simp [Along, ih, and_assoc]

/-- A condition along the trace may be weakened transition by transition. -/
theorem along_mono {upd : γ → Transition σ ε → γ} {ok ok' : γ → Transition σ ε → Prop}
    {tr : List (Transition σ ε)} (h : ∀ t ∈ tr, ∀ g, ok g t → ok' g t) {g : γ}
    (hok : Along upd ok g tr) : Along upd ok' g tr := by
  induction tr generalizing g with
  | nil => exact trivial
  | cons t tr ih =>
    exact ⟨h t List.mem_cons_self g hok.1,
      ih (fun u hu => h u (List.mem_cons_of_mem t hu)) hok.2⟩

/-- A predicate on the state and the history that every guarded transition preserves holds all
along the trace. -/
theorem Chain.coupled {upd : γ → Transition σ ε → γ} {ok : γ → Transition σ ε → Prop}
    {Inv : γ → σ → Prop} {s s' : σ} {tr : List (Transition σ ε)} (h : Chain s tr s') {g : γ}
    (h0 : Inv g s) (hok : Along upd ok g tr)
    (hstep : ∀ t ∈ tr, ∀ g, ok g t → Inv g t.pre → Inv (upd g t) t.post) :
    Inv (history upd g tr) s' ∧
      Along upd (fun g t => Inv g t.pre ∧ Inv (upd g t) t.post) g tr := by
  induction h generalizing g with
  | nil s => exact ⟨h0, trivial⟩
  | cons t _ ih =>
    have hpost : Inv (upd g t) t.post := hstep t List.mem_cons_self g hok.1 h0
    obtain ⟨hend, hall⟩ := ih hpost hok.2 fun u hu => hstep u (List.mem_cons_of_mem t hu)
    exact ⟨hend, ⟨h0, hpost⟩, hall⟩

/-- Two conditions that say the same wherever the first has held before are the same along a trace. -/
theorem Chain.along_congr {upd : γ → Transition σ ε → γ} {ok good : γ → Transition σ ε → Prop}
    {Inv : γ → σ → Prop} {s s' : σ} {tr : List (Transition σ ε)} (h : Chain s tr s') {g : γ}
    (h0 : Inv g s)
    (hstep : ∀ t ∈ tr, ∀ g, Inv g t.pre → (ok g t ↔ good g t) ∧ (ok g t → Inv (upd g t) t.post)) :
    Along upd ok g tr ↔ Along upd good g tr := by
  induction h generalizing g with
  | nil s => exact Iff.rfl
  | cons t _ ih =>
    obtain ⟨hiff, hkeep⟩ := hstep t List.mem_cons_self g h0
    have hrest := fun hok => ih (hkeep hok) fun u hu => hstep u (List.mem_cons_of_mem t hu)
    constructor
    · rintro ⟨hok, halong⟩
      exact ⟨hiff.1 hok, (hrest hok).1 halong⟩
    · rintro ⟨hgood, halong⟩
      exact ⟨hiff.2 hgood, (hrest (hiff.2 hgood)).2 halong⟩

/-- A condition that does not look at the history. -/
theorem along_const {upd : γ → Transition σ ε → γ} {good : Transition σ ε → Prop} {g : γ}
    {tr : List (Transition σ ε)} : Along upd (fun _ t => good t) g tr ↔ ∀ t ∈ tr, good t := by
  induction tr generalizing g with
  | nil => simp [Along]
  | cons t tr ih => rw [Along, ih, List.forall_mem_cons]

/-- Where a condition on a transition and its history says the same as one on the transition alone, and
keeps what this depends on, it holds along a trace exactly when the other holds of every transition. -/
theorem Chain.along_iff {upd : γ → Transition σ ε → γ} {ok : γ → Transition σ ε → Prop}
    {good : Transition σ ε → Prop} {Inv : γ → σ → Prop} {s s' : σ} {tr : List (Transition σ ε)}
    (h : Chain s tr s') {g : γ} (h0 : Inv g s)
    (hstep : ∀ t ∈ tr, ∀ g, Inv g t.pre → (ok g t ↔ good t) ∧ (ok g t → Inv (upd g t) t.post)) :
    Along upd ok g tr ↔ ∀ t ∈ tr, good t :=
  (h.along_congr h0 hstep).trans along_const

/-- Two conditions on transitions, of which the first keeps an invariant and says the same as the second
where the invariant holds, hold of the same traces. -/
theorem Chain.forall_iff {ok good : Transition σ ε → Prop} {I : σ → Prop} {s s' : σ}
    {tr : List (Transition σ ε)} (h : Chain s tr s') (h0 : I s)
    (hstep : ∀ t ∈ tr, I t.pre → (ok t ↔ good t) ∧ (ok t → I t.post)) :
    (∀ t ∈ tr, ok t) ↔ ∀ t ∈ tr, good t := by
  rw [← @along_const σ ε Unit (fun _ _ => ()) ok () tr]
  exact @Chain.along_iff σ ε Unit (fun _ _ => ()) (fun _ t => ok t) good (fun _ s => I s) s s' tr h () h0
    fun t ht _ => hstep t ht

/-! ## Rules for pieces of a trace -/

section segments

variable {upd : γ → Transition σ ε → γ} {ok good : γ → Transition σ ε → Prop}

/-- From a history with the first property, a trace that meets the guard leads to one with the second
property, and all its transitions are good. -/
def Segment (upd : γ → Transition σ ε → γ) (ok good : γ → Transition σ ε → Prop) (P : γ → Prop)
    (tr : List (Transition σ ε)) (Q : γ → Prop) : Prop :=
  ∀ g, P g → Along upd ok g tr → Q (history upd g tr) ∧ Along upd good g tr

namespace Segment

theorem nil {P Q : γ → Prop} (h : ∀ g, P g → Q g) : Segment upd ok good P [] Q :=
  fun g hg _ => ⟨h g hg, trivial⟩

theorem single {P Q : γ → Prop} {t : Transition σ ε}
    (h : ∀ g, P g → ok g t → Q (upd g t) ∧ good g t) : Segment upd ok good P [t] Q :=
  fun g hg hok => ⟨(h g hg hok.1).1, (h g hg hok.1).2, trivial⟩

theorem append {P Q R : γ → Prop} {tr tr' : List (Transition σ ε)}
    (h : Segment upd ok good P tr Q) (h' : Segment upd ok good Q tr' R) :
    Segment upd ok good P (tr ++ tr') R := by
  intro g hg hok
  rw [along_append] at hok
  obtain ⟨hmid, hfirst⟩ := h g hg hok.1
  obtain ⟨hend, hsecond⟩ := h' _ hmid hok.2
  rw [along_append, history_append]
  exact ⟨hend, hfirst, hsecond⟩

theorem mono {P P' Q Q' : γ → Prop} {tr : List (Transition σ ε)} (h : Segment upd ok good P tr Q)
    (hP : ∀ g, P' g → P g) (hQ : ∀ g, Q g → Q' g) : Segment upd ok good P' tr Q' := by
  intro g hg hok
  obtain ⟨hend, hall⟩ := h g (hP g hg) hok
  exact ⟨hQ _ hend, hall⟩

end Segment

/-- A chain of transitions, each of which keeps a property of history and state. -/
theorem Chain.segment {Inv : γ → σ → Prop} {s s' : σ} {tr : List (Transition σ ε)}
    (h : Chain s tr s')
    (hstep : ∀ t ∈ tr, ∀ g, Inv g t.pre → ok g t → Inv (upd g t) t.post ∧ good g t) :
    Segment upd ok good (fun g => Inv g s) tr fun g => Inv g s' := by
  induction h with
  | nil s => exact Segment.nil fun _ hg => hg
  | cons t _ ih =>
    have hfirst : Segment upd ok good (fun g => Inv g t.pre) [t] fun g => Inv g t.post :=
      Segment.single (hstep t List.mem_cons_self)
    exact hfirst.append (ih fun u hu => hstep u (List.mem_cons_of_mem t hu))

end segments

section map

variable {σ' : Type*} (f : σ → σ')

/-- The transition as an observer of the states sees it. -/
def Transition.map (t : Transition σ ε) : Transition σ' ε := ⟨f t.pre, t.act, f t.post⟩

/-- Seen through an observation, the transitions still fit together. -/
theorem Chain.map {s s' : σ} {tr : List (Transition σ ε)} (h : Chain s tr s') :
    Chain (f s) (tr.map (Transition.map f)) (f s') := by
  induction h with
  | nil s => exact Chain.nil (f s)
  | cons t _ ih => exact Chain.cons (Transition.map f t) ih

end map

/-- Run a list of events and collect the transitions. -/
def runTrace (step : σ → η → σ × List (Transition σ ε)) : σ → List η → σ × List (Transition σ ε)
  | s, [] => (s, [])
  | s, e :: es =>
    let next := step s e
    let rest := runTrace step next.1 es
    (rest.1, next.2 ++ rest.2)

theorem runTrace_chain {step : σ → η → σ × List (Transition σ ε)}
    (hstep : ∀ s e, Chain s (step s e).2 (step s e).1) (s : σ) (es : List η) :
    Chain s (runTrace step s es).2 (runTrace step s es).1 := by
  induction es generalizing s with
  | nil => exact Chain.nil s
  | cons e es ih => exact (hstep s e).append (ih (step s e).1)

theorem runTrace_append (step : σ → η → σ × List (Transition σ ε)) (s : σ) (es es' : List η) :
    runTrace step s (es ++ es') =
      ((runTrace step (runTrace step s es).1 es').1,
        (runTrace step s es).2 ++ (runTrace step (runTrace step s es).1 es').2) := by
  induction es generalizing s with
  | nil => rfl
  | cons e es ih => simp only [List.cons_append, runTrace, ih, List.append_assoc]

/-- What every event keeps is kept by a run. -/
theorem runTrace_invariant {step : σ → η → σ × List (Transition σ ε)} {I : σ → Prop}
    (hstep : ∀ s e, I s → I (step s e).1) {s : σ} (h : I s) (es : List η) : I (runTrace step s es).1 := by
  induction es generalizing s with
  | nil => exact h
  | cons e es ih => exact ih (hstep s e h)

/-- What holds of the transitions of every event holds of the transitions of a run. -/
theorem runTrace_mem {step : σ → η → σ × List (Transition σ ε)} {P : Transition σ ε → Prop}
    (hstep : ∀ s e, ∀ t ∈ (step s e).2, P t) (s : σ) (es : List η) :
    ∀ t ∈ (runTrace step s es).2, P t := by
  induction es generalizing s with
  | nil => simp [runTrace]
  | cons e es ih =>
    intro t ht
    rcases List.mem_append.1 ht with ht | ht
    · exact hstep s e t ht
    · exact ih (step s e).1 t ht

/-- An invariant of the states between events, which every event keeps when its transitions meet a
guard, is kept by a run whose transitions meet the guard. -/
theorem runTrace_guarded {step : σ → η → σ × List (Transition σ ε)} {I : σ → Prop}
    {ok good : Transition σ ε → Prop}
    (hstep : ∀ s e, I s → (∀ t ∈ (step s e).2, ok t) →
      I (step s e).1 ∧ ∀ t ∈ (step s e).2, good t) {s : σ} (h : I s) (es : List η)
    (hok : ∀ t ∈ (runTrace step s es).2, ok t) :
    I (runTrace step s es).1 ∧ ∀ t ∈ (runTrace step s es).2, good t := by
  induction es generalizing s with
  | nil => exact ⟨h, by simp [runTrace]⟩
  | cons e es ih =>
    simp only [runTrace, List.forall_mem_append] at hok ⊢
    obtain ⟨hnext, hfirst⟩ := hstep s e h hok.1
    obtain ⟨hend, hrest⟩ := ih hnext hok.2
    exact ⟨hend, hfirst, hrest⟩

/-- What every event keeps of the state and the history, when its transitions meet the guard, is kept by
a run. -/
theorem runTrace_segment {step : σ → η → σ × List (Transition σ ε)} {upd : γ → Transition σ ε → γ}
    {ok good : γ → Transition σ ε → Prop} {Inv : γ → σ → Prop}
    (hstep : ∀ s e, Segment upd ok good (fun g => Inv g s) (step s e).2 fun g => Inv g (step s e).1)
    (s : σ) (es : List η) :
    Segment upd ok good (fun g => Inv g s) (runTrace step s es).2 fun g => Inv g (runTrace step s es).1 := by
  induction es generalizing s with
  | nil => exact Segment.nil fun _ hg => hg
  | cons e es ih => exact (hstep s e).append (ih (step s e).1)

/-! ## Steps with one transition -/

section single

variable {step : σ → ε → σ × List (Transition σ ε)} {f : σ → ε → σ}

/-- When every event is one transition, the transitions of a run fit together and each is one of these. -/
theorem runTrace_single (hstep : ∀ s e, step s e = (f s e, [⟨s, e, f s e⟩])) (s : σ) (es : List ε) :
    Chain s (runTrace step s es).2 (runTrace step s es).1 ∧
      ∀ t ∈ (runTrace step s es).2, t.post = f t.pre t.act := by
  constructor
  · apply runTrace_chain
    intro s e
    rw [hstep]
    exact Chain.single ⟨s, e, f s e⟩
  · apply runTrace_mem
    intro s e t ht
    rw [hstep] at ht
    rw [List.mem_singleton.1 ht]

/-- What the transitions of a run keep holds at its end and around each of them. -/
theorem runTrace_single_invariant (hstep : ∀ s e, step s e = (f s e, [⟨s, e, f s e⟩])) {I : σ → Prop}
    {s : σ} (h : I s) (es : List ε)
    (hkeep : ∀ t ∈ (runTrace step s es).2, I t.pre → I (f t.pre t.act)) :
    I (runTrace step s es).1 ∧ ∀ t ∈ (runTrace step s es).2, I t.pre ∧ I t.post := by
  obtain ⟨hchain, hsingle⟩ := runTrace_single hstep s es
  apply hchain.invariant h
  intro t ht hpre
  rw [hsingle t ht]
  exact hkeep t ht hpre

end single

/-! ## Outputs -/

section outputs

variable {σ' : Type*} {ι : Type*} {ο : Type*}

/-- What a deterministic machine with outputs shows on a list of inputs. -/
def outputs (step : σ → ι → ο × σ) : σ → List ι → List ο
  | _, [] => []
  | s, i :: is => (step s i).1 :: outputs step (step s i).2 is

/-- Related states show the same outputs on every list of inputs when one step shows the same output
and leads to related states. -/
theorem outputs_eq_of_related {step : σ → ι → ο × σ} {step' : σ' → ι → ο × σ'} {R : σ → σ' → Prop}
    (hstep : ∀ s s' i, R s s' → (step s i).1 = (step' s' i).1 ∧ R (step s i).2 (step' s' i).2)
    {s : σ} {s' : σ'} (h : R s s') (is : List ι) : outputs step s is = outputs step' s' is := by
  induction is generalizing s s' with
  | nil => rfl
  | cons i is ih =>
    obtain ⟨hout, hnext⟩ := hstep s s' i h
    rw [outputs, outputs, hout, ih hnext]

end outputs

end GenshinOs.Lib
