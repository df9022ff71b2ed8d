import GenshinOs.Lib.Fifo

/-!
# Servers in a larger machine

A server has a state of its own and answers items one after the other. In a larger machine it gets, at
some steps, the next items of a stream. Whatever the machine does in between, the server has answered the
items that it got as it answers them alone (`served_run`), and a reply that is marked with the item it
belongs to is the one of a sequential run (`marked_serveAll`).

An item can also end the server; `untilStopped` is the server that goes on until then.
-/

set_option autoImplicit false

namespace GenshinOs.Lib

variable {σ : Type*} {ι : Type*} {α : Type*} {β : Type*} {τ : Type*} {κ : Type*}

section serve

variable (serve : τ → α → List β × τ)

/-- Answer several items, one after the other. -/
def serveAll : τ → List α → List β × τ
  | t, [] => ([], t)
  | t, a :: as => ((serve t a).1 ++ (serveAll (serve t a).2 as).1, (serveAll (serve t a).2 as).2)

/-- Items one list after the other. -/
theorem serveAll_append (t : τ) (as bs : List α) :
    serveAll serve t (as ++ bs) =
      ((serveAll serve t as).1 ++ (serveAll serve (serveAll serve t as).2 bs).1,
        (serveAll serve (serveAll serve t as).2 bs).2) := by
  induction as generalizing t with
  | nil => rfl
  | cons a as ih => rw [List.cons_append, serveAll, ih, serveAll, List.append_assoc]

end serve

section stops

variable {τ' : Type*}

/-- The server until an item ends it (`none`). From then on it has no state, and replies nothing. -/
def untilStopped (serve : τ → α → Option (List β × τ)) : Option τ → α → List β × Option τ
  | none, _ => ([], none)
  | some t, a =>
    match serve t a with
    | none => ([], none)
    | some (bs, t') => (bs, some t')

variable {serve : τ → α → Option (List β × τ)} {serve' : τ' → α → Option (List β × τ')}

/-- An item that is answered, -/
theorem untilStopped_some {t t' : τ} {a : α} {bs : List β} (h : serve t a = some (bs, t')) :
    untilStopped serve (some t) a = (bs, some t') := by
  simp only [untilStopped, h]

/-- and one that ends the server. -/
theorem untilStopped_stopped {t : τ} {a : α} (h : serve t a = none) :
    untilStopped serve (some t) a = ([], none) := by
  simp only [untilStopped, h]

/-- A reply is one of a server that runs. -/
theorem mem_untilStopped {o : Option τ} {a : α} {b : β} (h : b ∈ (untilStopped serve o a).1) :
    ∃ t out, serve t a = some out ∧ b ∈ out.1 := by
  cases o with
  | none => exact absurd h List.not_mem_nil
  | some t =>
    simp only [untilStopped] at h
    split at h
    · exact absurd h List.not_mem_nil
    · next hserve => exact ⟨t, _, hserve, h⟩

/-- Servers that are ended by the same items, and reply the same from related states until then. -/
theorem untilStopped_related {R : τ → τ' → Prop}
    (hserve : ∀ t t' a, R t t' →
      Option.Rel (fun out out' => out.1 = out'.1 ∧ R out.2 out'.2) (serve t a) (serve' t' a))
    {o : Option τ} {o' : Option τ'} (h : Option.Rel R o o') (a : α) :
    (untilStopped serve o a).1 = (untilStopped serve' o' a).1 ∧
      Option.Rel R (untilStopped serve o a).2 (untilStopped serve' o' a).2 := by
  cases h with
  | none => exact ⟨rfl, .none⟩
  | some hrelated =>
    have hstep := hserve _ _ a hrelated
    simp only [untilStopped]
    generalize serve _ a = out at hstep ⊢
    generalize serve' _ a = out' at hstep ⊢
    cases hstep with
    | none => exact ⟨rfl, .none⟩
    | some hboth => exact ⟨hboth.1, .some hboth.2⟩

/-- A server that is ended by some items, whatever its state, runs after others only. -/
theorem untilStopped_running_iff {Ok : α → Prop} (hserve : ∀ t a, (serve t a).isSome = true ↔ Ok a)
    (o : Option τ) (a : α) :
    (untilStopped serve o a).2.isSome = true ↔ o.isSome = true ∧ Ok a := by
  cases o with
  | none => exact iff_of_false Bool.false_ne_true fun h => Bool.false_ne_true h.1
  | some t =>
    rw [← hserve t a, untilStopped]
    cases serve t a with
    | none => exact iff_of_false Bool.false_ne_true fun h => Bool.false_ne_true h.2
    | some out => exact iff_of_true rfl ⟨rfl, rfl⟩

end stops

section machine

variable (step : σ → ι → σ) (items : σ → ι → List α) (serve : τ → α → List β × τ)

/-- A step of the machine with the server: it answers the items of the step. -/
def servedStep (m : σ × τ) (i : ι) : σ × τ := (step m.1 i, (serveAll serve m.2 (items m.1 i)).2)

/-- The replies of a step. -/
def replies (m : σ × τ) (i : ι) : List β := (serveAll serve m.2 (items m.1 i)).1

/-- The machine does not see the server, and the server sees its items only. -/
theorem served_run (s : σ) (t : τ) (is : List ι) :
    is.foldl (servedStep step items serve) (s, t) =
        (is.foldl step s, (serveAll serve t (collect step items s is)).2) ∧
      collect (servedStep step items serve) (replies items serve) (s, t) is =
        (serveAll serve t (collect step items s is)).1 := by
  induction is generalizing s t with
  | nil => exact ⟨rfl, rfl⟩
  | cons i is ih =>
    obtain ⟨hstate, hreplies⟩ := ih (step s i) (serveAll serve t (items s i)).2
    rw [collect, collect, List.foldl_cons, List.foldl_cons, serveAll_append]
    refine ⟨hstate, ?_⟩
    rw [← hreplies]
    rfl

end machine

section marks

variable [DecidableEq κ] (serve : τ → α → List β × τ) (mark : β → κ) (owner : α → Option κ)

/-- The replies to the first item with this mark, when the items are answered in order. -/
def answersTo (k : κ) : τ → List α → List β
  | _, [] => []
  | t, a :: as => if owner a = some k then (serve t a).1 else answersTo k (serve t a).2 as

variable {serve mark owner}

/-- The replies with the mark of an item, when none before it has this mark. -/
theorem answersTo_append {k : κ} {before after : List α} {a : α} (ha : owner a = some k)
    (hbefore : ∀ b ∈ before, owner b ≠ some k) (t : τ) :
    answersTo serve owner k t (before ++ a :: after) = (serve (serveAll serve t before).2 a).1 := by
  induction before generalizing t with
  | nil => exact if_pos ha
  | cons b before ih =>
    rw [List.cons_append, answersTo, if_neg (hbefore b List.mem_cons_self)]
    exact ih (fun c hc => hbefore c (List.mem_cons_of_mem b hc)) _

/-- Without an item that has a mark there are no replies with it. -/
theorem marked_serveAll_of_not_owned (hmark : ∀ t a, ∀ b ∈ (serve t a).1, owner a = some (mark b)) {k : κ}
    (t : τ) {as : List α} (h : ∀ a ∈ as, owner a ≠ some k) :
    (serveAll serve t as).1.filter (fun b => mark b = k) = [] := by
  induction as generalizing t with
  | nil => rfl
  | cons a as ih =>
    rw [serveAll, List.filter_append, ih _ fun b hb => h b (List.mem_cons_of_mem a hb), List.append_nil,
      List.filter_eq_nil_iff]
    intro b hb hk
    apply h a List.mem_cons_self
    rw [hmark t a b hb, decide_eq_true_iff.1 hk]

/-- When no two items have one mark, and the replies to an item have its mark, the replies with a mark are
those to its item. -/
theorem marked_serveAll (hmark : ∀ t a, ∀ b ∈ (serve t a).1, owner a = some (mark b)) (k : κ) (t : τ)
    {as : List α} (hnodup : (as.filterMap owner).Nodup) :
    (serveAll serve t as).1.filter (fun b => mark b = k) = answersTo serve owner k t as := by
  induction as generalizing t with
  | nil => rfl
  | cons a as ih =>
    have htail : (as.filterMap owner).Nodup := by
      cases howner : owner a with
      | none => rwa [List.filterMap_cons_none howner] at hnodup
      | some k' => exact (List.nodup_cons.1 (List.filterMap_cons_some howner ▸ hnodup)).2
    rw [serveAll, List.filter_append, answersTo]
    by_cases howner : owner a = some k
    · -- the mark is the item's own, so no later item has it
      rw [if_pos howner]
      rw [List.filterMap_cons_some howner, List.nodup_cons] at hnodup
      have hothers : ∀ b ∈ as, owner b ≠ some k := fun b hb hk =>
        hnodup.1 (List.mem_filterMap.2 ⟨b, hb, hk⟩)
      rw [marked_serveAll_of_not_owned hmark _ hothers, List.append_nil, List.filter_eq_self]
      intro b hb
      have hown := hmark t a b hb
      rw [howner] at hown
      exact decide_eq_true (Option.some.inj hown).symm
    · rw [if_neg howner, ih _ htail]
      have hnone : (serve t a).1.filter (fun b => mark b = k) = [] := by
        rw [List.filter_eq_nil_iff]
        intro b hb hk
        exact howner ((hmark t a b hb).trans (congrArg some (decide_eq_true_iff.1 hk)))
      rw [hnone, List.nil_append]

end marks

/-- Marks of two kinds that are each different, and different from those of the other kind. -/
theorem nodup_filterMap_of_parts {f g owner : α → Option κ} {as : List α}
    (hparts : ∀ a k, owner a = some k → f a = some k ∨ g a = some k) (hf : (as.filterMap f).Nodup)
    (hg : (as.filterMap g).Nodup)
    (hdisjoint : ∀ k ∈ as.filterMap f, k ∉ as.filterMap g) : (as.filterMap owner).Nodup := by
  induction as with
  | nil => exact List.nodup_nil
  | cons a as ih =>
    have hsub : ∀ f : α → Option κ, (as.filterMap f).Sublist ((a :: as).filterMap f) := fun f =>
      (List.sublist_cons_self a as).filterMap f
    have htail := ih (hf.sublist (hsub f)) (hg.sublist (hsub g)) fun k hk hk' =>
      hdisjoint k ((hsub f).subset hk) ((hsub g).subset hk')
    cases howner : owner a with
    | none => rwa [List.filterMap_cons_none howner]
    | some k =>
      rw [List.filterMap_cons_some howner, List.nodup_cons]
      refine ⟨fun hin => ?_, htail⟩
      obtain ⟨b, hb, hk⟩ := List.mem_filterMap.1 hin
      have hlater : ∀ {f : α → Option κ}, f b = some k → k ∈ as.filterMap f := fun hfb =>
        List.mem_filterMap.2 ⟨b, hb, hfb⟩
      -- the mark of the first item is of one kind, and comes again with one of the two kinds
      rcases hparts a k howner with ha | ha
      · have hhead : k ∈ (a :: as).filterMap f := List.mem_filterMap.2 ⟨a, List.mem_cons_self, ha⟩
        rcases hparts b k hk with hfb | hgb
        · rw [List.filterMap_cons_some ha] at hf
          exact (List.nodup_cons.1 hf).1 (hlater hfb)
        · exact hdisjoint k hhead ((hsub g).subset (hlater hgb))
      · have hhead : k ∈ (a :: as).filterMap g := List.mem_filterMap.2 ⟨a, List.mem_cons_self, ha⟩
        rcases hparts b k hk with hfb | hgb
        · exact hdisjoint k ((hsub f).subset (hlater hfb)) hhead
        · rw [List.filterMap_cons_some ha] at hg
          exact (List.nodup_cons.1 hg).1 (hlater hgb)

end GenshinOs.Lib
