import Mathlib.Data.List.Infix
import Mathlib.Tactic

/-!
# Preorder traversal of a tree of names

A tree is a set of lists: a node is the list of the names on the way to it, and the traversal only knows
the names of its children. `fuel` bounds the depth to which it goes; `preorder_complete` says that a tree of
bounded depth is traversed with enough of it, and that every node below the start is visited once.
-/

set_option autoImplicit false

namespace GenshinOs.Lib

variable {α β γ δ : Type}

/-! ## Mapping with failures -/

/-- A map that fails nowhere. -/
theorem mapM_total {f : α → Option β} {P : α → β → Prop} {xs : List α}
    (h : ∀ x ∈ xs, ∃ y, f x = some y ∧ P x y) : ∃ ys, xs.mapM f = some ys ∧ List.Forall₂ P xs ys := by
  induction xs with
  | nil => exact ⟨[], rfl, List.Forall₂.nil⟩
  | cons x xs ih =>
    obtain ⟨y, hy, hP⟩ := h x List.mem_cons_self
    obtain ⟨ys, hys, hall⟩ := ih fun x' hx' => h x' (List.mem_cons_of_mem x hx')
    refine ⟨y :: ys, ?_, List.Forall₂.cons hP hall⟩
    rw [List.mapM_cons, hy, hys]
    rfl

/-- One failure is the failure of all. -/
theorem mapM_fails {f : α → Option β} {xs : List α} {x : α} (hx : x ∈ xs) (hf : f x = none) :
    xs.mapM f = none := by
  induction xs with
  | nil => cases hx
  | cons x' xs ih =>
    rw [List.mapM_cons]
    rcases List.mem_cons.1 hx with rfl | hx
    · rw [hf]
      rfl
    · rw [ih hx]
      cases f x' with
      | none => rfl
      | some y => rfl

/-- A map that finds what another one finds. -/
theorem mapM_mono {f g : α → Option β} {xs : List α} {ys : List β}
    (h : ∀ x ∈ xs, ∀ y, f x = some y → g x = some y) (hf : xs.mapM f = some ys) : xs.mapM g = some ys := by
  induction xs generalizing ys with
  | nil => exact hf
  | cons x xs ih =>
    rw [List.mapM_cons] at hf
    obtain ⟨y, hy, hf⟩ := Option.bind_eq_some_iff.1 hf
    obtain ⟨ys', hys', hf⟩ := Option.bind_eq_some_iff.1 hf
    rw [List.mapM_cons, h x List.mem_cons_self y hy,
      ih (fun x' hx' => h x' (List.mem_cons_of_mem x hx')) hys']
    exact hf

/-- Every result is that of an element. -/
theorem mem_of_mapM {f : α → Option β} {xs : List α} {ys : List β} (h : xs.mapM f = some ys) {y : β}
    (hy : y ∈ ys) : ∃ x ∈ xs, f x = some y := by
  induction xs generalizing ys with
  | nil =>
    cases h
    cases hy
  | cons x xs ih =>
    rw [List.mapM_cons] at h
    obtain ⟨y', hy', h⟩ := Option.bind_eq_some_iff.1 h
    obtain ⟨ys', hys', h⟩ := Option.bind_eq_some_iff.1 h
    cases h
    rcases List.mem_cons.1 hy with rfl | hy
    · exact ⟨x, List.mem_cons_self, hy'⟩
    · obtain ⟨x', hx', hf⟩ := ih hys' hy
      exact ⟨x', List.mem_cons_of_mem x hx', hf⟩

/-- Two maps that correspond element by element. -/
theorem mapM_corresponds {f : α → Option β} {g : γ → Option δ} {k : α → γ} {h : β → δ} {xs : List α}
    (hstep : ∀ x ∈ xs, (f x).map h = g (k x)) : (xs.mapM f).map (List.map h) = (xs.map k).mapM g := by
  induction xs with
  | nil => rfl
  | cons x xs ih =>
    have hx := hstep x List.mem_cons_self
    have hxs := ih fun x' hx' => hstep x' (List.mem_cons_of_mem x hx')
    rw [List.map_cons, List.mapM_cons, List.mapM_cons, ← hx, ← hxs]
    cases f x with
    | none => rfl
    | some y =>
      cases xs.mapM f with
      | none => rfl
      | some ys => rfl

/-- Blocks without repetition that belong to different elements. -/
theorem flatten_blocks {P : α → β → Prop} {xs : List α} {ys : List (List β)}
    (h : List.Forall₂ (fun x block => block.Nodup ∧ ∀ y, y ∈ block ↔ P x y) xs ys) (hxs : xs.Nodup)
    (hdisjoint : ∀ x ∈ xs, ∀ x' ∈ xs, ∀ y, P x y → P x' y → x = x') :
    ys.flatten.Nodup ∧ ∀ y, y ∈ ys.flatten ↔ ∃ x ∈ xs, P x y := by
  induction h with
  | nil => simp
  | @cons x block xs ys hblock hrest ih =>
    obtain ⟨hnodup, hmem⟩ := hblock
    obtain ⟨hx, hxs'⟩ := List.nodup_cons.1 hxs
    obtain ⟨hflat, hflatmem⟩ := ih hxs' fun a ha b hb =>
      hdisjoint a (List.mem_cons_of_mem x ha) b (List.mem_cons_of_mem x hb)
    rw [List.flatten_cons]
    constructor
    · rw [List.nodup_append']
      refine ⟨hnodup, hflat, ?_⟩
      intro y hy hy'
      obtain ⟨x', hx', hP'⟩ := (hflatmem y).1 hy'
      have hsame := hdisjoint x List.mem_cons_self x' (List.mem_cons_of_mem x hx') y ((hmem y).1 hy) hP'
      exact hx (hsame ▸ hx')
    · intro y
      rw [List.mem_append, hmem, hflatmem, List.exists_mem_cons_iff]

/-! ## The traversal -/

/-- The nodes below one, each before those below it. -/
def preorder (children : List α → List α) : Nat → List α → Option (List (List α))
  | 0, _ => none
  | fuel + 1, p =>
    ((children p).mapM fun x => (preorder children fuel (p ++ [x])).map fun below => (p ++ [x]) :: below).map
      List.flatten

theorem prefix_snoc_inj {p q : List α} {x x' : α} (h : p ++ [x] <+: q) (h' : p ++ [x'] <+: q) : x = x' := by
  obtain ⟨r, rfl⟩ := h
  obtain ⟨r', hr'⟩ := h'
  rw [List.append_assoc, List.append_assoc] at hr'
  have hrest := List.append_cancel_left hr'
  simp only [List.singleton_append, List.cons.injEq] at hrest
  exact hrest.1.symm

/-- With enough fuel for the depth of the tree, every node below the start is visited once. -/
theorem preorder_complete {children : List α → List α} {T : List α → Prop} {depth : Nat}
    (hclosed : ∀ q x, T (q ++ [x]) → T q) (hdepth : ∀ q, T q → q.length < depth)
    (hnodup : ∀ q, (children q).Nodup) {p : List α}
    (hchildren : ∀ q, p <+: q → ∀ x, x ∈ children q ↔ T (q ++ [x])) {fuel : Nat} (hpos : 0 < fuel)
    (hfuel : depth ≤ p.length + fuel) :
    ∃ nodes, preorder children fuel p = some nodes ∧ nodes.Nodup ∧
      ∀ q, q ∈ nodes ↔ (p <+: q ∧ q ≠ p) ∧ T q := by
  induction fuel generalizing p with
  | zero => exact absurd hpos (Nat.lt_irrefl 0)
  | succ fuel ih =>
    -- below each child: the child itself, and what the traversal finds from it
    have hblock : ∀ x ∈ children p, ∃ block,
        ((preorder children fuel (p ++ [x])).map fun below => (p ++ [x]) :: below) = some block ∧
          block.Nodup ∧ ∀ q, q ∈ block ↔ p ++ [x] <+: q ∧ T q := by
      intro x hx
      have hT := (hchildren p (List.prefix_refl p) x).1 hx
      have hdeep := hdepth (p ++ [x]) hT
      rw [List.length_append, List.length_singleton] at hdeep
      obtain ⟨below, hbelow, hnodup', hmem⟩ := ih (p := p ++ [x])
        (fun q hq => hchildren q ((List.prefix_append p [x]).trans hq)) (by omega)
        (by rw [List.length_append, List.length_singleton]; omega)
      refine ⟨(p ++ [x]) :: below, by rw [hbelow]; rfl, ?_, ?_⟩
      · rw [List.nodup_cons]
        exact ⟨fun hin => ((hmem _).1 hin).1.2 rfl, hnodup'⟩
      · intro q
        rw [List.mem_cons, hmem]
        constructor
        · rintro (rfl | ⟨⟨hpre, -⟩, hq⟩)
          · exact ⟨List.prefix_refl _, hT⟩
          · exact ⟨hpre, hq⟩
        · rintro ⟨hpre, hq⟩
          by_cases heq : q = p ++ [x]
          · exact Or.inl heq
          · exact Or.inr ⟨⟨hpre, heq⟩, hq⟩
    obtain ⟨blocks, hblocks, hall⟩ := mapM_total hblock
    obtain ⟨hflat, hmem⟩ := flatten_blocks hall (hnodup p) fun x _ x' _ q hq hq' =>
      prefix_snoc_inj hq.1 hq'.1
    refine ⟨blocks.flatten, by rw [preorder, hblocks]; rfl, hflat, ?_⟩
    intro q
    rw [hmem]
    constructor
    · rintro ⟨x, -, hpre, hq⟩
      refine ⟨⟨(List.prefix_append p [x]).trans hpre, ?_⟩, hq⟩
      rintro rfl
      have hlength := hpre.length_le
      rw [List.length_append, List.length_singleton] at hlength
      omega
    · rintro ⟨⟨⟨r, rfl⟩, hne⟩, hq⟩
      cases r with
      | nil => exact absurd (List.append_nil p) hne
      | cons x r =>
        have hpre : p ++ [x] <+: p ++ x :: r := ⟨r, by simp⟩
        refine ⟨x, ?_, hpre, hq⟩
        -- the first name below the start leads to a node, since the others follow it
        have hfirst : ∀ r, T (p ++ [x] ++ r) → T (p ++ [x]) := by
          intro r
          induction r using List.reverseRecOn with
          | nil => exact fun h => by rwa [List.append_nil] at h
          | append_singleton r y ih => exact fun h => ih (hclosed _ y (by rwa [← List.append_assoc] at h))
        exact (hchildren p (List.prefix_refl p) x).2 (hfirst r (by simpa using hq))

end GenshinOs.Lib
