import GenshinOs.Lib.Preorder
import Mathlib.Logic.Relation

/-!
# Preorder traversal of a forest

A forest is a list of nodes with a link to the parent of each. The parent may be missing from the list;
then the node is a root. Links go down in rank, so that nothing is above itself.

`descend` visits a node and what is below it, by looking for the children of every node in the list.
`traverse_complete` says that the traversal from all roots ends within a depth of the number of nodes, and
that it visits every node once, below its parent.
-/

set_option autoImplicit false

namespace GenshinOs.Lib

variable {α : Type}

/-- A node and the nodes below it, to a bounded depth. -/
def descend (children : α → List α) : Nat → α → Option (List α)
  | 0, _ => none
  | depth + 1, a => ((children a).mapM (descend children depth)).map fun below => a :: below.flatten

/-- Nodes with links to their parents. -/
structure Forest (α : Type) where
  nodes : List α
  parent : α → Option α
  rank : α → Nat
  nodup : nodes.Nodup
  rank_lt : ∀ p c, parent c = some p → rank p < rank c

namespace Forest

variable [DecidableEq α] (f : Forest α)

/-- The nodes whose parent is the given one, in the order of the list. -/
def children (a : α) : List α := f.nodes.filter fun b => decide (f.parent b = some a)

/-- The nodes without a parent in the list. -/
def roots : List α := f.nodes.filter fun b => (f.parent b).all fun p => decide (p ∉ f.nodes)

/-- The whole forest, root by root. -/
def traverse (depth : Nat) : Option (List α) :=
  (f.roots.mapM (descend f.children depth)).map List.flatten

omit [DecidableEq α] in
/-- A link from a node of the list to its parent. -/
def Up (c p : α) : Prop := c ∈ f.nodes ∧ f.parent c = some p

omit [DecidableEq α] in
/-- The second is the first or above it. -/
def Above (c a : α) : Prop := Relation.ReflTransGen f.Up c a

theorem mem_children {a b : α} : b ∈ f.children a ↔ f.Up b a := by
  rw [children, List.mem_filter, decide_eq_true_eq, Up]

theorem mem_roots {b : α} : b ∈ f.roots ↔ b ∈ f.nodes ∧ ∀ p, f.parent b = some p → p ∉ f.nodes := by
  rw [roots, List.mem_filter]
  refine and_congr_right fun _ => ?_
  cases f.parent b with
  | none => simp
  | some p => simp

variable {f}

omit [DecidableEq α] in
theorem Above.rank_le {c a : α} (h : f.Above c a) : f.rank a ≤ f.rank c := by
  induction h with
  | refl => exact Nat.le_refl _
  | tail _ hup ih => exact Nat.le_trans (Nat.le_of_lt (f.rank_lt _ _ hup.2)) ih

omit [DecidableEq α] in
/-- What is above a node is on one line. -/
theorem Above.total {c a b : α} (ha : f.Above c a) (hb : f.Above c b) : f.Above a b ∨ f.Above b a := by
  apply Relation.ReflTransGen.total_of_right_unique _ ha hb
  intro c p p' hp hp'
  exact Option.some.inj (hp.2.symm.trans hp'.2)

/-- Children of one node have nothing below them in common. -/
theorem children_disjoint {a x x' y : α} (hx : x ∈ f.children a) (hx' : x' ∈ f.children a)
    (hy : f.Above y x) (hy' : f.Above y x') : x = x' := by
  -- one child above another would be above their parent
  have hclimb : ∀ {x x' : α}, x ∈ f.children a → x' ∈ f.children a → f.Above x x' → x = x' := by
    intro x x' hx hx' habove
    rcases Relation.ReflTransGen.cases_head habove with heq | ⟨p, hup, hrest⟩
    · exact heq
    · have hp : p = a := Option.some.inj (hup.2.symm.trans ((f.mem_children).1 hx).2)
      have hle := Above.rank_le (f := f) hrest
      have hlt := f.rank_lt a x' ((f.mem_children).1 hx').2
      rw [hp] at hle
      omega
  rcases hy.total hy' with habove | habove
  · exact hclimb hx hx' habove
  · exact (hclimb hx' hx habove).symm

/-- Roots have nothing below them in common. -/
theorem roots_disjoint {x x' y : α} (hx : x ∈ f.roots) (hx' : x' ∈ f.roots) (hy : f.Above y x)
    (hy' : f.Above y x') : x = x' := by
  have hclimb : ∀ {x x' : α}, x ∈ f.roots → x' ∈ f.roots → f.Above x x' → x = x' := by
    intro x x' hx hx' habove
    rcases Relation.ReflTransGen.cases_head habove with heq | ⟨p, hup, hrest⟩
    · exact heq
    · -- the parent of the first would be in the list
      have hp : p ∈ f.nodes := by
        rcases Relation.ReflTransGen.cases_head hrest with rfl | ⟨_, hup', _⟩
        · exact ((f.mem_roots).1 hx').1
        · exact hup'.1
      exact absurd hp (((f.mem_roots).1 hx).2 p hup.2)
  rcases hy.total hy' with habove | habove
  · exact hclimb hx hx' habove
  · exact (hclimb hx' hx habove).symm

/-- Every node is below a root. -/
theorem exists_root {b : α} (hb : b ∈ f.nodes) : ∃ r ∈ f.roots, f.Above b r := by
  -- by induction on the rank, from the parent to the node
  induction hrank : f.rank b using Nat.strong_induction_on generalizing b with
  | _ n ih =>
    by_cases hroot : b ∈ f.roots
    · exact ⟨b, hroot, Relation.ReflTransGen.refl⟩
    · have hparent : ∃ p, f.parent b = some p ∧ p ∈ f.nodes := by
        by_contra hnone
        push Not at hnone
        exact hroot ((f.mem_roots).2 ⟨hb, hnone⟩)
      obtain ⟨p, hp, hmem⟩ := hparent
      obtain ⟨r, hr, habove⟩ := ih (f.rank p) (hrank ▸ f.rank_lt p b hp) hmem rfl
      exact ⟨r, hr, Relation.ReflTransGen.head ⟨hb, hp⟩ habove⟩

/-! ## The traversal -/

/-- The nodes that are ranked no lower than the given one bound the depth below it. -/
def reach (f : Forest α) (a : α) : List α := f.nodes.filter fun b => decide (f.rank a ≤ f.rank b)

theorem length_reach_child {a x : α} (ha : a ∈ f.nodes) (hx : x ∈ f.children a) :
    (f.reach x).length < (f.reach a).length := by
  have hlt := f.rank_lt a x ((f.mem_children).1 hx).2
  -- the parent is within its own reach, and not within that of the child
  have hnodup : (a :: f.reach x).Nodup := by
    rw [List.nodup_cons]
    refine ⟨?_, f.nodup.filter _⟩
    intro hmem
    have hle := of_decide_eq_true (List.mem_filter.1 hmem).2
    omega
  have hsubset : a :: f.reach x ⊆ f.reach a := by
    intro b hb
    rcases List.mem_cons.1 hb with rfl | hb
    · exact List.mem_filter.2 ⟨ha, decide_eq_true (Nat.le_refl _)⟩
    · obtain ⟨hnode, hrank⟩ := List.mem_filter.1 hb
      have hle := of_decide_eq_true hrank
      exact List.mem_filter.2 ⟨hnode, decide_eq_true (by omega)⟩
  exact (hnodup.subperm hsubset).length_le

/-- What a traversal from a node shows: the nodes below it, each once, every other one after its parent. -/
structure Shows (f : Forest α) (a : α) (nodes : List α) : Prop where
  nodup : nodes.Nodup
  mem_iff : ∀ b, b ∈ nodes ↔ f.Above b a
  parent_first : ∀ c p, c ∈ nodes → c ≠ a → f.parent c = some p → [p, c].Sublist nodes

/-- With enough depth the traversal from a node ends and shows what is below it. -/
theorem descend_shows {a : α} (ha : a ∈ f.nodes) {depth : Nat} (hdepth : (f.reach a).length ≤ depth) :
    ∃ nodes, descend f.children depth a = some nodes ∧ f.Shows a nodes := by
  induction depth generalizing a with
  | zero =>
    have hself : a ∈ f.reach a := List.mem_filter.2 ⟨ha, decide_eq_true (Nat.le_refl _)⟩
    exact absurd (List.length_pos_of_mem hself) (Nat.not_lt.2 hdepth)
  | succ depth ih =>
    have hbelow : ∀ x ∈ f.children a, ∃ nodes, descend f.children depth x = some nodes ∧
        f.Shows x nodes := by
      intro x hx
      have hlt := length_reach_child ha hx
      exact ih ((f.mem_children).1 hx).1 (by omega)
    obtain ⟨blocks, hblocks, hshows⟩ := mapM_total hbelow
    obtain ⟨hnodup, hmem⟩ := @flatten_blocks α α (fun x y => f.Above y x) _ _ (hshows.imp fun _ _ h => ⟨h.nodup, h.mem_iff⟩)
      (f.nodup.filter _) fun x hx x' hx' y hy hy' => children_disjoint hx hx' hy hy'
    refine ⟨a :: blocks.flatten, by rw [descend, hblocks]; rfl, ?_, ?_, ?_⟩
    · -- nothing below a child is the node itself
      rw [List.nodup_cons]
      refine ⟨?_, hnodup⟩
      intro hin
      obtain ⟨x, hx, habove⟩ := (hmem a).1 hin
      have hle := habove.rank_le
      have hlt := f.rank_lt a x ((f.mem_children).1 hx).2
      omega
    · intro b
      rw [List.mem_cons, hmem]
      constructor
      · rintro (rfl | ⟨x, hx, habove⟩)
        · exact Relation.ReflTransGen.refl
        · exact Relation.ReflTransGen.tail habove ((f.mem_children).1 hx)
      · intro habove
        rcases Relation.ReflTransGen.cases_tail habove with heq | ⟨x, hup, hlink⟩
        · exact Or.inl heq.symm
        · exact Or.inr ⟨x, (f.mem_children).2 hlink, hup⟩
    · intro c p hc hne hp
      have hin : c ∈ blocks.flatten := (List.mem_cons.1 hc).resolve_left hne
      obtain ⟨block, hblock, hcblock⟩ := List.mem_flatten.1 hin
      obtain ⟨x, hx, hfound⟩ := mem_of_mapM hblocks hblock
      obtain ⟨nodes, hnodes, hshow⟩ := hbelow x hx
      rw [hfound] at hnodes
      cases hnodes
      by_cases hchild : c = x
      · -- a child of the node itself
        have hpa : p = a := by
          rw [hchild, ((f.mem_children).1 hx).2] at hp
          exact (Option.some.inj hp).symm
        rw [hpa]
        exact List.Sublist.cons_cons a (List.singleton_sublist.2 hin)
      · have hfirst := hshow.parent_first c p hcblock hchild hp
        exact (hfirst.trans (List.sublist_flatten_of_mem hblock)).trans (List.sublist_cons_self a _)

/-- The traversal of the whole forest ends, visits every node once, and every node after its parent. -/
theorem traverse_complete {depth : Nat} (hdepth : f.nodes.length ≤ depth) :
    ∃ nodes, f.traverse depth = some nodes ∧ nodes.Perm f.nodes ∧
      ∀ c p, c ∈ f.nodes → f.parent c = some p → p ∈ f.nodes → [p, c].Sublist nodes := by
  have hbelow : ∀ r ∈ f.roots, ∃ nodes, descend f.children depth r = some nodes ∧ f.Shows r nodes := by
    intro r hr
    have hlength : (f.reach r).length ≤ f.nodes.length := List.length_filter_le _ _
    exact descend_shows ((f.mem_roots).1 hr).1 (by omega)
  obtain ⟨blocks, hblocks, hshows⟩ := mapM_total hbelow
  obtain ⟨hnodup, hmem⟩ := @flatten_blocks α α (fun x y => f.Above y x) _ _ (hshows.imp fun _ _ h => ⟨h.nodup, h.mem_iff⟩)
    (f.nodup.filter _) fun x hx x' hx' y hy hy' => roots_disjoint hx hx' hy hy'
  have hall : ∀ b, b ∈ blocks.flatten ↔ b ∈ f.nodes := by
    intro b
    rw [hmem]
    constructor
    · rintro ⟨r, hr, habove⟩
      rcases Relation.ReflTransGen.cases_head habove with rfl | ⟨_, hup, _⟩
      · exact ((f.mem_roots).1 hr).1
      · exact hup.1
    · exact exists_root
  refine ⟨blocks.flatten, by rw [traverse, hblocks]; rfl, (List.perm_ext_iff_of_nodup hnodup f.nodup).2 hall,
    ?_⟩
  intro c p hc hp hpmem
  obtain ⟨block, hblock, hcblock⟩ := List.mem_flatten.1 ((hall c).2 hc)
  obtain ⟨r, hr, hfound⟩ := mem_of_mapM hblocks hblock
  obtain ⟨nodes, hnodes, hshow⟩ := hbelow r hr
  rw [hfound] at hnodes
  cases hnodes
  -- a node with a parent in the list is no root
  have hne : c ≠ r := by
    rintro rfl
    exact ((f.mem_roots).1 hr).2 p hp hpmem
  exact (hshow.parent_first c p hcblock hne hp).trans (List.sublist_flatten_of_mem hblock)

end Forest

end GenshinOs.Lib
