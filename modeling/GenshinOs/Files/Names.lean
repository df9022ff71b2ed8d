import GenshinOs.Files.Answers

/-!
# Where the paths lead

A path leads from the root along its components. `names` forgets the nodes and keeps the function from
lists of names to numbers; for a tree with a history it is injective (`names_inj`), because a node has one
name and one directory. What the tree operations do to it is what they are for: a creation adds one list of
names (`names_created`), a deletion takes away the lists that go through one node (`names_removed`).
-/

set_option autoImplicit false

namespace GenshinOs.Files

open GenshinOs.Lib GenshinOs.Hardware VirtualFileSystem

namespace VirtualFileSystem

/-- The number of the node that the names lead to from the root. -/
def names (v : VirtualFileSystem) (components : List String) : Option Nat :=
  match v.walk v.rootInode components with
  | .error _ => none
  | .ok k => (v.lookup k).map fun _ => k

/-- The number of the node that a path leads to. -/
def resolve (v : VirtualFileSystem) (path : String) : Option Nat :=
  (v.lookupPath path).toOption.map VFSNode.inode

section Names

variable {v v' : VirtualFileSystem} {p q : List String} {x : String} {d k : Nat}

theorem names_some_iff :
    v.names p = some k ↔ v.walk v.rootInode p = .ok k ∧ ∃ n, v.lookup k = some n := by
  rw [names]
  cases hwalk : v.walk v.rootInode p with
  | error e => simp
  | ok j =>
    constructor
    · intro h
      obtain ⟨n, hn, rfl⟩ := Option.map_eq_some_iff.1 h
      exact ⟨rfl, n, hn⟩
    · rintro ⟨hk, n, hn⟩
      cases hk
      simp only [hn, Option.map_some]

/-- Paths lead where their components lead. -/
theorem resolve_eq (h : Numbered v) (path : String) : v.resolve path = v.names (pathComponents path) := by
  rw [resolve]
  cases hpath : v.lookupPath path with
  | ok node =>
    obtain ⟨k, hwalk, hk⟩ := lookupPath_ok_iff.1 hpath
    rw [names_some_iff.2 ⟨hwalk, node, hk⟩]
    exact congrArg some (h k node hk)
  | error e =>
    cases hnames : v.names (pathComponents path) with
    | none => rfl
    | some k =>
      obtain ⟨hwalk, n, hn⟩ := names_some_iff.1 hnames
      rw [lookupPath_ok_iff.2 ⟨k, hwalk, hn⟩] at hpath
      cases hpath

theorem names_nil_iff : v.names [] = some k ↔ k = v.rootInode ∧ ∃ n, v.lookup k = some n := by
  rw [names_some_iff]
  constructor
  · rintro ⟨hk, hn⟩
    cases hk
    exact ⟨rfl, hn⟩
  · rintro ⟨rfl, hn⟩
    exact ⟨rfl, hn⟩

/-- The last name is an entry of the directory that the others lead to. -/
theorem names_snoc_iff : v.names (p ++ [x]) = some k ↔
    ∃ d n, v.names p = some d ∧ v.lookup d = some n ∧ n.children.lookup x = some k ∧
      ∃ m, v.lookup k = some m := by
  rw [names_some_iff, walk_append]
  constructor
  · rintro ⟨⟨d, hwalk, hlast⟩, hm⟩
    rw [walk] at hlast
    split at hlast
    · cases hlast
    · next n hn =>
      split at hlast
      · next child hchild =>
        cases hlast
        exact ⟨d, n, names_some_iff.2 ⟨hwalk, n, hn⟩, hn, hchild, hm⟩
      · cases hlast
  · rintro ⟨d, n, hp, hn, hchild, hm⟩
    refine ⟨⟨d, (names_some_iff.1 hp).1, ?_⟩, hm⟩
    simp only [walk, hn, VFSNode.getChild, hchild]

/-- A name leads from a directory to a node. -/
def Leads (v : VirtualFileSystem) (d : Nat) (x : String) (k : Nat) : Prop :=
  ∃ n, v.lookup d = some n ∧ n.children.lookup x = some k ∧ ∃ m, v.lookup k = some m

theorem names_snoc_iff_leads : v.names (p ++ [x]) = some k ↔ ∃ d, v.names p = some d ∧ Leads v d x k := by
  rw [names_snoc_iff]
  constructor
  · rintro ⟨d, n, hp, hleads⟩
    exact ⟨d, hp, n, hleads⟩
  · rintro ⟨d, hp, n, hleads⟩
    exact ⟨d, n, hp, hleads⟩

theorem lookup_of_names (h : v.names p = some k) : ∃ n, v.lookup k = some n := (names_some_iff.1 h).2

/-- Nothing is found in a tree without its root. -/
theorem root_of_names (h : v.names p = some k) : ∃ n, v.lookup v.rootInode = some n := by
  induction p using List.reverseRecOn generalizing k with
  | nil =>
    obtain ⟨rfl, hn⟩ := names_nil_iff.1 h
    exact hn
  | append_singleton p x ih =>
    obtain ⟨d, -, hd, -⟩ := names_snoc_iff.1 h
    exact ih hd

/-- The node has the last name and lies in the directory. -/
theorem child_of_names (h : Consistent v) (hk : v.names (p ++ [x]) = some k) :
    ∃ d, v.names p = some d ∧ Child v d x k := by
  obtain ⟨d, n, hd, hn, hchild, -⟩ := names_snoc_iff.1 hk
  exact ⟨d, hd, (h d n x k hn hchild).2⟩

/-- One way leads to a node. -/
theorem names_inj (h : Grown v) (hp : v.names p = some k) (hq : v.names q = some k) : p = q := by
  induction p using List.reverseRecOn generalizing q k with
  | nil =>
    obtain ⟨rfl, -⟩ := names_nil_iff.1 hp
    rcases List.eq_nil_or_concat q with rfl | ⟨q', y, rfl⟩
    · rfl
    · -- no entry leads to the root
      rw [List.concat_eq_append] at hq
      obtain ⟨d, -, hchild⟩ := child_of_names h.entries hq
      exact absurd rfl (child_ne_root h hchild)
  | append_singleton p x ih =>
    obtain ⟨d, hd, child, hchild, hname, hparent⟩ := child_of_names h.entries hp
    rcases List.eq_nil_or_concat q with rfl | ⟨q', y, rfl⟩
    · obtain ⟨rfl, -⟩ := names_nil_iff.1 hq
      exact absurd rfl (child_ne_root h ⟨child, hchild, hname, hparent⟩)
    · rw [List.concat_eq_append] at hq ⊢
      obtain ⟨d', hd', child', hchild', hname', hparent'⟩ := child_of_names h.entries hq
      cases hchild.symm.trans hchild'
      cases Option.some.inj (hparent.symm.trans hparent')
      rw [ih hd hd', hname.symm.trans hname']

/-! ## Creation -/

/-- A node without entries was made in a directory. -/
structure Created (v v' : VirtualFileSystem) (d : Nat) (name : String) (k : Nat) (child : VFSNode) :
    Prop where
  root_eq : v'.rootInode = v.rootInode
  fresh : v.lookup k = none
  entry : ∃ n, v.lookup d = some n ∧ n.children.lookup name = none ∧
    v'.lookup d = some { n with children := n.children.insert name k }
  made : v'.lookup k = some child
  childless : ∀ x, child.children.lookup x = none
  others : ∀ j, j ≠ d → j ≠ k → v'.lookup j = v.lookup j

/-- Nodes stay when one is made. -/
theorem Created.there {child : VFSNode} (h : Created v v' d x k child) {j : Nat}
    (hj : ∃ n, v.lookup j = some n) : ∃ n, v'.lookup j = some n := by
  by_cases hjd : j = d
  · obtain ⟨n, -, -, hn'⟩ := h.entry
    exact ⟨_, by rw [hjd]; exact hn'⟩
  · by_cases hjk : j = k
    · exact ⟨child, by rw [hjk]; exact h.made⟩
    · rw [h.others j hjd hjk]
      exact hj

section created

variable {child : VFSNode} (hv : Grown v) (h : Created v v' d x k child)
include h

/-- No name leads on from the new node. -/
theorem Created.not_leads_made {y : String} {j : Nat} : ¬Leads v' k y j := by
  rintro ⟨m, hm, hentry, -⟩
  cases hm.symm.trans h.made
  rw [h.childless y] at hentry
  cases hentry

/-- From the directory, the new name leads to the new node. -/
theorem Created.leads_made {j : Nat} : Leads v' d x j ↔ j = k := by
  obtain ⟨n, -, -, hn'⟩ := h.entry
  constructor
  · rintro ⟨m, hm, hentry, -⟩
    cases hm.symm.trans hn'
    rw [HashMap.lookup_insert_eq, if_pos rfl] at hentry
    exact (Option.some.inj hentry).symm
  · rintro rfl
    refine ⟨_, hn', ?_, child, h.made⟩
    rw [HashMap.lookup_insert_eq, if_pos rfl]

include hv

/-- All other names lead where they led. -/
theorem Created.leads_iff {e j : Nat} {y : String} (hek : e ≠ k) (hnew : ¬(e = d ∧ y = x)) :
    Leads v' e y j ↔ Leads v e y j := by
  -- an entry of the old tree leads to a node of both
  have hold : ∀ m, v.lookup e = some m → m.children.lookup y = some j →
      (∃ c, v.lookup j = some c) ∧ ∃ c, v'.lookup j = some c := by
    intro m hm hentry
    obtain ⟨-, c, hc, -⟩ := hv.entries e m y j hm hentry
    exact ⟨⟨c, hc⟩, h.there ⟨c, hc⟩⟩
  by_cases hed : e = d
  · subst hed
    obtain ⟨n, hn, -, hn'⟩ := h.entry
    have hentries : (n.children.insert x k).lookup y = n.children.lookup y := by
      rw [HashMap.lookup_insert_eq, if_neg fun hy => hnew ⟨rfl, hy⟩]
    constructor
    · rintro ⟨m, hm, hentry, -⟩
      cases hm.symm.trans hn'
      have hentry' := hentries.symm.trans hentry
      exact ⟨n, hn, hentry', (hold n hn hentry').1⟩
    · rintro ⟨m, hm, hentry, -⟩
      cases hm.symm.trans hn
      exact ⟨_, hn', hentries.trans hentry, (hold _ hn hentry).2⟩
  · rw [Leads, Leads, h.others e hed hek]
    constructor
    · rintro ⟨m, hm, hentry, -⟩
      exact ⟨m, hm, hentry, (hold m hm hentry).1⟩
    · rintro ⟨m, hm, hentry, -⟩
      exact ⟨m, hm, hentry, (hold m hm hentry).2⟩

end created

/-- A creation adds one list of names: that of the directory and the new name behind it. -/
theorem names_created {child : VFSNode} (hv : Grown v) (h : Created v v' d x k child)
    (hp : v.names p = some d) (q : List String) :
    v'.names q = if q = p ++ [x] then some k else v.names q := by
  induction q using List.reverseRecOn with
  | nil =>
    rw [if_neg (by simp)]
    obtain ⟨root, hroot⟩ := root_of_names hp
    obtain ⟨root', hroot'⟩ := h.there ⟨root, hroot⟩
    rw [names_nil_iff.2 ⟨rfl, root, hroot⟩, ← h.root_eq]
    rw [← h.root_eq] at hroot'
    exact names_nil_iff.2 ⟨rfl, root', hroot'⟩
  | append_singleton q y ih =>
    apply Option.ext
    intro j
    rw [names_snoc_iff_leads, ih]
    by_cases hq : q = p ++ [x]
    · -- behind the new name: nothing in either tree
      rw [if_pos hq, if_neg (by rw [hq]; simp)]
      constructor
      · rintro ⟨e, he, hleads⟩
        cases he
        exact absurd hleads h.not_leads_made
      · intro hj
        obtain ⟨e, he, -⟩ := names_snoc_iff_leads.1 hj
        rw [hq] at he
        obtain ⟨d', n, hd', hn, hentry, -⟩ := names_snoc_iff.1 he
        obtain ⟨n', hn', hfree, -⟩ := h.entry
        cases hp.symm.trans hd'
        cases hn.symm.trans hn'
        rw [hfree] at hentry
        cases hentry
    · rw [if_neg hq]
      by_cases hnew : q = p ∧ y = x
      · -- the new name in its directory
        obtain ⟨rfl, rfl⟩ := hnew
        rw [if_pos rfl]
        constructor
        · rintro ⟨e, he, hleads⟩
          cases hp.symm.trans he
          exact congrArg some (h.leads_made.1 hleads).symm
        · intro hj
          exact ⟨d, hp, h.leads_made.2 (Option.some.inj hj).symm⟩
      · rw [if_neg (fun heq => hnew (List.append_singleton_inj.1 heq)), names_snoc_iff_leads]
        -- the directory is not the new node, and found under one list of names only
        have hsame : ∀ e, v.names q = some e → (Leads v' e y j ↔ Leads v e y j) := by
          intro e he
          apply h.leads_iff hv
          · rintro rfl
            obtain ⟨m, hm⟩ := lookup_of_names he
            rw [h.fresh] at hm
            cases hm
          · rintro ⟨rfl, hy⟩
            exact hnew ⟨names_inj hv he hp, hy⟩
        constructor
        · rintro ⟨e, he, hleads⟩
          exact ⟨e, he, (hsame e he).1 hleads⟩
        · rintro ⟨e, he, hleads⟩
          exact ⟨e, he, (hsame e he).2 hleads⟩

/-! ## Deletion -/

/-- A node is gone, and the entries that led to it. -/
structure Removed (v v' : VirtualFileSystem) (k : Nat) : Prop where
  root_eq : v'.rootInode = v.rootInode
  gone : v'.lookup k = none
  node : ∀ j n', v'.lookup j = some n' → ∃ n, v.lookup j = some n ∧
    ∀ x i, n'.children.lookup x = some i ↔ n.children.lookup x = some i ∧ i ≠ k
  kept : ∀ j n, j ≠ k → v.lookup j = some n → ∃ n', v'.lookup j = some n'

/-- Names lead where they led, but neither from the node that is gone nor to it. -/
theorem Removed.leads_iff (hv : Grown v) (h : Removed v v' k) {e j : Nat} {y : String} :
    Leads v' e y j ↔ e ≠ k ∧ j ≠ k ∧ Leads v e y j := by
  constructor
  · rintro ⟨m', hm', hentry, -⟩
    obtain ⟨m, hm, hentries⟩ := h.node e m' hm'
    obtain ⟨hentry', hjk⟩ := (hentries y j).1 hentry
    obtain ⟨-, c, hc, -⟩ := hv.entries e m y j hm hentry'
    refine ⟨?_, hjk, m, hm, hentry', c, hc⟩
    rintro rfl
    rw [h.gone] at hm'
    cases hm'
  · rintro ⟨hek, hjk, m, hm, hentry, c, hc⟩
    obtain ⟨m', hm'⟩ := h.kept e m hek hm
    obtain ⟨m₀, hm₀, hentries⟩ := h.node e m' hm'
    cases hm.symm.trans hm₀
    exact ⟨m', hm', (hentries y j).2 ⟨hentry, hjk⟩, h.kept j c hjk hc⟩

/-- A deletion takes away the lists of names that begin with that of the node. -/
theorem names_removed (hv : Grown v) (h : Removed v v' k) (hp : v.names p = some k) (q : List String) :
    v'.names q = if p <+: q then none else v.names q := by
  induction q using List.reverseRecOn with
  | nil =>
    apply Option.ext
    intro j
    by_cases hnil : p = []
    · -- the root itself is gone
      subst hnil
      rw [if_pos List.nil_prefix]
      refine iff_of_false ?_ (Option.some_ne_none j ∘ Eq.symm)
      intro hj
      obtain ⟨rfl, m', hm'⟩ := names_nil_iff.1 hj
      rw [h.root_eq, ← (names_nil_iff.1 hp).1, h.gone] at hm'
      cases hm'
    · rw [if_neg (by simpa using hnil), names_nil_iff, names_nil_iff, h.root_eq]
      constructor
      · rintro ⟨rfl, m', hm'⟩
        obtain ⟨m, hm, -⟩ := h.node _ m' hm'
        exact ⟨rfl, m, hm⟩
      · rintro ⟨rfl, m, hm⟩
        refine ⟨rfl, h.kept _ m ?_ hm⟩
        rintro rfl
        exact hnil (names_inj hv hp (names_nil_iff.2 ⟨rfl, m, hm⟩))
  | append_singleton q y ih =>
    apply Option.ext
    intro j
    rw [names_snoc_iff_leads, ih]
    by_cases hpre : p <+: q
    · rw [if_pos hpre, if_pos (List.prefix_concat_iff.2 (Or.inr hpre))]
      constructor
      · rintro ⟨e, he, -⟩
        cases he
      · rintro ⟨⟩
    · rw [if_neg hpre]
      by_cases heq : p = q ++ [y]
      · -- the last name led to the node
        rw [if_pos (List.prefix_concat_iff.2 (Or.inl heq))]
        constructor
        · rintro ⟨e, he, hleads⟩
          obtain ⟨-, hjk, hold⟩ := (h.leads_iff hv).1 hleads
          have hj := names_snoc_iff_leads.2 ⟨e, he, hold⟩
          rw [← heq, hp] at hj
          exact absurd (Option.some.inj hj).symm hjk
        · rintro ⟨⟩
      · rw [if_neg (fun hboth => (List.prefix_concat_iff.1 hboth).elim heq hpre), names_snoc_iff_leads]
        constructor
        · rintro ⟨e, he, hleads⟩
          exact ⟨e, he, ((h.leads_iff hv).1 hleads).2.2⟩
        · rintro ⟨e, he, hleads⟩
          -- neither the directory nor the node is the one that is gone
          refine ⟨e, he, (h.leads_iff hv).2 ⟨?_, ?_, hleads⟩⟩
          · rintro rfl
            exact hpre (by rw [names_inj hv hp he])
          · rintro rfl
            exact heq (names_inj hv hp (names_snoc_iff_leads.2 ⟨e, he, hleads⟩))

end Names

/-! ## What the operations do -/

/-- A node that is entered without an error is found in its directory. -/
theorem created_of_createNode {v v' : VirtualFileSystem} (hv : Sprouted v) {d k : Nat} {parent : VFSNode}
    (hparent : v.lookup d = some parent) {nodeType : NodeType} {name : String} {owner : Pid}
    (h : v.createNode nodeType d name owner = (.ok k, v')) :
    k = v.nextInode ∧ Created v v' d name k (VFSNode.new k name nodeType (some d) owner) := by
  have hold : d ≠ v.nextInode := fun heq => Nat.lt_irrefl _ (heq ▸ (hv.node d parent hparent).2)
  -- the node is entered first, and its directory after it
  have hentered : ∀ j, ({ v with
      nodes := v.nodes.insert v.nextInode (VFSNode.new v.nextInode name nodeType (some d) owner)
      nextInode := v.nextInode + 1 } : VirtualFileSystem).lookup j = if j = v.nextInode then
        some (VFSNode.new v.nextInode name nodeType (some d) owner) else v.lookup j :=
    fun j => HashMap.lookup_insert_eq v.nodes v.nextInode j _
  simp only [createNode, hentered, if_neg hold, hparent] at h
  split at h
  · cases h
  · next parent' hadded =>
    obtain ⟨-, rfl⟩ := addChild_entry hadded
    simp only [Prod.mk.injEq, Except.ok.injEq] at h
    obtain ⟨rfl, rfl⟩ := h
    -- two entries differ: the directory and the new node
    have hlookup : ∀ j, (VirtualFileSystem.setNode { v with
        nodes := v.nodes.insert v.nextInode (VFSNode.new v.nextInode name nodeType (some d) owner)
        nextInode := v.nextInode + 1 } d { parent with
          children := parent.children.insert name v.nextInode }).lookup j =
        if j = d then some { parent with children := parent.children.insert name v.nextInode }
        else if j = v.nextInode then some (VFSNode.new v.nextInode name nodeType (some d) owner)
        else v.lookup j := by
      intro j
      rw [lookup_setNode, hentered]
    refine ⟨rfl, rfl, hv.next_free, ⟨parent, hparent, ?_, ?_⟩, ?_, fun _ => rfl, ?_⟩
    · rw [VFSNode.addChild] at hadded
      split at hadded
      · cases hadded
      · split at hadded
        · cases hadded
        · next hnone => simpa using hnone
    · rw [hlookup, if_pos rfl]
    · rw [hlookup, if_neg (Ne.symm hold), if_pos rfl]
    · intro j hjd hjk
      rw [hlookup, if_neg hjd, if_neg hjk]

/-- Unlinking takes one entry of one directory. -/
theorem lookup_unlinkFrom_entry {v : VirtualFileSystem} {parent : Option Nat} {name : String} {j : Nat}
    {n' : VFSNode} (h : (v.unlinkFrom parent name).lookup j = some n') :
    ∃ n, v.lookup j = some n ∧ ∀ x i, n.children.lookup x = some i →
      parent = some j ∧ x = name ∨ n'.children.lookup x = some i := by
  simp only [unlinkFrom] at h
  split at h
  · exact ⟨n', h, fun _ _ hx => Or.inr hx⟩
  · next d =>
    split at h
    · exact ⟨n', h, fun _ _ hx => Or.inr hx⟩
    · next dir hdir =>
      rcases removeChild_cases dir name with hremoved | ⟨⟨e, hrefused⟩, -⟩
      · rw [hremoved] at h
        simp only [lookup_setNode] at h
        split at h
        · next hj =>
          cases h
          subst hj
          refine ⟨dir, hdir, ?_⟩
          intro x i hx
          by_cases hname : x = name
          · exact Or.inl ⟨rfl, hname⟩
          · right
            rw [HashMap.lookup_erase_eq, if_neg hname]
            exact hx
        · exact ⟨n', h, fun _ _ hx => Or.inr hx⟩
      · rw [hrefused] at h
        exact ⟨n', h, fun _ _ hx => Or.inr hx⟩

theorem rootInode_unlinkFrom (v : VirtualFileSystem) (parent : Option Nat) (name : String) :
    (v.unlinkFrom parent name).rootInode = v.rootInode :=
  (v.regrown_unlinkFrom parent name).root_eq

/-- A node that names lead to is the one that its directory has under its name. -/
theorem entry_of_names {v : VirtualFileSystem} (hv : Grown v) {p : List String} {k : Nat} {n : VFSNode}
    (hp : v.names p = some k) (hn : v.lookup k = some n) {d : Nat} (hparent : n.parent = some d) :
    ∃ m, v.lookup d = some m ∧ m.children.lookup n.name = some k := by
  rcases List.eq_nil_or_concat p with rfl | ⟨p', x, rfl⟩
  · -- the root has no directory
    obtain ⟨rfl, -⟩ := names_nil_iff.1 hp
    exact absurd rfl (child_ne_root hv ⟨n, hn, rfl, hparent⟩)
  · rw [List.concat_eq_append] at hp
    obtain ⟨e, m, -, hm, hentry, -⟩ := names_snoc_iff.1 hp
    obtain ⟨-, child, hchild, hname, hparent'⟩ := hv.entries e m x k hm hentry
    cases hn.symm.trans hchild
    cases Option.some.inj (hparent.symm.trans hparent')
    exact ⟨m, hm, by rw [hname]; exact hentry⟩

/-- A deletion without an error takes the node, and of the entries those that lead to it. A node without
an entry would take that of another one with its name. -/
theorem removed_of_delete {v v' : VirtualFileSystem} (hv : Grown v) {p : List String} {k : Nat} {n : VFSNode}
    (hp : v.names p = some k) (hn : v.lookup k = some n) (href : n.refCount = 0)
    (h : v.delete k = (.ok (), v')) : n.canDelete = true ∧ Removed v v' k := by
  simp only [delete, hn, href, if_true] at h
  split at h
  · cases h
  · next hdel =>
    cases h
    refine ⟨by simpa using hdel, ?_⟩
    have hlookup : ∀ j, VirtualFileSystem.lookup { v.unlinkFrom n.parent n.name with
        nodes := (v.unlinkFrom n.parent n.name).nodes.erase k } j =
        if j = k then none else (v.unlinkFrom n.parent n.name).lookup j :=
      fun j => HashMap.lookup_erase_eq _ _ _
    refine ⟨rootInode_unlinkFrom v n.parent n.name, by rw [hlookup, if_pos rfl], ?_, ?_⟩
    · intro j m' hm'
      rw [hlookup] at hm'
      split at hm'
      · cases hm'
      · obtain ⟨m, hm, -, hfewer, hgone⟩ := lookup_unlinkFrom hm'
        obtain ⟨m₀, hm₀, hothers⟩ := lookup_unlinkFrom_entry hm'
        cases hm.symm.trans hm₀
        refine ⟨m, hm, ?_⟩
        intro x i
        constructor
        · intro hentry
          obtain ⟨hdir, child, hchild, hname, hparent⟩ := hv.entries j m x i hm (hfewer x i hentry)
          refine ⟨hfewer x i hentry, ?_⟩
          rintro rfl
          cases hn.symm.trans hchild
          rw [hname] at hgone
          rw [hgone hparent hdir] at hentry
          cases hentry
        · rintro ⟨hentry, hik⟩
          rcases hothers x i hentry with ⟨hparent, rfl⟩ | hkept
          · -- the entry under the name of the node leads to it
            obtain ⟨dir, hdir, hown⟩ := entry_of_names hv hp hn hparent
            cases hm.symm.trans hdir
            exact absurd (Option.some.inj (hentry.symm.trans hown)) hik
          · exact hkept
    · intro j m hjk hm
      obtain ⟨m', hm', -⟩ := lookup_unlinkFrom_mono v n.parent n.name j m hm
      exact ⟨m', by rw [hlookup, if_neg hjk]; exact hm'⟩

/-! ## Where the nodes come from -/

/-- A node of a tree after a creation: an old one, or the new one. -/
theorem lookup_createNode_back {v : VirtualFileSystem} {nodeType : NodeType} {parent : Nat} {name : String}
    {owner : Pid} {i : Nat} {n' : VFSNode}
    (h : (v.createNode nodeType parent name owner).2.lookup i = some n') :
    (∃ n, v.lookup i = some n ∧ SameStore n n') ∨
      SameStore (VFSNode.new v.nextInode name nodeType (some parent) owner) n' := by
  -- the new node is entered whether or not its directory takes it
  have hentered : ∀ j m, VirtualFileSystem.lookup { v with
      nodes := v.nodes.insert v.nextInode (VFSNode.new v.nextInode name nodeType (some parent) owner)
      nextInode := v.nextInode + 1 } j = some m →
      (∃ n, v.lookup j = some n ∧ SameStore n m) ∨
        SameStore (VFSNode.new v.nextInode name nodeType (some parent) owner) m := by
    intro j m hm
    rw [VirtualFileSystem.lookup, HashMap.lookup_insert_eq] at hm
    split at hm
    · cases hm
      exact Or.inr (SameStore.refl _)
    · exact Or.inl ⟨m, hm, SameStore.refl m⟩
  simp only [createNode] at h
  split at h
  · exact hentered i n' h
  · next parentNode hparent =>
    split at h
    · exact hentered i n' h
    · next hadded =>
      rw [lookup_setNode] at h
      split at h
      · next hi =>
        cases h
        have hsame := addChild_ok hadded
        subst hi
        -- the directory gets a child and keeps its store
        rcases hentered i parentNode hparent with ⟨n, hn, hstore⟩ | hnew
        · exact Or.inl ⟨n, hn, hstore.trans hsame⟩
        · exact Or.inr (hnew.trans hsame)
      · exact hentered i n' h

/-- A node of a tree after a deletion is an old one. -/
theorem lookup_delete_back {v : VirtualFileSystem} {k i : Nat} {n' : VFSNode}
    (h : (v.delete k).2.lookup i = some n') : ∃ n, v.lookup i = some n ∧ SameStore n n' := by
  have hunlinked : ∀ {parent name m}, (v.unlinkFrom parent name).lookup i = some m →
      ∃ n, v.lookup i = some n ∧ SameStore n m := by
    intro parent name m hm
    obtain ⟨n, hn, hsame, -⟩ := lookup_unlinkFrom hm
    exact ⟨n, hn, hsame⟩
  simp only [delete] at h
  split at h
  · exact ⟨n', h, SameStore.refl n'⟩
  · next node hnode =>
    split at h
    · exact ⟨n', h, SameStore.refl n'⟩
    · split at h
      · simp only [VirtualFileSystem.lookup, HashMap.lookup_erase_eq] at h
        split at h
        · cases h
        · exact hunlinked h
      · rw [lookup_setNode] at h
        split at h
        · next hi =>
          cases h
          exact ⟨node, by rw [hi]; exact hnode, ⟨rfl, rfl, rfl, rfl, rfl, rfl⟩⟩
        · exact hunlinked h

/-! ## Kinds of nodes -/

/-- Every node is a file or a directory, and nobody holds a reference to one. -/
def Plain (v : VirtualFileSystem) : Prop :=
  ∀ i n, v.lookup i = some n → (n.isFile = true ∨ n.isDirectory = true) ∧ n.refCount = 0

theorem Plain.setNode {v : VirtualFileSystem} (h : Plain v) (i : Nat) {n : VFSNode}
    (hn : (n.isFile = true ∨ n.isDirectory = true) ∧ n.refCount = 0) : Plain (v.setNode i n) := by
  intro j m hm
  rw [lookup_setNode] at hm
  split at hm
  · cases hm
    exact hn
  · exact h j m hm

theorem plain_createNode {v : VirtualFileSystem} (h : Plain v) {nodeType : NodeType}
    (htype : nodeType = .file ∨ nodeType = .directory) (parent : Nat) (name : String) (owner : Pid) :
    Plain (v.createNode nodeType parent name owner).2 := by
  have hkind : (VFSNode.new v.nextInode name nodeType (some parent) owner).isFile = true ∨
      (VFSNode.new v.nextInode name nodeType (some parent) owner).isDirectory = true := by
    rcases htype with rfl | rfl
    · exact Or.inl rfl
    · exact Or.inr rfl
  have hentered : Plain { v with
      nodes := v.nodes.insert v.nextInode (VFSNode.new v.nextInode name nodeType (some parent) owner)
      nextInode := v.nextInode + 1 } := h.setNode v.nextInode ⟨hkind, rfl⟩
  simp only [createNode]
  split
  · exact hentered
  · next parentNode hparent =>
    split
    · exact hentered
    · next hadded =>
      obtain ⟨-, rfl⟩ := addChild_entry hadded
      exact hentered.setNode parent (hentered parent parentNode hparent)

theorem plain_delete {v : VirtualFileSystem} (h : Plain v) (inode : Nat) : Plain (v.delete inode).2 := by
  have hunlinked : ∀ parent name, Plain (v.unlinkFrom parent name) := by
    intro parent name
    simp only [unlinkFrom]
    split
    · exact h
    · next d =>
      split
      · exact h
      · next dir hdir =>
        rcases removeChild_cases dir name with hremoved | ⟨⟨e, hrefused⟩, -⟩
        · rw [hremoved]
          exact h.setNode d (h d dir hdir)
        · rw [hrefused]
          exact h
  simp only [delete]
  split
  · exact h
  · next node hnode =>
    split
    · exact h
    · split
      · intro j m hm
        simp only [lookup, HashMap.lookup_erase_eq] at hm
        split at hm
        · cases hm
        · exact hunlinked node.parent node.name j m hm
      · exact (hunlinked node.parent node.name).setNode inode (h inode node hnode)

theorem plain_update {v : VirtualFileSystem} (h : Plain v) (inode size : Nat) (blocks : List Nat) :
    Plain (v.update inode size blocks) := by
  intro i n' hn'
  obtain ⟨n, hn, ⟨-, rfl⟩ | rfl⟩ := lookup_update_iff v inode size blocks hn'
  · exact h i n hn
  · exact h i n' hn

theorem plain_rootOnly : Plain rootOnly := by
  intro i n hn
  obtain ⟨-, rfl⟩ := rootOnly_lookup hn
  exact ⟨Or.inr rfl, rfl⟩

theorem plain_steps {v v' : VirtualFileSystem} (hsteps : TreeSteps v v') (h : Plain v) : Plain v' := by
  induction hsteps with
  | refl => exact h
  | tail _ hlast ih =>
    cases hlast with
    | createFile parent name owner => exact plain_createNode ih (Or.inl rfl) parent name owner
    | createDirectory parent name owner => exact plain_createNode ih (Or.inr rfl) parent name owner
    | delete inode => exact plain_delete ih inode

theorem plain_reload {v : VirtualFileSystem} (h : Plain v) (ord : HashOrder) :
    Plain (loadFromFile (v.saveToFile ord)) := by
  rw [loadFromFile]
  apply List.foldlRecOn (motive := Plain)
  · apply List.foldlRecOn (motive := Plain)
    · exact plain_steps treeSteps_new plain_rootOnly
    · intro v' hv' e he
      obtain ⟨i, n, hn, rfl⟩ := (mem_saveToFile ord).1 he
      intro j m hm
      rw [lookup_loadNode] at hm
      split at hm
      · cases hm
        exact ⟨(h i n hn).1, rfl⟩
      · exact hv' j m hm
  · intro v' hv' e _ j m hm
    rw [lookup_loadChildren] at hm
    split at hm
    · obtain ⟨m₀, hm₀, rfl⟩ := Option.map_eq_some_iff.1 hm
      exact hv' j m₀ hm₀
    · exact hv' j m hm

theorem plain_of_evolved {v : VirtualFileSystem} (h : Evolved v) : Plain v := by
  induction h with
  | new => exact plain_steps treeSteps_new plain_rootOnly
  | createFile parent name owner _ ih => exact plain_createNode ih (Or.inl rfl) parent name owner
  | createDirectory parent name owner _ ih => exact plain_createNode ih (Or.inr rfl) parent name owner
  | delete inode _ ih => exact plain_delete ih inode
  | update inode size blocks _ _ ih => exact plain_update ih inode size blocks
  | reload ord _ ih => exact plain_reload ih ord

end VirtualFileSystem

end GenshinOs.Files
