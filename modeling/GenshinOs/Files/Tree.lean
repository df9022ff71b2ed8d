import GenshinOs.Files.Durable

/-!
# The tree of names

A directory has its entries by name, and every node has its own name and the number of its directory.
`Consistent` says that the three agree; every creation, deletion and reload keeps it, also where one of
them fails half way. Loading puts the saved nodes over a new tree, whose entries are there again where
nothing was saved for them: `Grown` has what makes this harmless. A reload then gives the tree that was
saved (`lookupPath_reload`), and the entries of every state of the service lead to their nodes
(`entries_consistent`).
-/

set_option autoImplicit false

namespace GenshinOs.Files

open GenshinOs.Lib GenshinOs.Hardware VirtualFileSystem

namespace VirtualFileSystem

/-! ## Entries -/

/-- The node of an entry is there and has its name and its directory. -/
def Child (v : VirtualFileSystem) (d : Nat) (name : String) (i : Nat) : Prop :=
  ∃ child, v.lookup i = some child ∧ child.name = name ∧ child.parent = some d

/-- Only directories have entries, and every entry leads to its node. -/
def Consistent (v : VirtualFileSystem) : Prop :=
  ∀ d node name i, v.lookup d = some node → node.children.lookup name = some i →
    node.isDirectory = true ∧ Child v d name i

theorem isDirectory_congr {n n' : VFSNode} (h : SameStore n n') : n'.isDirectory = n.isDirectory := by
  rw [VFSNode.isDirectory, VFSNode.isDirectory, h.type_eq]

theorem Child.setNode {v : VirtualFileSystem} {d k i : Nat} {name : String} {n n' : VFSNode}
    (h : Child v d name k) (hn : v.lookup i = some n) (hsame : SameStore n n') :
    Child (v.setNode i n') d name k := by
  obtain ⟨child, hchild, hname, hparent⟩ := h
  by_cases hk : k = i
  · subst hk
    rw [hn] at hchild
    cases hchild
    refine ⟨n', ?_, hsame.name_eq.trans hname, hsame.parent_eq.trans hparent⟩
    rw [lookup_setNode, if_pos rfl]
  · refine ⟨child, ?_, hname, hparent⟩
    rw [lookup_setNode, if_neg hk]
    exact hchild

/-- A node may lose entries, and gain some that lead to their nodes. -/
theorem Consistent.setNode {v : VirtualFileSystem} {i : Nat} {n n' : VFSNode} (h : Consistent v)
    (hn : v.lookup i = some n) (hsame : SameStore n n')
    (hentries : ∀ name k, n'.children.lookup name = some k →
      n.children.lookup name = some k ∨ n.isDirectory = true ∧ Child v i name k) :
    Consistent (v.setNode i n') := by
  intro d node name k hd hentry
  rw [lookup_setNode] at hd
  split at hd
  · next hdi =>
    cases hd
    subst hdi
    have hboth : n.isDirectory = true ∧ Child v d name k := by
      rcases hentries name k hentry with hold | hnew
      · exact h d n name k hn hold
      · exact hnew
    exact ⟨(isDirectory_congr hsame).trans hboth.1, hboth.2.setNode hn hsame⟩
  · obtain ⟨hdir, hchild⟩ := h d node name k hd hentry
    exact ⟨hdir, hchild.setNode hn hsame⟩

theorem addChild_entry {n n' : VFSNode} {name : String} {inode : Nat}
    (h : n.addChild name inode = .ok n') :
    n.isDirectory = true ∧ n' = { n with children := n.children.insert name inode } := by
  simp only [VFSNode.addChild] at h
  split at h
  · cases h
  · next hdir =>
    split at h
    · cases h
    · cases h
      exact ⟨by simpa using hdir, rfl⟩

/-- A removal fails only where there is nothing to remove. -/
theorem removeChild_cases (n : VFSNode) (name : String) :
    n.removeChild name = .ok { n with children := n.children.erase name } ∨
      (∃ e, n.removeChild name = .error e) ∧
        (n.isDirectory = false ∨ n.children.lookup name = none) := by
  rw [VFSNode.removeChild]
  split
  · next hdir => exact Or.inr ⟨⟨_, rfl⟩, Or.inl hdir⟩
  · split
    · next hnone => exact Or.inr ⟨⟨_, rfl⟩, Or.inr (by simpa using hnone)⟩
    · exact Or.inl rfl

/-- A node with a number that nobody has, and without entries. -/
theorem Consistent.enter {v : VirtualFileSystem} (h : Consistent v) {i : Nat} (hi : v.lookup i = none)
    {n : VFSNode} (hnone : ∀ name, n.children.lookup name = none) : Consistent (v.setNode i n) := by
  intro d node name k hd hentry
  rw [lookup_setNode] at hd
  split at hd
  · cases hd
    rw [hnone name] at hentry
    cases hentry
  · obtain ⟨hdir, child, hchild, hname, hparent⟩ := h d node name k hd hentry
    refine ⟨hdir, child, ?_, hname, hparent⟩
    rw [lookup_setNode, if_neg]
    · exact hchild
    · rintro rfl
      rw [hi] at hchild
      cases hchild

/-- The next number changes nothing about the entries. -/
theorem consistent_congr {v v' : VirtualFileSystem} (hnodes : v'.nodes = v.nodes) (h : Consistent v) :
    Consistent v' := by
  have hlookup : ∀ i, v'.lookup i = v.lookup i := by
    intro i
    rw [lookup, lookup, hnodes]
  intro d node name i hd hentry
  rw [hlookup] at hd
  obtain ⟨hdir, child, hchild, hchild'⟩ := h d node name i hd hentry
  exact ⟨hdir, child, by rw [hlookup]; exact hchild, hchild'⟩

theorem consistent_createNode {v : VirtualFileSystem} (h : Consistent v)
    (hfree : v.lookup v.nextInode = none) (nodeType : NodeType) (parent : Nat) (name : String)
    (owner : Pid) : Consistent (v.createNode nodeType parent name owner).2 := by
  have hentered : Consistent { v with
      nodes := v.nodes.insert v.nextInode (VFSNode.new v.nextInode name nodeType (some parent) owner)
      nextInode := v.nextInode + 1 } :=
    consistent_congr rfl (h.enter hfree fun _ => rfl)
  simp only [createNode]
  split
  · exact hentered
  · next parentNode hparent =>
    split
    · exact hentered
    · next parentNode' hadded =>
      obtain ⟨hdir, rfl⟩ := addChild_entry hadded
      apply hentered.setNode hparent (addChild_ok hadded)
      intro name' k hentry
      simp only [HashMap.lookup_insert_eq] at hentry
      split at hentry
      · next hname =>
        -- the new entry leads to the new node
        cases hentry
        subst hname
        refine Or.inr ⟨hdir, VFSNode.new v.nextInode name' nodeType (some parent) owner, ?_, rfl, rfl⟩
        exact AList.lookup_insert _
      · exact Or.inl hentry

theorem lookup_unlinkFrom {v : VirtualFileSystem} {parent : Option Nat} {name : String} {i : Nat}
    {n' : VFSNode} (h : (v.unlinkFrom parent name).lookup i = some n') :
    ∃ n, v.lookup i = some n ∧ SameStore n n' ∧
      (∀ key k, n'.children.lookup key = some k → n.children.lookup key = some k) ∧
      (parent = some i → n.isDirectory = true → n'.children.lookup name = none) := by
  -- when the node is not written, it remains to show that the name was not there
  have hsame : v.lookup i = some n' → (parent = some i → n'.isDirectory = true →
      n'.children.lookup name = none) → ∃ n, v.lookup i = some n ∧ SameStore n n' ∧
      (∀ key k, n'.children.lookup key = some k → n.children.lookup key = some k) ∧
      (parent = some i → n.isDirectory = true → n'.children.lookup name = none) :=
    fun hn hgone => ⟨n', hn, SameStore.refl n', fun _ _ hkey => hkey, hgone⟩
  simp only [unlinkFrom] at h
  split at h
  · apply hsame h
    intro hparent
    cases hparent
  · next parentInode =>
    split at h
    · next hmissing =>
      apply hsame h
      rintro hparent -
      cases hparent
      rw [hmissing] at h
      cases h
    · next parentNode hfound =>
      rcases removeChild_cases parentNode name with hremoved | ⟨⟨e, hrefused⟩, hnothing⟩
      · rw [hremoved] at h
        simp only [lookup_setNode] at h
        split at h
        -- this is the parent, without the name
        · next hi =>
          cases h
          subst hi
          refine ⟨parentNode, hfound, removeChild_ok hremoved, ?_, fun _ _ => AList.lookup_erase _ _⟩
          intro key k hkey
          simp only [HashMap.lookup_erase_eq] at hkey
          split at hkey
          · cases hkey
          · exact hkey
        · next hne =>
          apply hsame h
          intro hparent
          exact absurd (Option.some.inj hparent).symm hne
      · rw [hrefused] at h
        apply hsame h
        rintro hparent hdir
        cases hparent
        rw [hfound] at h
        cases h
        rcases hnothing with hfile | hnone
        · rw [hfile] at hdir
          cases hdir
        · exact hnone

/-- Unlinking removes no node. -/
theorem lookup_unlinkFrom_mono (v : VirtualFileSystem) (parent : Option Nat) (name : String) (i : Nat)
    (n : VFSNode) (hn : v.lookup i = some n) :
    ∃ n', (v.unlinkFrom parent name).lookup i = some n' ∧ SameStore n n' := by
  simp only [unlinkFrom]
  split
  · exact ⟨n, hn, SameStore.refl n⟩
  · next parentInode =>
    split
    · exact ⟨n, hn, SameStore.refl n⟩
    · next parentNode hfound =>
      split
      · exact ⟨n, hn, SameStore.refl n⟩
      · next parentNode' hremoved =>
        rw [lookup_setNode]
        split
        · next hi =>
          rw [hi, hfound] at hn
          cases hn
          exact ⟨parentNode', rfl, removeChild_ok hremoved⟩
        · exact ⟨n, hn, SameStore.refl n⟩

/-- What can be deleted has no entries. -/
theorem no_entries_of_canDelete {v : VirtualFileSystem} (h : Consistent v) {i : Nat} {n : VFSNode}
    (hn : v.lookup i = some n) (hdel : n.canDelete = true) (name : String) :
    n.children.lookup name = none := by
  cases hentry : n.children.lookup name with
  | none => rfl
  | some k =>
    obtain ⟨hdir, -⟩ := h i n name k hn hentry
    have hempty : n.children.keys = [] := by
      simpa [VFSNode.canDelete, VFSNode.hasNoChildren, hdir] using hdel
    have hmem : name ∈ n.children.keys := AList.lookup_isSome.1 (by rw [hentry]; rfl)
    rw [hempty] at hmem
    cases hmem

/-- A node that leaves takes its one entry along. -/
theorem consistent_delete {v : VirtualFileSystem} (h : Consistent v) (inode : Nat) :
    Consistent (v.delete inode).2 := by
  simp only [delete]
  split
  · exact h
  · next node hnode =>
    split
    · exact h
    · next hdel =>
      have hnone := no_entries_of_canDelete h hnode (by simpa using hdel)
      -- an entry that is left was one before, and is not the one of the node that leaves
      have hleft : ∀ d m' name k, (v.unlinkFrom node.parent node.name).lookup d = some m' →
          m'.children.lookup name = some k → m'.isDirectory = true ∧ Child v d name k ∧ k ≠ inode := by
        intro d m' name k hd hentry
        obtain ⟨m, hm, hsame, hkept, hgone⟩ := lookup_unlinkFrom hd
        obtain ⟨hdir, hchild⟩ := h d m name k hm (hkept name k hentry)
        refine ⟨(isDirectory_congr hsame).trans hdir, hchild, ?_⟩
        rintro rfl
        obtain ⟨child, hfound, rfl, hparent⟩ := hchild
        rw [hnode] at hfound
        cases hfound
        rw [hgone hparent hdir] at hentry
        cases hentry
      have hfound : ∀ k child, v.lookup k = some child →
          ∃ child', (v.unlinkFrom node.parent node.name).lookup k = some child' ∧
            SameStore child child' := lookup_unlinkFrom_mono v node.parent node.name
      split
      · intro d m' name k hd hentry
        simp only [lookup, HashMap.lookup_erase_eq] at hd
        split at hd
        · cases hd
        · obtain ⟨hdir, ⟨child, hchild, hname, hparent⟩, hne⟩ := hleft d m' name k hd hentry
          obtain ⟨child', hchild', hsame⟩ := hfound k child hchild
          refine ⟨hdir, child', ?_, hsame.name_eq.trans hname, hsame.parent_eq.trans hparent⟩
          simp only [lookup, HashMap.lookup_erase_eq, hne, if_false]
          exact hchild'
      · intro d m' name k hd hentry
        rw [lookup_setNode] at hd
        split at hd
        · cases hd
          simp only [hnone name] at hentry
          cases hentry
        · obtain ⟨hdir, ⟨child, hchild, hname, hparent⟩, hne⟩ := hleft d m' name k hd hentry
          obtain ⟨child', hchild', hsame⟩ := hfound k child hchild
          refine ⟨hdir, child', ?_, hsame.name_eq.trans hname, hsame.parent_eq.trans hparent⟩
          rw [lookup_setNode, if_neg hne]
          exact hchild'

/-- A node gets the size and the sectors of its file. -/
def update (v : VirtualFileSystem) (inode size : Nat) (blocks : List Nat) : VirtualFileSystem :=
  { v with nodes := HashMap.adjust v.nodes inode fun node => { node with size := size, blocks := blocks } }

theorem lookup_update (v : VirtualFileSystem) (inode size : Nat) (blocks : List Nat) (i : Nat) :
    (v.update inode size blocks).lookup i =
      if i = inode then (v.lookup inode).map fun node => { node with size := size, blocks := blocks }
      else v.lookup i :=
  HashMap.lookup_adjust v.nodes inode i _

/-- An update keeps everything else of a node. -/
theorem lookup_update_iff (v : VirtualFileSystem) (inode size : Nat) (blocks : List Nat) {i : Nat}
    {n' : VFSNode} (h : (v.update inode size blocks).lookup i = some n') :
    ∃ n, v.lookup i = some n ∧ (i = inode ∧ n' = { n with size := size, blocks := blocks } ∨ n' = n) := by
  rw [lookup_update] at h
  split at h
  · next hi =>
    obtain ⟨n, hn, rfl⟩ := Option.map_eq_some_iff.1 h
    exact ⟨n, by rw [hi]; exact hn, Or.inl ⟨hi, rfl⟩⟩
  · exact ⟨n', h, Or.inr rfl⟩

theorem consistent_update {v : VirtualFileSystem} (h : Consistent v) (inode size : Nat)
    (blocks : List Nat) : Consistent (v.update inode size blocks) := by
  intro d node' name k hd hentry
  obtain ⟨node, hnode, hchanged⟩ := lookup_update_iff v inode size blocks hd
  have hsame : node'.children = node.children ∧ node'.isDirectory = node.isDirectory := by
    rcases hchanged with ⟨-, rfl⟩ | rfl
    · exact ⟨rfl, rfl⟩
    · exact ⟨rfl, rfl⟩
  rw [hsame.1] at hentry
  obtain ⟨hdir, child, hchild, hname, hparent⟩ := h d node name k hnode hentry
  refine ⟨hsame.2.trans hdir, ?_⟩
  by_cases hk : k = inode
  · subst hk
    refine ⟨{ child with size := size, blocks := blocks }, ?_, hname, hparent⟩
    rw [lookup_update, if_pos rfl, hchild]
    rfl
  · refine ⟨child, ?_, hname, hparent⟩
    rw [lookup_update, if_neg hk]
    exact hchild

/-! ## Histories -/

/-- The numbers of the nodes are below the next one, and the entries are in order. -/
structure Sprouted (v : VirtualFileSystem) : Prop where
  node : ∀ i n, v.lookup i = some n → n.inode = i ∧ i < v.nextInode
  entries : Consistent v

theorem Sprouted.next_free {v : VirtualFileSystem} (h : Sprouted v) : v.lookup v.nextInode = none := by
  cases hn : v.lookup v.nextInode with
  | none => rfl
  | some n => exact absurd (h.node _ n hn).2 (Nat.lt_irrefl _)

theorem numbers_regrown {v v' : VirtualFileSystem} (hv : Regrown v v')
    (h : ∀ i n, v.lookup i = some n → n.inode = i ∧ i < v.nextInode) (i : Nat) (n : VFSNode)
    (hn : v'.lookup i = some n) : n.inode = i ∧ i < v'.nextInode := by
  rcases hv.node i n hn with ⟨m, hm, hsame⟩ | hfresh
  · exact ⟨hsame.inode_eq.trans (h i m hm).1, Nat.lt_of_lt_of_le (h i m hm).2 hv.next_le⟩
  · exact ⟨hfresh.inode_eq, hfresh.high⟩

theorem sprouted_step {v v' : VirtualFileSystem} (hstep : TreeStep v v') (h : Sprouted v) :
    Sprouted v' := by
  refine ⟨numbers_regrown hstep.regrown h.node, ?_⟩
  cases hstep with
  | createFile parent name owner =>
    exact consistent_createNode h.entries h.next_free .file parent name owner
  | createDirectory parent name owner =>
    exact consistent_createNode h.entries h.next_free .directory parent name owner
  | delete inode => exact consistent_delete h.entries inode

theorem sprouted_steps {v v' : VirtualFileSystem} (hsteps : TreeSteps v v') (h : Sprouted v) :
    Sprouted v' := by
  induction hsteps with
  | refl => exact h
  | tail _ hlast ih => exact sprouted_step hlast ih

theorem sprouted_new : Sprouted VirtualFileSystem.new := by
  apply sprouted_steps treeSteps_new
  constructor
  · intro i n hn
    obtain ⟨rfl, rfl⟩ := rootOnly_lookup hn
    exact ⟨rfl, by decide⟩
  · intro d node name i hd hentry
    obtain ⟨rfl, rfl⟩ := rootOnly_lookup hd
    cases hentry

theorem new_root : ∃ root, VirtualFileSystem.new.lookup 0 = some root ∧ root.size = 0 ∧ root.blocks = [] ∧
    root.parent = none ∧ root.isFile = false := by
  have hroot : (VirtualFileSystem.new.lookup 0).map (fun n => (n.size, n.blocks, n.parent, n.isFile)) =
      some (0, [], none, false) := by decide +kernel
  obtain ⟨root, hfound, hfields⟩ := Option.map_eq_some_iff.1 hroot
  simp only [Prod.mk.injEq] at hfields
  exact ⟨root, hfound, hfields⟩

/-- A node with a number of the new tree has the name, the directory and the kind that the new tree has
there, and the root has no bytes. -/
structure Grown (v : VirtualFileSystem) : Prop extends Sprouted v where
  root_eq : v.rootInode = 0
  next_le : VirtualFileSystem.new.nextInode ≤ v.nextInode
  stock : ∀ i n n₀, v.lookup i = some n → VirtualFileSystem.new.lookup i = some n₀ →
    n.name = n₀.name ∧ n.parent = n₀.parent ∧ n.nodeType = n₀.nodeType
  root : ∀ n, v.lookup 0 = some n → n.size = 0 ∧ n.blocks = []

theorem Grown.numbered {v : VirtualFileSystem} (h : Grown v) : Numbered v :=
  fun i n hn => (h.node i n hn).1

theorem grown_new : Grown VirtualFileSystem.new := by
  refine ⟨sprouted_new, by decide +kernel, Nat.le_refl _, ?_, ?_⟩
  · intro i n n₀ hn hn₀
    cases hn.symm.trans hn₀
    exact ⟨rfl, rfl, rfl⟩
  · intro n hn
    obtain ⟨root, hroot, hsize, hblocks, -⟩ := new_root
    cases hn.symm.trans hroot
    exact ⟨hsize, hblocks⟩

/-- Creations take numbers above those of the new tree. -/
theorem grown_step {v v' : VirtualFileSystem} (hstep : TreeStep v v') (h : Grown v) : Grown v' := by
  have hregrown := hstep.regrown
  have hnew : 0 < VirtualFileSystem.new.nextInode := by decide +kernel
  refine ⟨sprouted_step hstep h.toSprouted, hregrown.root_eq.trans h.root_eq,
    Nat.le_trans h.next_le hregrown.next_le, ?_, ?_⟩
  · intro i n' n₀ hn' hn₀
    rcases hregrown.node i n' hn' with ⟨n, hn, hsame⟩ | hfresh
    · obtain ⟨hname, hparent, htype⟩ := h.stock i n n₀ hn hn₀
      exact ⟨hsame.name_eq.trans hname, hsame.parent_eq.trans hparent, hsame.type_eq.trans htype⟩
    · have hlow := (sprouted_new.node i n₀ hn₀).2
      have hhigh := Nat.le_trans h.next_le hfresh.low
      omega
  · intro n' hn'
    rcases hregrown.node 0 n' hn' with ⟨n, hn, hsame⟩ | hfresh
    · obtain ⟨hsize, hblocks⟩ := h.root n hn
      exact ⟨hsame.size_eq.trans hsize, hsame.blocks_eq.trans hblocks⟩
    · have hlow := hfresh.low
      have hnext := h.next_le
      omega

theorem grown_steps {v v' : VirtualFileSystem} (hsteps : TreeSteps v v') (h : Grown v) : Grown v' := by
  induction hsteps with
  | refl => exact h
  | tail _ hlast ih => exact grown_step hlast ih

theorem grown_update {v : VirtualFileSystem} (h : Grown v) {inode : Nat} (hroot : inode ≠ v.rootInode)
    (size : Nat) (blocks : List Nat) : Grown (v.update inode size blocks) := by
  rw [h.root_eq] at hroot
  refine ⟨⟨?_, consistent_update h.entries inode size blocks⟩, h.root_eq, h.next_le, ?_, ?_⟩
  · intro i n' hn'
    obtain ⟨n, hn, ⟨-, rfl⟩ | rfl⟩ := lookup_update_iff v inode size blocks hn'
    · exact h.node i n hn
    · exact h.node i n' hn
  · intro i n' n₀ hn' hn₀
    obtain ⟨n, hn, ⟨-, rfl⟩ | rfl⟩ := lookup_update_iff v inode size blocks hn'
    · exact h.stock i n n₀ hn hn₀
    · exact h.stock i n' n₀ hn hn₀
  · intro n' hn'
    obtain ⟨n, hn, ⟨hi, rfl⟩ | rfl⟩ := lookup_update_iff v inode size blocks hn'
    · exact absurd hi.symm hroot
    · exact h.root n' hn

/-! ## Reloading -/

/-- The numbers after the first pass. -/
theorem next_loadNodes (saved : List SavedNode) (v : VirtualFileSystem) :
    v.nextInode ≤ (saved.foldl loadNode v).nextInode ∧
      (∀ e ∈ saved, e.inode ≠ 0 → e.inode < (saved.foldl loadNode v).nextInode) ∧
      (saved.foldl loadNode v).rootInode = v.rootInode := by
  induction saved generalizing v with
  | nil => exact ⟨Nat.le_refl _, fun e he => absurd he List.not_mem_nil, rfl⟩
  | cons e saved ih =>
    obtain ⟨hle, hlt, hroot⟩ := next_loadNode v e
    obtain ⟨hle', hlt', hroot'⟩ := ih (loadNode v e)
    refine ⟨Nat.le_trans hle hle', ?_, hroot'.trans hroot⟩
    intro e' he' hzero
    rcases List.mem_cons.1 he' with rfl | he'
    · exact Nat.lt_of_lt_of_le (hlt hzero) hle'
    · exact hlt' e' he' hzero

theorem next_loadChildrens (saved : List SavedNode) (v : VirtualFileSystem) :
    (saved.foldl loadChildren v).nextInode = v.nextInode ∧
      (saved.foldl loadChildren v).rootInode = v.rootInode := by
  induction saved generalizing v with
  | nil => exact ⟨rfl, rfl⟩
  | cons e saved ih => exact ih (loadChildren v e)

section Reload

variable {v : VirtualFileSystem} (ord : HashOrder)

/-- What a reload makes of a node: all that is saved of it is there again. -/
theorem lookup_reload (h : Grown v) {i : Nat} {n : VFSNode} (hn : v.lookup i = some n) :
    ∃ n', (loadFromFile (v.saveToFile ord)).lookup i = some n' ∧ savedNode n' = savedNode n := by
  by_cases hzero : i = 0
  · subst hzero
    obtain ⟨root, hroot, hloaded⟩ := lookup_loaded_root ord h.numbered hn
    obtain ⟨hname, hparent, htype⟩ := h.stock 0 n root hn hroot
    obtain ⟨hsize, hblocks⟩ := h.root n hn
    obtain ⟨hsize₀, hblocks₀⟩ := grown_new.root root hroot
    have hinode : root.inode = n.inode := by
      rw [grown_new.numbered 0 root hroot, h.numbered 0 n hn]
    refine ⟨_, hloaded, ?_⟩
    simp only [savedNode, hinode, hname, hparent, htype, hsize, hblocks, hsize₀, hblocks₀]
  · obtain ⟨n', hn', hchildren, hsame⟩ := lookup_loaded ord h.numbered hn
    obtain ⟨hinode, htype, hsize, hblocks, hname, hparent⟩ := hsame hzero
    refine ⟨n', hn', ?_⟩
    simp only [savedNode, hinode, htype, hsize, hblocks, hname, hparent, hchildren]

/-- After a reload a node is the saved one or one of the new tree. -/
theorem lookup_reload_cases (h : Grown v) {i : Nat} {n' : VFSNode}
    (hn' : (loadFromFile (v.saveToFile ord)).lookup i = some n') :
    (∃ n, v.lookup i = some n ∧ savedNode n' = savedNode n) ∨
      v.lookup i = none ∧ VirtualFileSystem.new.lookup i = some n' := by
  cases hn : v.lookup i with
  | none =>
    rw [lookup_loaded_other ord h.numbered hn] at hn'
    exact Or.inr ⟨rfl, hn'⟩
  | some n =>
    obtain ⟨m, hm, hsame⟩ := lookup_reload ord h hn
    cases hn'.symm.trans hm
    exact Or.inl ⟨n, rfl, hsame⟩

theorem next_reload (v : VirtualFileSystem) :
    VirtualFileSystem.new.nextInode ≤ (loadFromFile (v.saveToFile ord)).nextInode ∧
      (∀ e ∈ v.saveToFile ord, e.inode ≠ 0 → e.inode < (loadFromFile (v.saveToFile ord)).nextInode) ∧
      (loadFromFile (v.saveToFile ord)).rootInode = 0 := by
  have hroot : VirtualFileSystem.new.rootInode = 0 := by decide +kernel
  obtain ⟨hle, hlt, hsame⟩ := next_loadNodes (v.saveToFile ord) VirtualFileSystem.new
  obtain ⟨hnext, hsame'⟩ := next_loadChildrens (v.saveToFile ord)
    ((v.saveToFile ord).foldl loadNode VirtualFileSystem.new)
  rw [loadFromFile, hnext, hsame']
  exact ⟨hle, hlt, hsame.trans hroot⟩

/-- The entries of a new tree are harmless where nothing was saved for their directory: the nodes that
they lead to have kept name and directory. -/
theorem consistent_reload (h : Grown v) : Consistent (loadFromFile (v.saveToFile ord)) := by
  intro d node' name i hd hentry
  rcases lookup_reload_cases ord h hd with ⟨node, hnode, hsaved⟩ | ⟨-, hnew⟩
  · simp only [savedNode, SavedNode.mk.injEq] at hsaved
    obtain ⟨-, htype, -, -, -, hchildren, -⟩ := hsaved
    rw [hchildren] at hentry
    obtain ⟨hdir, child, hchild, hname, hparent⟩ := h.entries d node name i hnode hentry
    obtain ⟨child', hchild', hsaved'⟩ := lookup_reload ord h hchild
    simp only [savedNode, SavedNode.mk.injEq] at hsaved'
    obtain ⟨-, -, hname', hparent', -⟩ := hsaved'
    refine ⟨?_, child', hchild', hname'.trans hname, hparent'.trans hparent⟩
    rw [VFSNode.isDirectory, htype]
    exact hdir
  · obtain ⟨hdir, child₀, hchild₀, hname₀, hparent₀⟩ := sprouted_new.entries d node' name i hnew hentry
    refine ⟨hdir, ?_⟩
    cases hchild : v.lookup i with
    | none =>
      refine ⟨child₀, ?_, hname₀, hparent₀⟩
      rw [lookup_loaded_other ord h.numbered hchild]
      exact hchild₀
    | some child =>
      obtain ⟨hname, hparent, -⟩ := h.stock i child child₀ hchild hchild₀
      obtain ⟨child', hchild', hsaved'⟩ := lookup_reload ord h hchild
      simp only [savedNode, SavedNode.mk.injEq] at hsaved'
      obtain ⟨-, -, hname', hparent', -⟩ := hsaved'
      exact ⟨child', hchild', (hname'.trans hname).trans hname₀, (hparent'.trans hparent).trans hparent₀⟩

theorem grown_reload (h : Grown v) : Grown (loadFromFile (v.saveToFile ord)) := by
  obtain ⟨hnext, hsaved, hroot⟩ := next_reload ord v
  have hnew : 0 < VirtualFileSystem.new.nextInode := by decide +kernel
  refine ⟨⟨?_, consistent_reload ord h⟩, hroot, hnext, ?_, ?_⟩
  · intro i n' hn'
    -- a node of the reloaded tree was saved, or is one that every tree starts with
    rcases lookup_reload_cases ord h hn' with ⟨n, hn, hsame⟩ | ⟨-, hnew'⟩
    · have hinode : n'.inode = n.inode := congrArg SavedNode.inode hsame
      have hi := h.numbered i n hn
      refine ⟨hinode.trans hi, ?_⟩
      by_cases hzero : i = 0
      · omega
      · have hlt := hsaved (savedNode n) ((mem_saveToFile ord).2 ⟨i, n, hn, rfl⟩)
        rw [show (savedNode n).inode = i from hi] at hlt
        exact hlt hzero
    · obtain ⟨hinode, hlt⟩ := sprouted_new.node i n' hnew'
      exact ⟨hinode, Nat.lt_of_lt_of_le hlt hnext⟩
  · intro i n' n₀ hn' hn₀
    rcases lookup_reload_cases ord h hn' with ⟨n, hn, hsame⟩ | ⟨-, hnew'⟩
    · simp only [savedNode, SavedNode.mk.injEq] at hsame
      obtain ⟨-, htype', hname', hparent', -⟩ := hsame
      obtain ⟨hname, hparent, htype⟩ := h.stock i n n₀ hn hn₀
      exact ⟨hname'.trans hname, hparent'.trans hparent, htype'.trans htype⟩
    · exact grown_new.stock i n' n₀ hnew' hn₀
  · intro n' hn'
    rcases lookup_reload_cases ord h hn' with ⟨n, hn, hsame⟩ | ⟨-, hnew'⟩
    · simp only [savedNode, SavedNode.mk.injEq] at hsame
      obtain ⟨-, -, -, -, hsize', -, hblocks'⟩ := hsame
      obtain ⟨hsize, hblocks⟩ := h.root n hn
      exact ⟨hsize'.trans hsize, hblocks'.trans hblocks⟩
    · exact grown_new.root n' hnew'

end Reload

/-- A tree that creations, deletions, updates and reloads lead to. The code updates the nodes of files
and of what is imported, never the root (`evolved_of_reachable`). -/
inductive Evolved : VirtualFileSystem → Prop
  | new : Evolved VirtualFileSystem.new
  | createFile {v : VirtualFileSystem} (parent : Nat) (name : String) (owner : Pid) :
      Evolved v → Evolved (v.createFile parent name owner).2
  | createDirectory {v : VirtualFileSystem} (parent : Nat) (name : String) (owner : Pid) :
      Evolved v → Evolved (v.createDirectory parent name owner).2
  | delete {v : VirtualFileSystem} (inode : Nat) : Evolved v → Evolved (v.delete inode).2
  | update {v : VirtualFileSystem} (inode size : Nat) (blocks : List Nat) :
      inode ≠ v.rootInode → Evolved v → Evolved (v.update inode size blocks)
  | reload {v : VirtualFileSystem} (ord : HashOrder) :
      Evolved v → Evolved (loadFromFile (v.saveToFile ord))

theorem grown_of_evolved {v : VirtualFileSystem} (h : Evolved v) : Grown v := by
  induction h with
  | new => exact grown_new
  | createFile parent name owner _ ih => exact grown_step (TreeStep.createFile _ parent name owner) ih
  | createDirectory parent name owner _ ih =>
    exact grown_step (TreeStep.createDirectory _ parent name owner) ih
  | delete inode _ ih => exact grown_step (TreeStep.delete _ inode) ih
  | update inode size blocks hroot _ ih => exact grown_update ih hroot size blocks
  | reload ord _ ih => exact grown_reload ord ih

/-- From a node that is there, a walk ends at one that is there. -/
theorem walk_found {v : VirtualFileSystem} (h : Consistent v) {i k : Nat} {components : List String}
    (hi : ∃ n, v.lookup i = some n) (hwalk : v.walk i components = .ok k) :
    ∃ n, v.lookup k = some n := by
  induction components generalizing i with
  | nil =>
    cases hwalk
    exact hi
  | cons component rest ih =>
    obtain ⟨n, hn⟩ := hi
    simp only [walk, hn] at hwalk
    split at hwalk
    · next child hchild =>
      obtain ⟨-, m, hm, -⟩ := h i n component child hn hchild
      exact ih ⟨m, hm⟩ hwalk
    · cases hwalk

/-- Walks in two trees go the same way, and stop at the same name. -/
theorem KeepsChildren.walk_eq {v v' : VirtualFileSystem} (hkept : KeepsChildren v v')
    (h : Consistent v) {i : Nat} (components : List String) (hi : ∃ n, v.lookup i = some n) :
    v'.walk i components = v.walk i components := by
  induction components generalizing i with
  | nil => rfl
  | cons component rest ih =>
    obtain ⟨n, hn⟩ := hi
    obtain ⟨n', hn', hchildren⟩ := hkept.node i n hn
    simp only [VirtualFileSystem.walk, hn, hn', VFSNode.getChild, hchildren]
    cases hchild : n.children.lookup component with
    | none => rfl
    | some child =>
      obtain ⟨-, m, hm, -⟩ := h i n component child hn hchild
      exact ih ⟨m, hm⟩

theorem keepsChildren_reload {v : VirtualFileSystem} (h : Grown v) (ord : HashOrder) :
    KeepsChildren v (loadFromFile (v.saveToFile ord)) := by
  refine ⟨(next_reload ord v).2.2.trans h.root_eq.symm, ?_⟩
  intro i n hn
  obtain ⟨n', hn', hsame⟩ := lookup_reload ord h hn
  exact ⟨n', hn', congrArg SavedNode.children hsame⟩

/-- Every path names the same node after a reload, or fails in the same way; and the numbers go on above
those in use. -/
theorem lookupPath_reload {v : VirtualFileSystem} (h : Evolved v)
    (hroot : (v.lookup v.rootInode).isSome = true) (ord : HashOrder) :
    (∀ path, ((loadFromFile (v.saveToFile ord)).lookupPath path).map savedNode =
      (v.lookupPath path).map savedNode) ∧
    ∀ i n, (loadFromFile (v.saveToFile ord)).lookup i = some n →
      n.inode = i ∧ i < (loadFromFile (v.saveToFile ord)).nextInode := by
  have hgrown := grown_of_evolved h
  have hkept := keepsChildren_reload hgrown ord
  have hfound : ∀ k, (∃ n, v.lookup k = some n) →
      ∃ n n', v.lookup k = some n ∧ (loadFromFile (v.saveToFile ord)).lookup k = some n' ∧
        savedNode n' = savedNode n := by
    rintro k ⟨n, hn⟩
    obtain ⟨n', hn', hsame⟩ := lookup_reload ord hgrown hn
    exact ⟨n, n', hn, hn', hsame⟩
  refine ⟨?_, (grown_reload ord hgrown).node⟩
  intro path
  have hthere := Option.isSome_iff_exists.1 hroot
  rw [lookupPath, lookupPath, hkept.root_eq]
  by_cases hpath : path.isEmpty ∨ path = "/"
  · obtain ⟨n, n', hn, hn', hsame⟩ := hfound v.rootInode hthere
    simp only [hpath, if_true, hn, hn', Except.map, hsame]
  · rw [if_neg hpath, if_neg hpath, hkept.walk_eq hgrown.entries _ hthere]
    cases hwalk : v.walk v.rootInode (pathComponents path) with
    | error e => rfl
    | ok k =>
      obtain ⟨n, n', hn, hn', hsame⟩ := hfound k (walk_found hgrown.entries hthere hwalk)
      simp only [hn, hn', Except.map, hsame]

/-- A tree without `/bin` and with a new file, saved and loaded. -/
theorem lookupPath_reload_changed :
    ((loadFromFile ((((VirtualFileSystem.new.createFile 3 "a" 0).2.delete 1).2).saveToFile
      .reversed)).lookupPath "/tmp/a").map savedNode =
      ((((VirtualFileSystem.new.createFile 3 "a" 0).2.delete 1).2).lookupPath "/tmp/a").map savedNode := by
  have h : Evolved (((VirtualFileSystem.new.createFile 3 "a" 0).2.delete 1).2) :=
    Evolved.delete 1 (Evolved.createFile 3 "a" 0 Evolved.new)
  exact (lookupPath_reload h (by decide +kernel) .reversed).1 "/tmp/a"

end VirtualFileSystem

/-! ## States of the service -/

/-- The tree has a history, and no file in memory is the root. -/
def Tended (s : FileService) : Prop :=
  Evolved s.vfs ∧ ∀ i f, s.openFiles.lookup i = some f → f.inode ≠ s.vfs.rootInode

theorem evolved_steps {v v' : VirtualFileSystem} (hsteps : TreeSteps v v') (h : Evolved v) :
    Evolved v' := by
  induction hsteps with
  | refl => exact h
  | tail _ hlast ih =>
    cases hlast with
    | createFile parent name owner => exact Evolved.createFile parent name owner ih
    | createDirectory parent name owner => exact Evolved.createDirectory parent name owner ih
    | delete inode => exact Evolved.delete inode ih

theorem evolved_recordRun {v : VirtualFileSystem} (h : Evolved v) {inode : Nat} (f : File) (size : Nat)
    (hroot : inode ≠ v.rootInode) : Evolved (FileService.recordRun v inode f size) := by
  rw [FileService.recordRun]
  split
  · exact h
  · exact Evolved.update inode size f.run hroot h

theorem inode_loadFromDisk (f : File) (d : SectorDisk) : (f.loadFromDisk d).2.inode = f.inode := by
  rw [File.loadFromDisk]
  split
  · rfl
  · split
    · rfl
    · split
      · rfl
      · rfl

theorem inode_loadFile (v : VirtualFileSystem) (d : SectorDisk) (inode : Nat) (path : String)
    (mode : OpenMode) : (FileService.loadFile v d inode path mode).inode = inode := by
  simp only [FileService.loadFile]
  split
  · rfl
  · split
    · rfl
    · rw [inode_loadFromDisk]
      rfl

theorem inode_write (f : File) (data : List UInt8) : (f.write data).2.inode = f.inode := by
  rw [File.write]
  split
  · rfl
  · rfl

theorem inode_syncToDisk (f : File) (d : SectorDisk) : (f.syncToDisk d).2.1.inode = f.inode := by
  simp only [File.syncToDisk]
  split
  · rfl
  · split
    · rfl
    · split
      · rfl
      · split
        · rfl
        · rfl

/-- A node that an entry leads to is not the root. -/
theorem child_ne_root {v : VirtualFileSystem} (h : Grown v) {d i : Nat} {name : String}
    (hchild : Child v d name i) : i ≠ v.rootInode := by
  rw [h.root_eq]
  rintro rfl
  obtain ⟨child, hfound, -, hparent⟩ := hchild
  obtain ⟨root, hroot, -, -, hnone, -⟩ := new_root
  rw [(h.stock 0 child root hfound hroot).2.1, hnone] at hparent
  cases hparent

/-- A file is not the root. -/
theorem file_ne_root {v : VirtualFileSystem} (h : Grown v) {k : Nat} {n : VFSNode}
    (hn : v.lookup k = some n) (hfile : n.isFile = true) : n.inode ≠ v.rootInode := by
  rw [h.root_eq, h.numbered k n hn]
  rintro rfl
  obtain ⟨root, hroot, -, -, -, hdir⟩ := new_root
  rw [VFSNode.isFile, (h.stock 0 n root hn hroot).2.2] at hfile
  exact Bool.noConfusion (hfile.symm.trans hdir)

/-- A file in memory is exchanged for one of the same node. -/
theorem tended_setFile {s s' : FileService} (h : Tended s) {i : Nat} {f : File}
    (hvfs : Evolved s'.vfs) (hroot : s'.vfs.rootInode = s.vfs.rootInode)
    (hfiles : s'.openFiles = s.openFiles.insert i f) (hf : f.inode ≠ s.vfs.rootInode) : Tended s' := by
  refine ⟨hvfs, ?_⟩
  intro j g hg
  rw [hroot]
  rw [hfiles, HashMap.lookup_insert_eq] at hg
  split at hg
  · cases hg
    exact hf
  · exact h.2 j g hg

theorem rootInode_recordRun (v : VirtualFileSystem) (inode : Nat) (f : File) (size : Nat) :
    (FileService.recordRun v inode f size).rootInode = v.rootInode := by
  rw [FileService.recordRun]
  split
  · rfl
  · rfl

theorem tended_step {ok : SectorDisk → File → Prop} (s s' : FileService) (hstep : FileStep ok s s')
    (h : Tended s) : Tended s' := by
  cases hstep with
  | descriptors m _ _ => exact h
  | tree v hv =>
    refine ⟨evolved_steps hv h.1, ?_⟩
    intro i f hf
    rw [show v.rootInode = s.vfs.rootInode from (TreeSteps.regrown hv).root_eq]
    exact h.2 i f hf
  | cursor i f f' hf hsame =>
    exact tended_setFile h h.1 rfl rfl (by rw [hsame.inode_eq]; exact h.2 i f hf)
  | load k n path mode hn hfile hnone =>
    refine tended_setFile h h.1 rfl rfl ?_
    rw [inode_loadFile]
    exact file_ne_root (grown_of_evolved h.1) hn hfile
  | write i f data hf hmode hok =>
    -- no file has the number of the root, so that its node is never written by a sync
    have hinode : ((f.write data).2.syncToDisk s.disk).2.1.inode ≠ s.vfs.rootInode := by
      rw [inode_syncToDisk, inode_write]
      exact h.2 i f hf
    rw [FileService.persist]
    split
    · next hsync =>
      rw [hsync] at hinode
      exact tended_setFile h h.1 rfl rfl hinode
    · next f' d hsync =>
      rw [hsync] at hinode
      exact tended_setFile h (evolved_recordRun h.1 f' f'.data.length hinode)
        (rootInode_recordRun s.vfs _ f' f'.data.length) rfl hinode
  | sync i f hf hdirty =>
    refine tended_setFile h h.1 rfl rfl ?_
    rw [inode_syncToDisk]
    exact h.2 i f hf

/-- A walk along at least one name ends at the node of an entry. -/
theorem walk_child {v : VirtualFileSystem} (h : Consistent v) {i k : Nat} {components : List String}
    (hwalk : v.walk i components = .ok k) (hsome : components ≠ []) : ∃ d name, Child v d name k := by
  induction components generalizing i with
  | nil => exact absurd rfl hsome
  | cons component rest ih =>
    rw [walk] at hwalk
    split at hwalk
    · cases hwalk
    · next n hn =>
      split at hwalk
      · next child hchild =>
        cases rest with
        | nil =>
          cases hwalk
          exact ⟨i, component, (h i n component _ hn hchild).2⟩
        | cons component' rest' => exact ih hwalk (List.cons_ne_nil _ _)
      · cases hwalk

/-- A path with a name in it does not lead to the root. -/
theorem lookupPath_ne_root {v : VirtualFileSystem} (h : Grown v) {path : String} {node : VFSNode}
    (hpath : v.lookupPath path = .ok node) (hparts : pathComponents path ≠ []) :
    node.inode ≠ v.rootInode := by
  have hnamed : ¬(path.isEmpty ∨ path = "/") := by
    rintro (hempty | rfl)
    · rw [String.isEmpty_iff.1 hempty] at hparts
      exact hparts (by decide)
    · exact hparts (by decide)
  rw [lookupPath, if_neg hnamed] at hpath
  split at hpath
  · cases hpath
  · next k hwalk =>
    split at hpath
    · next hfound =>
      cases hpath
      obtain ⟨d, name, hchild⟩ := walk_child h.entries hwalk hparts
      rw [h.numbered k node hfound]
      exact child_ne_root h hchild
    · cases hpath

theorem programs_components (fname : String) : pathComponents ("/programs" ++ "/" ++ fname) ≠ [] := by
  have hlist : ("/programs" ++ "/" ++ fname).toList = "/programs".toList ++ '/' :: fname.toList := by
    simp
  rw [pathComponents, hlist, List.splitOn_append_cons_self, List.filter_append, List.map_append]
  intro hnil
  exact absurd (List.append_eq_nil_iff.1 hnil).1 (by decide)

theorem importNode_ne_root {v v' : VirtualFileSystem} (h : Grown v) {fname : String} {i : Nat}
    (himport : FileService.importNode v fname = (some i, v')) : i ≠ v'.rootInode := by
  have hgrown : Grown v' := by
    have hsteps := treeSteps_importNode v fname
    rw [himport] at hsteps
    exact grown_steps hsteps h
  simp only [FileService.importNode] at himport
  split at himport
  · next node hfound =>
    split at himport
    · cases himport
      exact lookupPath_ne_root h hfound (programs_components fname)
    · cases himport
  · split at himport
    · cases himport
    · split at himport
      · cases himport
      · split at himport
        · cases himport
        · next node hfound =>
          cases himport
          exact lookupPath_ne_root hgrown hfound (programs_components fname)

theorem tended_importFile {s : FileService} (h : Tended s) (host : String × List UInt8) :
    Tended (s.importFile host) := by
  have hsteps := treeSteps_importNode s.vfs host.1
  have htree : ∀ v, TreeSteps s.vfs v → Tended { s with vfs := v } := by
    intro v hv
    exact @tended_step (fun _ _ => True) s _ (FileStep.tree s v hv) h
  rw [FileService.importFile]
  split
  · exact h
  · split
    · next v himport =>
      rw [himport] at hsteps
      exact htree v hsteps
    · next i v himport =>
      rw [himport] at hsteps
      obtain ⟨hevolved, hfiles⟩ := htree v hsteps
      have hroot := importNode_ne_root (grown_of_evolved h.1) himport
      refine ⟨evolved_recordRun hevolved _ host.2.length hroot, ?_⟩
      intro j f hf
      simp only [rootInode_recordRun]
      exact hfiles j f hf

theorem tended_new {v : VirtualFileSystem} (h : Evolved v) (d : SectorDisk) (maxFds : Nat) :
    Tended (FileService.new v d maxFds) := by
  refine ⟨h, ?_⟩
  intro i f hf
  cases hf

theorem tended_of_reachable {diskSize maxFds : Nat} {s : FileService}
    (h : Reachable diskSize maxFds s) : Tended s := by
  induction h with
  | boot hosts =>
    exact List.foldlRecOn hosts _ (tended_new Evolved.new _ _) fun s hs host _ => tended_importFile hs host
  | @take s e _ ih =>
    have hfree : Guarded (fun _ _ => True) s e.req := fun _ _ _ _ _ _ _ => trivial
    exact take_invariant tended_step hfree ih
  | restart ord hosts _ ih =>
    exact List.foldlRecOn hosts _ (tended_new (Evolved.reload ord ih.1) _ _) fun s hs host _ =>
      tended_importFile hs host

/-- Every entry of a directory leads to a node that has its name and its directory, and no node has two
entries. -/
theorem entries_consistent {diskSize maxFds : Nat} {s : FileService}
    (h : Reachable diskSize maxFds s) :
    (∀ d node name i, s.vfs.lookup d = some node → node.children.lookup name = some i →
      node.isDirectory = true ∧
        ∃ child, s.vfs.lookup i = some child ∧ child.name = name ∧ child.parent = some d) ∧
    ∀ d d' node node' name name' i, s.vfs.lookup d = some node → node.children.lookup name = some i →
      s.vfs.lookup d' = some node' → node'.children.lookup name' = some i → d' = d ∧ name' = name := by
  have hentries := (grown_of_evolved (tended_of_reachable h).1).entries
  refine ⟨hentries, ?_⟩
  intro d d' node node' name name' i hd hentry hd' hentry'
  obtain ⟨-, child, hchild, hname, hparent⟩ := hentries d node name i hd hentry
  obtain ⟨-, child', hchild', hname', hparent'⟩ := hentries d' node' name' i hd' hentry'
  cases hchild.symm.trans hchild'
  exact ⟨Option.some.inj (hparent'.symm.trans hparent), hname'.symm.trans hname⟩

/-- A file that was opened with `create`. -/
theorem entries_consistent_created : Reachable 4096 256 withNewFile ∧
    ∃ node child, withNewFile.vfs.lookup 3 = some node ∧ node.children.lookup "a" = some 29 ∧
      node.isDirectory = true ∧ withNewFile.vfs.lookup 29 = some child ∧ child.name = "a" ∧
      child.parent = some 3 := by
  have hreached : Reachable 4096 256 withNewFile := Reachable.take _ (Reachable.boot [])
  have hentry : (withNewFile.vfs.lookup 3).map (fun node => node.children.lookup "a") =
      some (some 29) := by decide +kernel
  obtain ⟨node, hnode, hchild⟩ := Option.map_eq_some_iff.1 hentry
  obtain ⟨hdir, child, hfound⟩ := (entries_consistent hreached).1 3 node "a" 29 hnode hchild
  exact ⟨hreached, node, child, hnode, hchild, hdir, hfound⟩

end GenshinOs.Files
