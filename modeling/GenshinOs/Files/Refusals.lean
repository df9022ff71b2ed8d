import GenshinOs.Files.Tree

/-!
# Refused creations

A new node is entered before its parent is asked for it (`create_file` and `create_directory` in
`src/services/file/vfs.rs`), and it stays where it is when the parent does not take it. The node is in no
directory, so that no path leads to it, and it is saved with all others: every repetition of a refused
request leaves one more of them.
-/

set_option autoImplicit false

namespace GenshinOs.Files

open GenshinOs.Lib

namespace VirtualFileSystem

/-- The tree with the new node, before its parent is asked. -/
def entered (v : VirtualFileSystem) (nodeType : NodeType) (parent : Nat) (name : String) (owner : Pid) :
    VirtualFileSystem :=
  { v with
    nodes := v.nodes.insert v.nextInode (VFSNode.new v.nextInode name nodeType (some parent) owner)
    nextInode := v.nextInode + 1 }

/-- The parent takes the name: there is no such parent, or it is a directory that does not have the name.
A node that is put under its own number finds itself. -/
def Admits (v : VirtualFileSystem) (nodeType : NodeType) (parent : Nat) (name : String) : Prop :=
  if parent = v.nextInode then nodeType = .directory
  else ∀ n, v.lookup parent = some n → n.isDirectory = true ∧ n.children.lookup name = none

section Creation

variable (v : VirtualFileSystem) (nodeType : NodeType) (parent : Nat) (name : String) (owner : Pid)

theorem lookup_entered (i : Nat) :
    (v.entered nodeType parent name owner).lookup i = if i = v.nextInode then
      some (VFSNode.new v.nextInode name nodeType (some parent) owner) else v.lookup i :=
  HashMap.lookup_insert_eq v.nodes v.nextInode i _

theorem addChild_ok_iff (n : VFSNode) (inode : Nat) :
    (∃ n', n.addChild name inode = .ok n') ↔ n.isDirectory = true ∧ n.children.lookup name = none := by
  rw [VFSNode.addChild]
  cases hdir : n.isDirectory with
  | false => simp
  | true =>
    cases hchild : n.children.lookup name with
    | none => simp
    | some i => simp

/-- What the entered parent says is what the parent says before. -/
theorem admits_iff :
    v.Admits nodeType parent name ↔
      ∀ n, (v.entered nodeType parent name owner).lookup parent = some n →
        n.isDirectory = true ∧ n.children.lookup name = none := by
  rw [Admits, lookup_entered]
  split
  · -- the new node is its own parent, and it has no children yet
    have hself : (VFSNode.new v.nextInode name nodeType (some parent) owner).isDirectory = true ∧
        (VFSNode.new v.nextInode name nodeType (some parent) owner).children.lookup name = none ↔
          nodeType = .directory := by
      simp [VFSNode.new, VFSNode.isDirectory]
    rw [← hself]
    constructor
    · intro hnew n hn
      cases hn
      exact hnew
    · intro hall
      exact hall _ rfl
  · exact Iff.rfl

/-- The parent takes the name, and the number of the new node is returned. -/
theorem createNode_admitted (h : v.Admits nodeType parent name) :
    (v.createNode nodeType parent name owner).1 = .ok v.nextInode := by
  have hparent := (v.admits_iff nodeType parent name owner).1 h
  -- no such parent: the source returns the number of the new node all the same
  cases hfound : (v.entered nodeType parent name owner).lookup parent with
  | none =>
    rw [entered] at hfound
    simp only [createNode, hfound]
  | some parentNode =>
    obtain ⟨n', hadded⟩ := (addChild_ok_iff name parentNode v.nextInode).2 (hparent parentNode hfound)
    rw [entered] at hfound
    simp only [createNode, hfound, hadded]

/-- The parent refuses, and the new node stays. -/
theorem createNode_refused (h : ¬v.Admits nodeType parent name) :
    ∃ e, v.createNode nodeType parent name owner =
      (.error e, v.entered nodeType parent name owner) := by
  rw [v.admits_iff nodeType parent name owner] at h
  push Not at h
  obtain ⟨parentNode, hfound, hno⟩ := h
  cases hadded : parentNode.addChild name v.nextInode with
  | ok n' =>
    obtain ⟨hdir, hfree⟩ := (addChild_ok_iff name parentNode v.nextInode).1 ⟨n', hadded⟩
    exact absurd hfree (hno hdir)
  | error e =>
    refine ⟨e, ?_⟩
    rw [entered] at hfound
    -- the error returns before the parent is stored back, and after the node was
    simp only [createNode, hfound, hadded]
    rfl

/-- The entered node changes the tree unless it is there already. -/
theorem entered_unchanged_iff :
    (∀ i, (v.entered nodeType parent name owner).lookup i = v.lookup i) ↔
      v.lookup v.nextInode = some (VFSNode.new v.nextInode name nodeType (some parent) owner) := by
  constructor
  · intro hsame
    have hnew := hsame v.nextInode
    rw [lookup_entered, if_pos rfl] at hnew
    exact hnew.symm
  · intro hstored i
    rw [lookup_entered]
    split
    · next hi => rw [hi, hstored]
    · rfl

theorem createNode_unchanged_iff :
    (∀ e v', v.createNode nodeType parent name owner = (.error e, v') → ∀ i, v'.lookup i = v.lookup i) ↔
      v.Admits nodeType parent name ∨
        v.lookup v.nextInode = some (VFSNode.new v.nextInode name nodeType (some parent) owner) := by
  by_cases hadmits : v.Admits nodeType parent name
  · have hok := v.createNode_admitted nodeType parent name owner hadmits
    apply iff_of_true _ (Or.inl hadmits)
    intro e v' hcreate
    rw [hcreate] at hok
    cases hok
  · obtain ⟨e, hrefused⟩ := v.createNode_refused nodeType parent name owner hadmits
    rw [hrefused, ← v.entered_unchanged_iff nodeType parent name owner]
    constructor
    · intro hkept
      exact Or.inr (hkept e _ rfl)
    · rintro (hyes | hsame) _ _ heq
      · exact absurd hyes hadmits
      · cases heq
        exact hsame

end Creation

/-- A failed creation leaves the nodes and their children alone exactly where it does not fail, or where
the node that it adds is stored under the next number already. -/
theorem create_unchanged_iff (v : VirtualFileSystem) (parent : Nat) (name : String) (owner : Pid) :
    ((∀ e v', v.createFile parent name owner = (.error e, v') → ∀ i, v'.lookup i = v.lookup i) ↔
      v.Admits .file parent name ∨
        v.lookup v.nextInode = some (VFSNode.new v.nextInode name .file (some parent) owner)) ∧
    ((∀ e v', v.createDirectory parent name owner = (.error e, v') → ∀ i, v'.lookup i = v.lookup i) ↔
      v.Admits .directory parent name ∨
        v.lookup v.nextInode = some (VFSNode.new v.nextInode name .directory (some parent) owner)) :=
  ⟨v.createNode_unchanged_iff .file parent name owner,
    v.createNode_unchanged_iff .directory parent name owner⟩

/-- A new file system does not take a second `bin`, and has one node more afterwards. -/
theorem refused_bin_grows :
    ∃ v', new.createFile 0 "bin" 0 = (.error (.invalidArguments "name" "Child already exists"), v') ∧
      v'.lookup new.nextInode ≠ new.lookup new.nextInode := by
  have hfails : (new.createFile 0 "bin" 0).1 =
      .error (.invalidArguments "name" "Child already exists") := by decide +kernel
  refine ⟨(new.createFile 0 "bin" 0).2, Prod.ext hfails rfl, fun hsame => ?_⟩
  have hthere : ((new.createFile 0 "bin" 0).2.lookup new.nextInode).isSome = true := by decide +kernel
  rw [hsame, sprouted_new.next_free] at hthere
  cases hthere

/-! ## Repeated requests -/

/-- In a tree that the service built, one refused request leaves one more node to be saved. -/
theorem saved_entered {v : VirtualFileSystem} (h : Sprouted v) (nodeType : NodeType) (parent : Nat)
    (name : String) (owner : Pid) (ord : HashOrder) :
    ((v.entered nodeType parent name owner).saveToFile ord).length = (v.saveToFile ord).length + 1 := by
  have hlength : ∀ w : VirtualFileSystem, (w.saveToFile ord).length = w.nodes.entries.length := by
    intro w
    rw [saveToFile, List.length_map, HashMap.iter, List.length_map]
    exact (ord.arrange_perm w.nodes.entries).length_eq
  -- the number is new, so that the insertion replaces nothing
  have hnew : v.nextInode ∉ v.nodes := by
    rw [← AList.lookup_eq_none]
    exact h.next_free
  rw [hlength, hlength, entered, AList.entries_insert_of_notMem hnew, List.length_cons]

/-- A refused name stays refused. -/
theorem not_admits_entered {v : VirtualFileSystem} (hv : Sprouted v) {nodeType : NodeType} {parent : Nat}
    {name : String} (h : ¬v.Admits nodeType parent name) (owner : Pid) :
    ¬(v.entered nodeType parent name owner).Admits nodeType parent name := by
  have hnext : (v.entered nodeType parent name owner).nextInode = v.nextInode + 1 := rfl
  intro hadmits
  apply h
  rw [v.admits_iff nodeType parent name owner]
  rw [Admits, hnext] at hadmits
  split at hadmits
  · next hparent =>
    -- nobody is there to refuse a node that is put under the number after the next one
    intro n hn
    rw [lookup_entered, if_neg (by omega)] at hn
    have hlow := (hv.node parent n hn).2
    omega
  · exact hadmits

/-- Every repetition of a refused request leaves one more node to be saved. -/
theorem refusals_grow {v : VirtualFileSystem} (hv : Sprouted v) {nodeType : NodeType} {parent : Nat}
    {name : String} (h : ¬v.Admits nodeType parent name) (owner : Pid) (ord : HashOrder) (n : Nat) :
    (((fun w => (w.createNode nodeType parent name owner).2)^[n] v).saveToFile ord).length =
      (v.saveToFile ord).length + n := by
  induction n generalizing v with
  | zero => rfl
  | succ n ih =>
    obtain ⟨e, hrefused⟩ := v.createNode_refused nodeType parent name owner h
    -- the tree after the refusal is one of the service again, so that the next refusal counts as well
    have hgrown : Sprouted (v.createNode nodeType parent name owner).2 :=
      ⟨numbers_regrown (v.regrown_createNode nodeType parent name owner) hv.node,
        consistent_createNode hv.entries hv.next_free nodeType parent name owner⟩
    rw [hrefused] at hgrown
    rw [Function.iterate_succ_apply, hrefused, ih hgrown (not_admits_entered hv h owner),
      saved_entered hv, Nat.add_right_comm, Nat.add_assoc]

end VirtualFileSystem

end GenshinOs.Files
