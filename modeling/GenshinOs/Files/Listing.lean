import GenshinOs.Files.Paths
import GenshinOs.Lib.Preorder

/-!
# The tree listing

The shell's `tree` asks for the entries of a path, makes a path for each and goes on with that one. The
recursion is on strings, so that it ends only if every made path leads one step down: then it is the
preorder traversal of the names below the path (`buildTreeRecursive_eq`). Every name that a request can
store can stand between slashes, except the "/" that `mkdir` enters in the root (`wellNamed_of_reachable`):
its path leads back to the root, and the listing never ends (`tree_complete_iff`).
-/

set_option autoImplicit false

namespace GenshinOs.Files

open GenshinOs.Lib GenshinOs.Hardware VirtualFileSystem

/-! ## The listing -/

/-- The path of an entry. -/
def childPath (path entry : String) : String := if path = "/" then "/" ++ entry else path ++ "/" ++ entry

namespace FileService

/-- The names of the answer, sorted once more; none when the request fails. -/
def treeEntries (s : FileService) (path : String) : List String :=
  match (s.handleEnvelope .stored (.listDir path)).2 with
  | [.ok (.stringList entries)] => entries.mergeSort fun a b => a ≤ b
  | _ => []

/-- The lines below a path, each with the path that it was made for. `fuel` is the depth that the
recursion may have. -/
def buildTreeRecursive (s : FileService) : Nat → String → String → Option (List (String × String))
  | 0, _, _ => none
  | fuel + 1, path, indent =>
    let entries := s.treeEntries path
    (entries.zipIdx.mapM fun (entry, i) =>
      let isLast := i = entries.length - 1
      let connector := if isLast then "└── " else "├── "
      let epath := childPath path entry
      let newIndent := indent ++ if isLast then "    " else "│   "
      (buildTreeRecursive s fuel epath newIndent).map fun below =>
        (epath, indent ++ connector ++ entry) :: below).map List.flatten

/-- What `tree` shows. -/
def buildTree (s : FileService) (fuel : Nat) (path : String) : Option (List String) :=
  (s.buildTreeRecursive fuel path "").map fun lines => path :: lines.map Prod.snd

end FileService

/-! ## Paths of entries -/

/-- A path taken apart at one of its slashes. -/
theorem pathComponents_append (path entry : String) :
    pathComponents (path ++ "/" ++ entry) = pathComponents path ++ pathComponents entry := by
  have hlist : (path ++ "/" ++ entry).toList = path.toList ++ '/' :: entry.toList := by simp
  rw [pathComponents, hlist, List.splitOn_append_cons_self, List.filter_append, List.map_append]
  rfl

theorem pathComponents_childPath (path entry : String) :
    pathComponents (childPath path entry) = pathComponents path ++ pathComponents entry := by
  rw [childPath]
  split
  · next hroot =>
    have hslash : "/" ++ entry = "" ++ "/" ++ entry := by simp
    rw [hroot, hslash, pathComponents_append, show pathComponents "" = [] by decide,
      show pathComponents "/" = [] by decide]
  · exact pathComponents_append path entry

theorem EntryName.components {name : String} (h : EntryName name) : pathComponents name = [name] := by
  have hne : name.toList ≠ [] := by simpa using h.ne_empty
  rw [pathComponents, List.splitOn_eq_singleton h.no_slash, List.filter_cons_of_pos (by simpa using hne),
    List.filter_nil, List.map_singleton, String.ofList_toList]

/-! ## The names of the nodes -/

/-- The name of a node can stand between slashes; only the root, and what is entered in it, may be
called "/". -/
def WellNamed (v : VirtualFileSystem) : Prop :=
  ∀ i n, v.lookup i = some n → EntryName n.name ∨ n.name = "/" ∧ (n.parent = none ∨ n.parent = some 0)

theorem wellNamed_createNode {v : VirtualFileSystem} (h : WellNamed v) (nodeType : NodeType) {parent : Nat}
    {name : String} (owner : Pid) (hname : EntryName name ∨ name = "/" ∧ parent = 0) :
    WellNamed (v.createNode nodeType parent name owner).2 := by
  intro i n' hn'
  rcases lookup_createNode_back hn' with ⟨n, hn, hsame⟩ | hnew
  · rw [hsame.name_eq, hsame.parent_eq]
    exact h i n hn
  · rw [hnew.name_eq, hnew.parent_eq]
    exact hname.imp_right fun ⟨hslash, hroot⟩ => ⟨hslash, Or.inr (congrArg some hroot)⟩

theorem wellNamed_delete {v : VirtualFileSystem} (h : WellNamed v) (k : Nat) : WellNamed (v.delete k).2 := by
  intro i n' hn'
  obtain ⟨n, hn, hsame⟩ := lookup_delete_back hn'
  rw [hsame.name_eq, hsame.parent_eq]
  exact h i n hn

theorem wellNamed_recordRun {v : VirtualFileSystem} (h : WellNamed v) (i : Nat) (f : File) (size : Nat) :
    WellNamed (FileService.recordRun v i f size) := by
  intro j n' hn'
  obtain ⟨n, hn, hsame | ⟨-, -, hnew⟩⟩ := recordRun_lookup hn'
  · rw [hsame.2]
    exact h j n hn
  · rw [hnew]
    exact h j n hn

theorem wellNamed_new : WellNamed VirtualFileSystem.new := by
  have hnodes : ∀ n ∈ (VirtualFileSystem.new.saveToFile .stored),
      (n.name ≠ "" ∧ n.name.toList.contains '/' = false) ∨ n.name = "/" ∧ n.parent = none := by
    decide +kernel
  intro i n hn
  have hsaved := hnodes (savedNode n) ((mem_saveToFile .stored).2 ⟨i, n, hn, rfl⟩)
  rcases hsaved with ⟨hne, hslash⟩ | ⟨hslash, hparent⟩
  · refine Or.inl ⟨hne, ?_⟩
    intro hmem
    rw [savedNode, List.contains_eq_mem, decide_eq_false_iff_not] at hslash
    exact hslash hmem
  · exact Or.inr ⟨hslash, Or.inl hparent⟩

theorem wellNamed_reload {v : VirtualFileSystem} (hv : Grown v) (h : WellNamed v) (ord : HashOrder) :
    WellNamed (loadFromFile (v.saveToFile ord)) := by
  intro i n' hn'
  rcases lookup_reload_cases ord hv hn' with ⟨n, hn, hsame⟩ | ⟨-, hnew⟩
  · have hname : n'.name = n.name := congrArg SavedNode.name hsame
    have hparent : n'.parent = n.parent := congrArg SavedNode.parent hsame
    rw [hname, hparent]
    exact h i n hn
  · exact wellNamed_new i n' hnew

/-- The name that `open` stores. An empty one would mean that the path leads to the directory. -/
theorem entryName_splitLast {v : VirtualFileSystem} {path parentPath name : String}
    {parent : VFSNode} (hsplit : splitLast path = some (parentPath, name))
    (hparent : v.lookupPath parentPath = .ok parent) (hmissing : ∀ n, v.lookupPath path ≠ .ok n) :
    EntryName name := by
  obtain ⟨-, -, hclean, -⟩ := splitLast_some hsplit
  refine ⟨?_, hclean⟩
  rintro rfl
  have hcomponents := pathComponents_splitLast hsplit
  rw [if_pos rfl, List.append_nil] at hcomponents
  obtain ⟨k, hwalk, hk⟩ := lookupPath_ok_iff.1 hparent
  rw [← hcomponents] at hwalk
  exact hmissing parent (lookupPath_ok_iff.2 ⟨k, hwalk, hk⟩)

/-- The name that `mkdir` stores, and where. -/
theorem entryName_splitPath {v : VirtualFileSystem} (hv : Grown v) {path parentPath name : String}
    {parent : VFSNode} (hsplit : splitPath path = .ok (parentPath, name))
    (hparent : v.lookupPath parentPath = .ok parent) : EntryName name ∨ name = "/" ∧ parent.inode = 0 := by
  rcases splitPath_ok hsplit with ⟨-, rfl, rfl⟩ | hcomponents
  · obtain ⟨k, hwalk, hk⟩ := lookupPath_ok_iff.1 hparent
    rw [show pathComponents "/" = [] by decide, hv.root_eq] at hwalk
    cases hwalk
    exact Or.inr ⟨rfl, hv.numbered 0 parent hk⟩
  · left
    have hmem : name ∈ pathComponents path := by
      rw [hcomponents]
      exact List.mem_append_right _ (List.mem_singleton.2 rfl)
    exact mem_pathComponents hmem

theorem wellNamed_take {s : FileService} (hv : Grown s.vfs) (h : WellNamed s.vfs) (e : FileEvent) :
    WellNamed (s.take e).vfs := by
  have heffect := take_effect s e
  generalize e.req = req at heffect
  generalize (s.take e).vfs = v' at heffect ⊢
  cases heffect with
  | same => exact h
  | made path flags parentPath name parent hsplit hparent hmissing =>
    exact wellNamed_createNode h .file 0 (Or.inl (entryName_splitLast hsplit hparent hmissing))
  | madeDirectory path parentPath name parent hsplit hparent =>
    exact wellNamed_createNode h .directory 0 (entryName_splitPath hv hsplit hparent)
  | deleted _ path n => exact wellNamed_delete h n.inode
  | recorded _ i f size => exact wellNamed_recordRun h i f size

theorem wellNamed_importFile {s : FileService} (h : WellNamed s.vfs) {host : String × List UInt8}
    (hhost : EntryName host.1) : WellNamed (s.importFile host).vfs := by
  have hmade : WellNamed (FileService.importNode s.vfs host.1).2 := by
    rcases importNode_cases s.vfs host.1 with hsame | ⟨parent, hcreated⟩
    · rw [hsame]
      exact h
    · rw [hcreated]
      exact wellNamed_createNode h .file 0 (Or.inl hhost)
  rw [FileService.importFile]
  split
  · exact h
  · split
    · next himport => rwa [himport] at hmade
    · next himport =>
      rw [himport] at hmade
      exact wellNamed_recordRun hmade _ _ _

/-- The names of host files are those of entries of a directory. -/
abbrev ReachableNamed (diskSize maxFds : Nat) : FileService → Prop :=
  ReachableWith (fun _ host => EntryName host.1) (fun _ _ => True) diskSize maxFds

theorem wellNamed_of_reachable {diskSize maxFds : Nat} {s : FileService}
    (h : ReachableNamed diskSize maxFds s) : WellNamed s.vfs := by
  have hboth : Tended s ∧ WellNamed s.vfs := by
    refine h.invariant (I := fun s => Tended s ∧ WellNamed s.vfs) ⟨tended_new Evolved.new _ _, wellNamed_new⟩ ?_ ?_ ?_
    · intro s host hhost hs
      exact ⟨tended_importFile hs.1 host, wellNamed_importFile hs.2 hhost⟩
    · intro s e hok hs
      exact ⟨take_invariant tended_step hok hs.1, wellNamed_take (grown_of_evolved hs.1.1) hs.2 e⟩
    · intro s ord hs
      exact ⟨tended_new (Evolved.reload ord hs.1.1) _ _, wellNamed_reload (grown_of_evolved hs.1.1) hs.2 ord⟩
  exact hboth.2

/-! ## Depth -/

/-- The nodes on the way are as many as the names, and the root. -/
theorem nodes_on_way {v : VirtualFileSystem} (hv : Grown v) {p : List String} {k : Nat}
    (h : v.names p = some k) :
    ∃ nodes : List Nat, nodes.Nodup ∧ nodes.length = p.length + 1 ∧
      ∀ j ∈ nodes, ∃ q, q <+: p ∧ v.names q = some j := by
  induction p using List.reverseRecOn generalizing k with
  | nil =>
    refine ⟨[k], List.nodup_singleton k, rfl, ?_⟩
    intro j hj
    rw [List.mem_singleton.1 hj]
    exact ⟨[], List.prefix_refl _, h⟩
  | append_singleton p x ih =>
    obtain ⟨d, -, hd, -⟩ := names_snoc_iff.1 h
    obtain ⟨nodes, hnodup, hlength, hall⟩ := ih hd
    refine ⟨k :: nodes, ?_, ?_, ?_⟩
    · rw [List.nodup_cons]
      refine ⟨?_, hnodup⟩
      intro hk
      obtain ⟨q, hq, hnames⟩ := hall k hk
      have hlong := hq.length_le
      rw [names_inj hv hnames h, List.length_append, List.length_singleton] at hlong
      omega
    · rw [List.length_cons, hlength, List.length_append, List.length_singleton]
    · intro j hj
      rcases List.mem_cons.1 hj with rfl | hj
      · exact ⟨p ++ [x], List.prefix_refl _, h⟩
      · obtain ⟨q, hq, hnames⟩ := hall j hj
        exact ⟨q, hq.trans (List.prefix_append p [x]), hnames⟩

/-- No way is longer than the number of nodes. -/
theorem names_depth {v : VirtualFileSystem} (hv : Grown v) {p : List String} {k : Nat}
    (h : v.names p = some k) : p.length < v.nodes.keys.length := by
  obtain ⟨nodes, hnodup, hlength, hall⟩ := nodes_on_way hv h
  have hsub : nodes ⊆ v.nodes.keys := by
    intro j hj
    obtain ⟨q, -, hnames⟩ := hall j hj
    obtain ⟨n, hn⟩ := lookup_of_names hnames
    exact AList.lookup_isSome.1 (by rw [show v.nodes.lookup j = some n from hn]; rfl)
  have hle := (hnodup.subperm hsub).length_le
  omega

/-! ## The traversal -/

/-- The names in the directory that the names lead to, as both sides sort them. -/
def entriesAt (v : VirtualFileSystem) (c : List String) : List String :=
  match (v.names c).bind v.lookup with
  | none => []
  | some n =>
    if n.isDirectory = false then []
    else (n.children.keys.mergeSort fun a b => a ≤ b).mergeSort fun a b => a ≤ b

/-- What is listed for a path only depends on its components. -/
theorem treeEntries_eq (s : FileService) (path : String) :
    s.treeEntries path = entriesAt s.vfs (pathComponents path) := by
  -- a refused listing is an empty one
  have hfails : ∀ e, s.listEntries path = .error e → s.treeEntries path = [] := by
    intro e he
    simp only [FileService.treeEntries, FileService.handleEnvelope,
      FileService.handleFileRequestWithResponse, FileService.handleListdirWithResponse, he]
  have hlists : ∀ entries, s.listEntries path = .ok entries →
      s.treeEntries path = entries.mergeSort fun a b => a ≤ b := by
    intro entries hentries
    simp only [FileService.treeEntries, FileService.handleEnvelope,
      FileService.handleFileRequestWithResponse, FileService.handleListdirWithResponse, hentries]
  rw [entriesAt]
  cases hpath : s.vfs.lookupPath path with
  | error e =>
    have hlist : s.listEntries path = .error e := by simp [FileService.listEntries, hpath]
    rw [hfails e hlist]
    cases hnode : (s.vfs.names (pathComponents path)).bind s.vfs.lookup with
    | none => rfl
    | some n =>
      -- the walk by names reaches a node exactly when the lookup does
      obtain ⟨k, hk, hn⟩ := Option.bind_eq_some_iff.1 hnode
      rw [lookupPath_ok_iff.2 ⟨k, (names_some_iff.1 hk).1, hn⟩] at hpath
      cases hpath
  | ok n =>
    obtain ⟨k, hwalk, hn⟩ := lookupPath_ok_iff.1 hpath
    rw [names_some_iff.2 ⟨hwalk, n, hn⟩, Option.bind_some, hn]
    cases hdir : n.isDirectory with
    | false =>
      have hlist : ∃ e, s.listEntries path = .error e := by simp [FileService.listEntries, hpath, hdir]
      obtain ⟨e, he⟩ := hlist
      simp only [hfails e he, hdir, if_true]
    | true =>
      have hlist : s.listEntries path = .ok (n.children.keys.mergeSort fun a b => a ≤ b) := by
        simp [FileService.listEntries, hpath, hdir]
      simp only [hlists _ hlist, hdir, Bool.true_eq_false, if_false]

/-- An entry leads one step on. -/
theorem mem_entriesAt {v : VirtualFileSystem} (hv : Grown v) {c : List String} {entry : String} :
    entry ∈ entriesAt v c ↔ ∃ k, v.names (c ++ [entry]) = some k := by
  have hstep : (∃ k, v.names (c ++ [entry]) = some k) ↔
      ∃ n, (v.names c).bind v.lookup = some n ∧ entry ∈ n.children.keys := by
    constructor
    · rintro ⟨k, hk⟩
      obtain ⟨d, n, hd, hn, hentry, -⟩ := names_snoc_iff.1 hk
      refine ⟨n, by rw [hd]; exact hn, ?_⟩
      exact AList.lookup_isSome.1 (by rw [hentry]; rfl)
    · rintro ⟨n, hnode, hmem⟩
      obtain ⟨d, hd, hn⟩ := Option.bind_eq_some_iff.1 hnode
      obtain ⟨k, hentry⟩ := Option.isSome_iff_exists.1 (AList.lookup_isSome.2 hmem)
      obtain ⟨-, child, hchild, -⟩ := hv.entries d n entry k hn hentry
      exact ⟨k, names_snoc_iff.2 ⟨d, n, hd, hn, hentry, child, hchild⟩⟩
  rw [hstep, entriesAt]
  cases hnode : (v.names c).bind v.lookup with
  | none => simp
  | some n =>
    simp only [Option.some.injEq, exists_eq_left']
    split
    · next hfile =>
      -- a file has no entries
      refine iff_of_false List.not_mem_nil ?_
      intro hmem
      obtain ⟨d, -, hn⟩ := Option.bind_eq_some_iff.1 hnode
      obtain ⟨k, hentry⟩ := Option.isSome_iff_exists.1 (AList.lookup_isSome.2 hmem)
      rw [(hv.entries d n entry k hn hentry).1] at hfile
      cases hfile
    · rw [List.mem_mergeSort, List.mem_mergeSort]

theorem nodup_entriesAt (v : VirtualFileSystem) (c : List String) : (entriesAt v c).Nodup := by
  rw [entriesAt]
  split
  · exact List.nodup_nil
  · next n _ =>
    split
    · exact List.nodup_nil
    · rw [(List.mergeSort_perm _ _).nodup_iff, (List.mergeSort_perm _ _).nodup_iff]
      exact n.children.keys_nodup

/-- Everything below the names can stand between slashes. -/
def Clear (v : VirtualFileSystem) (c : List String) : Prop :=
  ∀ q entry, c <+: q → entry ∈ entriesAt v q → EntryName entry

/-- Where all names are clear, the paths of the listing are the traversal of the names. -/
theorem buildTreeRecursive_eq (s : FileService) (fuel : Nat) {path : String} (indent : String)
    (hclear : Clear s.vfs (pathComponents path)) :
    (s.buildTreeRecursive fuel path indent).map (List.map fun line => pathComponents line.1) =
      preorder (entriesAt s.vfs) fuel (pathComponents path) := by
  induction fuel generalizing path indent with
  | zero => rfl
  | succ fuel ih =>
    have hentries := List.zipIdx_map_fst 0 (entriesAt s.vfs (pathComponents path))
    rw [preorder]
    conv_rhs => rw [← hentries]
    rw [← mapM_corresponds (h := List.map fun line : String × String => pathComponents line.1)]
    · rw [FileService.buildTreeRecursive, treeEntries_eq, Option.map_map, Option.map_map]
      congr 1
      funext blocks
      exact List.map_flatten
    · rintro ⟨entry, i⟩ hmem
      have hentry : EntryName entry := by
        apply hclear _ _ (List.prefix_refl _)
        rw [← hentries]
        exact List.mem_map_of_mem hmem
      have hchild : pathComponents (childPath path entry) = pathComponents path ++ [entry] := by
        rw [pathComponents_childPath, hentry.components]
      have hbelow : Clear s.vfs (pathComponents (childPath path entry)) := by
        rw [hchild]
        intro q x hq hx
        exact hclear q x ((List.prefix_append _ _).trans hq) hx
      rw [← hchild, ← ih _ hbelow, Option.map_map, Option.map_map]
      rfl

/-! ## The listing ends -/

/-- The node lies below the one of the path. -/
def Below (v : VirtualFileSystem) (path : String) (k : Nat) : Prop :=
  ∃ q, q ≠ [] ∧ v.names (pathComponents path ++ q) = some k

/-- The lines show the nodes below the path, each once, and every line was made one step below a path
that was listed. -/
structure Complete (s : FileService) (path : String) (listing : List (String × String)) : Prop where
  once : (listing.map fun line => s.vfs.resolve line.1).Nodup
  all : ∀ k, some k ∈ listing.map (fun line => s.vfs.resolve line.1) ↔ Below s.vfs path k
  line : ∀ line ∈ listing, ∃ caller entry lead, (caller = path ∨ caller ∈ listing.map Prod.fst) ∧
    line = (childPath caller entry, lead ++ entry) ∧
    pathComponents line.1 = pathComponents caller ++ [entry] ∧ ∃ k, s.vfs.resolve line.1 = some k

/-- Every line is that of an entry of a path that was listed. -/
theorem line_of_listing {s : FileService} {fuel : Nat} {path indent : String}
    {listing : List (String × String)} (h : s.buildTreeRecursive fuel path indent = some listing) :
    ∀ line ∈ listing, ∃ caller entry lead, (caller = path ∨ caller ∈ listing.map Prod.fst) ∧
      entry ∈ s.treeEntries caller ∧ line = (childPath caller entry, lead ++ entry) := by
  induction fuel generalizing path indent listing with
  | zero => cases h
  | succ fuel ih =>
    rw [FileService.buildTreeRecursive] at h
    obtain ⟨blocks, hblocks, rfl⟩ := Option.map_eq_some_iff.1 h
    intro line hline
    obtain ⟨block, hblock, hin⟩ := List.mem_flatten.1 hline
    obtain ⟨⟨entry, i⟩, hentry, hmade⟩ := mem_of_mapM hblocks hblock
    obtain ⟨below, hbelow, rfl⟩ := Option.map_eq_some_iff.1 hmade
    have hlisted : ∀ l, l = childPath path entry ∨ l ∈ below.map Prod.fst → l ∈ blocks.flatten.map Prod.fst := by
      intro l hl
      rw [List.map_flatten, List.mem_flatten]
      refine ⟨_, List.mem_map_of_mem hblock, ?_⟩
      rw [List.map_cons, List.mem_cons]
      exact hl
    rcases List.mem_cons.1 hin with rfl | hin
    · refine ⟨path, entry, _, Or.inl rfl, ?_, rfl⟩
      rw [← List.zipIdx_map_fst 0 (s.treeEntries path)]
      exact List.mem_map_of_mem hentry
    · obtain ⟨caller, entry', lead, hcaller, hmem, heq⟩ := ih hbelow line hin
      exact ⟨caller, entry', lead, Or.inr (hlisted caller hcaller), hmem, heq⟩

/-- The root has an entry that no path leads to. -/
def SlashEntry (v : VirtualFileSystem) : Prop := ∃ root, v.lookup 0 = some root ∧ (root.getChild "/").isSome = true

theorem slashEntry_iff {v : VirtualFileSystem} (hv : Grown v) : SlashEntry v ↔ "/" ∈ entriesAt v [] := by
  rw [mem_entriesAt hv]
  constructor
  · rintro ⟨root, hroot, hentry⟩
    obtain ⟨k, hk⟩ := Option.isSome_iff_exists.1 hentry
    obtain ⟨-, child, hchild, -⟩ := hv.entries 0 root "/" k hroot hk
    refine ⟨k, names_snoc_iff.2 ⟨0, root, ?_, hroot, hk, child, hchild⟩⟩
    exact names_nil_iff.2 ⟨hv.root_eq.symm, root, hroot⟩
  · rintro ⟨k, hk⟩
    obtain ⟨d, root, hd, hroot, hentry, -⟩ := names_snoc_iff.1 hk
    rw [(names_nil_iff.1 hd).1, hv.root_eq] at hroot
    refine ⟨root, hroot, ?_⟩
    rw [VFSNode.getChild, hentry]
    rfl

theorem resolve_root_iff {v : VirtualFileSystem} (hv : Grown v) {path : String} :
    v.resolve path = some 0 ↔ pathComponents path = [] ∧ ∃ root, v.lookup 0 = some root := by
  rw [resolve_eq hv.numbered]
  constructor
  · intro hpath
    obtain ⟨root, hroot⟩ := lookup_of_names hpath
    exact ⟨names_inj hv hpath (names_nil_iff.2 ⟨hv.root_eq.symm, root, hroot⟩), root, hroot⟩
  · rintro ⟨hnil, root, hroot⟩
    rw [hnil]
    exact names_nil_iff.2 ⟨hv.root_eq.symm, root, hroot⟩

/-- Below any other path the names are clear. -/
theorem clear_of_wellNamed {v : VirtualFileSystem} (hv : Grown v) (hnamed : WellNamed v) {path : String}
    (h : ¬(v.resolve path = some 0 ∧ SlashEntry v)) : Clear v (pathComponents path) := by
  intro q entry hq hentry
  obtain ⟨k, hk⟩ := (mem_entriesAt hv).1 hentry
  obtain ⟨d, hd, child, hchild, rfl, hparent⟩ := child_of_names hv.entries hk
  rcases hnamed k child hchild with hname | ⟨hslash, hroot⟩
  · exact hname
  · exfalso
    rw [hparent] at hroot
    obtain rfl : d = 0 := by simpa using hroot
    -- the directory is the root, and so is the path
    obtain ⟨root, hfound⟩ := lookup_of_names hd
    have hnil : q = [] := names_inj hv hd (names_nil_iff.2 ⟨hv.root_eq.symm, root, hfound⟩)
    subst hnil
    rw [hslash] at hentry
    exact h ⟨(resolve_root_iff hv).2 ⟨List.prefix_nil.1 hq, root, hfound⟩, (slashEntry_iff hv).2 hentry⟩

/-- The path of the entry "/" leads back to the root. -/
theorem buildTreeRecursive_none {s : FileService} (hslash : "/" ∈ entriesAt s.vfs []) (fuel : Nat)
    {path : String} (indent : String) (hpath : pathComponents path = []) :
    s.buildTreeRecursive fuel path indent = none := by
  induction fuel generalizing path indent with
  | zero => rfl
  | succ fuel ih =>
    have hentries := List.zipIdx_map_fst 0 (s.treeEntries path)
    rw [treeEntries_eq, hpath] at hentries
    rw [← hentries] at hslash
    obtain ⟨⟨entry, i⟩, hmem, rfl⟩ := List.mem_map.1 hslash
    have hback : pathComponents (childPath path "/") = [] := by
      rw [pathComponents_childPath, hpath]
      decide
    rw [FileService.buildTreeRecursive, treeEntries_eq, hpath]
    dsimp only
    rw [mapM_fails hmem]
    · rfl
    · dsimp only
      rw [ih _ hback]
      rfl

/-- The names lead to a node. -/
def Leads (v : VirtualFileSystem) (q : List String) : Prop := ∃ k, v.names q = some k

/-- With clear names the listing ends, and shows everything. -/
theorem complete_of_clear {s : FileService} (hv : Grown s.vfs) {path : String}
    (hclear : Clear s.vfs (pathComponents path)) :
    ∃ fuel listing, s.buildTreeRecursive fuel path "" = some listing ∧ Complete s path listing := by
  have hclosed : ∀ q x, Leads s.vfs (q ++ [x]) → Leads s.vfs q := by
    rintro q x ⟨k, hk⟩
    obtain ⟨d, -, hd, -⟩ := names_snoc_iff.1 hk
    exact ⟨d, hd⟩
  have hdepth : ∀ q, Leads s.vfs q → q.length < s.vfs.nodes.keys.length := fun q ⟨k, hk⟩ => names_depth hv hk
  -- the general traversal, from the components of the path
  obtain ⟨nodes, hnodes, hnodup, hmem⟩ := preorder_complete hclosed hdepth (nodup_entriesAt s.vfs)
    (fun q (_ : pathComponents path <+: q) x => mem_entriesAt hv)
    (Nat.succ_pos s.vfs.nodes.keys.length) (by omega)
  rw [← buildTreeRecursive_eq s _ "" hclear] at hnodes
  obtain ⟨listing, hlisting, rfl⟩ := Option.map_eq_some_iff.1 hnodes
  -- what a line leads to depends on the components of its path only
  have hresolve : (listing.map fun line => s.vfs.resolve line.1) =
      (listing.map fun line => pathComponents line.1).map s.vfs.names := by
    rw [List.map_map]
    exact List.map_congr_left fun line _ => resolve_eq hv.numbered line.1
  have hshown : ∀ line ∈ listing, (pathComponents path <+: pathComponents line.1 ∧
      pathComponents line.1 ≠ pathComponents path) ∧ Leads s.vfs (pathComponents line.1) :=
    fun line hline => (hmem _).1 (List.mem_map_of_mem hline)
  refine ⟨_, listing, hlisting, ?_, ?_, ?_⟩
  · rw [hresolve]
    refine List.Nodup.map_on ?_ hnodup
    intro q hq q' hq' heq
    obtain ⟨k, hk⟩ := ((hmem q).1 hq).2
    exact names_inj hv hk (heq ▸ hk)
  · intro k
    rw [hresolve, List.mem_map]
    constructor
    · rintro ⟨q, hq, hk⟩
      obtain ⟨⟨⟨r, rfl⟩, hne⟩, -⟩ := (hmem q).1 hq
      refine ⟨r, ?_, hk⟩
      rintro rfl
      exact hne (List.append_nil _)
    · rintro ⟨r, hr, hk⟩
      refine ⟨_, (hmem _).2 ⟨⟨List.prefix_append _ r, ?_⟩, k, hk⟩, hk⟩
      simpa using hr
  -- each line continues the path itself or that of another line
  · intro line hline
    obtain ⟨caller, entry, lead, hcaller, hentry, rfl⟩ := line_of_listing hlisting line hline
    have hbelow : pathComponents path <+: pathComponents caller := by
      rcases hcaller with rfl | hcaller
      · exact List.prefix_refl _
      · obtain ⟨line', hline', rfl⟩ := List.mem_map.1 hcaller
        exact (hshown line' hline').1.1
    rw [treeEntries_eq] at hentry
    have hname := hclear _ entry hbelow hentry
    refine ⟨caller, entry, lead, hcaller, rfl, ?_, ?_⟩
    · rw [pathComponents_childPath, hname.components]
    · rw [resolve_eq hv.numbered]
      exact (hshown _ hline).2

/-- The listing of a path ends, with every node below it shown once, unless the path is that of a root
with an entry "/". -/
theorem tree_complete_iff {diskSize maxFds : Nat} {s : FileService} (h : ReachableNamed diskSize maxFds s)
    (path : String) :
    (∃ fuel listing, s.buildTreeRecursive fuel path "" = some listing ∧ Complete s path listing) ↔
      ¬(s.vfs.resolve path = some 0 ∧ SlashEntry s.vfs) := by
  have hv := grown_of_evolved (tended_of_reachable h.reachable).1
  constructor
  · rintro ⟨fuel, listing, hlisting, -⟩ ⟨hroot, hslash⟩
    rw [buildTreeRecursive_none ((slashEntry_iff hv).1 hslash) fuel "" ((resolve_root_iff hv).1 hroot).1]
      at hlisting
    cases hlisting
  · intro hother
    exact complete_of_clear hv (clear_of_wellNamed hv (wellNamed_of_reachable h) hother)

/-- The listing of `/programs` on a new disk. -/
theorem tree_complete_programs : ∃ fuel listing,
    (FileService.boot 4096 256 []).buildTreeRecursive fuel "/programs" "" = some listing ∧
      Complete (FileService.boot 4096 256 []) "/programs" listing :=
  (tree_complete_iff (ReachableWith.boot [] trivial : ReachableNamed 4096 256 _) "/programs").2
    fun h => absurd h.1 (by decide +kernel)

/-- After `mkdir /` the listing of the root goes on without end. -/
theorem tree_endless : ReachableNamed 4096 256
      ((FileService.boot 4096 256 []).take ⟨.stored, .createDirectory "/", true⟩) ∧
    ∀ fuel, ((FileService.boot 4096 256 []).take ⟨.stored, .createDirectory "/", true⟩).buildTreeRecursive
      fuel "/" "" = none := by
  have hreachable : ReachableNamed 4096 256
      ((FileService.boot 4096 256 []).take ⟨.stored, .createDirectory "/", true⟩) :=
    ReachableWith.take _ (fun _ _ _ _ _ _ _ => trivial) (ReachableWith.boot [] trivial)
  have hentry : ((((FileService.boot 4096 256 []).take ⟨.stored, .createDirectory "/", true⟩).vfs.lookup
      0).bind fun root => root.getChild "/") = some 29 := by
    decide +kernel
  obtain ⟨root, hroot, hslash⟩ := Option.bind_eq_some_iff.1 hentry
  refine ⟨hreachable, fun fuel => buildTreeRecursive_none ?_ fuel "" (by decide)⟩
  rw [← slashEntry_iff (grown_of_evolved (tended_of_reachable hreachable.reachable).1)]
  exact ⟨root, hroot, by rw [hslash]; rfl⟩

end GenshinOs.Files
