import GenshinOs.Files.Names
import GenshinOs.Lib.Text

/-!
# Creating and deleting by path

Paths are taken apart in three ways: along all slashes, around the last one, and into a directory and a
name for `mkdir`. They agree on every path with a name in it, so that a request that succeeds creates, or
deletes, exactly the path that it was given (`created_exactly_iff`, `deleted_exactly`). A path of slashes
alone is the root for the first way and an entry named "/" of the root for the last one: there a directory
is made that no path leads to. Nothing tells the root from other nodes when it is deleted; it stays as
long as nobody deletes it while it is empty (`root_stays_iff`).
-/

set_option autoImplicit false

namespace GenshinOs.Files

open GenshinOs.Lib GenshinOs.Hardware VirtualFileSystem

/-! ## Paths -/

/-- A name that can stand between slashes. -/
structure EntryName (name : String) : Prop where
  ne_empty : name ≠ ""
  no_slash : '/' ∉ name.toList

theorem mem_pathComponents {path name : String} (h : name ∈ pathComponents path) : EntryName name := by
  obtain ⟨part, hpart, rfl⟩ := List.mem_map.1 h
  obtain ⟨hmem, hne⟩ := List.mem_filter.1 hpart
  constructor
  · intro hempty
    have hnil : part = [] := by simpa using congrArg String.toList hempty
    rw [hnil] at hne
    simp at hne
  · rw [String.toList_ofList]
    exact not_mem_of_mem_splitOn hmem

/-- Names that are joined are taken apart again. -/
theorem pathComponents_join {parts : List String} (h : ∀ name ∈ parts, EntryName name) :
    pathComponents ("/" ++ String.intercalate "/" parts) = parts := by
  have hlist : ("/" ++ String.intercalate "/" parts).toList =
      '/' :: ['/'].intercalate (parts.map String.toList) := by
    rw [String.toList_append, String.toList_intercalate]
    rfl
  have hparts : (((['/'].intercalate (parts.map String.toList)).splitOn '/').filter (· ≠ [])).map
      String.ofList = parts := by
    cases parts with
    | nil => decide
    | cons name rest =>
      rw [List.splitOn_intercalate '/' _ (by simp)]
      · have hall : ((name :: rest).map String.toList).filter (· ≠ []) = (name :: rest).map String.toList := by
          rw [List.filter_eq_self]
          intro cs hcs
          obtain ⟨x, hx, rfl⟩ := List.mem_map.1 hcs
          simpa using (h x hx).ne_empty
        rw [hall, List.map_map]
        exact List.map_id'' (fun x => String.ofList_toList) _
      · intro cs hcs
        obtain ⟨x, hx, rfl⟩ := List.mem_map.1 hcs
        exact (h x hx).no_slash
  rw [pathComponents, hlist, ← List.nil_append ('/' :: _), List.splitOn_append_cons_self, List.filter_append,
    List.map_append, hparts]
  rfl

/-- The directory and the name that a path is split into, when it has names at all. -/
theorem splitPath_ok {path parentPath name : String} (h : splitPath path = .ok (parentPath, name)) :
    pathComponents path = [] ∧ parentPath = "/" ∧ name = "/" ∨
      pathComponents path = pathComponents parentPath ++ [name] := by
  rw [splitPath] at h
  split at h
  · cases h
  · simp only at h
    split at h
    · next hlast =>
      cases h
      exact Or.inl ⟨List.getLast?_eq_none_iff.1 hlast, rfl, rfl⟩
    · next last hlast =>
      simp only [Except.ok.injEq, Prod.mk.injEq] at h
      obtain ⟨rfl, rfl⟩ := h
      obtain ⟨front, hparts⟩ := List.getLast?_eq_some_iff.1 hlast
      refine Or.inr ?_
      have hclean : ∀ x ∈ front, EntryName x := by
        intro x hx
        have hmem : x ∈ pathComponents path := by
          rw [hparts]
          exact List.mem_append_left _ hx
        exact mem_pathComponents hmem
      rw [hparts, List.dropLast_concat]
      cases front with
      | nil =>
        rw [if_neg (by simp)]
        rfl
      | cons x rest =>
        rw [if_pos (by simp), pathComponents_join hclean]

/-! ## Outcomes of requests -/

/-- What the handlers make of a request. -/
def FileService.handled (s : FileService) (e : FileEvent) : Handled :=
  if e.answered then s.handleFileRequestWithResponse e.ord e.req else s.handleFileRequest e.ord e.req

/-- Unless the request stops the thread, their outcome is the one of the request. -/
theorem take_eq_handled (s : FileService) (e : FileEvent) (h : s.panics e.req = false) :
    s.take e = (s.handled e).service := by
  rw [FileService.take, FileService.handled, h, if_neg Bool.false_ne_true]
  split
  · exact FileService.handleEnvelope_service s e.ord e.req
  · rfl

theorem respondVoid_result (h : Handled) : (FileService.respondVoid h).result = h.result := by
  simp only [FileService.respondVoid]
  split
  · rfl
  · rfl

theorem handled_mkdir {s : FileService} {e : FileEvent} {path : String}
    (h : e.req = .createDirectory path) :
    (s.handled e).service = (s.handleMkdir 0 path).service ∧
      (s.handled e).result = (s.handleMkdir 0 path).result := by
  rw [FileService.handled, h]
  split
  · exact ⟨respondVoid_service _, respondVoid_result _⟩
  · exact ⟨rfl, rfl⟩

theorem handled_open {s : FileService} {e : FileEvent} {path : String} {flags : OpenFlags}
    (h : e.req = .open path flags) :
    (s.handled e).service = (s.handleOpenWithResponse 0 path flags).service ∧
      (s.handled e).result = (s.handleOpenWithResponse 0 path flags).result := by
  rw [FileService.handled, h]
  split
  · exact ⟨rfl, rfl⟩
  · exact ⟨rfl, rfl⟩

theorem handled_unlink {s : FileService} {e : FileEvent} {path : String} (h : e.req = .unlink path) :
    (s.handled e).service = (s.handleDelete path).service ∧
      (s.handled e).result = (s.handleDelete path).result := by
  rw [FileService.handled, h]
  split
  · exact ⟨respondVoid_service _, respondVoid_result _⟩
  · exact ⟨rfl, rfl⟩

theorem handled_rmdir {s : FileService} {e : FileEvent} {path : String}
    (h : e.req = .removeDirectory path) :
    (s.handled e).service = (s.handleRmdir path).service ∧
      (s.handled e).result = (s.handleRmdir path).result := by
  rw [FileService.handled, h]
  split
  · exact ⟨respondVoid_service _, respondVoid_result _⟩
  · exact ⟨rfl, rfl⟩

/-! ## Creation -/

/-- The path leads to a new and empty node, and all others lead where they led. -/
structure CreatesExactly (v v' : VirtualFileSystem) (path : String) (nodeType : NodeType) : Prop where
  node : ∃ k n, v.lookup k = none ∧ v'.lookup k = some n ∧ n.nodeType = nodeType ∧ n.size = 0 ∧
    n.blocks = [] ∧ n.hasNoChildren = true ∧ v'.resolve path = some k
  others : ∀ q, pathComponents q ≠ pathComponents path → v'.resolve q = v.resolve q

/-- A node that is made in the directory of the path, under its name. -/
theorem createsExactly_of_createNode {v v' : VirtualFileSystem} (hv : Grown v) (hv' : Numbered v')
    {path parentPath name : String} (hpath : pathComponents path = pathComponents parentPath ++ [name])
    {parent : VFSNode} (hparent : v.lookupPath parentPath = .ok parent) {nodeType : NodeType} {k : Nat}
    {owner : Pid} (h : v.createNode nodeType parent.inode name owner = (.ok k, v')) :
    CreatesExactly v v' path nodeType := by
  obtain ⟨d, hwalk, hd⟩ := lookupPath_ok_iff.1 hparent
  rw [hv.numbered d parent hd] at h
  obtain ⟨rfl, hcreated⟩ := created_of_createNode hv.toSprouted hd h
  have hp : v.names (pathComponents parentPath) = some d := names_some_iff.2 ⟨hwalk, parent, hd⟩
  have hnames := names_created hv hcreated hp
  constructor
  · refine ⟨v.nextInode, _, hcreated.fresh, hcreated.made, rfl, rfl, rfl, rfl, ?_⟩
    rw [resolve_eq hv', hnames, if_pos hpath]
  · intro q hq
    rw [resolve_eq hv', resolve_eq hv.numbered, hnames, if_neg]
    rw [← hpath]
    exact hq

/-- A `mkdir` that succeeds makes a node in the directory that it finds. -/
theorem handleMkdir_ok {s : FileService} {path : String} (hok : (s.handleMkdir 0 path).result = .ok ()) :
    ∃ parentPath name parent k v', splitPath path = .ok (parentPath, name) ∧
      s.vfs.lookupPath parentPath = .ok parent ∧
      s.vfs.createNode .directory parent.inode name 0 = (.ok k, v') ∧
      (s.handleMkdir 0 path).service = { s with vfs := v' } := by
  rw [FileService.handleMkdir] at hok ⊢
  split at hok
  · cases hok
  · next parentPath name hsplit =>
    split at hok
    · cases hok
    · next parent hparent =>
      split at hok
      · cases hok
      · next hdir =>
        split at hok
        · cases hok
        · next k v' hcreated =>
          refine ⟨parentPath, name, parent, k, v', hsplit, hparent, hcreated, ?_⟩
          rw [if_neg hdir]

/-- An open that succeeds on a path that led nowhere makes a file in the directory before the last slash. -/
theorem handleOpen_created {s : FileService} {path : String} {flags : OpenFlags}
    (hmissing : s.vfs.resolve path = none)
    (hok : (s.handleOpenWithResponse 0 path flags).result = .ok ()) :
    ∃ parentPath name parent k v', splitLast path = some (parentPath, name) ∧
      s.vfs.lookupPath parentPath = .ok parent ∧
      s.vfs.createNode .file parent.inode name 0 = (.ok k, v') ∧
      (s.handleOpenWithResponse 0 path flags).service.vfs = v' := by
  -- an open that succeeds has come to a node
  have hopened : ∃ node v, FileService.openNode s.vfs 0 path flags = (.ok node, v) ∧
      (s.handleOpenWithResponse 0 path flags).service.vfs = v := by
    rw [FileService.handleOpenWithResponse] at hok ⊢
    split at hok
    · cases hok
    · next node v hopen =>
      refine ⟨node, v, hopen, ?_⟩
      split
      · rfl
      · split
        · rfl
        · rfl
  obtain ⟨node, v, hopen, hvfs⟩ := hopened
  rw [hvfs]
  rw [FileService.openNode] at hopen
  split at hopen
  · next found hfound =>
    -- the path leads nowhere, so the node is a new one
    rw [resolve, hfound] at hmissing
    cases hmissing
  · split at hopen
    · cases hopen
    · split at hopen
      · cases hopen
      · next parentPath name hsplit =>
        split at hopen
        · cases hopen
        · next parent hparent =>
          split at hopen
          · cases hopen
          · next k v' hcreated =>
            refine ⟨parentPath, name, parent, k, v', hsplit, hparent, hcreated, ?_⟩
            split at hopen
            · cases hopen
            · cases hopen
              rfl

theorem createsExactly_mkdir {s : FileService} (h : Evolved s.vfs) {path : String}
    (hok : (s.handleMkdir 0 path).result = .ok ()) :
    CreatesExactly s.vfs (s.handleMkdir 0 path).service.vfs path .directory ↔ pathComponents path ≠ [] := by
  have hv := grown_of_evolved h
  obtain ⟨parentPath, name, parent, k, v', hsplit, hparent, hcreated, hservice⟩ := handleMkdir_ok hok
  have hv' : Grown v' := by
    have hstep := grown_step (TreeStep.createDirectory s.vfs parent.inode name 0) hv
    rwa [createDirectory, hcreated] at hstep
  rw [hservice]
  rcases splitPath_ok hsplit with ⟨hnil, rfl, -⟩ | hpath
  · -- the path leads to the root, which is not new
    refine iff_of_false ?_ (fun hne => hne hnil)
    rintro ⟨⟨k', n, hfresh, -, -, -, -, -, hresolved⟩, -⟩
    obtain ⟨d, hwalk, hd⟩ := lookupPath_ok_iff.1 hparent
    cases hwalk
    rw [resolve_eq hv'.numbered, hnil, names_nil_iff] at hresolved
    rw [hresolved.1, hv'.root_eq, ← hv.root_eq, hd] at hfresh
    cases hfresh
  · refine iff_of_true ?_ (by rw [hpath]; simp)
    exact createsExactly_of_createNode hv hv'.numbered hpath hparent hcreated

theorem createsExactly_open {s : FileService} (h : Evolved s.vfs) {path : String} {flags : OpenFlags}
    (hmissing : s.vfs.resolve path = none)
    (hok : (s.handleOpenWithResponse 0 path flags).result = .ok ()) :
    CreatesExactly s.vfs (s.handleOpenWithResponse 0 path flags).service.vfs path .file := by
  have hv := grown_of_evolved h
  obtain ⟨parentPath, name, parent, k, v', hsplit, hparent, hcreated, hvfs⟩ := handleOpen_created hmissing hok
  have hv' : Grown v' := by
    have hstep := grown_step (TreeStep.createFile s.vfs parent.inode name 0) hv
    rwa [createFile, hcreated] at hstep
  have hcomponents := pathComponents_splitLast hsplit
  -- without a name the path would lead to the directory
  have hname : name ≠ "" := by
    rintro rfl
    rw [if_pos rfl, List.append_nil] at hcomponents
    rw [resolve_eq hv.numbered, hcomponents, ← resolve_eq hv.numbered, resolve, hparent] at hmissing
    cases hmissing
  rw [if_neg hname] at hcomponents
  rw [hvfs]
  exact createsExactly_of_createNode hv hv'.numbered hcomponents hparent hcreated

/-- A creation that succeeds makes exactly the path it was given. The one exception is a directory whose
path has no name in it. -/
theorem created_exactly_iff {diskSize maxFds : Nat} {s : FileService} (h : Reachable diskSize maxFds s)
    (e : FileEvent) (path : String) (hok : (s.handled e).result = .ok ()) :
    (e.req = .createDirectory path →
      (CreatesExactly s.vfs (s.take e).vfs path .directory ↔ pathComponents path ≠ [])) ∧
    ∀ flags, e.req = .open path flags → flags.create = true → s.vfs.resolve path = none →
      CreatesExactly s.vfs (s.take e).vfs path .file := by
  have hevolved := (tended_of_reachable h).1
  constructor
  · intro hreq
    obtain ⟨hservice, hresult⟩ := handled_mkdir (s := s) hreq
    rw [hresult] at hok
    rw [take_eq_handled s e (by rw [hreq]; rfl), hservice]
    exact createsExactly_mkdir hevolved hok
  · intro flags hreq _ hmissing
    obtain ⟨hservice, hresult⟩ := handled_open (s := s) hreq
    rw [hresult] at hok
    rw [take_eq_handled s e (by rw [hreq]; rfl), hservice]
    exact createsExactly_open hevolved hmissing hok

/-- A directory below `/tmp` on a new disk. -/
theorem created_exactly_below : CreatesExactly (FileService.boot 4096 256 []).vfs
      ((FileService.boot 4096 256 []).take ⟨.stored, .createDirectory "//tmp/d/", true⟩).vfs "//tmp/d/"
      .directory ↔
    pathComponents "//tmp/d/" ≠ [] :=
  (created_exactly_iff (Reachable.boot []) ⟨.stored, .createDirectory "//tmp/d/", true⟩ "//tmp/d/"
    (by decide +kernel)).1 rfl

/-- The root can be created; the new directory is an entry of the root that no path leads to. -/
theorem root_created : Reachable 4096 256 (FileService.boot 4096 256 []) ∧
    ((FileService.boot 4096 256 []).handled ⟨.stored, .createDirectory "/", true⟩).result = .ok () ∧
    ¬CreatesExactly (FileService.boot 4096 256 []).vfs
      ((FileService.boot 4096 256 []).take ⟨.stored, .createDirectory "/", true⟩).vfs "/" .directory := by
  have hok : ((FileService.boot 4096 256 []).handleMkdir 0 "/").result = .ok () := by decide +kernel
  have hreq : (⟨.stored, .createDirectory "/", true⟩ : FileEvent).req = .createDirectory "/" := rfl
  obtain ⟨hservice, hresult⟩ := handled_mkdir (s := FileService.boot 4096 256 []) hreq
  refine ⟨Reachable.boot [], hresult.trans hok, ?_⟩
  rw [take_eq_handled _ _ rfl, hservice]
  have hevolved := (tended_of_reachable (Reachable.boot [] : Reachable 4096 256 _)).1
  intro hexact
  exact (createsExactly_mkdir hevolved hok).1 hexact (by decide)

/-! ## Deletion -/

theorem delete_error {v v' : VirtualFileSystem} {k : Nat} {e : ServiceError}
    (h : v.delete k = (.error e, v')) : v' = v := by
  simp only [delete] at h
  split at h
  · cases h
    rfl
  · split at h
    · cases h
      rfl
    · split at h
      · cases h
      · cases h

/-- The node of a path is deleted: paths that go through it lead nowhere, and the others where they
led. -/
theorem resolve_deleted {v v' : VirtualFileSystem} (h : Evolved v) {path : String} {n : VFSNode}
    (hpath : v.lookupPath path = .ok n) (hdel : v.delete n.inode = (.ok (), v')) :
    (n.isFile = true ∨ n.isDirectory = true ∧ n.hasNoChildren = true) ∧
      ∀ q, v'.resolve q = if pathComponents path <+: pathComponents q then none else v.resolve q := by
  have hv := grown_of_evolved h
  obtain ⟨k, hwalk, hk⟩ := lookupPath_ok_iff.1 hpath
  have hp : v.names (pathComponents path) = some k := names_some_iff.2 ⟨hwalk, n, hk⟩
  obtain ⟨hkind, href⟩ := plain_of_evolved h k n hk
  rw [hv.numbered k n hk] at hdel
  obtain ⟨hcan, hremoved⟩ := removed_of_delete hv hp hk href hdel
  have hv' : Grown v' := by
    have hstep := grown_step (TreeStep.delete v k) hv
    rwa [hdel] at hstep
  constructor
  · refine hkind.imp_right fun hdir => ⟨hdir, ?_⟩
    simpa [VFSNode.canDelete, hdir] using hcan
  · intro q
    rw [resolve_eq hv'.numbered, resolve_eq hv.numbered]
    exact names_removed hv hremoved hp (pathComponents q)

/-- What the two requests that delete have in common. -/
theorem handled_deletion {s : FileService} {e : FileEvent} {path : String}
    (hreq : e.req = .unlink path ∨ e.req = .removeDirectory path) :
    ((s.handled e).result = .ok () ∧ ∃ n v', s.vfs.lookupPath path = .ok n ∧
        s.vfs.delete n.inode = (.ok (), v') ∧ (s.take e).vfs = v') ∨
      (∃ err, (s.handled e).result = .error err) ∧ (s.take e).vfs = s.vfs := by
  have hgoes : s.panics e.req = false := by
    rcases hreq with hunlink | hrmdir
    · rw [hunlink]
      rfl
    · rw [hrmdir]
      rfl
  rw [take_eq_handled s e hgoes]
  rcases hreq with hunlink | hrmdir
  · obtain ⟨hservice, hresult⟩ := handled_unlink (s := s) hunlink
    rw [hservice, hresult, FileService.handleDelete]
    split
    · exact Or.inr ⟨⟨_, rfl⟩, rfl⟩
    · next n hpath =>
      rcases hdel : s.vfs.delete n.inode with ⟨err | u, v'⟩
      · exact Or.inr ⟨⟨err, rfl⟩, delete_error hdel⟩
      · exact Or.inl ⟨rfl, n, v', hpath, hdel, rfl⟩
  · obtain ⟨hservice, hresult⟩ := handled_rmdir (s := s) hrmdir
    rw [hservice, hresult, FileService.handleRmdir]
    split
    · exact Or.inr ⟨⟨_, rfl⟩, rfl⟩
    · next n hpath =>
      split
      · exact Or.inr ⟨⟨_, rfl⟩, rfl⟩
      · split
        · exact Or.inr ⟨⟨_, rfl⟩, rfl⟩
        · rcases hdel : s.vfs.delete n.inode with ⟨err | u, v'⟩
          · exact Or.inr ⟨⟨err, rfl⟩, delete_error hdel⟩
          · exact Or.inl ⟨rfl, n, v', hpath, hdel, rfl⟩

/-- A deletion that succeeds was that of a file or of an empty directory, and takes away the path and
what could lie behind it; one that fails changes nothing. -/
theorem deleted_exactly {diskSize maxFds : Nat} {s : FileService} (h : Reachable diskSize maxFds s)
    (e : FileEvent) (path : String) (hreq : e.req = .unlink path ∨ e.req = .removeDirectory path) :
    ((s.handled e).result = .ok () → (s.take e).vfs.resolve path = none ∧
      (∃ n, s.vfs.lookupPath path = .ok n ∧
        (n.isFile = true ∨ n.isDirectory = true ∧ n.hasNoChildren = true)) ∧
      ∀ q, ¬pathComponents path <+: pathComponents q → (s.take e).vfs.resolve q = s.vfs.resolve q) ∧
    ∀ err, (s.handled e).result = .error err → ∀ q, (s.take e).vfs.lookupPath q = s.vfs.lookupPath q := by
  have hevolved := (tended_of_reachable h).1
  rcases handled_deletion hreq with ⟨hok, n, v', hpath, hdel, hvfs⟩ | ⟨⟨err, herror⟩, hvfs⟩
  · obtain ⟨hkind, hresolve⟩ := resolve_deleted hevolved hpath hdel
    rw [hvfs]
    constructor
    · intro _
      refine ⟨by rw [hresolve, if_pos (List.prefix_refl _)], ⟨n, hpath, hkind⟩, ?_⟩
      intro q hq
      rw [hresolve, if_neg hq]
    · intro err herror
      rw [hok] at herror
      cases herror
  · constructor
    · intro hok
      rw [herror] at hok
      cases hok
    · intro _ _ q
      rw [hvfs]

/-- `/bin` is removed, and `/tmp` stays. -/
theorem deleted_exactly_bin :
    ((FileService.boot 4096 256 []).take ⟨.stored, .removeDirectory "/bin", true⟩).vfs.resolve "/bin" = none ∧
      ((FileService.boot 4096 256 []).take ⟨.stored, .removeDirectory "/bin", true⟩).vfs.resolve "/tmp" =
        (FileService.boot 4096 256 []).vfs.resolve "/tmp" := by
  obtain ⟨hgone, -, hothers⟩ := (deleted_exactly (Reachable.boot [] : Reachable 4096 256 _)
    ⟨.stored, .removeDirectory "/bin", true⟩ "/bin" (Or.inr rfl)).1 (by decide +kernel)
  exact ⟨hgone, hothers "/tmp" (by decide)⟩

/-! ## What a request can do to the tree -/

/-- The tree after a request: a node was made where the path says, a node of a path was deleted, a node
took over the run of its file, or nothing changed. -/
inductive TreeEffect (v : VirtualFileSystem) : FileRequest → VirtualFileSystem → Prop
  | same (req : FileRequest) : TreeEffect v req v
  | made (path : String) (flags : OpenFlags) (parentPath name : String) (parent : VFSNode) :
      splitLast path = some (parentPath, name) → v.lookupPath parentPath = .ok parent →
      (∀ n, v.lookupPath path ≠ .ok n) → TreeEffect v (.open path flags) (v.createFile parent.inode name 0).2
  | madeDirectory (path parentPath name : String) (parent : VFSNode) :
      splitPath path = .ok (parentPath, name) → v.lookupPath parentPath = .ok parent →
      TreeEffect v (.createDirectory path) (v.createDirectory parent.inode name 0).2
  | deleted (req : FileRequest) (path : String) (n : VFSNode) :
      req = .unlink path ∨ req = .removeDirectory path → v.lookupPath path = .ok n →
      TreeEffect v req (v.delete n.inode).2
  | recorded (req : FileRequest) (inode : Nat) (f : File) (size : Nat) :
      TreeEffect v req (FileService.recordRun v inode f size)

theorem openNode_effect (v : VirtualFileSystem) (path : String) (flags : OpenFlags) :
    TreeEffect v (.open path flags) (FileService.openNode v 0 path flags).2 := by
  rw [FileService.openNode]
  split
  · exact TreeEffect.same _
  · next hmissing =>
    split
    · exact TreeEffect.same _
    · split
      · exact TreeEffect.same _
      · next parentPath name hsplit =>
        split
        · exact TreeEffect.same _
        · next parent hparent =>
          have hmade := TreeEffect.made (v := v) path flags parentPath name parent hsplit hparent
            (by simp [hmissing])
          split
          · next hcreated => rwa [hcreated] at hmade
          · next hcreated =>
            rw [hcreated] at hmade
            split
            · exact hmade
            · exact hmade

theorem handleOpen_effect (s : FileService) (path : String) (flags : OpenFlags) :
    TreeEffect s.vfs (.open path flags) (s.handleOpenWithResponse 0 path flags).service.vfs := by
  have hopened := openNode_effect s.vfs path flags
  rw [FileService.handleOpenWithResponse]
  split
  · next hopen => rwa [hopen] at hopened
  · next hopen =>
    rw [hopen] at hopened
    split
    · exact hopened
    · split
      · exact hopened
      · exact hopened

theorem handleMkdir_effect (s : FileService) (path : String) :
    TreeEffect s.vfs (.createDirectory path) (s.handleMkdir 0 path).service.vfs := by
  rw [FileService.handleMkdir]
  split
  · exact TreeEffect.same _
  · next parentPath name hsplit =>
    split
    · exact TreeEffect.same _
    · next parent hparent =>
      split
      · exact TreeEffect.same _
      · have hmade := TreeEffect.madeDirectory (v := s.vfs) path parentPath name parent hsplit hparent
        split
        · next hcreated => rwa [hcreated] at hmade
        · next hcreated => rwa [hcreated] at hmade

theorem handleWrite_effect (s : FileService) (req : FileRequest) (fd : UInt32) (data : List UInt8) :
    TreeEffect s.vfs req (s.handleWriteWithResponse 0 fd data).service.vfs := by
  rw [FileService.handleWriteWithResponse]
  split
  · exact TreeEffect.same _
  · split
    · exact TreeEffect.same _
    · rw [FileService.persist]
      split
      · exact TreeEffect.same _
      · exact TreeEffect.recorded _ _ _ _

theorem vfs_handleRead (s : FileService) (fd : UInt32) (count : Nat) :
    (s.handleReadWithResponse 0 fd count).service.vfs = s.vfs := by
  rw [FileService.handleReadWithResponse]
  split
  · rfl
  · split
    · rfl
    · rfl

theorem vfs_handleClose (s : FileService) (fd : UInt32) :
    (s.handleCloseWithResponse 0 fd).service.vfs = s.vfs := by
  have hsynced := (syncOnClose_tables s 0 fd).1
  rw [FileService.handleCloseWithResponse]
  split
  · exact hsynced
  · exact hsynced

theorem handleDelete_effect (s : FileService) (path : String) :
    TreeEffect s.vfs (.unlink path) (s.handleDelete path).service.vfs := by
  rw [FileService.handleDelete]
  split
  · exact TreeEffect.same _
  · next node hnode => exact TreeEffect.deleted _ path node (Or.inl rfl) hnode

theorem handleRmdir_effect (s : FileService) (path : String) :
    TreeEffect s.vfs (.removeDirectory path) (s.handleRmdir path).service.vfs := by
  rw [FileService.handleRmdir]
  split
  · exact TreeEffect.same _
  · next node hnode =>
    split
    · exact TreeEffect.same _
    · split
      · exact TreeEffect.same _
      · exact TreeEffect.deleted _ path node (Or.inr rfl) hnode

theorem take_effect (s : FileService) (e : FileEvent) : TreeEffect s.vfs e.req (s.take e).vfs := by
  by_cases hclose : ∃ fd, e.req = .close fd
  · -- a close leaves the tree alone
    obtain ⟨fd, hreq⟩ := hclose
    have hsame : (s.take e).vfs = s.vfs := by
      rcases take_close s hreq with hanswered | hplain
      · rw [hanswered]
        exact vfs_handleClose s fd
      · rw [hplain]
        rfl
    rw [hsame]
    exact TreeEffect.same _
  · rcases take_eq_plain s fun fd hreq => hclose ⟨fd, hreq⟩ with hpanics | hplain
    · rw [hpanics]
      exact TreeEffect.same _
    rw [hplain]
    obtain ⟨ord, req, answered⟩ := e
    cases req with
    | «open» path flags => exact handleOpen_effect s path flags
    | close fd => exact absurd ⟨fd, rfl⟩ hclose
    | createDirectory path => exact handleMkdir_effect s path
    | unlink path => exact handleDelete_effect s path
    | removeDirectory path => exact handleRmdir_effect s path
    | write fd offset buf size => exact handleWrite_effect s _ fd _
    | writeData fd data => exact handleWrite_effect s _ fd data
    | read fd offset buf size =>
      have hsame : (s.handleFileRequest ord (.read fd offset buf size)).service.vfs = s.vfs :=
        vfs_handleRead s fd size
      rw [hsame]
      exact TreeEffect.same _
    | stat path =>
      simp only [FileService.handleFileRequest, FileService.handleStat]
      split
      · exact TreeEffect.same _
      · exact TreeEffect.same _
    | openDirectory path =>
      simp only [FileService.handleFileRequest, handleListdir_service]
      exact TreeEffect.same _
    | cloneFds fromPid toPid => exact TreeEffect.same _
    | listDir path => exact TreeEffect.same _
    | readDirectory dirFd => exact TreeEffect.same _
    | closeDirectory dirFd => exact TreeEffect.same _
    | diskInfo => exact TreeEffect.same _
    | other => exact TreeEffect.same _

/-! ## The root -/

/-- Node 0 is there, and a directory. -/
def RootThere (v : VirtualFileSystem) : Prop := ∃ n, v.lookup 0 = some n ∧ n.isDirectory = true

/-- The request deletes a path without a name, while the root has no entries. -/
def DeletesRoot (s : FileService) (e : FileEvent) : Prop :=
  (∃ path, (e.req = .unlink path ∨ e.req = .removeDirectory path) ∧ pathComponents path = []) ∧
    ∃ n, s.vfs.lookup 0 = some n ∧ n.hasNoChildren = true

theorem rootThere_iff {v : VirtualFileSystem} (h : Grown v) : RootThere v ↔ ∃ n, v.lookup 0 = some n := by
  constructor
  · rintro ⟨n, hn, -⟩
    exact ⟨n, hn⟩
  · rintro ⟨n, hn⟩
    have hnew : (VirtualFileSystem.new.lookup 0).map VFSNode.nodeType = some .directory := by decide +kernel
    obtain ⟨root, hroot, htype⟩ := Option.map_eq_some_iff.1 hnew
    refine ⟨n, hn, ?_⟩
    rw [VFSNode.isDirectory, (h.stock 0 n root hn hroot).2.2, htype]
    rfl

/-- A creation keeps every node. -/
theorem lookup_createNode {v : VirtualFileSystem} (hv : Sprouted v) {nodeType : NodeType} {parent : Nat}
    {name : String} {owner : Pid} {i : Nat} {n : VFSNode} (hn : v.lookup i = some n) :
    ∃ n', (v.createNode nodeType parent name owner).2.lookup i = some n' := by
  have hold : i ≠ v.nextInode := fun heq => Nat.lt_irrefl _ (heq ▸ (hv.node i n hn).2)
  have hentered : VirtualFileSystem.lookup { v with
      nodes := v.nodes.insert v.nextInode (VFSNode.new v.nextInode name nodeType (some parent) owner)
      nextInode := v.nextInode + 1 } i = some n := by
    rw [VirtualFileSystem.lookup, HashMap.lookup_insert_eq, if_neg hold]
    exact hn
  simp only [createNode]
  split
  · exact ⟨n, hentered⟩
  · split
    · exact ⟨n, hentered⟩
    · rw [lookup_setNode]
      split
      · exact ⟨_, rfl⟩
      · exact ⟨n, hentered⟩

theorem delete_ok {v : VirtualFileSystem} {i : Nat} {n : VFSNode} (hn : v.lookup i = some n)
    (hcan : n.canDelete = true) : (v.delete i).1 = .ok () := by
  rw [VirtualFileSystem.delete, hn]
  simp only [hcan, Bool.true_eq_false, if_false]
  split
  · rfl
  · rfl

/-- The deletion of a path. Only that of an empty root takes the root. -/
theorem rootThere_delete_iff {v : VirtualFileSystem} (h : Evolved v) (hroot : RootThere v) {path : String}
    {n : VFSNode} (hpath : v.lookupPath path = .ok n) :
    RootThere (v.delete n.inode).2 ↔ ¬(pathComponents path = [] ∧ n.hasNoChildren = true) := by
  have hv := grown_of_evolved h
  have hv' : Grown (v.delete n.inode).2 := grown_step (TreeStep.delete v n.inode) hv
  obtain ⟨k, hwalk, hk⟩ := lookupPath_ok_iff.1 hpath
  have hinode := hv.numbered k n hk
  rw [rootThere_iff hv']
  rcases hdel : v.delete n.inode with ⟨err | u, v'⟩
  · -- a deletion that fails: the root, if it was to go, has entries
    rw [delete_error hdel]
    refine iff_of_true ⟨hroot.choose, hroot.choose_spec.1⟩ ?_
    rintro ⟨hnil, hnone⟩
    rw [hnil] at hwalk
    cases hwalk
    obtain ⟨m, hm, hdir⟩ := hroot
    rw [hv.root_eq, hm] at hk
    obtain rfl := Option.some.inj hk
    have hcan : m.canDelete = true := by simp [VFSNode.canDelete, hdir, hnone]
    rw [hinode, hv.root_eq] at hdel
    have hok := delete_ok hm hcan
    rw [hdel] at hok
    cases hok
  · obtain ⟨hkind, hresolve⟩ := resolve_deleted h hpath hdel
    have hslash := hresolve "/"
    have hcomponents : pathComponents "/" = [] := by decide
    rw [hdel] at hv'
    rw [resolve_eq hv'.numbered, resolve_eq hv.numbered, hcomponents] at hslash
    constructor
    · rintro ⟨m, hm⟩ ⟨hnil, -⟩
      rw [if_pos (by rw [hnil])] at hslash
      rw [names_nil_iff.2 ⟨hv'.root_eq.symm, m, hm⟩] at hslash
      cases hslash
    · intro hother
      have hnil : pathComponents path ≠ [] := by
        intro hnil
        apply hother
        refine ⟨hnil, ?_⟩
        rcases hkind with hfile | ⟨-, hnone⟩
        · exact absurd hv.root_eq (by
            have hne := file_ne_root hv hk hfile
            rw [hnil] at hwalk
            cases hwalk
            exact fun _ => hne hinode)
        · exact hnone
      obtain ⟨m, hm, -⟩ := hroot
      rw [if_neg (fun hpre => hnil (List.prefix_nil.1 hpre)), names_nil_iff.2 ⟨hv.root_eq.symm, m, hm⟩] at hslash
      exact lookup_of_names hslash

theorem rootThere_createNode {v : VirtualFileSystem} (h : Evolved v) (hroot : RootThere v)
    {nodeType : NodeType} {parent : Nat} {name : String} {owner : Pid}
    (hstep : TreeStep v (v.createNode nodeType parent name owner).2) :
    RootThere (v.createNode nodeType parent name owner).2 := by
  have hv := grown_of_evolved h
  obtain ⟨n, hn, -⟩ := hroot
  rw [rootThere_iff (grown_step hstep hv)]
  exact lookup_createNode hv.toSprouted hn

theorem rootThere_recordRun {v : VirtualFileSystem} (hroot : RootThere v) (i : Nat) (f : File) (size : Nat) :
    RootThere (FileService.recordRun v i f size) := by
  obtain ⟨n, hn, hdir⟩ := hroot
  cases hstart : f.startSector with
  | none =>
    simp only [FileService.recordRun, hstart]
    exact ⟨n, hn, hdir⟩
  | some start =>
    rw [RootThere, lookup_recordRun v hstart]
    split
    · next hzero =>
      rw [← hzero, hn]
      exact ⟨_, rfl, hdir⟩
    · exact ⟨n, hn, hdir⟩

/-- Both requests pass their checks when they lead to a root without entries. -/
theorem take_deletesRoot {s : FileService} (h : Evolved s.vfs) (hroot : RootThere s.vfs) {e : FileEvent}
    (hdeletes : DeletesRoot s e) : ¬RootThere (s.take e).vfs := by
  have hv := grown_of_evolved h
  obtain ⟨⟨path, hreq, hnil⟩, n, hn, hnone⟩ := hdeletes
  obtain ⟨m, hm, hdir⟩ := hroot
  rw [hn] at hm
  obtain rfl := Option.some.inj hm
  have hpath : s.vfs.lookupPath path = .ok n := by
    refine lookupPath_ok_iff.2 ⟨0, ?_, hn⟩
    rw [hnil, hv.root_eq]
    rfl
  have hgone := (rootThere_delete_iff h ⟨n, hn, hdir⟩ hpath).not.2 (not_not.2 ⟨hnil, hnone⟩)
  have hvfs : (s.take e).vfs = (s.vfs.delete n.inode).2 := by
    rcases hreq with hunlink | hrmdir
    · rw [take_eq_handled s e (by rw [hunlink]; rfl), (handled_unlink (s := s) hunlink).1,
        FileService.handleDelete, hpath]
    · rw [take_eq_handled s e (by rw [hrmdir]; rfl), (handled_rmdir (s := s) hrmdir).1,
        FileService.handleRmdir, hpath]
      simp only [hdir, hnone, Bool.true_eq_false, if_false]
  rwa [hvfs]

/-- A request keeps the root exactly unless it deletes it. -/
theorem rootThere_take_iff {s : FileService} (h : Evolved s.vfs) (hroot : RootThere s.vfs) (e : FileEvent) :
    RootThere (s.take e).vfs ↔ ¬DeletesRoot s e := by
  constructor
  · intro hthere hdeletes
    exact take_deletesRoot h hroot hdeletes hthere
  · intro hkept
    have heffect := take_effect s e
    rw [DeletesRoot] at hkept
    generalize e.req = req at heffect hkept
    generalize (s.take e).vfs = v' at heffect ⊢
    cases heffect with
    | same => exact hroot
    | made => exact rootThere_createNode h hroot (TreeStep.createFile _ _ _ _)
    | madeDirectory => exact rootThere_createNode h hroot (TreeStep.createDirectory _ _ _ _)
    | recorded _ inode f size => exact rootThere_recordRun hroot inode f size
    | deleted _ path n hreq hpath =>
      refine (rootThere_delete_iff h hroot hpath).2 ?_
      rintro ⟨hnil, hnone⟩
      obtain ⟨k, hwalk, hk⟩ := lookupPath_ok_iff.1 hpath
      rw [hnil, (grown_of_evolved h).root_eq] at hwalk
      cases hwalk
      exact hkept ⟨⟨path, hreq, hnil⟩, n, hk, hnone⟩

/-- An import makes at most one node, under the name of the host file. -/
theorem importNode_cases (v : VirtualFileSystem) (fname : String) :
    (FileService.importNode v fname).2 = v ∨
      ∃ parent, (FileService.importNode v fname).2 = (v.createFile parent fname 0).2 := by
  rw [FileService.importNode]
  split
  · exact Or.inl rfl
  · split
    · exact Or.inl rfl
    · next parent _ =>
      refine Or.inr ⟨parent.inode, ?_⟩
      split
      · next hcreated => rw [hcreated]
      · next hcreated =>
        rw [hcreated]
        split
        · rfl
        · rfl

theorem rootThere_importFile {s : FileService} (h : Evolved s.vfs) (hroot : RootThere s.vfs)
    (host : String × List UInt8) : RootThere (s.importFile host).vfs := by
  have hmade : RootThere (FileService.importNode s.vfs host.1).2 := by
    rcases importNode_cases s.vfs host.1 with hsame | ⟨parent, hcreated⟩
    · rw [hsame]
      exact hroot
    · rw [hcreated]
      exact rootThere_createNode h hroot (TreeStep.createFile _ _ _ _)
  rw [FileService.importFile]
  split
  · exact hroot
  · split
    · next himport => rwa [himport] at hmade
    · next himport =>
      rw [himport] at hmade
      exact rootThere_recordRun hmade _ _ _

theorem rootThere_boot (diskSize maxFds : Nat) (hosts : List (String × List UInt8)) :
    Tended (FileService.boot diskSize maxFds hosts) ∧ RootThere (FileService.boot diskSize maxFds hosts).vfs := by
  have hnew := tended_new Evolved.new (SectorDisk.create (diskSize / 512 % 2 ^ 32)) maxFds
  obtain ⟨root, hroot, -⟩ := new_root
  have hthere : RootThere VirtualFileSystem.new := (rootThere_iff grown_new).2 ⟨root, hroot⟩
  rw [FileService.boot, FileService.importHostFiles]
  refine List.foldlRecOn (motive := fun s => Tended s ∧ RootThere s.vfs) hosts _ ⟨hnew, hthere⟩ ?_
  intro s hs host _
  exact ⟨tended_importFile hs.1 host, rootThere_importFile hs.1.1 hs.2 host⟩

theorem root_found {v : VirtualFileSystem} (h : Grown v) : RootThere v ↔ ∃ n, v.lookupPath "/" = .ok n := by
  have hwalk : v.walk v.rootInode (pathComponents "/") = .ok 0 := by
    rw [show pathComponents "/" = [] by decide, h.root_eq]
    rfl
  rw [rootThere_iff h]
  constructor
  · rintro ⟨n, hn⟩
    exact ⟨n, lookupPath_ok_iff.2 ⟨0, hwalk, hn⟩⟩
  · rintro ⟨n, hn⟩
    obtain ⟨k, hk, hfound⟩ := lookupPath_ok_iff.1 hn
    rw [hwalk] at hk
    cases hk
    exact ⟨n, hfound⟩

/-- The root stays through a run, and "/" leads to it, exactly when no request of the run deletes it. -/
theorem root_stays_iff (diskSize maxFds : Nat) (hosts : List (String × List UInt8))
    (events : List FileEvent) :
    (∀ t ∈ (runTrace fileTransition (FileService.boot diskSize maxFds hosts) events).2,
        RootThere t.post.vfs ∧ ∃ n, t.post.vfs.lookupPath "/" = .ok n) ↔
      ∀ t ∈ (runTrace fileTransition (FileService.boot diskSize maxFds hosts) events).2,
        ¬DeletesRoot t.pre t.act := by
  have htended : ∀ (s : FileService) (e : FileEvent), Tended s → Tended (s.take e) := by
    intro s e h
    have hfree : Guarded (fun _ _ => True) s e.req := fun _ _ _ _ _ _ _ => trivial
    exact take_invariant tended_step hfree h
  have hboot := rootThere_boot diskSize maxFds hosts
  constructor
  · intro hthere
    -- with the root after every request, it is there before every request
    obtain ⟨-, hall⟩ := fileTrace_invariant (I := fun s => Tended s ∧ RootThere s.vfs) hboot events
      fun t ht hpre => ⟨htended t.pre t.act hpre.1, by
        rw [← fileTrace_step ht]
        exact (hthere t ht).1⟩
    intro t ht
    rw [← rootThere_take_iff (hall t ht).1.1.1 (hall t ht).1.2 t.act, ← fileTrace_step ht]
    exact (hthere t ht).1
  · intro hkept
    obtain ⟨-, hall⟩ := fileTrace_invariant (I := fun s => Tended s ∧ RootThere s.vfs) hboot events
      fun t ht hpre => ⟨htended t.pre t.act hpre.1,
        (rootThere_take_iff hpre.1.1 hpre.2 t.act).2 (hkept t ht)⟩
    intro t ht
    exact ⟨(hall t ht).2.2, (root_found (grown_of_evolved (hall t ht).2.1.1)).1 (hall t ht).2.2⟩

/-- Every file and every directory of a new file system is deleted, and the root last. -/
def emptied : List FileEvent :=
  (VirtualFileSystem.programFiles.map fun name => ⟨.stored, .unlink ("/programs/" ++ name), true⟩) ++
    (VirtualFileSystem.standardDirectories.map fun name => ⟨.stored, .removeDirectory ("/" ++ name), true⟩) ++
    [⟨.stored, .removeDirectory "/", true⟩]

theorem root_deleted :
    ¬∀ t ∈ (runTrace fileTransition (FileService.boot 4096 256 []) emptied).2,
      RootThere t.post.vfs ∧ ∃ n, t.post.vfs.lookupPath "/" = .ok n := by
  intro hthere
  have hlast : ((runTrace fileTransition (FileService.boot 4096 256 []) emptied).2.all
      fun t => (t.post.vfs.lookup 0).isSome) = false := by
    decide +kernel
  have hall : ((runTrace fileTransition (FileService.boot 4096 256 []) emptied).2.all
      fun t => (t.post.vfs.lookup 0).isSome) = true := by
    rw [List.all_eq_true]
    intro t ht
    obtain ⟨n, hn, -⟩ := (hthere t ht).1
    rw [hn]
    rfl
  rw [hall] at hlast
  cases hlast

end GenshinOs.Files
