import GenshinOs.Files.Tree

/-!
# Answers of the file service

How many responses a request to the file service gets (`handle_envelope` and the handlers in
`src/services/file/service.rs`). A handler answers on its own and returns a result, and a failure is
answered by the envelope; so a handler that has answered and then fails is answered twice. This happens
when an open finds no file, and when a read or a write has no descriptor. A read or a write of very many
bytes stops the thread before it has answered. `file_answeredOnce_iff` has the exact conditions. For an
open the condition is said of the tree before the request; `openNode_file_iff` shows that a path that is
not there can be created exactly when its directory is.
-/

set_option autoImplicit false

namespace GenshinOs.Files

open GenshinOs.Lib GenshinOs.Hardware VirtualFileSystem

/-- The responses to a request with this identifier. There are none when the thread is stopped. -/
def FileService.responses (s : FileService) (ord : HashOrder) (id : RequestId) (req : FileRequest) :
    List Response :=
  match s.serve ord req with
  | none => []
  | some served => served.2.map (Response.ofAnswer id)

/-- A request that ends the thread gets no response. -/
theorem responses_of_panics {s : FileService} {req : FileRequest} (h : s.panics req = true) (ord : HashOrder)
    (id : RequestId) : s.responses ord id req = [] := by
  rw [FileService.responses, FileService.serve, if_pos h]

/-- A handler leaves exactly one answer: its own, or that of the envelope. -/
def Handled.Once (h : Handled) : Prop :=
  match h.result with
  | .ok () => h.sent.length = 1
  | .error _ => h.sent = []

/-- The envelope adds a response for every error, so the handler has to leave that to it. -/
theorem envelope_once_iff (s : FileService) (ord : HashOrder) (req : FileRequest) :
    (s.handleEnvelope ord req).2.length = 1 ↔ (s.handleFileRequestWithResponse ord req).Once := by
  simp only [FileService.handleEnvelope, Handled.Once]
  cases (s.handleFileRequestWithResponse ord req).result with
  | ok u => exact Iff.rfl
  | error e => simp

/-- A handler that says nothing itself, with a void answer for success, is answered once. -/
theorem once_respondVoid {h : Handled} (hsent : h.sent = []) : (FileService.respondVoid h).Once := by
  rw [FileService.respondVoid]
  cases hresult : h.result with
  | ok u => simp [Handled.Once, hsent]
  | error e => simp [Handled.Once, hresult, hsent]

/-! ## Paths that can be created -/

/-- A path around its last slash. -/
theorem splitLast_some {path parentPath name : String} (h : splitLast path = some (parentPath, name)) :
    ∃ parent, path.toList = parent ++ '/' :: name.toList ∧ '/' ∉ name.toList ∧
      parentPath = if parent = [] then "/" else String.ofList parent := by
  have hsplit := List.takeWhile_append_dropWhile (p := fun c => decide (c ≠ '/')) (l := path.toList.reverse)
  have hbefore : '/' ∉ path.toList.reverse.takeWhile (fun c => decide (c ≠ '/')) := by
    intro hmem
    have hkept := List.all_eq_true.1 (List.all_takeWhile (p := fun c => decide (c ≠ '/'))
      (l := path.toList.reverse)) '/' hmem
    simp at hkept
  have hslash := List.head?_dropWhile_not (fun c => decide (c ≠ '/')) path.toList.reverse
  rw [splitLast, List.span_eq_takeWhile_dropWhile] at h
  generalize path.toList.reverse.takeWhile (fun c => decide (c ≠ '/')) = after at *
  generalize path.toList.reverse.dropWhile (fun c => decide (c ≠ '/')) = before at *
  cases before with
  | nil => cases h
  | cons slash parent =>
    -- the first character that is not taken is the slash
    have hfirst : slash = '/' := by simpa using hslash
    subst hfirst
    simp only [Option.some.injEq, Prod.mk.injEq] at h
    obtain ⟨hparent, hname⟩ := h
    refine ⟨parent.reverse, ?_, ?_, ?_⟩
    · have hwhole := congrArg List.reverse hsplit
      rw [List.reverse_reverse] at hwhole
      rw [← hwhole, ← hname]
      simp
    · rw [← hname]
      simpa using hbefore
    · rw [← hparent]
      simp

/-- The components of a path around its last slash. -/
theorem pathComponents_splitLast {path parentPath name : String}
    (h : splitLast path = some (parentPath, name)) :
    pathComponents path = pathComponents parentPath ++ (if name = "" then [] else [name]) := by
  obtain ⟨parent, hlist, hclean, hparent⟩ := splitLast_some h
  have hlast : name.toList.splitOn '/' = [name.toList] := List.splitOn_eq_singleton hclean
  have hfirst : ((parent.splitOn '/').filter (· ≠ [])).map String.ofList = pathComponents parentPath := by
    rw [hparent, pathComponents]
    split
    · next hnil =>
      subst hnil
      decide
    · rw [String.toList_ofList]
  rw [pathComponents, hlist, List.splitOn_append_cons_self, List.filter_append, List.map_append, hfirst,
    hlast]
  congr 1
  by_cases hempty : name = ""
  · simp [hempty]
  · have hnonempty : name.toList ≠ [] := by
      simpa using hempty
    simp [hempty, hnonempty]

namespace VirtualFileSystem

/-- A path names the node at the end of the walk along its components. -/
theorem lookupPath_ok_iff {v : VirtualFileSystem} {path : String} {node : VFSNode} :
    v.lookupPath path = .ok node ↔
      ∃ k, v.walk v.rootInode (pathComponents path) = .ok k ∧ v.lookup k = some node := by
  rw [lookupPath]
  split
  · next hroot =>
    have hcomponents : pathComponents path = [] := by
      rcases hroot with hempty | rfl
      · rw [String.isEmpty_iff.1 hempty]
        decide
      · decide
    rw [hcomponents]
    cases hfound : v.lookup v.rootInode with
    | none => simp [walk, hfound]
    | some root => simp [walk, hfound]
  · cases hwalk : v.walk v.rootInode (pathComponents path) with
    | error e => simp
    | ok k =>
      cases hfound : v.lookup k with
      | none => simp [hfound]
      | some n => simp [hfound]

/-- A way goes on where its first part has led. -/
theorem walk_append {v : VirtualFileSystem} {i k : Nat} {xs ys : List String} :
    v.walk i (xs ++ ys) = .ok k ↔ ∃ m, v.walk i xs = .ok m ∧ v.walk m ys = .ok k := by
  induction xs generalizing i with
  | nil => simp [walk]
  | cons x xs ih =>
    simp only [List.cons_append, walk]
    split
    · simp
    · split
      · exact ih
      · simp

/-- Nodes stay, and so do their entries. -/
structure Extends (v v' : VirtualFileSystem) : Prop where
  root_eq : v'.rootInode = v.rootInode
  node : ∀ i n, v.lookup i = some n → ∃ n', v'.lookup i = some n' ∧
    ∀ name child, n.getChild name = some child → n'.getChild name = some child

/-- A way in a tree is one in a larger tree. -/
theorem Extends.walk {v v' : VirtualFileSystem} (h : Extends v v') {i k : Nat} {components : List String}
    (hwalk : v.walk i components = .ok k) : v'.walk i components = .ok k := by
  induction components generalizing i with
  | nil => exact hwalk
  | cons component rest ih =>
    rw [VirtualFileSystem.walk] at hwalk
    split at hwalk
    · cases hwalk
    · next n hn =>
      split at hwalk
      · next child hchild =>
        obtain ⟨n', hn', hentries⟩ := h.node i n hn
        rw [VirtualFileSystem.walk, hn']
        simp only [hentries component child hchild]
        exact ih hwalk
      · cases hwalk

/-- The next number is not in use. -/
theorem Sprouted.ne_nextInode {v : VirtualFileSystem} (h : Sprouted v) {i : Nat} {n : VFSNode}
    (hn : v.lookup i = some n) : i ≠ v.nextInode := by
  rintro rfl
  exact Nat.lt_irrefl _ (h.node _ n hn).2

/-- A node with a new number leaves the others in their places. -/
theorem Sprouted.lookup_entered {v : VirtualFileSystem} (h : Sprouted v) {i : Nat} {n : VFSNode}
    (hn : v.lookup i = some n) (node : VFSNode) :
    (v.nodes.insert v.nextInode node).lookup i = some n := by
  rw [HashMap.lookup_insert_eq, if_neg (h.ne_nextInode hn)]
  exact hn

/-- In a directory without this name a file is made, and it is found there. -/
theorem createFile_ok {v : VirtualFileSystem} (h : Sprouted v) {d : Nat} {parent : VFSNode}
    (hparent : v.lookup d = some parent) (hdir : parent.isDirectory = true) {name : String}
    (hnew : parent.getChild name = none) (owner : Pid) :
    ∃ v', v.createFile d name owner = (.ok v.nextInode, v') ∧ Extends v v' ∧
      v'.walk d [name] = .ok v.nextInode ∧
      v'.lookup v.nextInode = some (VFSNode.new v.nextInode name .file (some d) owner) := by
  have hentered := h.lookup_entered hparent (VFSNode.new v.nextInode name .file (some d) owner)
  have hfree : parent.children.lookup name = none := hnew
  have hcreated : v.createFile d name owner = (.ok v.nextInode, ({ v with
      nodes := v.nodes.insert v.nextInode (VFSNode.new v.nextInode name .file (some d) owner)
      nextInode := v.nextInode + 1 } : VirtualFileSystem).setNode d
        { parent with children := parent.children.insert name v.nextInode }) := by
    simp [createFile, createNode, lookup, hentered, VFSNode.addChild, hdir, hfree]
  refine ⟨_, hcreated, ⟨rfl, ?_⟩, ?_, ?_⟩
  · intro i n hn
    rw [lookup_setNode]
    by_cases hi : i = d
    · rw [if_pos hi]
      refine ⟨_, rfl, ?_⟩
      intro name' child hchild
      rw [hi] at hn
      cases hparent.symm.trans hn
      -- an entry that is there has another name than the new one
      have hother : name' ≠ name := by
        rintro rfl
        exact absurd (hnew.symm.trans hchild) (by simp)
      show (parent.children.insert name v.nextInode).lookup name' = some child
      rw [HashMap.lookup_insert_eq, if_neg hother]
      exact hchild
    · rw [if_neg hi]
      exact ⟨n, h.lookup_entered hn _, fun _ _ hchild => hchild⟩
  · have hchild : VFSNode.getChild { parent with children := parent.children.insert name v.nextInode } name =
        some v.nextInode := by
      show (parent.children.insert name v.nextInode).lookup name = _
      rw [HashMap.lookup_insert_eq, if_pos rfl]
    simp only [walk, lookup_setNode, if_true, hchild]
  · rw [lookup_setNode, if_neg (h.ne_nextInode hparent).symm]
    show (v.nodes.insert v.nextInode _).lookup v.nextInode = _
    rw [HashMap.lookup_insert_eq, if_pos rfl]

/-- An open of the path ends at a file: the path names one, or it names nothing, may be created and lies
in a directory. -/
def Openable (v : VirtualFileSystem) (path : String) (flags : OpenFlags) : Prop :=
  match v.lookupPath path with
  | .ok node => node.isFile = true
  | .error _ => flags.create = true ∧ ∃ parentPath name parent, splitLast path = some (parentPath, name) ∧
      v.lookupPath parentPath = .ok parent ∧ parent.isDirectory = true

/-- A path that names nothing, in a directory: a file is made and found under the path. -/
theorem openNode_creates {v : VirtualFileSystem} (h : Sprouted v) {path parentPath name : String}
    {parent : VFSNode} (hmissing : ∀ node, v.lookupPath path ≠ .ok node)
    (hsplit : splitLast path = some (parentPath, name)) (hparent : v.lookupPath parentPath = .ok parent)
    (hdir : parent.isDirectory = true) (owner : Pid) :
    ∃ node v', v.createFile parent.inode name owner = (.ok v.nextInode, v') ∧
      v'.lookupPath path = .ok node ∧ node.isFile = true := by
  obtain ⟨d, hwalk, hd⟩ := lookupPath_ok_iff.1 hparent
  have hcomponents := pathComponents_splitLast hsplit
  -- without a name the path would lead to the directory itself
  have hname : name ≠ "" := by
    rintro rfl
    apply hmissing parent
    rw [lookupPath_ok_iff, hcomponents]
    simpa using ⟨d, hwalk, hd⟩
  rw [if_neg hname] at hcomponents
  have hnew : parent.getChild name = none := by
    cases hchild : parent.getChild name with
    | none => rfl
    | some i =>
      obtain ⟨-, node, hnode, -⟩ := h.entries d parent name i hd hchild
      refine absurd ?_ (hmissing node)
      rw [lookupPath_ok_iff, hcomponents]
      refine ⟨i, walk_append.2 ⟨d, hwalk, ?_⟩, hnode⟩
      simp only [walk, hd, hchild]
  rw [(h.node d parent hd).1]
  obtain ⟨v', hcreated, hextends, hlast, hfound⟩ := createFile_ok h hd hdir hnew owner
  refine ⟨VFSNode.new v.nextInode name .file (some d) owner, v', hcreated, ?_, rfl⟩
  rw [lookupPath_ok_iff, hcomponents, hextends.root_eq]
  exact ⟨v.nextInode, walk_append.2 ⟨d, hextends.walk hwalk, hlast⟩, hfound⟩

/-- A file cannot be made where there is no directory. -/
theorem createFile_refused {v : VirtualFileSystem} (h : Sprouted v) {d : Nat} {parent : VFSNode}
    (hparent : v.lookup d = some parent) (hdir : parent.isDirectory = false) (name : String) (owner : Pid) :
    ∃ e v', v.createFile d name owner = (.error e, v') := by
  have hentered := h.lookup_entered hparent (VFSNode.new v.nextInode name .file (some d) owner)
  simp [createFile, createNode, lookup, hentered, VFSNode.addChild, hdir]

/-- The open finds or makes a file exactly when the path is openable. -/
theorem openNode_file_iff {v : VirtualFileSystem} (h : Sprouted v) (pid : Pid) (path : String)
    (flags : OpenFlags) :
    (∃ node v', FileService.openNode v pid path flags = (.ok node, v') ∧ node.isFile = true) ↔
      Openable v path flags := by
  rw [Openable, FileService.openNode]
  cases hpath : v.lookupPath path with
  | ok node => simp
  | error e =>
    have hmissing : ∀ node, v.lookupPath path ≠ .ok node := by simp [hpath]
    by_cases hcreate : flags.create = true
    · simp only [hcreate, Bool.true_eq_false, if_false, true_and]
      cases hsplit : splitLast path with
      | none => simp
      | some split =>
        obtain ⟨parentPath, name⟩ := split
        simp only
        cases hparent : v.lookupPath parentPath with
        | error e' => simp [hparent]
        | ok parent =>
          cases hdir : parent.isDirectory with
          -- the parent takes the name, because the path was not there
          | true =>
            obtain ⟨node, v', hcreated, hfound, hfile⟩ :=
              openNode_creates h hmissing hsplit hparent hdir pid
            simp only [hcreated, hfound]
            exact iff_of_true ⟨node, v', rfl, hfile⟩ ⟨parentPath, name, parent, rfl, hparent, hdir⟩
          -- the parent is a file and refuses
          | false =>
            obtain ⟨d, -, hd⟩ := lookupPath_ok_iff.1 hparent
            have hinode := (h.node d parent hd).1
            obtain ⟨e', v', hrefused⟩ := createFile_refused h hd hdir name pid
            rw [← hinode] at hrefused
            simp [hrefused, hparent, hdir]
    · simp [hcreate]

end VirtualFileSystem

/-! ## Requests -/

/-- The requests that are answered once: an open of a path that can be opened, a read or a write through a
descriptor that does not stop the thread, and all the others. -/
def FileOnce (s : FileService) : FileRequest → Prop
  | .open path flags => Openable s.vfs path flags
  | .read fd _ _ size => ∃ i f, s.fileOf 0 fd = some (i, f) ∧ f.ReadGoesOn size
  | .write fd _ _ size => size ≤ isizeMax ∧ ∃ i f, s.fileOf 0 fd = some (i, f) ∧ f.WriteGoesOn size
  | .writeData fd data => ∃ i f, s.fileOf 0 fd = some (i, f) ∧ f.WriteGoesOn data.length
  | _ => True

/-- A file is there, and some operation on it goes on. -/
theorem goesOn_iff {o : Option (Nat × File)} {op : File → Bool} {GoesOn : File → Prop}
    (hop : ∀ f, op f = false ↔ GoesOn f) :
    (o.any fun found => op found.2) = false ∧ o.isSome = true ↔ ∃ i f, o = some (i, f) ∧ GoesOn f := by
  cases o with
  | none => simp
  | some found =>
    obtain ⟨i, f⟩ := found
    simp [hop f]

/-- A read does not panic exactly when it goes on, -/
theorem readWords_isNone_false_iff (f : File) (count : Nat) :
    (f.readWords count).isNone = false ↔ f.ReadGoesOn count := by
  rw [← f.readWords_isSome_iff, ← Option.not_isSome, Bool.not_eq_false']

/-- and so for a write. -/
theorem writeWords_isNone_false_iff (f : File) (data : List UInt8) :
    (f.writeWords data).isNone = false ↔ f.WriteGoesOn data.length := by
  rw [← f.writeWords_isSome_iff, ← Option.not_isSome, Bool.not_eq_false']

/-- An open is answered once when it can be made, as its errors are answered twice. -/
theorem once_open_iff {s : FileService} (h : Sprouted s.vfs) (path : String) (flags : OpenFlags) :
    (s.handleOpenWithResponse 0 path flags).Once ↔ Openable s.vfs path flags := by
  rw [← openNode_file_iff h 0, FileService.handleOpenWithResponse]
  rcases FileService.openNode s.vfs 0 path flags with ⟨⟨e, answer⟩ | node, v⟩
  · simp [Handled.Once]
  · cases hfile : node.isFile with
    | false => simp [Handled.Once, hfile]
    | true =>
      rcases halloc : s.fdManager.allocate 0 node.inode 0 with ⟨e | fd, manager⟩
      · simp [Handled.Once, hfile, halloc]
      · simp [Handled.Once, hfile, halloc]

/-- A read is answered once for a descriptor that has a file, -/
theorem once_read_iff (s : FileService) (fd : UInt32) (count : Nat) :
    (s.handleReadWithResponse 0 fd count).Once ↔ (s.fileOf 0 fd).isSome = true := by
  rw [FileService.handleReadWithResponse]
  cases s.fileOf 0 fd with
  | none => simp [Handled.Once]
  | some file =>
    simp only [Option.isSome_some, iff_true]
    rcases file.2.read count with ⟨e | data, f⟩
    · rfl
    · rfl

/-- and so is a write. -/
theorem once_write_iff (s : FileService) (fd : UInt32) (data : List UInt8) :
    (s.handleWriteWithResponse 0 fd data).Once ↔ (s.fileOf 0 fd).isSome = true := by
  rw [FileService.handleWriteWithResponse]
  cases s.fileOf 0 fd with
  | none => simp [Handled.Once]
  | some file =>
    simp only [Option.isSome_some, iff_true]
    rcases file.2.write data with ⟨e | written, f⟩
    · rfl
    · rfl

/-- A close is always answered once. -/
theorem once_close (s : FileService) (fd : UInt32) : (s.handleCloseWithResponse 0 fd).Once := by
  rw [FileService.handleCloseWithResponse]
  cases ((s.syncOnClose 0 fd).handleClose 0 fd).result with
  | error e => rfl
  | ok u => rfl

/-- The handler of a new directory sends nothing on its own, -/
theorem sent_handleMkdir (s : FileService) (path : String) : (s.handleMkdir 0 path).sent = [] := by
  simp only [FileService.handleMkdir]
  split
  · rfl
  · split
    · rfl
    · split
      · rfl
      · split
        · rfl
        · rfl

/-- nor does that of a deletion, -/
theorem sent_handleDelete (s : FileService) (path : String) : (s.handleDelete path).sent = [] := by
  simp only [FileService.handleDelete]
  split
  · rfl
  · rfl

/-- of a directory too, -/
theorem sent_handleRmdir (s : FileService) (path : String) : (s.handleRmdir path).sent = [] := by
  simp only [FileService.handleRmdir]
  split
  · rfl
  · split
    · rfl
    · split
      · rfl
      · rfl

/-- that of the state of a file, -/
theorem sent_handleStat (s : FileService) (path : String) : (s.handleStat path).sent = [] := by
  simp only [FileService.handleStat]
  split
  · rfl
  · rfl

/-- or that of a listing which nobody waits for. -/
theorem sent_handleListdir (s : FileService) (path : String) : (s.handleListdir path).sent = [] := by
  simp only [FileService.handleListdir]
  split
  · rfl
  · rfl

/-- A listing is answered once, its errors included. -/
theorem once_listdir (s : FileService) (path : String) : (s.handleListdirWithResponse path).Once := by
  simp only [FileService.handleListdirWithResponse]
  split
  · rfl
  · rfl

/-- Unless the thread is stopped, a handler leaves exactly one answer for exactly these requests. -/
theorem once_unless_stopped_iff {s : FileService} (h : Sprouted s.vfs) (ord : HashOrder) (req : FileRequest) :
    s.panics req = false ∧ (s.handleFileRequestWithResponse ord req).Once ↔ FileOnce s req := by
  have hgoes : ∀ {once : Prop} {P : Prop}, (once ↔ P) → (false = false ∧ once ↔ P) := fun hiff =>
    (and_iff_right rfl).trans hiff
  cases req with
  | «open» path flags => exact hgoes (once_open_iff h path flags)
  | read fd offset buf size =>
    exact (and_congr_right' (once_read_iff s fd size)).trans
      (goesOn_iff fun f => readWords_isNone_false_iff f size)
  | write fd offset buf size =>
    have hbuffer : (zeroed size).isNone = false ↔ size ≤ isizeMax := by
      rw [← Bool.not_eq_true, zeroed_isNone_iff, Nat.not_lt]
    have hwritten : ∀ f : File, (f.writeWords (List.replicate size 0)).isNone = false ↔ f.WriteGoesOn size := by
      intro f
      rw [writeWords_isNone_false_iff, List.length_replicate]
    rw [FileService.panics, Bool.or_eq_false_iff, and_assoc, hbuffer]
    exact and_congr_right' ((and_congr_right' (once_write_iff s fd _)).trans (goesOn_iff hwritten))
  | writeData fd data =>
    exact (and_congr_right' (once_write_iff s fd data)).trans
      (goesOn_iff fun f => writeWords_isNone_false_iff f data)
  | close fd => exact hgoes (iff_of_true (once_close s fd) trivial)
  | unlink path => exact hgoes (iff_of_true (once_respondVoid (sent_handleDelete s path)) trivial)
  | stat path => exact hgoes (iff_of_true (once_respondVoid (sent_handleStat s path)) trivial)
  | createDirectory path => exact hgoes (iff_of_true (once_respondVoid (sent_handleMkdir s path)) trivial)
  | removeDirectory path => exact hgoes (iff_of_true (once_respondVoid (sent_handleRmdir s path)) trivial)
  | openDirectory path => exact hgoes (iff_of_true (once_respondVoid (sent_handleListdir s path)) trivial)
  | listDir path => exact hgoes (iff_of_true (once_listdir s path) trivial)
  | cloneFds fromPid toPid =>
    exact hgoes (iff_of_true (once_respondVoid (h := s.handleCloneFds ord fromPid toPid) rfl) trivial)
  | diskInfo => exact hgoes (iff_of_true rfl trivial)
  | readDirectory dirFd => exact hgoes (iff_of_true rfl trivial)
  | closeDirectory dirFd => exact hgoes (iff_of_true rfl trivial)
  | other => exact hgoes (iff_of_true rfl trivial)

/-- A request is answered exactly once, with its own identifier, exactly when it is one of these. -/
theorem file_answeredOnce_iff {s : FileService} (h : Sprouted s.vfs) (ord : HashOrder) (id : RequestId)
    (req : FileRequest) : AnsweredOnce id (s.responses ord id req) ↔ FileOnce s req := by
  rw [← once_unless_stopped_iff h ord]
  cases hpanics : s.panics req with
  | true =>
    rw [responses_of_panics hpanics]
    refine iff_of_false ?_ fun hboth => Bool.noConfusion hboth.1
    rintro ⟨response, hnone, -⟩
    cases hnone
  | false =>
    rw [FileService.responses, FileService.serve, hpanics, if_neg Bool.false_ne_true, answeredOnce_map,
      envelope_once_iff]
    exact (and_iff_right rfl).symm

end GenshinOs.Files
