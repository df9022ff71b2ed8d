import GenshinOs.Files.Service

/-!
# What a request to the file service can do

Every request is a sequence of a few operations on the tables: the descriptors change, the tree changes,
a cursor moves, a file comes into memory, a write goes to disk, or a dirty file does. `FileStep` lists
them and `take_steps` takes every request apart; an invariant of the service is proved for these
operations and not for the handlers. The operation that brings a write to disk may be given a guard.
-/

set_option autoImplicit false

namespace GenshinOs.Files

open GenshinOs.Lib GenshinOs.Hardware

/-! ## The tree -/

namespace VirtualFileSystem

/-- Same kind of node in the same place with the same bytes. -/
structure SameStore (n n' : VFSNode) : Prop where
  inode_eq : n'.inode = n.inode
  type_eq : n'.nodeType = n.nodeType
  size_eq : n'.size = n.size
  blocks_eq : n'.blocks = n.blocks
  name_eq : n'.name = n.name
  parent_eq : n'.parent = n.parent

/-- Nothing changes. -/
theorem SameStore.refl (n : VFSNode) : SameStore n n := ⟨rfl, rfl, rfl, rfl, rfl, rfl⟩

/-- Two such changes. -/
theorem SameStore.trans {n n' n'' : VFSNode} (h : SameStore n n') (h' : SameStore n' n'') :
    SameStore n n'' :=
  ⟨h'.inode_eq.trans h.inode_eq, h'.type_eq.trans h.type_eq, h'.size_eq.trans h.size_eq,
    h'.blocks_eq.trans h.blocks_eq, h'.name_eq.trans h.name_eq, h'.parent_eq.trans h.parent_eq⟩

/-- A node that a tree did not have before: numbered on from `first`, without bytes. -/
structure Fresh (first next i : Nat) (n : VFSNode) : Prop where
  low : first ≤ i
  high : i < next
  inode_eq : n.inode = i
  blocks_eq : n.blocks = []

/-- Nodes may have come and gone and children may have changed, nothing else. -/
structure Regrown (v v' : VirtualFileSystem) : Prop where
  root_eq : v'.rootInode = v.rootInode
  next_le : v.nextInode ≤ v'.nextInode
  node : ∀ i n', v'.lookup i = some n' →
    (∃ n, v.lookup i = some n ∧ SameStore n n') ∨ Fresh v.nextInode v'.nextInode i n'

/-- Nothing changes. -/
theorem Regrown.refl (v : VirtualFileSystem) : Regrown v v :=
  ⟨rfl, Nat.le_refl _, fun _ n' h => Or.inl ⟨n', h, SameStore.refl n'⟩⟩

/-- Two such changes. -/
theorem Regrown.trans {v v' v'' : VirtualFileSystem} (h : Regrown v v') (h' : Regrown v' v'') :
    Regrown v v'' := by
  refine ⟨h'.root_eq.trans h.root_eq, Nat.le_trans h.next_le h'.next_le, ?_⟩
  intro i n'' hn''
  rcases h'.node i n'' hn'' with ⟨n', hn', hsame'⟩ | hfresh
  · rcases h.node i n' hn' with ⟨n, hn, hsame⟩ | hfresh
    · exact Or.inl ⟨n, hn, hsame.trans hsame'⟩
    · exact Or.inr ⟨hfresh.low, Nat.lt_of_lt_of_le hfresh.high h'.next_le,
        hsame'.inode_eq.trans hfresh.inode_eq, hsame'.blocks_eq.trans hfresh.blocks_eq⟩
  · exact Or.inr ⟨Nat.le_trans h.next_le hfresh.low, hfresh.high, hfresh.inode_eq, hfresh.blocks_eq⟩

/-- A node that is put back is found under its number. -/
theorem lookup_setNode (v : VirtualFileSystem) (i j : Nat) (n : VFSNode) :
    (v.setNode i n).lookup j = if j = i then some n else v.lookup j :=
  HashMap.lookup_insert_eq v.nodes i j n

/-- A node is put in the place of one with the same bytes. -/
theorem regrown_setNode {v : VirtualFileSystem} {i : Nat} {n n' : VFSNode} (h : v.lookup i = some n)
    (hsame : SameStore n n') : Regrown v (v.setNode i n') := by
  refine ⟨rfl, Nat.le_refl _, ?_⟩
  intro j m hm
  rw [lookup_setNode] at hm
  split at hm
  · next hj =>
    subst hj
    cases hm
    exact Or.inl ⟨n, h, hsame⟩
  · exact Or.inl ⟨m, hm, SameStore.refl m⟩

/-- A new entry leaves size and run of the directory, -/
theorem addChild_ok {n n' : VFSNode} {name : String} {inode : Nat} (h : n.addChild name inode = .ok n') :
    SameStore n n' := by
  simp only [VFSNode.addChild] at h
  split at h
  · cases h
  · split at h
    · cases h
    · cases h
      exact ⟨rfl, rfl, rfl, rfl, rfl, rfl⟩

/-- and so does one less. -/
theorem removeChild_ok {n n' : VFSNode} {name : String} (h : n.removeChild name = .ok n') :
    SameStore n n' := by
  simp only [VFSNode.removeChild] at h
  split at h
  · cases h
  · split at h
    · cases h
    · cases h
      exact ⟨rfl, rfl, rfl, rfl, rfl, rfl⟩

/-- A new node has no run. -/
theorem regrown_createNode (v : VirtualFileSystem) (nodeType : NodeType) (parent : Nat) (name : String)
    (owner : Pid) : Regrown v (v.createNode nodeType parent name owner).2 := by
  have hentered : Regrown v { v with
      nodes := v.nodes.insert v.nextInode
        (VFSNode.new v.nextInode name nodeType (some parent) owner)
      nextInode := v.nextInode + 1 } := by
    refine ⟨rfl, Nat.le_succ _, ?_⟩
    intro i n hn
    simp only [lookup, HashMap.lookup_insert_eq] at hn
    split at hn
    · next hi =>
      subst hi
      cases hn
      exact Or.inr ⟨Nat.le_refl _, Nat.lt_succ_self _, rfl, rfl⟩
    · exact Or.inl ⟨n, hn, SameStore.refl n⟩
  simp only [createNode]
  split
  · exact hentered
  · next parentNode hparent =>
    split
    · exact hentered
    · next hadded => exact hentered.trans (regrown_setNode hparent (addChild_ok hadded))

/-- To take an entry from its directory leaves all runs. -/
theorem regrown_unlinkFrom (v : VirtualFileSystem) (parent : Option Nat) (name : String) :
    Regrown v (v.unlinkFrom parent name) := by
  simp only [unlinkFrom]
  split
  · exact Regrown.refl v
  · split
    · exact Regrown.refl v
    · next hparent =>
      split
      · exact Regrown.refl v
      · next hremoved => exact regrown_setNode hparent (removeChild_ok hremoved)

/-- A node that is deleted is gone, the others keep their runs. -/
theorem regrown_delete (v : VirtualFileSystem) (inode : Nat) : Regrown v (v.delete inode).2 := by
  simp only [delete]
  split
  · exact Regrown.refl v
  · next node hnode =>
    split
    · exact Regrown.refl v
    · have hunlinked := v.regrown_unlinkFrom node.parent node.name
      split
      · refine hunlinked.trans ⟨rfl, Nat.le_refl _, ?_⟩
        intro i n hn
        simp only [lookup, HashMap.lookup_erase_eq] at hn
        split at hn
        · cases hn
        · exact Or.inl ⟨n, hn, SameStore.refl n⟩
      · -- the node is only marked; its old entry is that of the tree before
        refine ⟨hunlinked.root_eq, hunlinked.next_le, ?_⟩
        intro i n hn
        rw [lookup_setNode] at hn
        split at hn
        · next hi =>
          subst hi
          cases hn
          exact Or.inl ⟨node, hnode, ⟨rfl, rfl, rfl, rfl, rfl, rfl⟩⟩
        · exact hunlinked.node i n hn

/-- One change of the tree. -/
inductive TreeStep : VirtualFileSystem → VirtualFileSystem → Prop
  | createFile (v : VirtualFileSystem) (parent : Nat) (name : String) (owner : Pid) :
      TreeStep v (v.createFile parent name owner).2
  | createDirectory (v : VirtualFileSystem) (parent : Nat) (name : String) (owner : Pid) :
      TreeStep v (v.createDirectory parent name owner).2
  | delete (v : VirtualFileSystem) (inode : Nat) : TreeStep v (v.delete inode).2

/-- Any number of changes. -/
abbrev TreeSteps : VirtualFileSystem → VirtualFileSystem → Prop := Relation.ReflTransGen TreeStep

/-- Every step of the tree keeps the runs of the nodes that stay, -/
theorem TreeStep.regrown {v v' : VirtualFileSystem} (h : TreeStep v v') : Regrown v v' := by
  cases h with
  | createFile parent name owner => exact v.regrown_createNode .file parent name owner
  | createDirectory parent name owner => exact v.regrown_createNode .directory parent name owner
  | delete inode => exact v.regrown_delete inode

/-- and so does every list of steps. -/
theorem TreeSteps.regrown {v v' : VirtualFileSystem} (h : TreeSteps v v') : Regrown v v' := by
  induction h with
  | refl => exact Regrown.refl v
  | tail _ hlast ih => exact ih.trans hlast.regrown

end VirtualFileSystem

open VirtualFileSystem

/-- An open is at most one step of the tree, -/
theorem treeSteps_openNode (v : VirtualFileSystem) (pid : Pid) (path : String) (flags : OpenFlags) :
    TreeSteps v (FileService.openNode v pid path flags).2 := by
  simp only [FileService.openNode]
  split
  · exact Relation.ReflTransGen.refl
  · split
    · exact Relation.ReflTransGen.refl
    · split
      · exact Relation.ReflTransGen.refl
      · next parentPath name _ =>
        split
        · exact Relation.ReflTransGen.refl
        · next parent _ =>
          have hcreated := TreeStep.createFile v parent.inode name pid
          split
          · next hresult =>
            rw [hresult] at hcreated
            exact Relation.ReflTransGen.single hcreated
          · next hresult =>
            rw [hresult] at hcreated
            split
            · exact Relation.ReflTransGen.single hcreated
            · exact Relation.ReflTransGen.single hcreated

/-- and so is the import of a file. -/
theorem treeSteps_importNode (v : VirtualFileSystem) (fname : String) :
    TreeSteps v (FileService.importNode v fname).2 := by
  simp only [FileService.importNode]
  split
  · exact Relation.ReflTransGen.refl
  · split
    · exact Relation.ReflTransGen.refl
    · next parent _ =>
      have hcreated := TreeStep.createFile v parent.inode fname 0
      split
      · next hresult =>
        rw [hresult] at hcreated
        exact Relation.ReflTransGen.single hcreated
      · next hresult =>
        rw [hresult] at hcreated
        split
        · exact Relation.ReflTransGen.single hcreated
        · exact Relation.ReflTransGen.single hcreated

/-- A path leads to a node of the tree. -/
theorem lookupPath_ok {v : VirtualFileSystem} {path : String} {node : VFSNode}
    (h : v.lookupPath path = .ok node) : ∃ k, v.lookup k = some node := by
  simp only [lookupPath] at h
  split at h
  · split at h
    · next hroot =>
      cases h
      exact ⟨_, hroot⟩
    · cases h
  · split at h
    · cases h
    · split at h
      · next hfound =>
        cases h
        exact ⟨_, hfound⟩
      · cases h

/-- The node that an open finds is in the tree. -/
theorem openNode_ok {v v' : VirtualFileSystem} {pid : Pid} {path : String} {flags : OpenFlags}
    {node : VFSNode} (h : FileService.openNode v pid path flags = (.ok node, v')) :
    ∃ k, v'.lookup k = some node := by
  simp only [FileService.openNode] at h
  split at h
  · next hfound =>
    cases h
    exact lookupPath_ok hfound
  · split at h
    · cases h
    · split at h
      · cases h
      · split at h
        · cases h
        · split at h
          · cases h
          · split at h
            · cases h
            · next hfound =>
              cases h
              exact lookupPath_ok hfound

/-! ## The descriptors -/

namespace FileDescriptorManager

/-- Numbers start at 3, so that somebody has one only when there are more than three. -/
def Issued (m : FileDescriptorManager) : Prop :=
  ∀ pid t, m.processTables.lookup pid = some t →
    t.maxFds = m.maxFdsPerProcess ∧ 3 ≤ t.nextFd ∧
      ∀ fd entry, t.get fd = some entry → 3 < m.maxFdsPerProcess

/-- The same for one table. -/
def IssuedTable (limit : Nat) (t : FileTable) : Prop :=
  t.maxFds = limit ∧ 3 ≤ t.nextFd ∧ ∀ fd entry, t.get fd = some entry → 3 < limit

/-- At first no descriptor has been issued. -/
theorem issued_new (limit : Nat) : Issued (new limit) := by
  intro pid t h
  cases h

/-- The table of a process, which may be a new one. -/
theorem issuedTable_getTable {m : FileDescriptorManager} (h : Issued m) (pid : Pid) :
    IssuedTable m.maxFdsPerProcess (m.getTable pid) := by
  rw [getTable]
  cases htable : m.processTables.lookup pid with
  | none => exact ⟨rfl, Nat.le_refl 3, fun fd entry hget => by cases hget⟩
  | some t => exact h pid t htable

/-- A table is put back. -/
theorem issued_setTable {m : FileDescriptorManager} (h : Issued m) (pid : Pid) {t : FileTable}
    (ht : IssuedTable m.maxFdsPerProcess t) : Issued (m.setTable pid t) := by
  intro pid' t' ht'
  simp only [setTable, HashMap.lookup_insert_eq] at ht'
  split at ht'
  · cases ht'
    exact ht
  · exact h pid' t' ht'

/-- The next number of a table is issued, -/
theorem issuedTable_allocate {limit : Nat} {t : FileTable} (h : IssuedTable limit t) (owner : Pid)
    (file flags : Nat) : IssuedTable limit (t.allocate owner file flags).2 := by
  obtain ⟨hmax, hnext, hget⟩ := h
  simp only [FileTable.allocate]
  split
  · exact ⟨hmax, hnext, hget⟩
  · refine ⟨hmax, Nat.le_succ_of_le hnext, ?_⟩
    intro _ _ _
    omega

/-- and one is given back. -/
theorem issuedTable_close {limit : Nat} {t : FileTable} (h : IssuedTable limit t) (fd : Nat) :
    IssuedTable limit (t.close fd).2 := by
  obtain ⟨hmax, hnext, hget⟩ := h
  simp only [FileTable.close]
  split
  · exact ⟨hmax, hnext, hget⟩
  · refine ⟨hmax, hnext, ?_⟩
    intro fd' entry hentry
    simp only [FileTable.get, HashMap.lookup_erase_eq] at hentry
    split at hentry
    · cases hentry
    · exact hget fd' entry hentry

/-- A descriptor is issued, -/
theorem issued_allocate {m : FileDescriptorManager} (h : Issued m) (pid : Pid) (file flags : Nat) :
    Issued (m.allocate pid file flags).2 :=
  issued_setTable h pid (issuedTable_allocate (issuedTable_getTable h pid) pid file flags)

/-- and one is closed. -/
theorem issued_close {m : FileDescriptorManager} (h : Issued m) (pid : Pid) (fd : Nat) :
    Issued (m.close pid fd).2 := by
  simp only [close]
  split
  · exact h
  · next t ht => exact issued_setTable h pid (issuedTable_close (h pid t ht) fd)

/-- A descriptor shows that there are enough numbers. -/
theorem Issued.three_lt {m : FileDescriptorManager} (h : Issued m) {pid : Pid} {fd : Nat}
    {entry : OpenFile} (hget : m.get pid fd = some entry) : 3 < m.maxFdsPerProcess := by
  simp only [get] at hget
  obtain ⟨t, ht, hentry⟩ := Option.bind_eq_some_iff.1 hget
  exact (h pid t ht).2.2 fd entry hentry

/-- A descriptor is copied, -/
theorem issued_cloneFd {m : FileDescriptorManager} (h : Issued m) (fromPid toPid : Pid) (fd : Nat) :
    Issued (cloneFd fromPid toPid m fd) := by
  simp only [cloneFd]
  split
  · exact h
  · next source hsource =>
    obtain ⟨hmax, hnext, -⟩ := issuedTable_getTable h toPid
    apply issued_setTable h toPid
    refine ⟨hmax, ?_, fun _ _ _ => h.three_lt hsource⟩
    show 3 ≤ if _ ≤ fd then fd + 1 else _
    split
    · next hle => exact Nat.le_succ_of_le (Nat.le_trans hnext hle)
    · exact hnext

/-- under the same bound, -/
theorem max_cloneFd (m : FileDescriptorManager) (fromPid toPid : Pid) (fd : Nat) :
    (cloneFd fromPid toPid m fd).maxFdsPerProcess = m.maxFdsPerProcess := by
  simp only [cloneFd]
  split
  · rfl
  · rfl

/-- and so are all of a process. -/
theorem issued_cloneFds {m : FileDescriptorManager} (h : Issued m) (ord : HashOrder)
    (fromPid toPid : Pid) : Issued (m.cloneFds ord fromPid toPid) := by
  have hensured := issued_setTable h toPid (issuedTable_getTable h toPid)
  simp only [cloneFds]
  split
  · exact hensured
  · exact List.foldlRecOn _ _ hensured fun m hm fd _ => issued_cloneFd hm fromPid toPid fd

/-- A close keeps the bound, -/
theorem max_close (m : FileDescriptorManager) (pid : Pid) (fd : Nat) :
    (m.close pid fd).2.maxFdsPerProcess = m.maxFdsPerProcess := by
  simp only [close]
  split
  · rfl
  · rfl

/-- and so do copies. -/
theorem max_cloneFds (m : FileDescriptorManager) (ord : HashOrder) (fromPid toPid : Pid) :
    (m.cloneFds ord fromPid toPid).maxFdsPerProcess = m.maxFdsPerProcess := by
  simp only [cloneFds]
  split
  · rfl
  · next t _ =>
    apply List.foldlRecOn (motive := fun m' : FileDescriptorManager =>
      m'.maxFdsPerProcess = m.maxFdsPerProcess)
    · rfl
    · intro m' hm' fd _
      exact (max_cloneFd m' fromPid toPid fd).trans hm'

end FileDescriptorManager

/-! ## The operations -/

/-- Only the cursor of a file changed. -/
structure SameBytes (f f' : File) : Prop where
  inode_eq : f'.inode = f.inode
  data_eq : f'.data = f.data
  dirty_eq : f'.dirty = f.dirty
  start_eq : f'.startSector = f.startSector
  count_eq : f'.sectorCount = f.sectorCount

/-- A read moves the cursor only. -/
theorem sameBytes_read (f : File) (count : Nat) : SameBytes f (f.read count).2 := by
  simp only [File.read]
  split
  · exact ⟨rfl, rfl, rfl, rfl, rfl⟩
  · split
    · exact ⟨rfl, rfl, rfl, rfl, rfl⟩
    · exact ⟨rfl, rfl, rfl, rfl, rfl⟩

/-- One operation of the service. Bringing a write to disk is subject to `ok`. -/
inductive FileStep (ok : SectorDisk → File → Prop) : FileService → FileService → Prop
  | descriptors (s : FileService) (m : FileDescriptorManager) :
      (s.fdManager.Issued → m.Issued) → m.maxFdsPerProcess = s.fdManager.maxFdsPerProcess →
      FileStep ok s { s with fdManager := m }
  | tree (s : FileService) (v : VirtualFileSystem) : TreeSteps s.vfs v → FileStep ok s { s with vfs := v }
  | cursor (s : FileService) (i : Nat) (f f' : File) : s.openFiles.lookup i = some f → SameBytes f f' →
      FileStep ok s (s.setFile i f')
  | load (s : FileService) (k : Nat) (n : VFSNode) (path : String) (mode : OpenMode) :
      s.vfs.lookup k = some n → n.isFile = true → s.openFiles.lookup n.inode = none →
      FileStep ok s (s.setFile n.inode (FileService.loadFile s.vfs s.disk n.inode path mode))
  | write (s : FileService) (i : Nat) (f : File) (data : List UInt8) :
      s.openFiles.lookup i = some f → f.mode ≠ .read → ok s.disk (f.write data).2 →
      FileStep ok s (s.persist i (f.write data).2)
  | sync (s : FileService) (i : Nat) (f : File) : s.openFiles.lookup i = some f → f.dirty = true →
      FileStep ok s { s.setFile i (f.syncToDisk s.disk).2.1 with disk := (f.syncToDisk s.disk).2.2 }

/-- Any number of operations. -/
abbrev FileSteps (ok : SectorDisk → File → Prop) : FileService → FileService → Prop :=
  Relation.ReflTransGen (FileStep ok)

/-- The bytes that a request writes, and its descriptor. -/
def written : FileRequest → Option (UInt32 × List UInt8)
  | .write fd _ _ size => some (fd, List.replicate size 0)
  | .writeData fd data => some (fd, data)
  | _ => none

/-- What a request writes to a file meets the guard. -/
def Guarded (ok : SectorDisk → File → Prop) (s : FileService) (req : FileRequest) : Prop :=
  ∀ fd data i f, written req = some (fd, data) → s.fileOf 0 fd = some (i, f) → f.mode ≠ .read →
    ok s.disk (f.write data).2

section Handlers

variable {ok : SectorDisk → File → Prop} (s : FileService)

/-- A descriptor that has an open file. -/
theorem fileOf_some {s : FileService} {pid : Pid} {fd : UInt32} {i : Nat} {f : File}
    (h : s.fileOf pid fd = some (i, f)) :
    (∃ entry, s.fdManager.get pid fd.toNat = some entry) ∧ s.openFiles.lookup i = some f := by
  simp only [FileService.fileOf] at h
  obtain ⟨entry, hentry, hfile⟩ := Option.bind_eq_some_iff.1 h
  obtain ⟨f', hf', heq⟩ := Option.map_eq_some_iff.1 hfile
  cases heq
  exact ⟨⟨entry, hentry⟩, hf'⟩

/-- Steps of the tree are steps of the service. -/
theorem steps_tree {v : VirtualFileSystem} (h : TreeSteps s.vfs v) : FileSteps ok s { s with vfs := v } :=
  Relation.ReflTransGen.single (FileStep.tree s v h)

/-- An open changes the tree, loads the file and issues a descriptor. -/
theorem steps_handleOpen (pid : Pid) (path : String) (flags : OpenFlags) :
    FileSteps ok s (s.handleOpenWithResponse pid path flags).service := by
  have hsteps := treeSteps_openNode s.vfs pid path flags
  simp only [FileService.handleOpenWithResponse]
  split
  · next hopen =>
    rw [hopen] at hsteps
    exact steps_tree s hsteps
  · next node v hopen =>
    rw [hopen] at hsteps
    obtain ⟨k, hnode⟩ := openNode_ok hopen
    split
    · exact steps_tree s hsteps
    · next hfile =>
      -- the file in memory is either there already or loaded
      have hopened : FileStep ok { s with vfs := v } { s with
          vfs := v
          openFiles := s.openFiles.insert node.inode
            (FileService.openedFile { s with vfs := v } node.inode path flags) } := by
        simp only [FileService.openedFile]
        split
        · next f hf => exact FileStep.cursor { s with vfs := v } node.inode f _ hf ⟨rfl, rfl, rfl, rfl, rfl⟩
        · next hf =>
          exact FileStep.load { s with vfs := v } k node path _ hnode (by simpa using hfile) hf
      -- with a descriptor or without one, the manager is that of the allocation
      have hall := fun manager hissued hmax =>
        ((steps_tree s hsteps).tail hopened).tail (FileStep.descriptors _ manager hissued hmax)
      have hissued := fun h => FileDescriptorManager.issued_allocate (m := s.fdManager) h pid node.inode 0
      split
      · next manager halloc =>
        rw [halloc] at hissued
        exact hall manager hissued (congrArg (fun r => r.2.maxFdsPerProcess) halloc).symm
      · next manager halloc =>
        rw [halloc] at hissued
        exact hall manager hissued (congrArg (fun r => r.2.maxFdsPerProcess) halloc).symm

/-- A read changes its file only. -/
theorem steps_handleRead (pid : Pid) (fd : UInt32) (count : Nat) :
    FileSteps ok s (s.handleReadWithResponse pid fd count).service := by
  simp only [FileService.handleReadWithResponse]
  split
  · exact Relation.ReflTransGen.refl
  · next i f hf =>
    have hsame := sameBytes_read f count
    split
    · next hread =>
      rw [hread] at hsame
      exact Relation.ReflTransGen.single (FileStep.cursor s i f _ (fileOf_some hf).2 hsame)
    · next hread =>
      rw [hread] at hsame
      exact Relation.ReflTransGen.single (FileStep.cursor s i f _ (fileOf_some hf).2 hsame)

/-- A write changes its file, and what is on disk. -/
theorem steps_handleWrite (fd : UInt32) (data : List UInt8)
    (hok : ∀ i f, s.fileOf 0 fd = some (i, f) → f.mode ≠ .read → ok s.disk (f.write data).2) :
    FileSteps ok s (s.handleWriteWithResponse 0 fd data).service := by
  simp only [FileService.handleWriteWithResponse]
  split
  · exact Relation.ReflTransGen.refl
  · next i f hf =>
    by_cases hmode : f.mode = .read
    · -- a refused write leaves the file as it was
      have hrefused : f.write data =
          (.error (.permissionDenied "write" "File opened for read only"), f) := by
        rw [File.write, if_pos hmode]
      rw [hrefused]
      exact Relation.ReflTransGen.single
        (FileStep.cursor s i f f (fileOf_some hf).2 ⟨rfl, rfl, rfl, rfl, rfl⟩)
    · have hstep := FileStep.write s i f data (fileOf_some hf).2 hmode (hok i f hf hmode)
      have hwritten : (f.write data).1 = .ok data.length := by
        rw [File.write, if_neg hmode]
      split
      · next hresult =>
        rw [hresult] at hwritten
        cases hwritten
      · next hresult =>
        rw [hresult] at hstep
        exact Relation.ReflTransGen.single hstep

/-- A close changes the descriptors only, -/
theorem steps_handleClose (pid : Pid) (fd : UInt32) : FileSteps ok s (s.handleClose pid fd).service :=
  Relation.ReflTransGen.single (FileStep.descriptors s (s.fdManager.close pid fd.toNat).2
    (fun h => FileDescriptorManager.issued_close h pid fd.toNat)
    (FileDescriptorManager.max_close s.fdManager pid fd.toNat))

/-- after the file has gone to disk. -/
theorem steps_syncOnClose (pid : Pid) (fd : UInt32) : FileSteps ok s (s.syncOnClose pid fd) := by
  simp only [FileService.syncOnClose]
  split
  · exact Relation.ReflTransGen.refl
  · next i f hf =>
    split
    · next hdirty => exact Relation.ReflTransGen.single (FileStep.sync s i f (fileOf_some hf).2 hdirty)
    · exact Relation.ReflTransGen.refl

/-- What a close brings to disk changes neither the tree nor the descriptors. -/
theorem syncOnClose_tables (pid : Pid) (fd : UInt32) :
    (s.syncOnClose pid fd).vfs = s.vfs ∧ (s.syncOnClose pid fd).fdManager = s.fdManager := by
  simp only [FileService.syncOnClose]
  split
  · exact ⟨rfl, rfl⟩
  · split
    · exact ⟨rfl, rfl⟩
    · exact ⟨rfl, rfl⟩

/-- The two together. -/
theorem steps_handleCloseWithResponse (pid : Pid) (fd : UInt32) :
    FileSteps ok s (s.handleCloseWithResponse pid fd).service := by
  have hclosed : FileSteps ok s ((s.syncOnClose pid fd).handleClose pid fd).service :=
    (steps_syncOnClose s pid fd).trans (steps_handleClose _ pid fd)
  simp only [FileService.handleCloseWithResponse]
  split
  · exact hclosed
  · exact hclosed

/-- A file is deleted in the tree only. -/
theorem steps_handleDelete (path : String) : FileSteps ok s (s.handleDelete path).service := by
  simp only [FileService.handleDelete]
  split
  · exact Relation.ReflTransGen.refl
  · next node _ => exact steps_tree s (Relation.ReflTransGen.single (TreeStep.delete s.vfs node.inode))

/-- Nothing changes. -/
theorem steps_handleStat (path : String) : FileSteps ok s (s.handleStat path).service := by
  simp only [FileService.handleStat]
  split
  · exact Relation.ReflTransGen.refl
  · exact Relation.ReflTransGen.refl

/-- A directory is made in the tree, -/
theorem steps_handleMkdir (pid : Pid) (path : String) :
    FileSteps ok s (s.handleMkdir pid path).service := by
  simp only [FileService.handleMkdir]
  split
  · exact Relation.ReflTransGen.refl
  · next parentPath dirName _ =>
    split
    · exact Relation.ReflTransGen.refl
    · next parent _ =>
      split
      · exact Relation.ReflTransGen.refl
      · have hcreated := TreeStep.createDirectory s.vfs parent.inode dirName pid
        split
        · next hresult =>
          rw [hresult] at hcreated
          exact steps_tree s (Relation.ReflTransGen.single hcreated)
        · next hresult =>
          rw [hresult] at hcreated
          exact steps_tree s (Relation.ReflTransGen.single hcreated)

/-- and deleted there. -/
theorem steps_handleRmdir (path : String) : FileSteps ok s (s.handleRmdir path).service := by
  simp only [FileService.handleRmdir]
  split
  · exact Relation.ReflTransGen.refl
  · next node _ =>
    split
    · exact Relation.ReflTransGen.refl
    · split
      · exact Relation.ReflTransGen.refl
      · exact steps_tree s (Relation.ReflTransGen.single (TreeStep.delete s.vfs node.inode))

/-- A listing changes nothing, -/
theorem handleListdir_service (path : String) : (s.handleListdir path).service = s := by
  simp only [FileService.handleListdir]
  split
  · rfl
  · rfl

/-- with an answer or without. -/
theorem handleListdirWithResponse_service (path : String) :
    (s.handleListdirWithResponse path).service = s := by
  simp only [FileService.handleListdirWithResponse]
  split
  · rfl
  · rfl

/-- Descriptors are copied. -/
theorem steps_handleCloneFds (ord : HashOrder) (fromPid toPid : Pid) :
    FileSteps ok s (s.handleCloneFds ord fromPid toPid).service :=
  Relation.ReflTransGen.single (FileStep.descriptors s _
    (fun h => FileDescriptorManager.issued_cloneFds h ord fromPid toPid)
    (FileDescriptorManager.max_cloneFds s.fdManager ord fromPid toPid))

/-- An answer changes nothing. -/
theorem respondVoid_service (h : Handled) : (FileService.respondVoid h).service = h.service := by
  simp only [FileService.respondVoid]
  split
  · rfl
  · rfl

/-- A request without a response channel, in operations. -/
theorem steps_handleFileRequest (ord : HashOrder) (req : FileRequest) (hok : Guarded ok s req) :
    FileSteps ok s (s.handleFileRequest ord req).service := by
  cases req with
  | «open» path flags => exact steps_handleOpen s 0 path flags
  | close fd => exact steps_handleClose s 0 fd
  | read fd _ _ size => exact steps_handleRead s 0 fd size
  | write fd _ _ size => exact steps_handleWrite s fd _ fun i f => hok fd _ i f rfl
  | writeData fd data => exact steps_handleWrite s fd data fun i f => hok fd data i f rfl
  | unlink path => exact steps_handleDelete s path
  | stat path => exact steps_handleStat s path
  | createDirectory path => exact steps_handleMkdir s 0 path
  | removeDirectory path => exact steps_handleRmdir s path
  | openDirectory path =>
    simp only [FileService.handleFileRequest, handleListdir_service]
    exact Relation.ReflTransGen.refl
  | cloneFds fromPid toPid => exact steps_handleCloneFds s ord fromPid toPid
  | readDirectory _ => exact Relation.ReflTransGen.refl
  | closeDirectory _ => exact Relation.ReflTransGen.refl
  | listDir _ => exact Relation.ReflTransGen.refl
  | diskInfo => exact Relation.ReflTransGen.refl
  | other => exact Relation.ReflTransGen.refl

/-- Both forms of a request do the same to the service, except that a close that is answered brings its
file to disk first. -/
theorem service_answered (ord : HashOrder) {req : FileRequest} (h : ∀ fd, req ≠ .close fd) :
    (s.handleFileRequestWithResponse ord req).service = (s.handleFileRequest ord req).service := by
  cases req with
  | «open» path flags => rfl
  | close fd => exact absurd rfl (h fd)
  | read fd offset buf size => rfl
  | write fd offset buf size => rfl
  | writeData fd data => rfl
  | unlink path => exact respondVoid_service _
  | stat path => exact respondVoid_service _
  | createDirectory path => exact respondVoid_service _
  | removeDirectory path => exact respondVoid_service _
  | openDirectory path => exact respondVoid_service _
  | listDir path => exact handleListdirWithResponse_service s path
  | cloneFds fromPid toPid => exact respondVoid_service _
  | readDirectory dirFd => rfl
  | closeDirectory dirFd => rfl
  | diskInfo => rfl
  | other => rfl

/-- So the form matters for a close only, and otherwise a request has its effect or stops the thread. -/
theorem take_eq_plain {e : FileEvent} (h : ∀ fd, e.req ≠ .close fd) :
    s.take e = s ∨ s.take e = (s.handleFileRequest e.ord e.req).service := by
  rw [FileService.take]
  split
  · exact Or.inl rfl
  · refine Or.inr ?_
    split
    · rw [FileService.handleEnvelope_service]
      exact service_answered s e.ord h
    · rfl

/-- What a close does, answered or not. -/
theorem take_close {e : FileEvent} {fd : UInt32} (h : e.req = .close fd) :
    s.take e = (s.handleCloseWithResponse 0 fd).service ∨ s.take e = (s.handleClose 0 fd).service := by
  have hgoes : s.panics (.close fd) = false := rfl
  rw [FileService.take, h, hgoes, if_neg Bool.false_ne_true]
  split
  · rw [FileService.handleEnvelope_service]
    exact Or.inl rfl
  · exact Or.inr rfl

/-- Every request is a sequence of operations. -/
theorem take_steps (e : FileEvent) (hok : Guarded ok s e.req) : FileSteps ok s (s.take e) := by
  by_cases hclose : ∃ fd, e.req = .close fd
  · obtain ⟨fd, hreq⟩ := hclose
    rcases take_close s hreq with hanswered | hplain
    · rw [hanswered]
      exact steps_handleCloseWithResponse s 0 fd
    · rw [hplain]
      exact steps_handleClose s 0 fd
  · rcases take_eq_plain s fun fd hreq => hclose ⟨fd, hreq⟩ with hpanics | hplain
    · rw [hpanics]
    · rw [hplain]
      exact steps_handleFileRequest s e.ord e.req hok

end Handlers

/-- A property of services that every operation keeps is kept by every request. -/
theorem take_invariant {ok : SectorDisk → File → Prop} {Inv : FileService → Prop}
    (hstep : ∀ s s', FileStep ok s s' → Inv s → Inv s') {s : FileService} {e : FileEvent}
    (hok : Guarded ok s e.req) (h : Inv s) : Inv (s.take e) := by
  have hsteps := take_steps s e hok
  generalize s.take e = s' at hsteps ⊢
  induction hsteps with
  | refl => exact h
  | tail _ hlast ih => exact hstep _ _ hlast ih

end GenshinOs.Files
