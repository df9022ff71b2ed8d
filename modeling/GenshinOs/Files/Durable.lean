import GenshinOs.Files.Extents

/-!
# Writes and restarts

A restart keeps the saved nodes and the disk image and forgets the files in memory. What a file holds
afterwards is what its node has on disk (`readBack_restart`). The answer to a write does not say whether
the bytes got there: `write_durable_iff` gives the exact condition under which they did.
-/

set_option autoImplicit false

namespace GenshinOs.Files

open GenshinOs.Lib GenshinOs.Hardware VirtualFileSystem

/-! ## Saving and loading the tree -/

namespace VirtualFileSystem

theorem lookup_loadNode (v : VirtualFileSystem) (e : SavedNode) (i : Nat) :
    (loadNode v e).lookup i = if e.inode ≠ 0 ∧ i = e.inode then some (loadedNode e) else v.lookup i := by
  rw [loadNode]
  by_cases hzero : e.inode = 0
  · simp only [hzero, if_true, ne_eq, not_true_eq_false, false_and, if_false]
  · simp only [hzero, if_false, lookup, HashMap.lookup_insert_eq, ne_eq, not_false_eq_true, true_and]

theorem lookup_loadChildren (v : VirtualFileSystem) (e : SavedNode) (i : Nat) :
    (loadChildren v e).lookup i =
      if i = e.inode then (v.lookup i).map fun n => { n with children := e.children } else v.lookup i := by
  simp only [loadChildren, lookup, HashMap.lookup_adjust]
  split
  · next hi => rw [hi]
  · rfl

/-- The first pass enters a saved node that is the only one with its number. -/
theorem lookup_loadNodes {e : SavedNode} (hzero : e.inode ≠ 0) {saved : List SavedNode}
    {v : VirtualFileSystem} (hmem : e ∈ saved ∨ v.lookup e.inode = some (loadedNode e))
    (honly : ∀ e' ∈ saved, e'.inode = e.inode → e' = e) :
    (saved.foldl loadNode v).lookup e.inode = some (loadedNode e) := by
  induction saved generalizing v with
  | nil => exact hmem.resolve_left List.not_mem_nil
  | cons e' saved ih =>
    apply ih
    · rw [lookup_loadNode]
      by_cases hsame : e'.inode = e.inode
      · rw [honly e' List.mem_cons_self hsame, if_pos ⟨hzero, rfl⟩]
        exact Or.inr rfl
      · rw [if_neg (fun h => hsame h.2.symm)]
        refine hmem.imp_left fun hin => ?_
        rcases List.mem_cons.1 hin with rfl | hin
        · exact absurd rfl hsame
        · exact hin
    · exact fun e'' he'' => honly e'' (List.mem_cons_of_mem e' he'')

/-- The first pass leaves the root alone, and every node that was not saved. -/
theorem lookup_loadNodes_other {i : Nat} {saved : List SavedNode} (v : VirtualFileSystem)
    (hother : i = 0 ∨ ∀ e ∈ saved, e.inode ≠ i) : (saved.foldl loadNode v).lookup i = v.lookup i := by
  induction saved generalizing v with
  | nil => rfl
  | cons e saved ih =>
    rw [List.foldl_cons, ih _ (hother.imp_right fun h e' he' => h e' (List.mem_cons_of_mem e he')),
      lookup_loadNode, if_neg]
    rintro ⟨hzero, rfl⟩
    rcases hother with hroot | hother
    · exact hzero hroot
    · exact hother e List.mem_cons_self rfl

/-- The second pass leaves every node alone that was not saved. -/
theorem lookup_loadChildrens_other {i : Nat} {saved : List SavedNode} (v : VirtualFileSystem)
    (hother : ∀ e ∈ saved, e.inode ≠ i) : (saved.foldl loadChildren v).lookup i = v.lookup i := by
  induction saved generalizing v with
  | nil => rfl
  | cons e saved ih =>
    rw [List.foldl_cons, ih _ (fun e' he' => hother e' (List.mem_cons_of_mem e he')),
      lookup_loadChildren, if_neg]
    exact fun h => hother e List.mem_cons_self h.symm

/-- The second pass gives a node the children of its saved one. -/
theorem lookup_loadChildrens {e : SavedNode} {n : VFSNode} {saved : List SavedNode}
    {v : VirtualFileSystem} (hmem : e ∈ saved ∧ v.lookup e.inode = some n ∨
      v.lookup e.inode = some { n with children := e.children })
    (honly : ∀ e' ∈ saved, e'.inode = e.inode → e' = e) :
    (saved.foldl loadChildren v).lookup e.inode = some { n with children := e.children } := by
  induction saved generalizing v with
  | nil => exact hmem.resolve_left fun h => List.not_mem_nil h.1
  | cons e' saved ih =>
    apply ih
    · rw [lookup_loadChildren]
      by_cases hsame : e'.inode = e.inode
      · rw [if_pos hsame.symm, honly e' List.mem_cons_self hsame]
        rcases hmem with ⟨-, hv⟩ | hv
        · exact Or.inr (by rw [hv]; rfl)
        · exact Or.inr (by rw [hv]; rfl)
      · rw [if_neg (fun h => hsame h.symm)]
        refine hmem.imp_left fun h => ⟨?_, h.2⟩
        rcases List.mem_cons.1 h.1 with rfl | hin
        · exact absurd rfl hsame
        · exact hin
    · exact fun e'' he'' => honly e'' (List.mem_cons_of_mem e' he'')

/-- Every node has kept its children. -/
structure KeepsChildren (v v' : VirtualFileSystem) : Prop where
  root_eq : v'.rootInode = v.rootInode
  node : ∀ i n, v.lookup i = some n → ∃ n', v'.lookup i = some n' ∧ n'.children = n.children

theorem KeepsChildren.walk {v v' : VirtualFileSystem} (h : KeepsChildren v v') {i k : Nat}
    {components : List String} (hwalk : v.walk i components = .ok k) : v'.walk i components = .ok k := by
  induction components generalizing i with
  | nil => exact hwalk
  | cons component rest ih =>
    rw [VirtualFileSystem.walk] at hwalk ⊢
    split at hwalk
    · cases hwalk
    · next n hn =>
      obtain ⟨n', hn', hchildren⟩ := h.node i n hn
      have hchild : n'.getChild component = n.getChild component := by
        rw [VFSNode.getChild, VFSNode.getChild, hchildren]
      rw [hn']
      simp only
      rw [hchild]
      split at hwalk
      · exact ih hwalk
      · cases hwalk

/-- A path that led to a node still leads there. -/
theorem KeepsChildren.lookupPath {v v' : VirtualFileSystem} (h : KeepsChildren v v') {path : String}
    {n : VFSNode} (hpath : v.lookupPath path = .ok n) :
    ∃ k n', v.lookup k = some n ∧ v'.lookup k = some n' ∧ v'.lookupPath path = .ok n' := by
  rw [VirtualFileSystem.lookupPath] at hpath ⊢
  split at hpath
  · next hroot =>
    split at hpath
    · next hfound =>
      cases hpath
      obtain ⟨n', hn', -⟩ := h.node _ n hfound
      refine ⟨_, n', hfound, hn', ?_⟩
      rw [if_pos hroot, h.root_eq, hn']
    · cases hpath
  · next hname =>
    split at hpath
    · cases hpath
    · next k hwalk =>
      split at hpath
      · next hfound =>
        cases hpath
        obtain ⟨n', hn', -⟩ := h.node k n hfound
        refine ⟨k, n', hfound, hn', ?_⟩
        rw [if_neg hname, h.root_eq, h.walk hwalk]
        simp only [hn']
      · cases hpath

end VirtualFileSystem

section Loaded

variable {total : Nat} {v : VirtualFileSystem} (ord : HashOrder)

theorem mem_saveToFile {e : SavedNode} :
    e ∈ v.saveToFile ord ↔ ∃ i n, v.lookup i = some n ∧ savedNode n = e := by
  simp only [saveToFile, List.mem_map, Prod.exists, HashMap.mem_iter]
  rfl

/-- Nodes are entered under their own numbers. -/
def Numbered (v : VirtualFileSystem) : Prop := ∀ i n, v.lookup i = some n → n.inode = i

theorem Planted.numbered (h : Planted total v) : Numbered v := fun i n hn => (h.node i n hn).1

/-- Only one saved node has the number of a node. -/
theorem saved_only (h : Numbered v) {i : Nat} {n : VFSNode} (hn : v.lookup i = some n) :
    ∀ e' ∈ v.saveToFile ord, e'.inode = (savedNode n).inode → e' = savedNode n := by
  intro e' he' hsame
  obtain ⟨j, m, hm, rfl⟩ := (mem_saveToFile ord).1 he'
  have hj : m.inode = j := h j m hm
  have hi : n.inode = i := h i n hn
  have hij : j = i := by
    rw [← hj, ← hi]
    exact hsame
  subst hij
  rw [Option.some.inj (hm.symm.trans hn)]

/-- The root is the new one, with the children that were saved. -/
theorem lookup_loaded_root (h : Numbered v) {n : VFSNode} (hn : v.lookup 0 = some n) :
    ∃ root, VirtualFileSystem.new.lookup 0 = some root ∧
      (loadFromFile (v.saveToFile ord)).lookup 0 = some { root with children := n.children } := by
  have hinode : (savedNode n).inode = 0 := h 0 n hn
  have hmem : savedNode n ∈ v.saveToFile ord := (mem_saveToFile ord).2 ⟨0, n, hn, rfl⟩
  have hroot : ∃ root, VirtualFileSystem.new.lookup 0 = some root :=
    Option.isSome_iff_exists.1 (by decide +kernel)
  obtain ⟨root, hroot⟩ := hroot
  have hfirst : ((v.saveToFile ord).foldl loadNode VirtualFileSystem.new).lookup (savedNode n).inode =
      some root := by
    rw [hinode, lookup_loadNodes_other _ (Or.inl rfl), hroot]
  have hsecond := lookup_loadChildrens (Or.inl ⟨hmem, hfirst⟩) (saved_only ord h hn)
  rw [hinode] at hsecond
  exact ⟨root, hroot, hsecond⟩

/-- A node that was saved is there again, with its children; a file also with its bytes. -/
theorem lookup_loaded (h : Numbered v) {i : Nat} {n : VFSNode} (hn : v.lookup i = some n) :
    ∃ n', (loadFromFile (v.saveToFile ord)).lookup i = some n' ∧ n'.children = n.children ∧
      (i ≠ 0 → SameStore n n') := by
  by_cases hzero : i = 0
  · subst hzero
    obtain ⟨root, -, hloaded⟩ := lookup_loaded_root ord h hn
    exact ⟨_, hloaded, rfl, fun hne => absurd rfl hne⟩
  · have hinode : (savedNode n).inode = i := h i n hn
    have hmem : savedNode n ∈ v.saveToFile ord := (mem_saveToFile ord).2 ⟨i, n, hn, rfl⟩
    have honly := saved_only ord h hn
    have hfirst := lookup_loadNodes (v := VirtualFileSystem.new) (by rw [hinode]; exact hzero)
      (Or.inl hmem) honly
    have hsecond := lookup_loadChildrens (Or.inl ⟨hmem, hfirst⟩) honly
    rw [hinode] at hsecond
    exact ⟨_, hsecond, rfl, fun _ => ⟨rfl, rfl, rfl, rfl, rfl, rfl⟩⟩

/-- A node that was not saved is as in a new tree. -/
theorem lookup_loaded_other (h : Numbered v) {i : Nat} (hn : v.lookup i = none) :
    (loadFromFile (v.saveToFile ord)).lookup i = VirtualFileSystem.new.lookup i := by
  have hother : ∀ e ∈ v.saveToFile ord, e.inode ≠ i := by
    rintro e he rfl
    obtain ⟨j, n, hj, rfl⟩ := (mem_saveToFile ord).1 he
    rw [← h j n hj] at hj
    rw [show (savedNode n).inode = n.inode from rfl, hj] at hn
    cases hn
  rw [loadFromFile, lookup_loadChildrens_other _ hother, lookup_loadNodes_other _ (Or.inr hother)]

/-- The numbers go on above every node that is loaded. -/
theorem next_loadNode (v : VirtualFileSystem) (e : SavedNode) :
    v.nextInode ≤ (loadNode v e).nextInode ∧
      (e.inode ≠ 0 → e.inode < (loadNode v e).nextInode) ∧ (loadNode v e).rootInode = v.rootInode := by
  rw [loadNode]
  by_cases hzero : e.inode = 0
  · rw [if_pos hzero]
    exact ⟨Nat.le_refl _, fun hne => absurd hzero hne, rfl⟩
  · rw [if_neg hzero]
    refine ⟨?_, ?_, rfl⟩
    · show v.nextInode ≤ if e.inode ≥ v.nextInode then e.inode + 1 else v.nextInode
      split
      · omega
      · exact Nat.le_refl _
    · intro _
      show e.inode < if e.inode ≥ v.nextInode then e.inode + 1 else v.nextInode
      split
      · omega
      · omega

theorem planted_loadNode {v : VirtualFileSystem} (h : Planted total v) {e : SavedNode}
    (he : PlacedRun total e.blocks) : Planted total (loadNode v e) := by
  have hnext := next_loadNode v e
  refine ⟨hnext.2.2.trans h.root_eq, Nat.lt_of_lt_of_le h.next_pos hnext.1, ?_, ?_⟩
  · intro n hn
    rw [lookup_loadNode, if_neg (fun hboth => hboth.1 hboth.2.symm)] at hn
    exact h.root_dir n hn
  · intro i n hn
    rw [lookup_loadNode] at hn
    split at hn
    · next hi =>
      cases hn
      exact ⟨hi.2.symm, by rw [hi.2]; exact hnext.2.1 hi.1, he⟩
    · obtain ⟨hinode, hlt, hplaced⟩ := h.node i n hn
      exact ⟨hinode, Nat.lt_of_lt_of_le hlt hnext.1, hplaced⟩

theorem planted_loadChildren {v : VirtualFileSystem} (h : Planted total v) (e : SavedNode) :
    Planted total (loadChildren v e) := by
  have hsame : ∀ i n', (loadChildren v e).lookup i = some n' →
      ∃ n, v.lookup i = some n ∧ SameStore n n' := by
    intro i n' hn'
    rw [lookup_loadChildren] at hn'
    split at hn'
    · obtain ⟨n, hn, rfl⟩ := Option.map_eq_some_iff.1 hn'
      exact ⟨n, hn, ⟨rfl, rfl, rfl, rfl, rfl, rfl⟩⟩
    · exact ⟨n', hn', SameStore.refl n'⟩
  exact planted_regrown h ⟨rfl, Nat.le_refl _, fun i n' hn' => Or.inl (hsame i n' hn')⟩

/-- The tree that is loaded is in order if the saved one was. -/
theorem planted_loaded (h : Planted total v) : Planted total (loadFromFile (v.saveToFile ord)) := by
  rw [loadFromFile]
  apply List.foldlRecOn (motive := Planted total)
  · apply List.foldlRecOn (motive := Planted total)
    · exact planted_regrown (planted_rootOnly total) regrown_new
    · intro v' hv' e he
      obtain ⟨i, n, hn, rfl⟩ := (mem_saveToFile ord).1 he
      exact planted_loadNode hv' (h.node i n hn).2.2
  · intro v' hv' e _
    exact planted_loadChildren hv' e

/-- A path that named a file names it again, with the same bytes. -/
theorem lookupPath_loaded (h : Planted total v) {path : String} {n : VFSNode}
    (hpath : v.lookupPath path = .ok n) (hfile : n.isFile = true) :
    ∃ n', (loadFromFile (v.saveToFile ord)).lookupPath path = .ok n' ∧
      (loadFromFile (v.saveToFile ord)).lookup n'.inode = some n' ∧ SameStore n n' := by
  have hkept : KeepsChildren v (loadFromFile (v.saveToFile ord)) := by
    refine ⟨(planted_loaded ord h).root_eq.trans h.root_eq.symm, ?_⟩
    intro i m hm
    obtain ⟨m', hm', hchildren, -⟩ := lookup_loaded ord h.numbered hm
    exact ⟨m', hm', hchildren⟩
  obtain ⟨k, n', hn, hn', hpath'⟩ := hkept.lookupPath hpath
  -- the root is no file
  have hzero : k ≠ 0 := by
    rintro rfl
    rw [h.root_dir n hn] at hfile
    cases hfile
  obtain ⟨m, hm, -, hsame⟩ := lookup_loaded ord h.numbered hn
  have hstore := hsame hzero
  rw [Option.some.inj (hm.symm.trans hn')] at hstore
  have hk : n'.inode = k := hstore.inode_eq.trans (h.node k n hn).1
  exact ⟨n', hpath', by rw [hk]; exact hn', hstore⟩

end Loaded

/-! ## Restart -/

theorem located_restart {s : FileService} (h : Located s) (ord : HashOrder) : Located (s.restart ord) := by
  refine ⟨⟨h.sized.eight_le, ?_⟩, h.total_lt, FileDescriptorManager.issued_new _,
    planted_loaded ord h.planted, ?_, ?_⟩
  · show (SectorDisk.readBitmap s.disk.file (SectorDisk.bitmapWords s.disk.totalSectors)).length = _
    rw [SectorDisk.readBitmap, List.length_map, List.length_range]
    rfl
  · intro i f hf
    cases hf
  · intro i f n hf
    cases hf

theorem located_importFile {s : FileService} (h : Located s) (host : String × List UInt8) :
    Located (s.importFile host) := by
  have hregrown := (treeSteps_importNode s.vfs host.1).regrown
  rw [FileService.importFile]
  split
  · exact h
  · split
    · next himport =>
      rw [himport] at hregrown
      exact located_tree h hregrown
    · next i v himport =>
      rw [himport] at hregrown
      obtain ⟨-, hdirty, hrun, -, -⟩ := write_ok (f := File.new i ("/programs" ++ "/" ++ host.1) .write)
        host.2 (by simp [File.new])
      obtain ⟨hd, htotal, -, hplaced⟩ := syncToDisk_sized (d := s.disk) h.sized hdirty
      have hplaced' := hplaced (by rw [hrun]; exact placedRun_nil _)
      rw [← htotal] at hplaced'
      exact located_recordRun (i := i) (located_tree h hregrown) host.2.length hd htotal hplaced'

/-- A state of the service on a disk: after the first start, after a request, and after a restart, with
the files that the host then has. -/
inductive Reachable (diskSize maxFds : Nat) : FileService → Prop
  | boot (hosts : List (String × List UInt8)) :
      Reachable diskSize maxFds (FileService.boot diskSize maxFds hosts)
  | take {s : FileService} (e : FileEvent) : Reachable diskSize maxFds s →
      Reachable diskSize maxFds (s.take e)
  | restart {s : FileService} (ord : HashOrder) (hosts : List (String × List UInt8)) :
      Reachable diskSize maxFds s → Reachable diskSize maxFds ((s.restart ord).importHostFiles hosts)

theorem located_of_reachable {diskSize maxFds : Nat} (hsize : 8 ≤ diskSize / 512 % 2 ^ 32)
    {s : FileService} (h : Reachable diskSize maxFds s) : Located s := by
  induction h with
  | boot hosts => exact (apart_boot hsize maxFds hosts).located
  | @take s e _ ih =>
    have hfree : Guarded (fun _ _ => True) s e.req := fun _ _ _ _ _ _ _ => trivial
    exact take_invariant located_step hfree ih
  | restart ord hosts _ ih =>
    exact List.foldlRecOn hosts _ (located_restart ih ord) fun s hs host _ => located_importFile hs host

/-- The condition holds at every import of a start. -/
def ImportsWith (hostOk : FileService → String × List UInt8 → Prop) :
    FileService → List (String × List UInt8) → Prop
  | _, [] => True
  | s, host :: hosts => hostOk s host ∧ ImportsWith hostOk (s.importFile host) hosts

/-- The states of the runs that meet a condition on the imports and one on what is written. -/
inductive ReachableWith (hostOk : FileService → String × List UInt8 → Prop) (ok : SectorDisk → File → Prop)
    (diskSize maxFds : Nat) : FileService → Prop
  | boot (hosts : List (String × List UInt8)) :
      ImportsWith hostOk (FileService.new .new (SectorDisk.create (diskSize / 512 % 2 ^ 32)) maxFds) hosts →
      ReachableWith hostOk ok diskSize maxFds (FileService.boot diskSize maxFds hosts)
  | take {s : FileService} (e : FileEvent) : Guarded ok s e.req → ReachableWith hostOk ok diskSize maxFds s →
      ReachableWith hostOk ok diskSize maxFds (s.take e)
  | restart {s : FileService} (ord : HashOrder) (hosts : List (String × List UInt8)) :
      ImportsWith hostOk (s.restart ord) hosts → ReachableWith hostOk ok diskSize maxFds s →
      ReachableWith hostOk ok diskSize maxFds ((s.restart ord).importHostFiles hosts)

section ReachableWith

variable {hostOk : FileService → String × List UInt8 → Prop} {ok : SectorDisk → File → Prop}
  {diskSize maxFds : Nat}

theorem ReachableWith.reachable {s : FileService} (h : ReachableWith hostOk ok diskSize maxFds s) :
    Reachable diskSize maxFds s := by
  induction h with
  | boot hosts _ => exact Reachable.boot hosts
  | take e _ _ ih => exact Reachable.take e ih
  | restart ord hosts _ _ ih => exact Reachable.restart ord hosts ih

theorem ImportsWith.invariant {I : FileService → Prop}
    (himport : ∀ s host, hostOk s host → I s → I (s.importFile host)) {s : FileService}
    {hosts : List (String × List UInt8)} (hhosts : ImportsWith hostOk s hosts) (hs : I s) :
    I (s.importHostFiles hosts) := by
  induction hosts generalizing s with
  | nil => exact hs
  | cons host hosts ih => exact ih hhosts.2 (himport s host hhosts.1 hs)

/-- What an empty service has, and imports, requests and restarts keep, every such state has. -/
theorem ReachableWith.invariant {I : FileService → Prop}
    (hnew : I (FileService.new .new (SectorDisk.create (diskSize / 512 % 2 ^ 32)) maxFds))
    (himport : ∀ s host, hostOk s host → I s → I (s.importFile host))
    (htake : ∀ s e, Guarded ok s e.req → I s → I (s.take e))
    (hrestart : ∀ s ord, I s → I (s.restart ord))
    {s : FileService} (h : ReachableWith hostOk ok diskSize maxFds s) : I s := by
  induction h with
  | boot hosts hhosts => exact hhosts.invariant himport hnew
  | take e hok _ ih => exact htake _ e hok ih
  | restart ord hosts hhosts _ ih => exact hhosts.invariant himport (hrestart _ ord ih)

end ReachableWith

/-- What opening a path and reading from the new descriptor gives. -/
def readBack (s : FileService) (ord : HashOrder) (path : String) (flags : OpenFlags) (size : Nat) :
    Option (List UInt8) :=
  match s.handleEnvelope ord (.open path flags) with
  | (s', [.ok (.fd fd)]) =>
    match (s'.handleEnvelope ord (.read (UInt32.ofNat fd) 0 0 size)).2 with
    | [.ok (.bytes data)] => some data
    | _ => none
  | _ => none

/-- Reading a file from its start. -/
theorem read_first {f : File} (hmode : f.mode ≠ .write) (hpos : f.position = 0) {size : Nat}
    (hsize : f.data.length ≤ size) : (f.read size).1 = .ok f.data := by
  rw [File.read, if_neg hmode, hpos]
  split
  · next hend =>
    rw [List.eq_nil_of_length_eq_zero (Nat.le_zero.1 hend)]
  · show Except.ok ((f.data.take (min (0 + size) f.data.length)).drop 0) = _
    rw [Nat.zero_add, Nat.min_eq_right hsize, List.take_length, List.drop_zero]

/-- The first descriptor of a new service is 3. -/
theorem allocate_new {limit : Nat} (h : 3 < limit) (i : Nat) :
    (FileDescriptorManager.new limit).allocate 0 i 0 = (.ok 3,
      (FileDescriptorManager.new limit).setTable 0 ⟨AList.insert 3 ⟨3, 0, i, 0⟩ ∅, 4, limit⟩) := by
  have htable : (FileDescriptorManager.new limit).getTable 0 = FileTable.new limit := rfl
  rw [FileDescriptorManager.allocate, htable, FileTable.allocate]
  simp only [FileTable.new, ge_iff_le, Nat.not_le.2 h, if_false]

/-- A file that a new service opens can be read in full. -/
theorem readBack_new {v : VirtualFileSystem} {d : SectorDisk} {limit : Nat} (hlimit : 3 < limit)
    (ord : HashOrder) {path : String} {n : VFSNode} (hpath : v.lookupPath path = .ok n)
    (hfile : n.isFile = true) {flags : OpenFlags} {size : Nat} {data : List UInt8}
    (hread : ((FileService.loadFile v d n.inode path (openFlagsToMode flags)).read size).1 = .ok data) :
    readBack (FileService.new v d limit) ord path flags size = some data := by
  have hopen : (FileService.new v d limit).handleEnvelope ord (.open path flags) =
      ({ FileService.new v d limit with
        openFiles := AList.insert n.inode
          (FileService.loadFile v d n.inode path (openFlagsToMode flags)) ∅
        fdManager := (FileDescriptorManager.new limit).setTable 0
          ⟨AList.insert 3 ⟨3, 0, n.inode, 0⟩ ∅, 4, limit⟩ }, [.ok (.fd 3)]) := by
    have hopened : FileService.openNode v 0 path flags = (.ok n, v) := by
      rw [FileService.openNode, hpath]
    have hnone : (∅ : HashMap Nat File).lookup n.inode = none := rfl
    simp only [FileService.handleEnvelope, FileService.handleFileRequestWithResponse,
      FileService.handleOpenWithResponse, FileService.new, hopened, hfile, Bool.true_eq_false, if_false,
      allocate_new hlimit n.inode, FileService.openedFile, hnone]
  -- the descriptor that the open returned leads to the file
  have hentry : ((FileDescriptorManager.new limit).setTable 0
      ⟨AList.insert 3 ⟨3, 0, n.inode, 0⟩ ∅, 4, limit⟩).get 0 (UInt32.ofNat 3).toNat =
      some ⟨3, 0, n.inode, 0⟩ := by
    simp only [FileDescriptorManager.get, FileDescriptorManager.setTable, FileTable.get,
      AList.lookup_insert, Option.bind_some]
    exact AList.lookup_insert ∅
  rw [readBack, hopen]
  simp only [FileService.handleEnvelope, FileService.handleFileRequestWithResponse,
    FileService.handleReadWithResponse, FileService.fileOf, hentry, Option.bind_some,
    AList.lookup_insert, Option.map_some]
  cases hresult : (FileService.loadFile v d n.inode path (openFlagsToMode flags)).read size with
  | mk result f =>
    rw [hresult] at hread
    simp only at hread
    subst hread
    rfl

/-- After a restart a file holds the bytes that its node has on disk. -/
theorem readBack_restart {s : FileService} (h : Located s) (ord ord' : HashOrder) {path : String}
    {n : VFSNode} (hpath : s.vfs.lookupPath path = .ok n) (hfile : n.isFile = true)
    (hfds : 3 < s.fdManager.maxFdsPerProcess) {flags : OpenFlags} (hflags : openFlagsToMode flags ≠ .write)
    {size : Nat} (hsize : n.size ≤ size) :
    readBack (s.restart ord) ord' path flags size = some (stored s.disk n) := by
  obtain ⟨n', hpath', hn', hsame⟩ := lookupPath_loaded ord h.planted hpath hfile
  have hfile' : n'.isFile = true := by
    rw [SameStore.isFile_eq hsame]
    exact hfile
  obtain ⟨-, -, hplaced⟩ := (planted_loaded ord h.planted).node _ n' hn'
  obtain ⟨start, count, -, -, hload⟩ := loadFile_spec (d := s.disk.reopen) path (openFlagsToMode flags)
    hn' h.total_lt hplaced
  have hstored : stored s.disk.reopen n' = stored s.disk n := by
    rw [stored, stored, hsame.blocks_eq, hsame.size_eq]
    rfl
  apply readBack_new hfds ord' hpath' hfile'
  rw [hload, read_first hflags rfl]
  · exact congrArg Except.ok hstored
  · show (stored s.disk.reopen n').length ≤ size
    rw [hstored, stored, List.length_take]
    exact Nat.le_trans (Nat.min_le_left _ _) hsize

/-! ## Acknowledged writes -/

/-- The bytes of a file are some, not too many, and there is room for them. -/
def Lands (d : SectorDisk) (f : File) : Prop :=
  f.data ≠ [] ∧ (f.data.length + 511) / 512 < 2 ^ 32 ∧ f.HasRoom d

/-- What a node has on disk does not depend on sector 0. -/
theorem stored_congr {d d' : SectorDisk} {n : VFSNode} {total : Nat} (hplaced : PlacedRun total n.blocks)
    (h : ∀ a, 512 ≤ a → d'.file a = d.file a) : stored d' n = stored d n := by
  have hsectors : ∀ b ∈ n.blocks, (List.range 512).map (fun j => d'.file (b * 512 + j)) =
      (List.range 512).map fun j => d.file (b * 512 + j) := by
    intro b hb
    obtain ⟨start, count, hblocks, hfit⟩ := hplaced
    rw [hblocks] at hb
    have hbounds := List.mem_range'_1.1 hb
    have hlow := (hfit (by omega)).1
    apply List.map_congr_left
    intro j _
    exact h _ (by omega)
  rw [stored, stored, List.flatMap_congr hsectors]

/-- A node has at most the bytes of its sectors. -/
theorem length_stored_le {d : SectorDisk} {n : VFSNode} {total : Nat}
    (hplaced : PlacedRun total n.blocks) : (stored d n).length ≤ (total - 4) * 512 := by
  obtain ⟨start, count, hblocks, hfit⟩ := hplaced
  have hlength : (stored d n).length ≤ count * 512 := by
    rw [stored, hblocks, ← runBytes_eq_flatMap, List.length_take, File.runBytes, List.length_map,
      List.length_range]
    exact Nat.min_le_right _ _
  rcases Nat.eq_zero_or_pos count with hzero | hpos
  · rw [hzero, Nat.zero_mul] at hlength
    exact Nat.le_trans hlength (Nat.zero_le _)
  · obtain ⟨hlow, hhigh⟩ := hfit hpos
    have hcount : count ≤ total - 4 := by omega
    exact Nat.le_trans hlength (Nat.mul_le_mul_right 512 hcount)

theorem lookup_recordRun (v : VirtualFileSystem) {i : Nat} {f : File} {size start : Nat}
    (hstart : f.startSector = some start) (j : Nat) :
    (FileService.recordRun v i f size).lookup j =
      if j = i then (v.lookup i).map fun n => { n with size := size, blocks := f.run } else v.lookup j := by
  simp only [FileService.recordRun, hstart, lookup, HashMap.lookup_adjust]

theorem keepsChildren_recordRun (v : VirtualFileSystem) {i : Nat} {f : File} (size : Nat) {start : Nat}
    (hstart : f.startSector = some start) : KeepsChildren v (FileService.recordRun v i f size) := by
  refine ⟨(recordRun_next v i f size).2, ?_⟩
  intro j n hn
  rw [lookup_recordRun v hstart]
  split
  · next hj =>
    subst hj
    rw [hn]
    exact ⟨_, rfl, rfl⟩
  · exact ⟨n, hn, rfl⟩

/-- A write that finds room: the node has the bytes, as many as its sectors hold. -/
theorem stored_synced {s : FileService} (h : Located s) {i : Nat} {f : File} (hdirty : f.dirty = true)
    (hi : f.inode = i) (hneeded : File.neededSectors f.data ≠ 0) (hroom : f.HasRoom s.disk)
    {path : String} {n : VFSNode} (hpath : s.vfs.lookupPath path = .ok n) (hn : n.inode = i) :
    ∃ n', (s.persist i f).vfs.lookupPath path = .ok n' ∧ n'.isFile = n.isFile ∧
      n'.size = f.data.length ∧
      (stored (s.persist i f).disk n').length =
        min f.data.length (File.neededSectors f.data * 512) ∧
      (f.data.length ≤ File.neededSectors f.data * 512 → stored (s.persist i f).disk n' = f.data) := by
  obtain ⟨start, d, hsync, -, -, -, -, -, -, hbytes, -⟩ :=
    File.syncToDisk_synced h.sized hdirty hneeded hroom
  have hpersist : s.persist i f = { s.setFile i { f with
        startSector := some start, sectorCount := File.neededSectors f.data, dirty := false } with
      disk := d
      vfs := FileService.recordRun s.vfs i { f with
        startSector := some start, sectorCount := File.neededSectors f.data, dirty := false }
        f.data.length } := by
    rw [persist_eq, hsync, ← hi]
    rfl
  have hkept : KeepsChildren s.vfs (FileService.recordRun s.vfs i { f with
      startSector := some start, sectorCount := File.neededSectors f.data, dirty := false }
      f.data.length) := keepsChildren_recordRun s.vfs f.data.length rfl
  obtain ⟨k, n', hk, hn', hpath'⟩ := hkept.lookupPath hpath
  -- the path leads to the node that the run was recorded in
  have hki : k = i := by
    rw [← hn, (h.planted.node k n hk).1]
  subst hki
  rw [lookup_recordRun s.vfs rfl, if_pos rfl, hk, Option.map_some] at hn'
  have hnew := Option.some.inj hn'
  have hstored : stored d n' = (File.runBytes d start (File.neededSectors f.data)).take f.data.length := by
    rw [← hnew, runBytes_eq_flatMap]
    rfl
  rw [hpersist]
  refine ⟨n', hpath', by rw [← hnew]; rfl, by rw [← hnew], ?_, ?_⟩
  · show (stored d n').length = _
    rw [hstored, List.length_take, File.runBytes, List.length_map, List.length_range]
  · intro hfit
    show stored d n' = f.data
    rw [hstored, File.take_runBytes hfit hbytes]

/-- A write that finds no room, or has nothing to store: the node keeps what it has. -/
theorem stored_unsynced {s : FileService} (h : Located s) {i : Nat} {f : File} (hdirty : f.dirty = true)
    (hno : ¬(File.neededSectors f.data ≠ 0 ∧ f.HasRoom s.disk)) {n : VFSNode}
    (hplaced : PlacedRun s.disk.totalSectors n.blocks) :
    (s.persist i f).vfs = s.vfs ∧ stored (s.persist i f).disk n = stored s.disk n := by
  have hbytes : stored (f.released s.disk) n = stored s.disk n :=
    stored_congr hplaced (f.released_spec s.disk).1.file_eq
  rw [persist_eq]
  by_cases hneeded : File.neededSectors f.data = 0
  · rw [File.syncToDisk_empty hdirty hneeded]
    exact ⟨rfl, hbytes⟩
  · obtain ⟨e, hsync⟩ := File.syncToDisk_refused h.sized hdirty hneeded (fun hroom => hno ⟨hneeded, hroom⟩)
    rw [hsync]
    exact ⟨rfl, hbytes⟩

/-- The sectors that the disk is asked for hold the bytes unless their number wraps around. -/
theorem neededSectors_fit {data : List UInt8} :
    data.length ≤ File.neededSectors data * 512 ↔ (data.length + 511) / 512 < 2 ^ 32 := by
  rw [File.neededSectors]
  constructor
  · intro h
    by_contra hbig
    have hlt := Nat.mod_lt ((data.length + 511) / 512) (show 0 < 2 ^ 32 by decide)
    omega
  · intro h
    rw [Nat.mod_eq_of_lt h]
    omega

theorem neededSectors_pos {data : List UInt8} (h : File.neededSectors data ≠ 0) : 0 < data.length := by
  rcases Nat.eq_zero_or_pos data.length with hzero | hpos
  · exact absurd (by rw [File.neededSectors, hzero]; rfl) h
  · exact hpos

theorem Lands.needed {d : SectorDisk} {f : File} (h : Lands d f) : File.neededSectors f.data ≠ 0 := by
  obtain ⟨hne, hfit, -⟩ := h
  have hpos := List.length_pos_iff.2 hne
  rw [File.neededSectors, Nat.mod_eq_of_lt hfit]
  omega

/-- What a write that was answered leaves for a restart. -/
theorem readBack_write_iff {s : FileService} (h : Located s) {fd : UInt32} {data : List UInt8} {f : File}
    {path : String} {n : VFSNode} (hfile : s.fileOf 0 fd = some (n.inode, f))
    (hpath : s.vfs.lookupPath path = .ok n) (hmode : f.mode ≠ .read) (ord ord' : HashOrder)
    {flags : OpenFlags} (hflags : openFlagsToMode flags ≠ .write) {size : Nat}
    (hsize : (f.dataAfter data).length ≤ size) (hsize' : n.size ≤ size) :
    readBack ((s.persist n.inode (f.write data).2).restart ord) ord' path flags size =
        some (f.dataAfter data) ↔
      Lands s.disk (f.write data).2 ∨ stored s.disk n = f.dataAfter data := by
  obtain ⟨⟨entry, hentry⟩, hf⟩ := fileOf_some hfile
  obtain ⟨k, hk⟩ := lookupPath_ok hpath
  obtain ⟨rfl, -, hplaced⟩ := h.planted.node k n hk
  have hisFile := h.isFile n.inode f n hf hk
  obtain ⟨hinode, hdirty, -, hdata, -⟩ := write_ok data hmode
  have hi := hinode.trans (h.file n.inode f hf).1
  have hstep : FileStep (fun _ _ => True) s (s.persist n.inode (f.write data).2) :=
    FileStep.write s n.inode f data hf hmode trivial
  have hlocated := located_step s _ hstep h
  have hfds : 3 < (s.persist n.inode (f.write data).2).fdManager.maxFdsPerProcess := by
    rw [persist_eq]
    exact h.issued.three_lt hentry
  rw [← hdata] at hsize ⊢
  by_cases hroom : File.neededSectors (f.write data).2.data ≠ 0 ∧ (f.write data).2.HasRoom s.disk
  · obtain ⟨n', hpath', hsame, hsize'', hlength, hbytes⟩ :=
      stored_synced h hdirty hi hroom.1 hroom.2 hpath rfl
    rw [readBack_restart hlocated ord ord' hpath' (by rw [hsame]; exact hisFile) hfds hflags
      (by rw [hsize'']; exact hsize), Option.some_inj]
    by_cases hfit : ((f.write data).2.data.length + 511) / 512 < 2 ^ 32
    · have hpos := neededSectors_pos hroom.1
      simp only [hbytes (neededSectors_fit.2 hfit), true_iff]
      exact Or.inl ⟨List.ne_nil_of_length_pos hpos, hfit, hroom.2⟩
    · -- more bytes than any disk has: neither the new run nor an old one holds them
      have hlong : ¬(f.write data).2.data.length ≤ File.neededSectors (f.write data).2.data * 512 :=
        fun hle => hfit (neededSectors_fit.1 hle)
      have hold := length_stored_le (d := s.disk) hplaced
      have htotal := h.total_lt
      constructor
      · intro heq
        rw [heq] at hlength
        omega
      · rintro (hlands | heq)
        · exact absurd hlands.2.1 hfit
        · rw [heq] at hold
          omega
  · obtain ⟨hvfs, hbytes⟩ := stored_unsynced (i := n.inode) h hdirty hroom hplaced
    rw [readBack_restart hlocated ord ord' (by rw [hvfs]; exact hpath) hisFile hfds hflags hsize', hbytes,
      Option.some_inj]
    constructor
    · exact Or.inr
    · rintro (hlands | heq)
      · exact absurd ⟨hlands.needed, hlands.2.2⟩ hroom
      · exact heq

/-- The answer to a write that is not refused. -/
theorem writeData_answered {s : FileService} {ord : HashOrder} {fd : UInt32} {data : List UInt8}
    {i : Nat} {f : File} {count : Nat} (hfile : s.fileOf 0 fd = some (i, f))
    (h : (s.handleEnvelope ord (.writeData fd data)).2 = [.ok (.bytesProcessed count)]) :
    f.mode ≠ .read ∧ (s.handleEnvelope ord (.writeData fd data)).1 = s.persist i (f.write data).2 := by
  have hmode : f.mode ≠ .read := by
    intro hread
    simp [FileService.handleEnvelope, FileService.handleFileRequestWithResponse,
      FileService.handleWriteWithResponse, hfile, File.write, hread] at h
  refine ⟨hmode, ?_⟩
  simp only [FileService.handleEnvelope, FileService.handleFileRequestWithResponse,
    FileService.handleWriteWithResponse, hfile, File.write, if_neg hmode]

/-- An acknowledged write survives a restart exactly if its bytes find room on disk, or the node of the
file has had them there already. -/
theorem write_durable_iff {diskSize maxFds : Nat} (hdisk : 8 ≤ diskSize / 512 % 2 ^ 32)
    {s : FileService} (hs : Reachable diskSize maxFds s) {ord : HashOrder} {fd : UInt32}
    {data : List UInt8} {count : Nat}
    (hanswer : (s.handleEnvelope ord (.writeData fd data)).2 = [.ok (.bytesProcessed count)])
    {f : File} {path : String} {n : VFSNode} (hfile : s.fileOf 0 fd = some (n.inode, f))
    (hpath : s.vfs.lookupPath path = .ok n) (ord' ord'' : HashOrder) {flags : OpenFlags}
    (hflags : openFlagsToMode flags ≠ .write) {size : Nat} (hsize : (f.dataAfter data).length ≤ size)
    (hsize' : n.size ≤ size) :
    readBack ((s.handleEnvelope ord (.writeData fd data)).1.restart ord') ord'' path flags size =
        some (f.dataAfter data) ↔
      Lands s.disk (f.write data).2 ∨ stored s.disk n = f.dataAfter data := by
  obtain ⟨hmode, hservice⟩ := writeData_answered hfile hanswer
  rw [hservice]
  exact readBack_write_iff (located_of_reachable hdisk hs) hfile hpath hmode ord' ord'' hflags hsize hsize'

/-- A new file on a disk of eight sectors. -/
def withNewFile : FileService :=
  (FileService.boot 4096 256 []).take ⟨.stored, .open "/tmp/a" ⟨true, true, true, false, false⟩, true⟩

theorem write_durable_one_byte : ∃ f n, withNewFile.fileOf 0 3 = some (n.inode, f) ∧
    withNewFile.vfs.lookupPath "/tmp/a" = .ok n ∧
    (readBack ((withNewFile.handleEnvelope .stored (.writeData 3 [1])).1.restart .stored) .stored "/tmp/a"
        .readOnly 512 = some (f.dataAfter [1]) ↔
      Lands withNewFile.disk (f.write [1]).2 ∨ stored withNewFile.disk n = f.dataAfter [1]) := by
  have hfile : (withNewFile.fileOf 0 3).map (fun r => (r.1, (r.2.dataAfter [1]).length)) = some (29, 1) := by
    decide +kernel
  have hnode : (withNewFile.vfs.lookupPath "/tmp/a").toOption.map (fun n => (n.inode, n.size)) =
      some (29, 0) := by
    decide +kernel
  obtain ⟨⟨i, f⟩, hf, hpair⟩ := Option.map_eq_some_iff.1 hfile
  obtain ⟨n, hn, hpair'⟩ := Option.map_eq_some_iff.1 hnode
  obtain ⟨hi, hlength⟩ := Prod.mk.inj hpair
  obtain ⟨hinode, hsize⟩ := Prod.mk.inj hpair'
  have hpath : withNewFile.vfs.lookupPath "/tmp/a" = .ok n := by
    cases hresult : withNewFile.vfs.lookupPath "/tmp/a" with
    | error e =>
      rw [hresult] at hn
      cases hn
    | ok m =>
      rw [hresult] at hn
      rw [Option.some.inj hn]
  have hfile' : withNewFile.fileOf 0 3 = some (n.inode, f) := by
    rw [hf, hinode, ← hi]
  have hreachable : Reachable 4096 256 withNewFile := Reachable.take _ (Reachable.boot [])
  have hanswer : (withNewFile.handleEnvelope .stored (.writeData 3 [1])).2 = [.ok (.bytesProcessed 1)] := by
    decide +kernel
  refine ⟨f, n, hfile', hpath, ?_⟩
  exact write_durable_iff (by decide) hreachable hanswer hfile' hpath .stored .stored (by decide)
    (by rw [hlength]; decide) (by rw [hsize]; decide)

/-- Five sectors of bytes do not fit; the write is acknowledged all the same, and nothing is there after
the restart. -/
theorem write_lost : Reachable 4096 256 withNewFile ∧
    (withNewFile.handleEnvelope .stored (.writeData 3 (List.replicate 2049 7))).2 =
      [.ok (.bytesProcessed 2049)] ∧
    (withNewFile.fileOf 0 3).map (fun r => r.2.dataAfter (List.replicate 2049 7)) =
      some (List.replicate 2049 7) ∧
    readBack ((withNewFile.handleEnvelope .stored (.writeData 3 (List.replicate 2049 7))).1.restart .stored)
      .stored "/tmp/a" .readOnly 4096 = some [] := by
  refine ⟨Reachable.take _ (Reachable.boot []), ?_, ?_, ?_⟩
  · decide +kernel
  · decide +kernel
  · decide +kernel

end GenshinOs.Files
