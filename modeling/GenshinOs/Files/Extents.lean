import GenshinOs.Files.Steps

/-!
# Sectors of files

A run of sectors is known to three tables: the file in memory, its node in the tree and the bitmap of
the disk. `Located` is what holds of them in every state; `Apart` is what holds as long as every write
finds room. A write that finds none gives the old run of its file back and leaves file and node naming
it (`blocks_shared`), so that the next file may get the same sectors; with room for every write no two
nodes share a sector (`blocks_apart`).
-/

set_option autoImplicit false

namespace GenshinOs.Files

open GenshinOs.Lib GenshinOs.Hardware VirtualFileSystem

/-! ## In every state -/

/-- A run of sectors behind the metadata of a disk. -/
def PlacedRun (total : Nat) (blocks : List Nat) : Prop :=
  ∃ start count, blocks = List.range' start count ∧ (0 < count → 4 ≤ start ∧ start + count ≤ total)

theorem placedRun_nil (total : Nat) : PlacedRun total [] := ⟨0, 0, rfl, fun h => by omega⟩

/-- The nodes of a tree have their own numbers, which are below the next one to be given out, and runs on
the disk. Number 0 is for the root and never for a file. -/
structure Planted (total : Nat) (v : VirtualFileSystem) : Prop where
  root_eq : v.rootInode = 0
  next_pos : 0 < v.nextInode
  root_dir : ∀ n, v.lookup 0 = some n → n.isFile = false
  node : ∀ i n, v.lookup i = some n → n.inode = i ∧ i < v.nextInode ∧ PlacedRun total n.blocks

/-- The tables fit together: the files in memory have the numbers of their nodes, and all runs are on the
disk. -/
structure Located (s : FileService) : Prop where
  sized : s.disk.Sized
  total_lt : s.disk.totalSectors < 2 ^ 32
  issued : s.fdManager.Issued
  planted : Planted s.disk.totalSectors s.vfs
  file : ∀ i f, s.openFiles.lookup i = some f →
    f.inode = i ∧ i < s.vfs.nextInode ∧ PlacedRun s.disk.totalSectors f.run
  isFile : ∀ i f n, s.openFiles.lookup i = some f → s.vfs.lookup i = some n → n.isFile = true

theorem lookup_setFile (s : FileService) (i j : Nat) (f : File) :
    (s.setFile i f).openFiles.lookup j = if j = i then some f else s.openFiles.lookup j :=
  HashMap.lookup_insert_eq s.openFiles i j f

theorem SameBytes.run_eq {f f' : File} (h : SameBytes f f') : f'.run = f.run := by
  rw [File.run, File.run, h.start_eq, h.count_eq]

/-- The disk after a sync: the same sectors and, sector 0 and the new run apart, the same bytes. -/
theorem syncToDisk_sized {f : File} {d : SectorDisk} (hd : d.Sized) (hdirty : f.dirty = true) :
    (f.syncToDisk d).2.2.Sized ∧ (f.syncToDisk d).2.2.totalSectors = d.totalSectors ∧
      (f.syncToDisk d).2.1.inode = f.inode ∧
      (PlacedRun d.totalSectors f.run → PlacedRun d.totalSectors (f.syncToDisk d).2.1.run) := by
  obtain ⟨hsame, -⟩ := f.released_spec d
  by_cases hneeded : File.neededSectors f.data = 0
  · rw [File.syncToDisk_empty hdirty hneeded]
    exact ⟨hsame.sized hd, hsame.total_eq, rfl, fun _ => placedRun_nil _⟩
  · by_cases hroom : f.HasRoom d
    · obtain ⟨start, d', hsync, hlow, hfit, -, htotal, hlength, -, -, -⟩ :=
        File.syncToDisk_synced hd hdirty hneeded hroom
      rw [hsync]
      refine ⟨⟨by rw [htotal]; exact hd.eight_le, by rw [hlength, htotal]; exact hd.length_eq⟩, htotal, rfl,
        ?_⟩
      intro _
      exact ⟨start, _, rfl, fun _ => ⟨hlow, hfit⟩⟩
    · obtain ⟨e, hsync⟩ := File.syncToDisk_refused hd hdirty hneeded hroom
      rw [hsync]
      exact ⟨hsame.sized hd, hsame.total_eq, rfl, fun h => h⟩

/-- The bytes that a node has on disk. -/
def stored (d : SectorDisk) (n : VFSNode) : List UInt8 :=
  (n.blocks.flatMap fun b => (List.range 512).map fun j => d.file (b * 512 + j)).take n.size

theorem runBytes_eq_flatMap (d : SectorDisk) (start count : Nat) :
    File.runBytes d start count =
      (List.range' start count).flatMap fun b => (List.range 512).map fun j => d.file (b * 512 + j) := by
  induction count generalizing start with
  | zero => simp [File.runBytes]
  | succ count ih => rw [File.runBytes_succ, List.range'_succ, List.flatMap_cons, ih]

/-- A file without a run: nothing is loaded. -/
theorem loadFile_nil {v : VirtualFileSystem} {i : Nat} {n : VFSNode} (d : SectorDisk) (path : String)
    (mode : OpenMode) (hn : v.lookup i = some n) (hblocks : n.blocks = []) :
    FileService.loadFile v d i path mode = File.new i path mode := by
  simp only [FileService.loadFile, hn, hblocks]

/-- A file with a run: its bytes are loaded. -/
theorem loadFile_run {v : VirtualFileSystem} {d : SectorDisk} {i : Nat} {n : VFSNode} (path : String)
    (mode : OpenMode) (hn : v.lookup i = some n) (htotal : d.totalSectors < 2 ^ 32) {start count : Nat}
    (hblocks : n.blocks = List.range' start (count + 1)) (hfit : start + (count + 1) ≤ d.totalSectors) :
    FileService.loadFile v d i path mode = { File.new i path mode with
      startSector := some start, sectorCount := count + 1, size := n.size, data := stored d n } := by
  have hfirst : n.blocks = start :: List.range' (start + 1) count := hblocks
  have hstart : start % 2 ^ 32 = start := Nat.mod_eq_of_lt (by omega)
  have hcount : n.blocks.length % 2 ^ 32 = count + 1 := by
    rw [hblocks, List.length_range', Nat.mod_eq_of_lt (by omega)]
  have hread : File.readSectors d start (count + 1) 0 = .ok (File.runBytes d start (count + 1)) :=
    File.readSectors_eq (by omega)
  have hstored : (File.runBytes d start (count + 1)).take n.size = stored d n := by
    rw [runBytes_eq_flatMap, stored, hblocks]
  simp only [FileService.loadFile, hn, hfirst]
  rw [← hfirst, hstart, hcount]
  simp only [File.loadFromDisk, Nat.succ_ne_zero, if_false, hread, hstored]
  rfl

/-- A file that is loaded names the run of its node and is a copy of the bytes there. -/
theorem loadFile_spec {v : VirtualFileSystem} {d : SectorDisk} {i : Nat} {n : VFSNode} (path : String)
    (mode : OpenMode) (hn : v.lookup i = some n) (htotal : d.totalSectors < 2 ^ 32)
    (hplaced : PlacedRun d.totalSectors n.blocks) :
    ∃ start count, n.blocks = List.range' start count ∧
      (FileService.loadFile v d i path mode).run = n.blocks ∧
      FileService.loadFile v d i path mode = { File.new i path mode with
        startSector := if count = 0 then none else some start
        sectorCount := count
        size := if count = 0 then 0 else n.size
        data := stored d n } := by
  obtain ⟨start, count, hblocks, hfit⟩ := hplaced
  cases count with
  | zero =>
    have hnil : n.blocks = [] := hblocks
    have hstored : stored d n = [] := by
      rw [stored, hnil, List.flatMap_nil, List.take_nil]
    refine ⟨start, 0, hblocks, ?_⟩
    rw [loadFile_nil d path mode hn hnil, hstored, hnil]
    exact ⟨rfl, rfl⟩
  | succ count =>
    refine ⟨start, count + 1, hblocks, ?_⟩
    rw [loadFile_run path mode hn htotal hblocks (hfit (Nat.succ_pos count)).2, hblocks]
    exact ⟨rfl, rfl⟩

/-- What a node becomes that takes over the run of its file. -/
theorem recordRun_lookup {v : VirtualFileSystem} {i j : Nat} {f : File} {size : Nat} {n' : VFSNode}
    (h : (FileService.recordRun v i f size).lookup j = some n') :
    ∃ n, v.lookup j = some n ∧
      ((j ≠ i ∨ f.startSector = none) ∧ n' = n ∨
        j = i ∧ f.startSector ≠ none ∧ n' = { n with size := size, blocks := f.run }) := by
  cases hstart : f.startSector with
  | none =>
    simp only [FileService.recordRun, hstart] at h
    exact ⟨n', h, Or.inl ⟨Or.inr rfl, rfl⟩⟩
  | some start =>
    simp only [FileService.recordRun, hstart, lookup, HashMap.lookup_adjust] at h
    split at h
    · next hj =>
      subst hj
      obtain ⟨n, hn, rfl⟩ := Option.map_eq_some_iff.1 h
      exact ⟨n, hn, Or.inr ⟨rfl, by simp, rfl⟩⟩
    · next hj => exact ⟨n', h, Or.inl ⟨Or.inl hj, rfl⟩⟩

theorem recordRun_next (v : VirtualFileSystem) (i : Nat) (f : File) (size : Nat) :
    (FileService.recordRun v i f size).nextInode = v.nextInode ∧
      (FileService.recordRun v i f size).rootInode = v.rootInode := by
  simp only [FileService.recordRun]
  split
  · exact ⟨rfl, rfl⟩
  · exact ⟨rfl, rfl⟩

theorem planted_recordRun {total : Nat} {v : VirtualFileSystem} (h : Planted total v) {i : Nat} {f : File}
    (size : Nat) (hrun : PlacedRun total f.run) : Planted total (FileService.recordRun v i f size) := by
  obtain ⟨hnext, hroot⟩ := recordRun_next v i f size
  refine ⟨hroot.trans h.root_eq, by rw [hnext]; exact h.next_pos, ?_, ?_⟩
  · intro n' hn'
    obtain ⟨n, hn, hcases⟩ := recordRun_lookup hn'
    have hdir := h.root_dir n hn
    rcases hcases with ⟨-, rfl⟩ | ⟨-, -, rfl⟩
    · exact hdir
    · exact hdir
  · intro j n' hn'
    obtain ⟨n, hn, hcases⟩ := recordRun_lookup hn'
    obtain ⟨hinode, hlt, hplaced⟩ := h.node j n hn
    rw [hnext]
    rcases hcases with ⟨-, rfl⟩ | ⟨rfl, -, rfl⟩
    · exact ⟨hinode, hlt, hplaced⟩
    · exact ⟨hinode, hlt, hrun⟩

/-- The node of a file takes over its run, and the disk keeps its size. -/
theorem located_recordRun {s : FileService} (h : Located s) {i : Nat} {f : File} {d : SectorDisk}
    (size : Nat) (hd : d.Sized) (htotal : d.totalSectors = s.disk.totalSectors)
    (hrun : PlacedRun d.totalSectors f.run) :
    Located { s with disk := d, vfs := FileService.recordRun s.vfs i f size } := by
  obtain ⟨hnext, -⟩ := recordRun_next s.vfs i f size
  have hplanted := planted_recordRun (i := i) (f := f) h.planted size (by rw [← htotal]; exact hrun)
  rw [← htotal] at hplanted
  refine ⟨hd, by rw [htotal]; exact h.total_lt, h.issued, hplanted, ?_, ?_⟩
  · intro j g hg
    rw [hnext, htotal]
    exact h.file j g hg
  · intro j g n' hg hn'
    obtain ⟨n, hn, hcases⟩ := recordRun_lookup hn'
    have hfile := h.isFile j g n hg hn
    rcases hcases with ⟨-, rfl⟩ | ⟨rfl, -, rfl⟩
    · exact hfile
    · exact hfile

/-- A file in memory is replaced by another state of the same file. -/
theorem located_setFile {s : FileService} (h : Located s) {i : Nat} {f f' : File}
    (hf : s.openFiles.lookup i = some f) (hinode : f'.inode = f.inode)
    (hrun : PlacedRun s.disk.totalSectors f'.run) : Located (s.setFile i f') := by
  refine ⟨h.sized, h.total_lt, h.issued, h.planted, ?_, ?_⟩
  · intro j g hg
    rw [lookup_setFile] at hg
    split at hg
    · next hj =>
      subst hj
      cases hg
      obtain ⟨hi, hlt, -⟩ := h.file j f hf
      exact ⟨hinode.trans hi, hlt, hrun⟩
    · exact h.file j g hg
  · intro j g n hg hn
    rw [lookup_setFile] at hg
    split at hg
    · next hj =>
      subst hj
      exact h.isFile j f n hf hn
    · exact h.isFile j g n hg hn

/-- The disk is replaced by another one of the same size. -/
theorem located_setDisk {s : FileService} (h : Located s) {d : SectorDisk} (hd : d.Sized)
    (htotal : d.totalSectors = s.disk.totalSectors) : Located { s with disk := d } := by
  have hplanted := h.planted
  rw [← htotal] at hplanted
  refine ⟨hd, by rw [htotal]; exact h.total_lt, h.issued, hplanted, ?_, h.isFile⟩
  intro i f hf
  rw [htotal]
  exact h.file i f hf

/-- The outcome of bringing a file to disk, in one term. -/
theorem persist_eq (s : FileService) (i : Nat) (f : File) :
    s.persist i f = { s.setFile i (f.syncToDisk s.disk).2.1 with
      disk := (f.syncToDisk s.disk).2.2
      vfs := if (f.syncToDisk s.disk).1.isOk then
          FileService.recordRun s.vfs (f.syncToDisk s.disk).2.1.inode (f.syncToDisk s.disk).2.1
            (f.syncToDisk s.disk).2.1.data.length
        else s.vfs } := by
  rw [FileService.persist]
  rcases f.syncToDisk s.disk with ⟨result | result, f', d⟩
  · rfl
  · rfl

theorem write_ok {f : File} (data : List UInt8) (hmode : f.mode ≠ .read) :
    (f.write data).2.inode = f.inode ∧ (f.write data).2.dirty = true ∧ (f.write data).2.run = f.run ∧
      (f.write data).2.data = f.dataAfter data ∧ (f.write data).2.startSector = f.startSector := by
  rw [File.write, if_neg hmode]
  exact ⟨rfl, rfl, rfl, rfl, rfl⟩

theorem SameStore.isFile_eq {n n' : VFSNode} (h : SameStore n n') : n'.isFile = n.isFile := by
  rw [VFSNode.isFile, VFSNode.isFile, h.type_eq]

theorem planted_regrown {total : Nat} {v v' : VirtualFileSystem} (h : Planted total v)
    (hv : Regrown v v') : Planted total v' := by
  refine ⟨hv.root_eq.trans h.root_eq, Nat.lt_of_lt_of_le h.next_pos hv.next_le, ?_, ?_⟩
  · intro n' hn'
    rcases hv.node 0 n' hn' with ⟨n, hn, hsame⟩ | hfresh
    · rw [SameStore.isFile_eq hsame]
      exact h.root_dir n hn
    · exact absurd h.next_pos (Nat.not_lt.2 hfresh.low)
  · intro i n' hn'
    rcases hv.node i n' hn' with ⟨n, hn, hsame⟩ | hfresh
    · obtain ⟨hinode, hlt, hplaced⟩ := h.node i n hn
      exact ⟨hsame.inode_eq.trans hinode, Nat.lt_of_lt_of_le hlt hv.next_le,
        by rw [hsame.blocks_eq]; exact hplaced⟩
    · exact ⟨hfresh.inode_eq, hfresh.high, by rw [hfresh.blocks_eq]; exact placedRun_nil _⟩

theorem located_tree {s : FileService} (h : Located s) {v : VirtualFileSystem} (hv : Regrown s.vfs v) :
    Located { s with vfs := v } := by
  refine ⟨h.sized, h.total_lt, h.issued, planted_regrown h.planted hv, ?_, ?_⟩
  · intro i f hf
    obtain ⟨hinode, hlt, hplaced⟩ := h.file i f hf
    exact ⟨hinode, Nat.lt_of_lt_of_le hlt hv.next_le, hplaced⟩
  · intro i f n' hf hn'
    rcases hv.node i n' hn' with ⟨n, hn, hsame⟩ | hfresh
    · rw [SameStore.isFile_eq hsame]
      exact h.isFile i f n hf hn
    · -- a number that was not given out yet belongs to no file
      exact absurd (h.file i f hf).2.1 (Nat.not_lt.2 hfresh.low)

theorem located_step {ok : SectorDisk → File → Prop} (s s' : FileService) (hstep : FileStep ok s s')
    (h : Located s) : Located s' := by
  cases hstep with
  | descriptors m hissued _ => exact ⟨h.sized, h.total_lt, hissued h.issued, h.planted, h.file, h.isFile⟩
  | tree v hv => exact located_tree h hv.regrown
  | cursor i f f' hf hsame =>
    exact located_setFile h hf hsame.inode_eq (by rw [hsame.run_eq]; exact (h.file i f hf).2.2)
  | load k n path mode hn hfile hnone =>
    obtain ⟨hinode, hlt, hplaced⟩ := h.planted.node k n hn
    subst hinode
    -- the loaded file has the run of its node
    obtain ⟨start, count, -, hrun, heq⟩ := loadFile_spec path mode hn h.total_lt hplaced
    refine ⟨h.sized, h.total_lt, h.issued, h.planted, ?_, ?_⟩
    · intro j g hg
      rw [lookup_setFile] at hg
      split at hg
      · next hj =>
        subst hj
        cases hg
        exact ⟨by rw [heq]; rfl, hlt, by rw [hrun]; exact hplaced⟩
      · exact h.file j g hg
    · intro j g m hg hm
      rw [lookup_setFile] at hg
      split at hg
      · next hj =>
        subst hj
        rw [Option.some.inj (hm.symm.trans hn)]
        exact hfile
      · exact h.isFile j g m hg hm
  | write i f data hf hmode _ =>
    obtain ⟨hinode, hdirty, hrun, -, -⟩ := write_ok data hmode
    -- the run after the sync is on the disk, whether it is the new one or the old
    obtain ⟨hd, htotal, hinode', hplaced⟩ := syncToDisk_sized (d := s.disk) h.sized hdirty
    rw [hrun] at hplaced
    have hplaced' := hplaced (h.file i f hf).2.2
    have hset := located_setFile h hf (hinode'.trans hinode) hplaced'
    rw [persist_eq]
    split
    · exact located_recordRun hset _ hd htotal (by rw [htotal]; exact hplaced')
    · exact located_setDisk hset hd htotal
  | sync i f hf hdirty =>
    obtain ⟨hd, htotal, hinode', hplaced⟩ := syncToDisk_sized (d := s.disk) h.sized hdirty
    exact located_setDisk (located_setFile h hf hinode' (hplaced (h.file i f hf).2.2)) hd htotal

/-! ## With room for every write -/

/-- A write finds room for the bytes of its file, or the file has no run that it could lose. -/
def Roomy (d : SectorDisk) (f : File) : Prop :=
  f.run = [] ∨ File.neededSectors f.data ≠ 0 ∧ f.HasRoom d

/-- An inode has a sector, by its node or by its file. -/
def Names (s : FileService) (i b : Nat) : Prop :=
  (∃ n, s.vfs.lookup i = some n ∧ b ∈ n.blocks) ∨ ∃ f, s.openFiles.lookup i = some f ∧ b ∈ f.run

/-- A file with bytes that only memory has has no run, the sectors of all files are in use, and no two
inodes have one in common. -/
structure Apart (s : FileService) : Prop where
  located : Located s
  dirty : ∀ i f, s.openFiles.lookup i = some f → f.dirty = true → f.run = []
  used : ∀ i b, Names s i b → s.disk.bitmap.isFree b = false
  own : ∀ i j b, Names s i b → Names s j b → i = j

theorem Names.vfs {s : FileService} {i b : Nat} {n : VFSNode} (hn : s.vfs.lookup i = some n)
    (hb : b ∈ n.blocks) : Names s i b := Or.inl ⟨n, hn, hb⟩

theorem Names.file {s : FileService} {i b : Nat} {f : File} (hf : s.openFiles.lookup i = some f)
    (hb : b ∈ f.run) : Names s i b := Or.inr ⟨f, hf, hb⟩

/-- One inode gets a run that is in nobody's way; the other names are old ones, still in use. -/
theorem apart_placed {s s' : FileService} (h : Apart s) (hlocated : Located s') (i : Nat) (run : List Nat)
    (hdirty : ∀ j f, s'.openFiles.lookup j = some f → f.dirty = true → f.run = [])
    (hnames : ∀ j b, Names s' j b →
      j = i ∧ b ∈ run ∨ Names s j b ∧ s'.disk.bitmap.isFree b = false)
    (hrun : ∀ b ∈ run, s'.disk.bitmap.isFree b = false ∧ ∀ j, j ≠ i → ¬Names s j b) : Apart s' := by
  -- who names a sector of the new run is the inode
  have howner : ∀ j b, b ∈ run → Names s j b → j = i := by
    intro j b hb hj
    by_contra hne
    exact (hrun b hb).2 j hne hj
  refine ⟨hlocated, hdirty, ?_, ?_⟩
  · intro j b hb
    rcases hnames j b hb with ⟨-, hin⟩ | ⟨-, hused⟩
    · exact (hrun b hin).1
    · exact hused
  · intro j k b hj hk
    rcases hnames j b hj with ⟨rfl, hin⟩ | ⟨hold, -⟩
    · rcases hnames k b hk with ⟨rfl, -⟩ | ⟨hold', -⟩
      · rfl
      · exact (howner k b hin hold').symm
    · rcases hnames k b hk with ⟨rfl, hin⟩ | ⟨hold', -⟩
      · exact howner j b hin hold
      · exact h.own j k b hold hold'

/-- On the same disk, fewer names are still apart. -/
theorem Apart.of_names {s s' : FileService} (h : Apart s) (hlocated : Located s')
    (hdisk : s'.disk = s.disk) (hnames : ∀ i b, Names s' i b → Names s i b)
    (hdirty : ∀ i f, s'.openFiles.lookup i = some f → f.dirty = true → f.run = []) : Apart s' := by
  refine ⟨hlocated, hdirty, ?_, ?_⟩
  · intro i b hb
    rw [hdisk]
    exact h.used i b (hnames i b hb)
  · intro i j b hi hj
    exact h.own i j b (hnames i b hi) (hnames j b hj)

theorem apart_tree {s : FileService} (h : Apart s) {v : VirtualFileSystem} (hv : Regrown s.vfs v) :
    Apart { s with vfs := v } := by
  refine h.of_names (located_tree h.located hv) rfl ?_ h.dirty
  rintro i b (⟨n', hn', hb⟩ | hfile)
  · rcases hv.node i n' hn' with ⟨n, hn, hsame⟩ | hfresh
    · exact Names.vfs hn (by rw [← hsame.blocks_eq]; exact hb)
    · rw [hfresh.blocks_eq] at hb
      cases hb
  · exact Or.inr hfile

/-- After a file was replaced, a file is the new one or an old one. -/
theorem setFile_cases {s : FileService} {i j : Nat} {f g : File}
    (h : (s.setFile i f).openFiles.lookup j = some g) :
    j = i ∧ g = f ∨ j ≠ i ∧ s.openFiles.lookup j = some g := by
  rw [lookup_setFile] at h
  split at h
  · next hj =>
    cases h
    exact Or.inl ⟨hj, rfl⟩
  · next hj => exact Or.inr ⟨hj, h⟩

/-- A file in memory is replaced by one that names no more. -/
theorem apart_setFile {s : FileService} (h : Apart s) {i : Nat} {f : File}
    (hlocated : Located (s.setFile i f)) (hdirty : f.dirty = true → f.run = [])
    (hnames : ∀ b ∈ f.run, Names s i b) : Apart (s.setFile i f) := by
  refine h.of_names hlocated rfl ?_ ?_
  · rintro j b (hnode | ⟨g, hg, hb⟩)
    · exact Or.inl hnode
    · rcases setFile_cases hg with ⟨rfl, rfl⟩ | ⟨-, hold⟩
      · exact hnames b hb
      · exact Names.file hold hb
  · intro j g hg
    rcases setFile_cases hg with ⟨rfl, rfl⟩ | ⟨-, hold⟩
    · exact hdirty
    · exact h.dirty j g hold

/-- The sectors that a sync takes are nobody else's, and nobody else's sectors are given back. -/
theorem run_free_of_others {s : FileService} (h : Apart s) {i : Nat} {f : File} {d : SectorDisk}
    {start count : Nat} (hold : ∀ b ∈ f.run, Names s i b)
    (hrun : FreeRun (f.released s.disk).bitmap.isFree start count)
    (hfree : ∀ n, d.bitmap.isFree n = if start ≤ n ∧ n < start + count then false
      else (f.released s.disk).bitmap.isFree n) :
    (∀ b ∈ List.range' start count, d.bitmap.isFree b = false ∧ ∀ j, j ≠ i → ¬Names s j b) ∧
      ∀ j b, b ∉ f.run → Names s j b → d.bitmap.isFree b = false := by
  have hkept : ∀ j b, b ∉ f.run → Names s j b → (f.released s.disk).bitmap.isFree b = false := by
    intro j b hnot hb
    rw [(f.released_spec s.disk).2 b, if_neg]
    · exact h.used j b hb
    · rintro ⟨hin, -⟩
      exact hnot hin
  constructor
  · intro b hb
    have hin := List.mem_range'_1.1 hb
    refine ⟨by rw [hfree, if_pos hin], ?_⟩
    intro j hj hnames
    -- the old run is the inode's own, so the sector was in use and not given back
    have hset := hkept j b (fun hmem => hj (h.own j i b hnames (hold b hmem))) hnames
    rw [hrun b hin.1 hin.2] at hset
    cases hset
  · intro j b hnot hb
    rw [hfree]
    split
    · rfl
    · exact hkept j b hnot hb

theorem released_of_run_nil {f : File} {d : SectorDisk} (h : f.run = []) : f.released d = d := by
  rw [File.released]
  cases hstart : f.startSector with
  | none => rfl
  | some start =>
    have hcount : f.sectorCount = 0 := by
      rw [File.run, hstart] at h
      simpa using h
    simp only [hcount, Nat.lt_irrefl, gt_iff_lt, if_false]

/-- Names of nodes and files after a sync of one file: those of the new run, and old ones that were not
given back. -/
theorem apart_synced {s s' : FileService} (h : Apart s) (hlocated : Located s') {i : Nat} {f : File}
    (hdirty : f.dirty = true) (hold : ∀ b ∈ f.run, Names s i b) (hroom : Roomy s.disk f)
    (hdisk : s'.disk = (f.syncToDisk s.disk).2.2)
    (hfiles : ∀ j g, s'.openFiles.lookup j = some g →
      j = i ∧ g = (f.syncToDisk s.disk).2.1 ∨ j ≠ i ∧ s.openFiles.lookup j = some g)
    (hnodes : ∀ j n, s'.vfs.lookup j = some n →
      j = i ∧ n.blocks = (f.syncToDisk s.disk).2.1.run ∨
        (j = i → f.run = []) ∧ ∃ m, s.vfs.lookup j = some m ∧ n.blocks = m.blocks) : Apart s' := by
  -- without a new run there was no old one, and the disk stays as it is
  have hquiet : (f.syncToDisk s.disk).2.1.run = [] → s'.disk = s.disk → Apart s' := by
    intro hrun hsame
    apply h.of_names hlocated hsame
    · rintro j b (⟨n, hn, hb⟩ | ⟨g, hg, hb⟩)
      · rcases hnodes j n hn with ⟨rfl, hblocks⟩ | ⟨-, m, hm, hblocks⟩
        · rw [hblocks, hrun] at hb
          cases hb
        · exact Names.vfs hm (by rw [← hblocks]; exact hb)
      · rcases hfiles j g hg with ⟨rfl, rfl⟩ | ⟨-, hg'⟩
        · rw [hrun] at hb
          cases hb
        · exact Names.file hg' hb
    · intro j g hg
      rcases hfiles j g hg with ⟨rfl, rfl⟩ | ⟨-, hg'⟩
      · exact fun _ => hrun
      · exact h.dirty j g hg'
  by_cases hneeded : File.neededSectors f.data = 0
  · have hnil : f.run = [] := hroom.resolve_right fun hr => hr.1 hneeded
    rw [File.syncToDisk_empty hdirty hneeded] at hquiet hdisk
    exact hquiet rfl (by rw [hdisk]; exact released_of_run_nil hnil)
  · by_cases hrun : f.HasRoom s.disk
    · obtain ⟨start, d, hsync, -, -, hfree, -, -, hbits, -, -⟩ :=
        File.syncToDisk_synced h.located.sized hdirty hneeded hrun
      rw [hsync] at hdisk hfiles hnodes
      obtain ⟨hin, hout⟩ := run_free_of_others (d := d) h hold hfree hbits
      -- a name of another inode is not in the old run of this one
      have hother : ∀ j b, j ≠ i → Names s j b → b ∉ f.run := by
        intro j b hj hb hmem
        exact hj (h.own j i b hb (hold b hmem))
      apply apart_placed h hlocated i (List.range' start (File.neededSectors f.data))
      · intro j g hg
        rcases hfiles j g hg with ⟨rfl, rfl⟩ | ⟨-, hg'⟩
        · intro hclean
          cases hclean
        · exact h.dirty j g hg'
      · rw [hdisk]
        rintro j b (⟨n, hn, hb⟩ | ⟨g, hg, hb⟩)
        · rcases hnodes j n hn with ⟨rfl, hblocks⟩ | ⟨hnil, m, hm, hblocks⟩
          · exact Or.inl ⟨rfl, by rw [hblocks] at hb; exact hb⟩
          · rw [hblocks] at hb
            refine Or.inr ⟨Names.vfs hm hb, hout j b ?_ (Names.vfs hm hb)⟩
            by_cases hj : j = i
            · rw [hnil hj]
              exact List.not_mem_nil
            · exact hother j b hj (Names.vfs hm hb)
        · rcases hfiles j g hg with ⟨rfl, rfl⟩ | ⟨hj, hg'⟩
          · exact Or.inl ⟨rfl, hb⟩
          · exact Or.inr ⟨Names.file hg' hb, hout j b (hother j b hj (Names.file hg' hb)) (Names.file hg' hb)⟩
      · rw [hdisk]
        exact hin
    · have hnil : f.run = [] := hroom.resolve_right fun hr => hrun hr.2
      obtain ⟨e, hsync⟩ := File.syncToDisk_refused h.located.sized hdirty hneeded hrun
      rw [hsync] at hquiet hdisk
      exact hquiet hnil (by rw [hdisk]; exact released_of_run_nil hnil)

/-- A node that did not take over a run: then there was none to lose. -/
theorem recordRun_cases {v : VirtualFileSystem} {d : SectorDisk} {i : Nat} {f : File} {size : Nat}
    (hd : d.Sized) (hdirty : f.dirty = true) (hroom : Roomy d f) {j : Nat} {n : VFSNode}
    (h : (FileService.recordRun v i (f.syncToDisk d).2.1 size).lookup j = some n) :
    j = i ∧ n.blocks = (f.syncToDisk d).2.1.run ∨
      (j = i → f.run = []) ∧ ∃ m, v.lookup j = some m ∧ n.blocks = m.blocks := by
  obtain ⟨m, hm, ⟨hkept, rfl⟩ | ⟨rfl, -, rfl⟩⟩ := recordRun_lookup h
  · refine Or.inr ⟨?_, n, hm, rfl⟩
    intro hj
    have hnone := hkept.resolve_left (fun hne => hne hj)
    rcases hroom with hnil | ⟨hneeded, hrun⟩
    · exact hnil
    · obtain ⟨start, d', hsync, -⟩ := File.syncToDisk_synced hd hdirty hneeded hrun
      rw [hsync] at hnone
      cases hnone
  · exact Or.inl ⟨rfl, rfl⟩

theorem apart_write {s : FileService} (h : Apart s) {i : Nat} {f : File} {data : List UInt8}
    (hf : s.openFiles.lookup i = some f) (hmode : f.mode ≠ .read) (hok : Roomy s.disk (f.write data).2)
    (hlocated : Located (s.persist i (f.write data).2)) : Apart (s.persist i (f.write data).2) := by
  obtain ⟨hinode, hdirty, hrun, -, -⟩ := write_ok data hmode
  have hi := (h.located.file i f hf).1
  have hinode' := (syncToDisk_sized (d := s.disk) h.located.sized hdirty).2.2.1
  rw [persist_eq] at hlocated ⊢
  apply apart_synced h hlocated hdirty (fun b hb => Names.file hf (by rw [← hrun]; exact hb)) hok rfl
  · intro j g hg
    exact setFile_cases hg
  · intro j n hn
    simp only at hn
    split at hn
    · rw [hinode', hinode, hi] at hn
      exact recordRun_cases h.located.sized hdirty hok hn
    · next herror =>
      -- only a file without a run is refused
      refine Or.inr ⟨?_, n, hn, rfl⟩
      intro _
      rcases hok with hnil | ⟨hneeded, hroom⟩
      · exact hnil
      · obtain ⟨start, d', hsync, -⟩ := File.syncToDisk_synced h.located.sized hdirty hneeded hroom
        rw [hsync] at herror
        exact absurd rfl herror

theorem apart_step (s s' : FileService) (hstep : FileStep Roomy s s') (h : Apart s) : Apart s' := by
  have hlocated := located_step s s' hstep h.located
  cases hstep with
  | descriptors m _ _ => exact h.of_names hlocated rfl (fun _ _ hb => hb) h.dirty
  | tree v hv => exact apart_tree h hv.regrown
  | cursor i f f' hf hsame =>
    apply apart_setFile h hlocated
    · rw [hsame.dirty_eq, hsame.run_eq]
      exact h.dirty i f hf
    · intro b hb
      rw [hsame.run_eq] at hb
      exact Names.file hf hb
  | load k n path mode hn _ _ =>
    obtain ⟨rfl, -, hplaced⟩ := h.located.planted.node k n hn
    obtain ⟨start, count, -, hrun, heq⟩ := loadFile_spec path mode hn h.located.total_lt hplaced
    apply apart_setFile h hlocated
    · intro hdirty
      rw [heq] at hdirty
      cases hdirty
    · intro b hb
      rw [hrun] at hb
      exact Names.vfs hn hb
  | write i f data hf hmode hok => exact apart_write h hf hmode hok hlocated
  | sync i f hf hdirty =>
    -- a dirty file has no run, and its node is not told of the one that it gets
    have hnil := h.dirty i f hf hdirty
    apply apart_synced h hlocated hdirty (fun b hb => Names.file hf hb) (Or.inl hnil) rfl
    · intro j g hg
      exact setFile_cases hg
    · intro j n hn
      exact Or.inr ⟨fun _ => hnil, n, hn, rfl⟩

/-! ## The first start -/

/-- A file of the host gets a run that nobody has, or nothing changes on disk. -/
theorem apart_importFile {s : FileService} (h : Apart s) (hnone : s.openFiles = ∅)
    (host : String × List UInt8) :
    Apart (s.importFile host) ∧ (s.importFile host).openFiles = ∅ := by
  have hregrown := (treeSteps_importNode s.vfs host.1).regrown
  rw [FileService.importFile]
  split
  · exact ⟨h, hnone⟩
  · split
    · next himport =>
      rw [himport] at hregrown
      exact ⟨apart_tree h hregrown, hnone⟩
    · next i v himport =>
      rw [himport] at hregrown
      obtain ⟨-, hdirty, hrun, -, -⟩ := write_ok (f := File.new i ("/programs" ++ "/" ++ host.1) .write)
        host.2 (by simp [File.new])
      have htree := apart_tree h hregrown
      obtain ⟨hd, htotal, -, hplaced⟩ := syncToDisk_sized (d := s.disk) h.located.sized hdirty
      have hplaced' := hplaced (by rw [hrun]; exact placedRun_nil _)
      rw [← htotal] at hplaced'
      have hlocated := located_recordRun (i := i) htree.located host.2.length hd htotal hplaced'
      refine ⟨?_, hnone⟩
      apply apart_synced htree (i := i) hlocated hdirty (by rw [hrun]; intro b hb; cases hb) (Or.inl hrun) rfl
      · intro j g hg
        rw [hnone] at hg
        cases hg
      · intro j n hn
        exact recordRun_cases h.located.sized hdirty (Or.inl hrun) hn

theorem apart_importHostFiles {s : FileService} (h : Apart s) (hnone : s.openFiles = ∅)
    (hosts : List (String × List UInt8)) : Apart (s.importHostFiles hosts) := by
  have hboth : Apart (s.importHostFiles hosts) ∧ (s.importHostFiles hosts).openFiles = ∅ := by
    apply List.foldlRecOn (motive := fun s : FileService => Apart s ∧ s.openFiles = ∅)
    · exact ⟨h, hnone⟩
    · intro s' hs' host _
      exact apart_importFile hs'.1 hs'.2 host
  exact hboth.1

theorem treeSteps_new : TreeSteps rootOnly VirtualFileSystem.new := by
  have hdirectories : TreeSteps rootOnly withDirectories :=
    List.foldlRecOn standardDirectories _ Relation.ReflTransGen.refl
      fun v hv name _ => hv.tail (TreeStep.createDirectory v 0 name 0)
  rw [VirtualFileSystem.new]
  split
  · next programs _ =>
    exact List.foldlRecOn programFiles _ hdirectories
      fun v hv name _ => hv.tail (TreeStep.createFile v programs name 0)
  · exact hdirectories

theorem regrown_new : Regrown rootOnly VirtualFileSystem.new := treeSteps_new.regrown

theorem rootOnly_lookup {i : Nat} {n : VFSNode} (h : rootOnly.lookup i = some n) :
    i = 0 ∧ n = VFSNode.new 0 "/" .directory none 0 := by
  simp only [rootOnly, lookup, HashMap.lookup_insert_eq] at h
  split at h
  · next hi =>
    cases h
    exact ⟨hi, rfl⟩
  · cases h

theorem planted_rootOnly (total : Nat) : Planted total rootOnly := by
  refine ⟨rfl, Nat.one_pos, ?_, ?_⟩
  · intro n hn
    obtain ⟨-, rfl⟩ := rootOnly_lookup hn
    rfl
  · intro i n hn
    obtain ⟨rfl, rfl⟩ := rootOnly_lookup hn
    exact ⟨rfl, Nat.one_pos, placedRun_nil _⟩

/-- A start on a new image: no file has a sector. -/
theorem apart_boot {diskSize : Nat} (hsize : 8 ≤ diskSize / 512 % 2 ^ 32) (maxFds : Nat)
    (hosts : List (String × List UInt8)) : Apart (FileService.boot diskSize maxFds hosts) := by
  have hroot : Apart (FileService.new rootOnly (SectorDisk.create (diskSize / 512 % 2 ^ 32)) maxFds) := by
    refine ⟨⟨SectorDisk.sized_create hsize, Nat.mod_lt _ (by decide),
      FileDescriptorManager.issued_new maxFds, planted_rootOnly _, ?_, ?_⟩, ?_, ?_, ?_⟩
    · intro i f hf
      cases hf
    · intro i f n hf
      cases hf
    · intro i f hf
      cases hf
    · rintro i b (⟨n, hn, hb⟩ | ⟨f, hf, -⟩)
      · obtain ⟨rfl, rfl⟩ := rootOnly_lookup hn
        cases hb
      · cases hf
    · rintro i j b (⟨n, hn, hb⟩ | ⟨f, hf, -⟩)
      · obtain ⟨rfl, rfl⟩ := rootOnly_lookup hn
        cases hb
      · cases hf
  exact apart_importHostFiles (apart_tree hroot regrown_new) rfl hosts

/-! ## Whole runs -/

/-- No two files of the tree share a sector, and every sector of a file is one of the disk, behind the
metadata and in use. -/
structure SectorsApart (s : FileService) : Prop where
  disjoint : ∀ i j n m, s.vfs.lookup i = some n → s.vfs.lookup j = some m → n.isFile = true →
    m.isFile = true → i ≠ j → n.blocks.Disjoint m.blocks
  inside : ∀ i n, s.vfs.lookup i = some n → n.isFile = true → ∀ b ∈ n.blocks,
    4 ≤ b ∧ b < s.disk.totalSectors ∧ s.disk.bitmap.isFree b = false

theorem Apart.sectorsApart {s : FileService} (h : Apart s) : SectorsApart s := by
  constructor
  · intro i j n m hn hm _ _ hne b hb hb'
    exact hne (h.own i j b (Names.vfs hn hb) (Names.vfs hm hb'))
  · intro i n hn _ b hb
    obtain ⟨-, -, start, count, hblocks, hfit⟩ := h.located.planted.node i n hn
    have hin : b ∈ List.range' start count := by
      rw [← hblocks]
      exact hb
    have hbounds := List.mem_range'_1.1 hin
    obtain ⟨hlow, hhigh⟩ := hfit (by omega)
    exact ⟨by omega, by omega, h.used i b (Names.vfs hn hb)⟩

/-- The handling of every request keeps the files apart, if what it writes finds room. -/
theorem apart_take {s : FileService} (h : Apart s) {e : FileEvent} (hroom : Guarded Roomy s e.req) :
    Apart (s.take e) :=
  take_invariant apart_step hroom h

/-- Files never share sectors in a run in which every write to a file that has a run finds room. -/
theorem blocks_apart {diskSize : Nat} (hsize : 8 ≤ diskSize / 512 % 2 ^ 32) (maxFds : Nat)
    (hosts : List (String × List UInt8)) (events : List FileEvent)
    (hroom : ∀ t ∈ (runTrace fileTransition (FileService.boot diskSize maxFds hosts) events).2,
      Guarded Roomy t.pre t.act.req) :
    SectorsApart (FileService.boot diskSize maxFds hosts) ∧
      ∀ t ∈ (runTrace fileTransition (FileService.boot diskSize maxFds hosts) events).2,
        SectorsApart t.post := by
  have hboot := apart_boot hsize maxFds hosts
  obtain ⟨-, hall⟩ := fileTrace_invariant hboot events fun t ht hpre => apart_take hpre (hroom t ht)
  exact ⟨hboot.sectorsApart, fun t ht => (hall t ht).2.sectorsApart⟩

/-- A file is created and written on a disk of eight sectors. -/
def createAndWrite (path : String) (fd : UInt32) (data : List UInt8) : List FileEvent :=
  [⟨.stored, .open path ⟨true, true, true, false, false⟩, true⟩, ⟨.stored, .writeData fd data, true⟩]

/-- Two files are written, and the first one again. -/
def rewriteEvents : List FileEvent :=
  createAndWrite "/tmp/a" 3 [1] ++ createAndWrite "/tmp/b" 4 [2] ++
    [⟨.stored, .writeData 3 (List.replicate 600 3), true⟩]

/-- The first file moves from sector 4 to sectors 6 and 7, beside the second one in sector 5. -/
theorem blocks_apart_rewritten :
    (((runTrace fileTransition (FileService.boot 4096 256 []) rewriteEvents).1.vfs.lookup 29).map
        VFSNode.blocks = some [6, 7] ∧
      ((runTrace fileTransition (FileService.boot 4096 256 []) rewriteEvents).1.vfs.lookup 30).map
        VFSNode.blocks = some [5]) ∧
    ∀ t ∈ (runTrace fileTransition (FileService.boot 4096 256 []) rewriteEvents).2, SectorsApart t.post := by
  refine ⟨by decide +kernel, (blocks_apart (by decide) 256 [] rewriteEvents ?_).2⟩
  have hopen : ∀ {s : FileService} {path : String} {flags : OpenFlags},
      Guarded Roomy s (.open path flags) := by
    intro s path flags fd data i f hw
    cases hw
  -- a write to a file that has no run yet
  have hfirst : ∀ {s : FileService} {fd : UInt32} {data : List UInt8},
      ((s.fileOf 0 fd).all fun r => (r.2.write data).2.run == []) = true →
        Guarded Roomy s (.writeData fd data) := by
    intro s fd data hnew fd' data' i f hw hf _
    cases hw
    exact Or.inl (by simpa using (Option.all_eq_true _ _).1 hnew (i, f) hf)
  -- a write for which the disk has sectors 6 and 7, once the old run is given back
  have hagain : ∀ {s : FileService} {fd : UInt32} {data : List UInt8},
      ((s.fileOf 0 fd).all fun r => File.neededSectors (r.2.write data).2.data == 2 &&
        decide (8 ≤ ((r.2.write data).2.released s.disk).totalSectors) &&
        [6, 7].all ((r.2.write data).2.released s.disk).bitmap.isFree) = true →
      Guarded Roomy s (.writeData fd data) := by
    intro s fd data hroom fd' data' i f hw hf _
    cases hw
    have hchecked := (Option.all_eq_true _ _).1 hroom (i, f) hf
    simp only [Bool.and_eq_true, beq_iff_eq, decide_eq_true_eq, List.all_cons, List.all_nil] at hchecked
    obtain ⟨⟨hneeded, htotal⟩, hsix, hseven, -⟩ := hchecked
    refine Or.inr ⟨by rw [hneeded]; decide, 6, by decide, by rw [hneeded]; exact htotal, ?_⟩
    intro k hlow hhigh
    rw [hneeded] at hhigh
    obtain rfl | rfl : k = 6 ∨ k = 7 := by omega
    · exact hsix
    · exact hseven
  intro t ht
  simp only [rewriteEvents, createAndWrite, runTrace, fileTransition, List.cons_append, List.nil_append,
    List.mem_cons, List.not_mem_nil, or_false] at ht
  rcases ht with rfl | rfl | rfl | rfl | rfl
  · exact hopen
  · exact hfirst (by decide +kernel)
  · exact hopen
  · exact hfirst (by decide +kernel)
  · exact hagain (by decide +kernel)

/-- The first file outgrows the disk and loses its sector, which the second file gets. -/
theorem blocks_shared :
    ¬SectorsApart (runTrace fileTransition (FileService.boot 4096 256 [])
      (createAndWrite "/tmp/a" 3 [1] ++ [⟨.stored, .writeData 3 (List.replicate 2048 2), true⟩] ++
        createAndWrite "/tmp/b" 4 [3])).1 := by
  intro h
  have hnode : ∀ i ∈ [29, 30], (((runTrace fileTransition (FileService.boot 4096 256 [])
      (createAndWrite "/tmp/a" 3 [1] ++ [⟨.stored, .writeData 3 (List.replicate 2048 2), true⟩] ++
        createAndWrite "/tmp/b" 4 [3])).1.vfs.lookup i).map fun n => (n.isFile, n.blocks)) =
      some (true, [4]) := by
    decide +kernel
  obtain ⟨n, hn, hfirst⟩ := Option.map_eq_some_iff.1 (hnode 29 (by decide))
  obtain ⟨m, hm, hsecond⟩ := Option.map_eq_some_iff.1 (hnode 30 (by decide))
  obtain ⟨hfile, hblocks⟩ := Prod.mk.inj hfirst
  obtain ⟨hfile', hblocks'⟩ := Prod.mk.inj hsecond
  have hdisjoint := h.disjoint 29 30 n m hn hm hfile hfile' (by decide)
  rw [hblocks, hblocks'] at hdisjoint
  exact hdisjoint (List.mem_singleton.2 rfl) (List.mem_singleton.2 rfl)

end GenshinOs.Files
