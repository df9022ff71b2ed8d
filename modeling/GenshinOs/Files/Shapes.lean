import GenshinOs.Files.Names
import GenshinOs.Files.Sharing

/-!
# The extent of a file

A node has a size and a list of sectors. They are written together, by the request that brought the bytes
to disk: a sync that fails or has nothing to write leaves both as they were, and a reload takes both over.
So the list is a run on the disk, as long as the size needs (`extents_shaped`). What the disk is asked for
is a 32-bit number, however: from 2^41 bytes on it wraps around, and the node gets a size that its sectors
do not hold (`extent_wrapped`).
-/

set_option autoImplicit false

namespace GenshinOs.Files

open GenshinOs.Lib GenshinOs.Hardware VirtualFileSystem

/-- The disk is asked for as many sectors as the bytes need, or the sync writes none. -/
def Fits (d : SectorDisk) (f : File) : Prop :=
  File.neededSectors f.data = (f.data.length + 511) / 512 ∨ File.neededSectors f.data = 0 ∨ ¬f.HasRoom d

/-- The same for a file of the host that is imported. -/
def ImportFits (s : FileService) (host : String × List UInt8) : Prop :=
  FileService.isImported host.1 = true → ∀ i v, FileService.importNode s.vfs host.1 = (some i, v) →
    Fits s.disk ((File.new i ("/programs" ++ "/" ++ host.1) .write).write host.2).2

/-- Every node has as many sectors as its size needs. -/
def Counted (v : VirtualFileSystem) : Prop :=
  ∀ i n, v.lookup i = some n → n.blocks.length = (n.size + 511) / 512

/-! ## Trees -/

theorem counted_of_sameStore {n n' : VFSNode} (h : SameStore n n')
    (hn : n.blocks.length = (n.size + 511) / 512) : n'.blocks.length = (n'.size + 511) / 512 := by
  rw [h.blocks_eq, h.size_eq]
  exact hn

theorem counted_createNode {v : VirtualFileSystem} (h : Counted v) (nodeType : NodeType) (parent : Nat)
    (name : String) (owner : Pid) : Counted (v.createNode nodeType parent name owner).2 := by
  intro i n' hn'
  rcases lookup_createNode_back hn' with ⟨n, hn, hsame⟩ | hnew
  · exact counted_of_sameStore hsame (h i n hn)
  · exact counted_of_sameStore hnew (by simp [VFSNode.new])

theorem counted_steps {v v' : VirtualFileSystem} (hsteps : TreeSteps v v') (h : Counted v) : Counted v' := by
  induction hsteps with
  | refl => exact h
  | tail _ hlast ih =>
    cases hlast with
    | createFile parent name owner => exact counted_createNode ih .file parent name owner
    | createDirectory parent name owner => exact counted_createNode ih .directory parent name owner
    | delete inode =>
      intro i n' hn'
      obtain ⟨n, hn, hsame⟩ := lookup_delete_back hn'
      exact counted_of_sameStore hsame (ih i n hn)

theorem counted_new : Counted VirtualFileSystem.new := by
  refine counted_steps treeSteps_new ?_
  intro i n hn
  obtain ⟨-, rfl⟩ := rootOnly_lookup hn
  rfl

theorem counted_reload {v : VirtualFileSystem} (hv : Grown v) (h : Counted v) (ord : HashOrder) :
    Counted (loadFromFile (v.saveToFile ord)) := by
  intro i n' hn'
  rcases lookup_reload_cases ord hv hn' with ⟨n, hn, hsame⟩ | ⟨-, hnew⟩
  · have hsize : n'.size = n.size := congrArg SavedNode.size hsame
    have hblocks : n'.blocks = n.blocks := congrArg SavedNode.blocks hsame
    rw [hsize, hblocks]
    exact h i n hn
  · exact counted_new i n' hnew

theorem counted_recordRun {v : VirtualFileSystem} (h : Counted v) (i : Nat) {f : File} {size : Nat}
    (hrun : f.startSector ≠ none → f.run.length = (size + 511) / 512) :
    Counted (FileService.recordRun v i f size) := by
  intro j n' hn'
  obtain ⟨n, hn, ⟨-, rfl⟩ | ⟨-, hstart, rfl⟩⟩ := recordRun_lookup hn'
  · exact h j n' hn
  · exact hrun hstart

/-! ## Syncs -/

/-- The run that a sync leaves, if it leaves one: that of the bytes, unless it failed and the file keeps
the old one. -/
theorem run_synced {f : File} {d : SectorDisk} (hd : d.Sized) (hdirty : f.dirty = true) (hfits : Fits d f)
    (hnew : (f.syncToDisk d).1.isOk = true ∨ f.startSector = none)
    (hstart : (f.syncToDisk d).2.1.startSector ≠ none) :
    (f.syncToDisk d).2.1.run.length = (f.data.length + 511) / 512 := by
  by_cases hneeded : File.neededSectors f.data = 0
  · rw [File.syncToDisk_empty hdirty hneeded] at hstart
    exact absurd rfl hstart
  · by_cases hroom : f.HasRoom d
    · obtain ⟨start, d', hsync, -⟩ := File.syncToDisk_synced hd hdirty hneeded hroom
      rw [hsync, File.run, List.length_range']
      rcases hfits with hfits | hfits | hfits
      · exact hfits
      · exact absurd hfits hneeded
      · exact absurd hroom hfits
    · obtain ⟨e, hsync⟩ := File.syncToDisk_refused hd hdirty hneeded hroom
      rw [hsync] at hnew hstart
      rcases hnew with hok | hnone
      · cases hok
      · exact absurd hnone hstart

theorem counted_step (s s' : FileService) (hstep : FileStep Fits s s') (hs : Located s)
    (h : Counted s.vfs) : Counted s'.vfs := by
  cases hstep with
  | descriptors m _ _ => exact h
  | tree v hv => exact counted_steps hv h
  | cursor i f f' hf hsame => exact h
  | load k n path mode hn hfile hnone => exact h
  | write i f data hf hmode hfits =>
    have hdirty := (write_ok data hmode).2.1
    have hdata : ((f.write data).2.syncToDisk s.disk).2.1.data = (f.write data).2.data :=
      congrArg Cursor.data (cursor_syncToDisk (f.write data).2 s.disk)
    rw [persist_eq]
    dsimp only
    split
    · next hok =>
      rw [hdata]
      exact counted_recordRun h _ (run_synced hs.sized hdirty hfits (Or.inl hok))
    · exact h
  | sync i f hf hdirty => exact h

theorem counted_importFile {s : FileService} (hs : Located s) (h : Counted s.vfs)
    {host : String × List UInt8} (hhost : ImportFits s host) : Counted (s.importFile host).vfs := by
  have hmade := counted_steps (treeSteps_importNode s.vfs host.1) h
  rw [FileService.importFile]
  split
  · exact h
  · next himported =>
    split
    · next himport => rwa [himport] at hmade
    · next i v himport =>
      rw [himport] at hmade
      have hfits := hhost (by simpa using himported) i v himport
      obtain ⟨-, hdirty, -, hdata, hstart⟩ := write_ok (f := File.new i ("/programs" ++ "/" ++ host.1) .write)
        host.2 (by simp [File.new])
      have hbytes : ((File.new i ("/programs" ++ "/" ++ host.1) .write).write host.2).2.data = host.2 := by
        rw [hdata]
        exact Cursor.overwrite_end [] host.2
      have hrun := run_synced hs.sized hdirty hfits (Or.inr hstart)
      rw [hbytes] at hrun
      exact counted_recordRun hmade i hrun

/-! ## Runs -/

/-- The sectors of a node are none, or consecutive ones behind the metadata of the disk; they are as many
as the size needs, and a file that is loaded from them has as many bytes as the size says. -/
structure Shaped (s : FileService) (i : Nat) (n : VFSNode) : Prop where
  run : n.blocks = [] ∨ ∃ start, 4 ≤ start ∧ start + n.blocks.length ≤ s.disk.totalSectors ∧
    n.blocks = List.range' start n.blocks.length
  count : n.blocks.length = (n.size + 511) / 512
  loaded : ∀ path mode, (FileService.loadFile s.vfs s.disk i path mode).data.length = n.size

theorem length_stored (d : SectorDisk) {n : VFSNode} (h : n.blocks.length = (n.size + 511) / 512) :
    (stored d n).length = n.size := by
  have hbytes : (n.blocks.flatMap fun b => (List.range 512).map fun j => d.file (b * 512 + j)).length =
      n.blocks.length * 512 := by
    simp [List.length_flatMap]
  rw [stored, List.length_take, hbytes, h]
  omega

theorem shaped_of_counted {s : FileService} (hs : Located s) (h : Counted s.vfs) {i : Nat} {n : VFSNode}
    (hn : s.vfs.lookup i = some n) : Shaped s i n := by
  obtain ⟨-, -, hplaced⟩ := hs.planted.node i n hn
  have hcount := h i n hn
  refine ⟨?_, hcount, ?_⟩
  · obtain ⟨start, count, hblocks, hfit⟩ := hplaced
    rw [hblocks, List.length_range']
    rcases Nat.eq_zero_or_pos count with rfl | hpos
    · exact Or.inl rfl
    · exact Or.inr ⟨start, (hfit hpos).1, (hfit hpos).2, rfl⟩
  · intro path mode
    obtain ⟨start, count, -, -, hfile⟩ := loadFile_spec path mode hn hs.total_lt hplaced
    rw [hfile]
    exact length_stored s.disk hcount

/-- What carries the shape of the nodes through a run. -/
structure Laid (s : FileService) : Prop where
  located : Located s
  tended : Tended s
  counted : Counted s.vfs

theorem laid_step (s s' : FileService) (hstep : FileStep Fits s s') (h : Laid s) : Laid s' :=
  ⟨located_step s s' hstep h.located, tended_step s s' hstep h.tended,
    counted_step s s' hstep h.located h.counted⟩

theorem laid_of_reachable {diskSize maxFds : Nat} (hsize : 8 ≤ diskSize / 512 % 2 ^ 32) {s : FileService}
    (h : ReachableWith ImportFits Fits diskSize maxFds s) : Laid s := by
  refine h.invariant ?_ ?_ ?_ ?_
  · exact ⟨(apart_boot hsize maxFds []).located, tended_new Evolved.new _ _, counted_new⟩
  · intro s host hhost hs
    exact ⟨located_importFile hs.located host, tended_importFile hs.tended host,
      counted_importFile hs.located hs.counted hhost⟩
  · intro s e hok hs
    exact take_invariant laid_step hok hs
  · intro s ord hs
    exact ⟨located_restart hs.located ord, tended_new (Evolved.reload ord hs.tended.1) _ _,
      counted_reload (grown_of_evolved hs.tended.1) hs.counted ord⟩

/-- In every run whose writes and imports fit, every node has an extent of its size. -/
theorem extents_shaped {diskSize maxFds : Nat} (hsize : 8 ≤ diskSize / 512 % 2 ^ 32) {s : FileService}
    (h : ReachableWith ImportFits Fits diskSize maxFds s) {i : Nat} {n : VFSNode}
    (hn : s.vfs.lookup i = some n) : Shaped s i n :=
  shaped_of_counted (laid_of_reachable hsize h).located (laid_of_reachable hsize h).counted hn

/-- One byte in a new file: one sector. -/
theorem extents_shaped_one_byte : ∃ n,
    (withNewFile.take ⟨.stored, .writeData 3 [1], true⟩).vfs.lookup 29 = some n ∧
      Shaped (withNewFile.take ⟨.stored, .writeData 3 [1], true⟩) 29 n := by
  have hthere : ((withNewFile.take ⟨.stored, .writeData 3 [1], true⟩).vfs.lookup 29).isSome = true := by
    decide +kernel
  have hone : ((withNewFile.fileOf 0 3).all fun r =>
      File.neededSectors (r.2.write [1]).2.data == ((r.2.write [1]).2.data.length + 511) / 512) = true := by
    decide +kernel
  have hopened : ReachableWith ImportFits Fits 4096 256 withNewFile :=
    ReachableWith.take _ (fun _ _ _ _ hw _ _ => by cases hw) (ReachableWith.boot [] trivial)
  have hwritten : ReachableWith ImportFits Fits 4096 256
      (withNewFile.take ⟨.stored, .writeData 3 [1], true⟩) := by
    refine ReachableWith.take _ ?_ hopened
    intro fd data i f hw hf _
    cases hw
    have hneeded := (Option.all_eq_true _ _).1 hone (i, f) hf
    exact Or.inl (by simpa using hneeded)
  obtain ⟨n, hn⟩ := Option.isSome_iff_exists.1 hthere
  exact ⟨n, hn, extents_shaped (by decide) hwritten hn⟩

/-- What a write that finds room makes of the node. -/
theorem node_written {s : FileService} (hs : Located s) {i : Nat} {f : File} {data : List UInt8} {n : VFSNode}
    (hinode : f.inode = i) (hn : s.vfs.lookup i = some n) (hmode : f.mode ≠ .read)
    (hneeded : File.neededSectors (f.dataAfter data) ≠ 0) (hroom : (f.write data).2.HasRoom s.disk) :
    ∃ n', (s.persist i (f.write data).2).vfs.lookup i = some n' ∧ n'.isFile = n.isFile ∧
      n'.size = (f.dataAfter data).length ∧ n'.blocks.length = File.neededSectors (f.dataAfter data) := by
  obtain ⟨hinode', hdirty, -, hdata, -⟩ := write_ok data hmode
  rw [← hdata] at hneeded
  obtain ⟨start, d, hsync, -⟩ := File.syncToDisk_synced hs.sized hdirty hneeded hroom
  refine ⟨{ n with
    size := (f.dataAfter data).length
    blocks := List.range' start (File.neededSectors (f.dataAfter data)) }, ?_, rfl, rfl,
    List.length_range' ..⟩
  rw [persist_eq, hsync, ← hdata]
  dsimp only
  rw [if_pos (by rfl), hinode', hinode, lookup_recordRun s.vfs rfl, if_pos rfl, hn]
  rfl

/-- A file of 2^41 + 1 bytes is taken to need one sector. -/
theorem extent_wrapped :
    Reachable 4096 256 (withNewFile.take ⟨.stored, .write 3 0 0 (2 ^ 41 + 1), true⟩) ∧
      ∃ n, (withNewFile.take ⟨.stored, .write 3 0 0 (2 ^ 41 + 1), true⟩).vfs.lookup 29 = some n ∧
        n.isFile = true ∧ n.size = 2 ^ 41 + 1 ∧ n.blocks.length = 1 ∧
        n.blocks.length ≠ (n.size + 511) / 512 := by
  have hreachable : Reachable 4096 256 withNewFile := Reachable.take _ (Reachable.boot [])
  refine ⟨Reachable.take _ hreachable, ?_⟩
  -- the new file is empty, and sector 4 is free
  have hnew : (withNewFile.fileOf 0 3).map (fun r => (r.1, r.2.inode, r.2.data, r.2.position, r.2.startSector)) =
      some (29, 29, [], 0, none) := by
    decide +kernel
  have hmode' : ((withNewFile.fileOf 0 3).all fun r => decide (r.2.mode ≠ .read)) = true := by decide +kernel
  have hnode : (withNewFile.vfs.lookup 29).map VFSNode.isFile = some true := by decide +kernel
  have hfree : (4 < withNewFile.disk.totalSectors) ∧ withNewFile.disk.bitmap.isFree 4 = true := by
    decide +kernel
  have hlocated := located_of_reachable (by decide) hreachable
  generalize withNewFile = s at *
  obtain ⟨⟨i, f⟩, hfile, hfields⟩ := Option.map_eq_some_iff.1 hnew
  simp only [Prod.mk.injEq] at hfields
  obtain ⟨rfl, hinode, hempty, hposition, hstart⟩ := hfields
  obtain ⟨n, hn, hisFile⟩ := Option.map_eq_some_iff.1 hnode
  have hmode : f.mode ≠ .read := by simpa [hfile] using hmode'
  have hplace : f.writePos = ([] : List UInt8).length := by
    rw [File.writePos, hempty, hposition]
    split
    · rfl
    · rfl
  have htaken : ∀ size, size ≤ isizeMax → s.take ⟨.stored, .write 3 0 0 size, true⟩ =
      s.persist 29 (f.write (List.replicate size 0)).2 := by
    intro size hsize
    -- there is a vector of that length, and the empty file grows to it
    have hbuffer : (zeroed size).isNone = false := by
      rw [zeroed_of_le hsize]
      rfl
    have hgrown : (f.writeWords (List.replicate size 0)).isNone = false := by
      rw [File.writeWords_eq (by rw [hplace, List.length_replicate]; simpa using hsize)]
      rfl
    have hgoes : s.panics (.write 3 0 0 size) = false := by
      simp only [FileService.panics, hbuffer, hfile, Option.any_some, hgrown, Bool.or_false]
    simp only [FileService.take, hgoes, if_true, FileService.handleEnvelope, Bool.false_eq_true, if_false,
      FileService.handleFileRequestWithResponse, FileService.handleWriteWithResponse, hfile, File.write,
      if_neg hmode]
  have hdata : ∀ size, f.dataAfter (List.replicate size 0) = List.replicate size 0 := by
    intro size
    rw [File.dataAfter, hplace, hempty]
    exact Cursor.overwrite_end [] _
  have hneeded : File.neededSectors (List.replicate (2 ^ 41 + 1) 0) = 1 := by
    rw [File.neededSectors, List.length_replicate]
    norm_num
  have hroom : (f.write (List.replicate (2 ^ 41 + 1) 0)).2.HasRoom s.disk := by
    obtain ⟨-, -, -, hwritten, hstart'⟩ := write_ok (List.replicate (2 ^ 41 + 1) 0) hmode
    rw [File.HasRoom, hwritten, hdata, hneeded, File.released, hstart', hstart]
    refine ⟨4, Nat.le_refl 4, hfree.1, ?_⟩
    intro k hlow hhigh
    rw [show k = 4 by omega]
    exact hfree.2
  obtain ⟨n', hn', hfile', hsize, hblocks⟩ := node_written hlocated hinode hn hmode
    (by rw [hdata, hneeded]; decide) hroom
  rw [hdata, List.length_replicate] at hsize
  rw [hdata, hneeded] at hblocks
  rw [htaken _ (by decide)]
  refine ⟨n', hn', hfile'.trans hisFile, hsize, hblocks, ?_⟩
  rw [hblocks, hsize]
  decide

end GenshinOs.Files
