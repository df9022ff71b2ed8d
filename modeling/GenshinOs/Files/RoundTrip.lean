import GenshinOs.Files.File

/-!
# Syncing and loading a file

A file that went to disk is read back byte by byte, whatever its length and wherever its run lies, and no
sector outside the new run is touched but that of the bitmap (`loadFromDisk_syncToDisk`). A sync that
fails is another matter: the old run has been given back by then, so that the copy on disk is kept
exactly when the sync does not fail (`keepsCopy_iff`).
-/

set_option autoImplicit false

namespace GenshinOs.Files

open GenshinOs.Lib GenshinOs.Hardware

/-- What can be done with an open file. -/
inductive FileOp where
  | read (count : Nat)
  | write (data : List UInt8)
  | seek (position : UInt64)
  | truncate (newSize : UInt64)
  | sync
  | syncToDisk (d : SectorDisk)

namespace File

/-- An operation on the file. -/
def perform (f : File) : FileOp → File
  | .read count => (f.read count).2
  | .write data => (f.write data).2
  | .seek position => (f.seek position.toNat).2
  | .truncate newSize => f.truncate newSize.toNat
  | .sync => f.sync
  | .syncToDisk d => (f.syncToDisk d).2.1

/-- A new file after some operations. -/
def used (inode : Nat) (name : String) (mode : OpenMode) (ops : List FileOp) : File :=
  ops.foldl perform (File.new inode name mode)

/-! ## Size and bytes -/

/-- The size in the metadata is the number of bytes. -/
def Measured (f : File) : Prop := f.size = f.data.length

theorem measured_syncToDisk {f : File} (h : f.Measured) (d : SectorDisk) :
    (f.syncToDisk d).2.1.Measured := by
  simp only [syncToDisk]
  split
  · exact h
  · split
    · exact h
    · split
      · exact h
      · split
        · exact h
        · exact h

theorem measured_perform {f : File} (h : f.Measured) (op : FileOp) : (f.perform op).Measured := by
  cases op with
  | read count =>
    simp only [perform, read]
    split
    · exact h
    · split
      · exact h
      · exact h
  | write data =>
    simp only [perform, write]
    split
    · exact h
    · rfl
  | seek position => exact h
  | truncate newSize =>
    show newSize.toNat = List.length (if _ then _ else _)
    split
    · next hshort =>
      rw [List.length_take]
      omega
    · next hlong =>
      rw [List.length_append, List.length_replicate]
      omega
  | sync => exact h
  | syncToDisk d => exact measured_syncToDisk h d

theorem measured_used (inode : Nat) (name : String) (mode : OpenMode) (ops : List FileOp) :
    (used inode name mode ops).Measured :=
  List.foldlRecOn ops _ rfl fun _ h op _ => measured_perform h op

/-! ## Reading back -/

/-- A file that was never on disk is synced as if it were dirty. -/
theorem syncToDisk_touch {f f' : File} {d d' : SectorDisk} (hstart : f.startSector = none)
    (h : f.syncToDisk d = (.ok (), f', d')) :
    ({ f with dirty := true } : File).syncToDisk d = (.ok (), f', d') := by
  have hreleased : ({ f with dirty := true } : File).released d = f.released d := rfl
  have hunsynced : ¬(f.dirty = false ∧ f.startSector.isSome) := by simp [hstart]
  have htouched : ¬(({ f with dirty := true } : File).dirty = false ∧
      ({ f with dirty := true } : File).startSector.isSome) := by simp
  rw [syncToDisk, if_neg hunsynced] at h
  rw [syncToDisk, if_neg htouched]
  simp only [hreleased] at h ⊢
  by_cases hneeded : neededSectors f.data = 0
  · rw [if_pos hneeded] at h ⊢
    exact h
  · rw [if_neg hneeded] at h ⊢
    split at h
    · cases h
    · split at h
      · cases h
      · exact h

/-- Few enough bytes need no sector only if there are none. -/
theorem data_eq_nil {data : List UInt8} (hlen : data.length < 2 ^ 40) (h : neededSectors data = 0) :
    data = [] := by
  rw [neededSectors, Nat.mod_eq_of_lt (by omega)] at h
  exact List.length_eq_zero_iff.1 (by omega)

/-- A sector of which every byte is the same is read the same. -/
theorem readSector_congr {d d' : VirtualDisk} {n : Nat} (htotal : d'.totalSectors = d.totalSectors)
    (h : ∀ a, n * 512 ≤ a → a < (n + 1) * 512 → d'.file a = d.file a) : d'.readSector n = d.readSector n := by
  have hbytes : (List.range sectorSize).map (fun j => d'.file (n * sectorSize + j)) =
      (List.range sectorSize).map fun j => d.file (n * sectorSize + j) := by
    apply List.map_congr_left
    intro j hj
    have hlt : j < 512 := List.mem_range.1 hj
    rw [sectorSize]
    exact h _ (Nat.le_add_right _ _) (by omega)
  simp only [VirtualDisk.readSector, VirtualDisk.checkSector, htotal, hbytes]

theorem loadFromDisk_dirty {f : File} (hf : f.Measured) {d : SectorDisk} (hd : d.Sized)
    (hlen : f.data.length < 2 ^ 40) (hdirty : f.dirty = true) {f' : File} {d' : SectorDisk}
    (h : f.syncToDisk d = (.ok (), f', d')) :
    (∀ g : File, g.startSector = f'.startSector → g.sectorCount = f'.sectorCount → g.size = f'.size →
      ∃ g', g.loadFromDisk d' = (.ok (), g') ∧ g'.data = f.data) ∧
    ∀ n, n ≠ 0 → n ∉ f'.run → d'.toVirtualDisk.readSector n = d.toVirtualDisk.readSector n := by
  -- an empty file has no run, and is read back without the disk
  by_cases hneeded : neededSectors f.data = 0
  · rw [syncToDisk_empty hdirty hneeded] at h
    cases h
    obtain ⟨hsame, -⟩ := f.released_spec d
    constructor
    · intro g hstart _ _
      refine ⟨{ g with data := [] }, ?_, (data_eq_nil hlen hneeded).symm⟩
      rw [loadFromDisk, hstart]
    · intro n hn _
      apply readSector_congr hsame.total_eq
      intro a ha _
      apply hsame.file_eq a
      rw [sectorSize]
      omega
  · by_cases hroom : f.HasRoom d
    · obtain ⟨start, d'', hsync, hlow, hfit, -, htotal, -, -, hbytes, hkept⟩ :=
        syncToDisk_synced hd hdirty hneeded hroom
      rw [hsync] at h
      cases h
      constructor
      · intro g hstart hcount hsize
        have hread : readSectors d' start (neededSectors f.data) 0 =
            .ok (runBytes d' start (neededSectors f.data)) := readSectors_eq (by rw [htotal]; exact hfit)
        -- the run is the data with zeros behind it, and the size cuts them off
        have hback : (runBytes d' start (neededSectors f.data)).take f.size = f.data := by
          rw [hf]
          apply take_runBytes _ hbytes
          rw [neededSectors, Nat.mod_eq_of_lt (by omega)]
          omega
        refine ⟨{ g with data := f.data, dirty := false, eof := false, position := 0 }, ?_, rfl⟩
        simp only [loadFromDisk, hstart, hcount, hsize, hneeded, if_false, hread, hback]
      · intro n hn hout
        have hoff : ¬(start ≤ n ∧ n < start + neededSectors f.data) := by
          intro hin
          exact hout (List.mem_range'_1.2 hin)
        apply readSector_congr htotal
        intro a ha hlt
        apply hkept a (by omega)
        omega
    · obtain ⟨e, hsync⟩ := syncToDisk_refused hd hdirty hneeded hroom
      rw [hsync] at h
      cases h

/-- What a sync wrote is what a load reads, for every file of less than 2^40 bytes; and every sector
keeps its bytes that is not in the new run and does not hold the bitmap. -/
theorem loadFromDisk_syncToDisk (inode : Nat) (name : String) (mode : OpenMode) (ops : List FileOp)
    (hlen : (used inode name mode ops).data.length < 2 ^ 40) {d : SectorDisk} (hd : d.Sized)
    (hneeds : (used inode name mode ops).dirty = true ∨ (used inode name mode ops).startSector = none)
    {f' : File} {d' : SectorDisk} (h : (used inode name mode ops).syncToDisk d = (.ok (), f', d')) :
    (∀ g : File, g.startSector = f'.startSector → g.sectorCount = f'.sectorCount → g.size = f'.size →
      ∃ g', g.loadFromDisk d' = (.ok (), g') ∧ g'.data = (used inode name mode ops).data) ∧
    ∀ n, n ≠ 0 → n ∉ f'.run → d'.toVirtualDisk.readSector n = d.toVirtualDisk.readSector n := by
  have hmeasured := measured_used inode name mode ops
  rcases hneeds with hdirty | hstart
  · exact loadFromDisk_dirty hmeasured hd hlen hdirty h
  · exact loadFromDisk_dirty (f := { used inode name mode ops with dirty := true }) hmeasured hd hlen rfl
      (syncToDisk_touch hstart h)

/-- Two bytes behind a gap of 512 zeros, synced to a new disk and read back. -/
theorem loadFromDisk_syncToDisk_gap :
    ∃ f' d' g', (used 1 "a" .write [.seek 512, .write [1, 2]]).syncToDisk (SectorDisk.create 8) =
        (.ok (), f', d') ∧
      f'.loadFromDisk d' = (.ok (), g') ∧ g'.data = List.replicate 512 0 ++ [1, 2] := by
  have hok : ((used 1 "a" .write [.seek 512, .write [1, 2]]).syncToDisk (SectorDisk.create 8)).1.isOk = true := by
    decide +kernel
  have hdata : (used 1 "a" .write [.seek 512, .write [1, 2]]).data = List.replicate 512 0 ++ [1, 2] := by
    decide +kernel
  cases hsync : (used 1 "a" .write [.seek 512, .write [1, 2]]).syncToDisk (SectorDisk.create 8) with
  | mk result rest =>
    cases result with
    | error e =>
      rw [hsync] at hok
      cases hok
    | ok _ =>
      have hback := (loadFromDisk_syncToDisk 1 "a" .write [.seek 512, .write [1, 2]]
        (by rw [hdata, List.length_append, List.length_replicate]; decide) (SectorDisk.sized_create (by decide)) (Or.inl (by decide +kernel))
        hsync).1 rest.1 rfl rfl rfl
      obtain ⟨g', hload, hsame⟩ := hback
      exact ⟨rest.1, rest.2, g', rfl, hload, hsame.trans hdata⟩

/-! ## A sync that fails -/

/-- The file has a run on the disk, and its sectors are in use. -/
structure OnDisk (f : File) (d : SectorDisk) : Prop where
  some : f.run ≠ []
  inside : ∀ n ∈ f.run, 4 ≤ n ∧ n < d.totalSectors
  used : ∀ n ∈ f.run, d.bitmap.isFree n = false

/-- When a sync fails, bitmap and old copy are as before, the file still names the copy, and nobody else
can be given its sectors. -/
def KeepsCopy (f : File) (d : SectorDisk) : Prop :=
  ∀ e f' d', f.syncToDisk d = (.error e, f', d') →
    d'.bitmap = d.bitmap ∧
    (∀ n ∈ f.run, d'.bitmap.isFree n = false ∧
      d'.toVirtualDisk.readSector n = d.toVirtualDisk.readSector n) ∧
    f'.startSector = f.startSector ∧ f'.sectorCount = f.sectorCount ∧
    ∀ count start d'', d'.allocateSectors count = (.ok start, d'') →
      ∀ n ∈ f.run, ¬(start ≤ n ∧ n < start + count)

/-- The copy is kept exactly where nothing fails: the file is clean or empty, or its bytes have room once
its run is given back. -/
theorem keepsCopy_iff {f : File} {d : SectorDisk} (hd : d.Sized) (hf : f.OnDisk d) :
    f.KeepsCopy d ↔ f.dirty = false ∨ neededSectors f.data = 0 ∨ f.HasRoom d := by
  have hsome : f.startSector.isSome = true := by
    cases hstart : f.startSector with
    | none =>
      have hnil : f.run = [] := by rw [run, hstart]
      exact absurd hnil hf.some
    | some start => rfl
  constructor
  · intro h
    by_contra hno
    simp only [not_or, Bool.not_eq_false] at hno
    obtain ⟨hdirty, hneeded, hroom⟩ := hno
    obtain ⟨e, hsync⟩ := syncToDisk_refused hd hdirty hneeded hroom
    obtain ⟨hbitmap, -⟩ := h e f (f.released d) hsync
    -- a sector of the old run was in use and is free now
    obtain ⟨n, hn⟩ := List.exists_mem_of_ne_nil _ hf.some
    have hmeta : isMetadata n = false := decide_eq_false (Nat.not_lt.2 (hf.inside n hn).1)
    have hfree := (f.released_spec d).2 n
    rw [if_pos ⟨hn, hmeta⟩, hbitmap, hf.used n hn] at hfree
    cases hfree
  · intro h e f' d' hsync
    rcases h with hclean | hneeded | hroom
    · simp [syncToDisk, hclean, hsome] at hsync
    · by_cases hdirty : f.dirty = true
      · rw [syncToDisk_empty hdirty hneeded] at hsync
        cases hsync
      · simp [syncToDisk, hdirty, hsome] at hsync
    · by_cases hdirty : f.dirty = true
      · by_cases hneeded : neededSectors f.data = 0
        · rw [syncToDisk_empty hdirty hneeded] at hsync
          cases hsync
        · obtain ⟨start, d'', hsynced, -⟩ := syncToDisk_synced hd hdirty hneeded hroom
          rw [hsynced] at hsync
          cases hsync
      · simp [syncToDisk, hdirty, hsome] at hsync

/-- A file of one byte on a disk of eight sectors, which then grows to five sectors. -/
def outgrown : File × SectorDisk :=
  let synced := ((File.new 1 "a" .readWrite).write [1]).2.syncToDisk (SectorDisk.create 8)
  ((synced.2.1.write (List.replicate 2048 2)).2, synced.2.2)

theorem onDisk_outgrown : outgrown.1.OnDisk outgrown.2 ∧ outgrown.2.Sized := by
  have hrun : outgrown.1.run = [4] := by decide +kernel
  refine ⟨⟨?_, ?_, ?_⟩, ⟨by decide +kernel, by decide +kernel⟩⟩
  · rw [hrun]
    exact List.cons_ne_nil 4 []
  · intro n hn
    rw [hrun, List.mem_singleton] at hn
    subst hn
    exact ⟨Nat.le_refl 4, by decide +kernel⟩
  · intro n hn
    rw [hrun, List.mem_singleton] at hn
    subst hn
    decide +kernel

theorem keepsCopy_iff_outgrown : outgrown.1.KeepsCopy outgrown.2 ↔ outgrown.1.dirty = false ∨
    neededSectors outgrown.1.data = 0 ∨ outgrown.1.HasRoom outgrown.2 :=
  keepsCopy_iff onDisk_outgrown.2 onDisk_outgrown.1

/-- The sync of the grown file fails, and the sector of its first byte is free; the next file gets it. -/
theorem outgrown_loses_copy : outgrown.1.OnDisk outgrown.2 ∧ ¬outgrown.1.KeepsCopy outgrown.2 ∧
    ((outgrown.1.syncToDisk outgrown.2).2.2.allocateSectors 1).1 = .ok 4 := by
  refine ⟨onDisk_outgrown.1, ?_, by decide +kernel⟩
  intro h
  have hfailed : (outgrown.1.syncToDisk outgrown.2).1 = .error (.io "disk alloc" "OutOfSpace") := by
    decide +kernel
  have hchanged : (outgrown.1.syncToDisk outgrown.2).2.2.bitmap ≠ outgrown.2.bitmap := by decide +kernel
  generalize outgrown = o at h hfailed hchanged
  cases hsync : o.1.syncToDisk o.2 with
  | mk result rest =>
    rw [hsync] at hfailed hchanged
    cases hfailed
    exact hchanged (h _ rest.1 rest.2 hsync).1

end File

end GenshinOs.Files
