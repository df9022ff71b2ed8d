import GenshinOs.Hardware.Sectors
import GenshinOs.Messaging

/-!
# Open files

A file in memory (`src/services/file/file.rs`): its bytes with a cursor, and the run of sectors that
holds the last copy on disk. `syncToDisk` gives the old run back before it asks for a new one;
`syncToDisk_synced` and `syncToDisk_refused` say what it does when there is room and when there is none.
Times, owners and permissions are never read and are left out.
-/

set_option autoImplicit false

namespace GenshinOs.Files

open GenshinOs.Lib GenshinOs.Hardware

/-- How a file is opened. -/
inductive OpenMode where
  | read
  | write
  | readWrite
  | append
  deriving DecidableEq, Repr

/-- An open file. `size` is the size in its metadata. -/
structure File where
  inode : Nat
  name : String
  size : Nat
  position : Nat
  mode : OpenMode
  data : List UInt8
  dirty : Bool
  eof : Bool
  startSector : Option Nat
  sectorCount : Nat
  deriving DecidableEq, Repr

namespace File

/-- A file without bytes, not loaded yet. -/
def new (inode : Nat) (name : String) (mode : OpenMode) : File where
  inode := inode
  name := name
  size := 0
  position := 0
  mode := mode
  data := []
  dirty := false
  eof := false
  startSector := none
  sectorCount := 0

/-- Read at the cursor; behind the end there is nothing. -/
def read (f : File) (count : Nat) : Except ServiceError (List UInt8) × File :=
  if f.mode = .write then (.error (.permissionDenied "read" "File opened for write only"), f)
  else if f.position ≥ f.data.length then (.ok [], { f with eof := true })
  else
    let last := min (f.position + count) f.data.length
    let data := (f.data.take last).drop f.position
    (.ok data, { f with position := f.position + data.length, eof := decide (last = f.data.length) })

/-- Bytes written over a list from a position on, with zeros up to there. -/
def overwrite (old : List UInt8) (pos : Nat) (data : List UInt8) : List UInt8 :=
  let grown := old ++ List.replicate (pos + data.length - old.length) 0
  grown.take pos ++ data ++ grown.drop (pos + data.length)

/-- Where a write goes. -/
def writePos (f : File) : Nat := if f.mode = .append then f.data.length else f.position

/-- The bytes after a write. -/
def dataAfter (f : File) (data : List UInt8) : List UInt8 := overwrite f.data f.writePos data

/-- Write at the cursor, or at the end. -/
def write (f : File) (data : List UInt8) : Except ServiceError Nat × File :=
  if f.mode = .read then (.error (.permissionDenied "write" "File opened for read only"), f)
  else
    (.ok data.length,
      { f with
        data := f.dataAfter data
        position := f.writePos + data.length
        dirty := true
        size := (f.dataAfter data).length })

/-- The cursor goes to a position, wherever the bytes end. -/
def seek (f : File) (position : Nat) : Nat × File :=
  (f.position, { f with position := position, eof := false })

/-- The bytes are cut off, or zeros follow them. -/
def truncate (f : File) (newSize : Nat) : File :=
  { f with
    data := if newSize < f.data.length then f.data.take newSize
      else f.data ++ List.replicate (newSize - f.data.length) 0
    size := newSize
    dirty := true }

/-- The file counts as synced, and nothing goes to disk. -/
def sync (f : File) : File := { f with dirty := false }

/-- The sectors that the bytes need, as the 32-bit number that the disk is asked for. -/
def neededSectors (data : List UInt8) : Nat := (data.length + 511) / 512 % 2 ^ 32

/-- One sector full of bytes, with zeros behind the last one. -/
def sectorOf (data : List UInt8) (i : Nat) : List UInt8 :=
  let part := (data.drop (i * 512)).take 512
  part ++ List.replicate (512 - part.length) 0

/-- Copy the bytes to `n` sectors, from sector `i` of the run on. -/
def writeSectors (data : List UInt8) (start : Nat) : Nat → Nat → SectorDisk →
    Except DiskError Unit × SectorDisk
  | 0, _, d => (.ok (), d)
  | n + 1, i, d =>
    match d.putSector (start + i) (sectorOf data i) with
    | .error e => (.error e, d)
    | .ok d' => writeSectors data start n (i + 1) d'

/-- The disk once the old run is given back. -/
def released (f : File) (d : SectorDisk) : SectorDisk :=
  match f.startSector with
  | some old => if f.sectorCount > 0 then (d.freeSectors old f.sectorCount).2 else d
  | none => d

/-- Bring the bytes to disk. -/
def syncToDisk (f : File) (d : SectorDisk) : Except ServiceError Unit × File × SectorDisk :=
  if f.dirty = false ∧ f.startSector.isSome then (.ok (), f, d)
  else
    let needed := neededSectors f.data
    if needed = 0 then
      (.ok (), { f with startSector := none, sectorCount := 0, dirty := false }, f.released d)
    else
      match (f.released d).allocateSectors needed with
      | (.error e, d') => (.error (.io "disk alloc" e.debug), f, d')
      | (.ok start, d') =>
        match writeSectors f.data start needed 0 d' with
        | (.error e, d'') => (.error (.io "disk write" e.debug), f, d'')
        | (.ok (), d'') =>
          (.ok (), { f with startSector := some start, sectorCount := needed, dirty := false }, d'')

/-- Read `n` sectors, from sector `i` of the run on. -/
def readSectors (d : SectorDisk) (start : Nat) : Nat → Nat → Except DiskError (List UInt8)
  | 0, _ => .ok []
  | n + 1, i =>
    match d.toVirtualDisk.readSector (start + i) with
    | .error e => .error e
    | .ok bytes =>
      match readSectors d start n (i + 1) with
      | .error e => .error e
      | .ok rest => .ok (bytes ++ rest)

/-- Fetch the bytes from disk. -/
def loadFromDisk (f : File) (d : SectorDisk) : Except ServiceError Unit × File :=
  match f.startSector with
  | none => (.ok (), { f with data := [] })
  | some start =>
    if f.sectorCount = 0 then (.ok (), { f with data := [] })
    else
      match readSectors d start f.sectorCount 0 with
      | .error e => (.error (.io "disk read" e.debug), f)
      | .ok bytes =>
        (.ok (), { f with data := bytes.take f.size, dirty := false, eof := false, position := 0 })

/-! ## Bytes on disk -/

/-- The bytes of a run of sectors. -/
def runBytes (d : SectorDisk) (start count : Nat) : List UInt8 :=
  (List.range (count * 512)).map fun j => d.file (start * 512 + j)

theorem runBytes_succ (d : SectorDisk) (start count : Nat) :
    runBytes d start (count + 1) =
      (List.range 512).map (fun j => d.file (start * 512 + j)) ++ runBytes d (start + 1) count :=
  d.bytesOf_succ start count

/-- The loop that reads a run is the one of the disk. -/
theorem readSectors_eq_run (d : SectorDisk) (start n i : Nat) :
    readSectors d start n i = d.readRun start n i := by
  induction n generalizing i with
  | zero => rfl
  | succ n ih =>
    have hrest := ih (i + 1)
    rw [readSectors, VirtualDisk.readRun]
    cases d.readSector (start + i) with
    | error e => rfl
    | ok bytes =>
      cases hrun : d.readRun start n (i + 1) with
      | error e => simp only [hrest, hrun]
      | ok rest => simp only [hrest, hrun]

/-- Reading a run inside the disk gives its bytes. -/
theorem readSectors_eq {d : SectorDisk} {start n i : Nat} (h : start + i + n ≤ d.totalSectors) :
    readSectors d start n i = .ok (runBytes d (start + i) n) := by
  rw [readSectors_eq_run, VirtualDisk.readRun_eq, if_pos (Or.inr h)]
  rfl

theorem sectorOf_length (data : List UInt8) (i : Nat) : (sectorOf data i).length = 512 := by
  simp only [sectorOf, List.length_append, List.length_replicate, List.length_take]
  omega

theorem sectorOf_getD (data : List UInt8) {i j : Nat} (hj : j < 512) :
    (sectorOf data i).getD j 0 = data.getD (i * 512 + j) 0 := by
  simp only [sectorOf, List.getD_eq_getElem?_getD]
  rcases Nat.lt_or_ge (i * 512 + j) data.length with hlt | hge
  · have hpart : j < ((data.drop (i * 512)).take 512).length := by
      simp only [List.length_take, List.length_drop]
      omega
    rw [List.getElem?_append_left hpart, List.getElem?_take_of_lt hj, List.getElem?_drop]
  · have hpart : ((data.drop (i * 512)).take 512).length ≤ j := by
      simp only [List.length_take, List.length_drop]
      omega
    rw [List.getElem?_append_right hpart, List.getElem?_eq_none hge, List.getElem?_replicate]
    split
    · rfl
    · rfl

/-- The loop that writes a run is the one of the disk, and leaves the bitmap alone. -/
theorem writeSectors_eq_run (data : List UInt8) (start n i : Nat) (d : SectorDisk) :
    writeSectors data start n i d =
      ((VirtualDisk.writeRun (sectorOf data) start n i d.toVirtualDisk).1,
        { d with toVirtualDisk := (VirtualDisk.writeRun (sectorOf data) start n i d.toVirtualDisk).2 }) := by
  induction n generalizing i d with
  | zero => rfl
  | succ n ih =>
    rw [writeSectors, SectorDisk.putSector, VirtualDisk.writeRun]
    cases d.toVirtualDisk.writeSector (start + i) (sectorOf data i) with
    | error e => rfl
    | ok disk => exact ih (i + 1) { d with toVirtualDisk := disk }

/-- Copying to a run inside the disk succeeds, fills exactly this run and leaves the bitmap alone. -/
theorem writeSectors_spec (data : List UInt8) (start : Nat) {n i : Nat} {d : SectorDisk}
    (h : start + i + n ≤ d.totalSectors) :
    ∃ d', writeSectors data start n i d = (.ok (), d') ∧ d'.totalSectors = d.totalSectors ∧
      d'.bitmap = d.bitmap ∧
      (∀ j, i * 512 ≤ j → j < (i + n) * 512 → d'.file (start * 512 + j) = data.getD j 0) ∧
      ∀ a, (a < (start + i) * 512 ∨ (start + i + n) * 512 ≤ a) → d'.file a = d.file a := by
  have hlen : ∀ j, i ≤ j → j < i + n → (sectorOf data j).length = sectorSize :=
    fun j _ _ => sectorOf_length data j
  refine ⟨{ d with toVirtualDisk := (VirtualDisk.writeRun (sectorOf data) start n i d.toVirtualDisk).2 },
    ?_, VirtualDisk.writeRun_totalSectors hlen, rfl, ?_, ?_⟩
  · rw [writeSectors_eq_run, VirtualDisk.writeRun_eq start n i _ hlen, if_pos (Or.inr h)]
  · intro j hle hlt
    -- byte `j` of the data is in sector `j / 512` of the run
    have hoff : j % sectorSize < sectorSize := Nat.mod_lt j (by decide)
    have hsplit : start * 512 + j = (start + j / sectorSize) * sectorSize + j % sectorSize := by
      rw [sectorSize]
      omega
    have hsector : i ≤ j / sectorSize ∧ j / sectorSize < i + n := by
      rw [sectorSize]
      omega
    show (VirtualDisk.writeRun (sectorOf data) start n i d.toVirtualDisk).2.file _ = _
    rw [hsplit, VirtualDisk.writeRun_inside hlen hsector.1 hsector.2 hoff (by omega), sectorOf_getD data hoff]
    exact congrArg (data.getD · 0) (Nat.div_add_mod' j 512)
  · intro a ha
    exact VirtualDisk.writeRun_outside hlen ha

/-! ## Sync -/

/-- The run that a file has on disk. -/
def run (f : File) : List Nat :=
  match f.startSector with
  | some start => List.range' start f.sectorCount
  | none => []

theorem mem_run {f : File} {n : Nat} :
    n ∈ f.run ↔ ∃ start, f.startSector = some start ∧ start ≤ n ∧ n < start + f.sectorCount := by
  rw [run]
  cases f.startSector with
  | none => simp
  | some start => simp [List.mem_range'_1]

/-- Giving back the run frees its sectors, the metadata apart. -/
theorem released_spec (f : File) (d : SectorDisk) :
    SectorDisk.SameBeyond d (f.released d) ∧
      ∀ n, (f.released d).bitmap.isFree n =
        if n ∈ f.run ∧ isMetadata n = false then true else d.bitmap.isFree n := by
  rw [released]
  cases hstart : f.startSector with
  | none =>
    refine ⟨⟨rfl, rfl, fun _ _ => rfl⟩, ?_⟩
    intro n
    rw [if_neg]
    rintro ⟨hn, -⟩
    rw [mem_run, hstart] at hn
    simp at hn
  | some start =>
    have hmem : ∀ n, n ∈ f.run ↔ start ≤ n ∧ n < start + f.sectorCount := by
      intro n
      rw [mem_run, hstart]
      simp
    simp only [hmem]
    split
    · obtain ⟨hsame, hfree⟩ := d.freeSectors_spec start f.sectorCount
      refine ⟨hsame, ?_⟩
      intro n
      rw [hfree]
      simp only [and_assoc]
    · refine ⟨⟨rfl, rfl, fun _ _ => rfl⟩, ?_⟩
      intro n
      rw [if_neg (by omega)]

/-- There is room for the bytes of a file once its old run is given back. -/
def HasRoom (f : File) (d : SectorDisk) : Prop := (f.released d).HasRun (neededSectors f.data)

/-- Bytes on disk: a run that holds them, with zeros behind the last one. -/
theorem take_runBytes {d : SectorDisk} {start : Nat} {data : List UInt8} {n : Nat}
    (hfit : data.length ≤ n * 512)
    (h : ∀ j, j < n * 512 → d.file (start * 512 + j) = data.getD j 0) :
    (runBytes d start n).take data.length = data := by
  apply List.ext_getElem
  · rw [List.length_take, runBytes, List.length_map, List.length_range]
    omega
  · intro j hj hj'
    rw [List.getElem_take]
    simp only [runBytes, List.getElem_map, List.getElem_range]
    rw [h j (by omega), List.getD_eq_getElem?_getD, List.getElem?_eq_getElem hj', Option.getD_some]

/-- With room, the bytes get a free run of their own, and nothing else changes on disk. -/
theorem syncToDisk_synced {f : File} {d : SectorDisk} (hd : d.Sized) (hdirty : f.dirty = true)
    (hneeded : neededSectors f.data ≠ 0) (hroom : f.HasRoom d) :
    ∃ start d', f.syncToDisk d = (.ok (), { f with
        startSector := some start, sectorCount := neededSectors f.data, dirty := false }, d') ∧
      4 ≤ start ∧ start + neededSectors f.data ≤ d.totalSectors ∧
      FreeRun (f.released d).bitmap.isFree start (neededSectors f.data) ∧
      d'.totalSectors = d.totalSectors ∧ d'.bitmap.length = d.bitmap.length ∧
      (∀ n, d'.bitmap.isFree n = if start ≤ n ∧ n < start + neededSectors f.data then false
        else (f.released d).bitmap.isFree n) ∧
      (∀ j, j < neededSectors f.data * 512 → d'.file (start * 512 + j) = f.data.getD j 0) ∧
      ∀ a, 512 ≤ a → (a < start * 512 ∨ (start + neededSectors f.data) * 512 ≤ a) →
        d'.file a = d.file a := by
  -- release, allocate, write: three disks, each like the one before up to the sectors named
  obtain ⟨hsame, -⟩ := f.released_spec d
  have hsized := hsame.sized hd
  obtain ⟨start, d1, halloc⟩ :=
    SectorDisk.allocateSectors_of_hasRun (Nat.pos_of_ne_zero hneeded) hroom
  obtain ⟨hlow, hfit, hrun, hsame1, hfree⟩ := SectorDisk.allocateSectors_ok hsized halloc
  have htotal1 := hsame1.total_eq.trans hsame.total_eq
  obtain ⟨d2, hwrite, htotal2, hbitmap, hcopied, hkept⟩ :=
    writeSectors_spec f.data start (n := neededSectors f.data) (i := 0) (d := d1)
      (by rw [htotal1, ← hsame.total_eq]; exact hfit)
  refine ⟨start, d2, ?_, hlow, by rw [← hsame.total_eq]; exact hfit, hrun, htotal2.trans htotal1, ?_, ?_,
    ?_, ?_⟩
  · simp only [syncToDisk, hdirty, hneeded, halloc, hwrite, Bool.true_eq_false, false_and, if_false]
  · rw [hbitmap, hsame1.length_eq, hsame.length_eq]
  · rw [hbitmap]
    exact hfree
  · intro j hj
    exact hcopied j (by simp) (by rwa [Nat.zero_add])
  · intro a ha hout
    rw [hkept a hout, hsame1.file_eq a ha, hsame.file_eq a ha]

/-- Without room, the old run is given back all the same, and the file goes on naming it. -/
theorem syncToDisk_refused {f : File} {d : SectorDisk} (hd : d.Sized) (hdirty : f.dirty = true)
    (hneeded : neededSectors f.data ≠ 0) (hroom : ¬f.HasRoom d) :
    ∃ e, f.syncToDisk d = (.error e, f, f.released d) := by
  cases halloc : (f.released d).allocateSectors (neededSectors f.data) with
  | mk result d' =>
    cases result with
    | ok start =>
      obtain ⟨hlow, hfit, hrun, -, -⟩ :=
        SectorDisk.allocateSectors_ok ((f.released_spec d).1.sized hd) halloc
      exact absurd ⟨start, hlow, hfit, hrun⟩ hroom
    | error e =>
      obtain ⟨rfl, -, -⟩ := SectorDisk.allocateSectors_error (Nat.pos_of_ne_zero hneeded) halloc
      refine ⟨.io "disk alloc" e.debug, ?_⟩
      simp only [syncToDisk, hdirty, hneeded, halloc, Bool.true_eq_false, false_and, if_false]

/-- Nothing to store: the old run is given back. -/
theorem syncToDisk_empty {f : File} {d : SectorDisk} (hdirty : f.dirty = true)
    (hneeded : neededSectors f.data = 0) :
    f.syncToDisk d = (.ok (), { f with startSector := none, sectorCount := 0, dirty := false },
      f.released d) := by
  simp only [syncToDisk, hdirty, hneeded, Bool.true_eq_false, false_and, if_false, if_true]

end File

end GenshinOs.Files
