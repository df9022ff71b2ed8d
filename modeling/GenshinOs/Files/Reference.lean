import GenshinOs.Files.Words
import GenshinOs.Lib.Tape

/-!
# A file is a tape of bytes

Sequences of reads, writes, seeks and truncations on one open file, against the tape that they are for.
`File.access` is an operation as the program computes it, in machine words; `accessOn` is the same
operation on a tape with the mode of the file. As long as no position with its count leaves the words,
both give the same results (`file_shows_tape`).
-/

set_option autoImplicit false

namespace GenshinOs.Files

open GenshinOs.Lib

/-- What can be done with the bytes and the cursor of an open file. -/
inductive Access where
  | read (count : Nat)
  | write (data : List UInt8)
  | seek (position : Nat)
  | truncate (size : Nat)

/-- What it returns when it is not refused. -/
inductive AccessReply where
  | bytes (data : List UInt8)
  | number (n : Nat)
  | done
  deriving DecidableEq

/-- The result of an operation. -/
abbrev AccessResult := Except ServiceError AccessReply

namespace File

/-- One operation; `none` stops the program. -/
def access (f : File) : Access → Option (AccessResult × File)
  | .read count => (f.readWords count).map fun r => (r.1.map AccessReply.bytes, r.2)
  | .write data => (f.writeWords data).map fun r => (r.1.map AccessReply.number, r.2)
  | .seek position => some (.ok (.number (f.seek position).1), (f.seek position).2)
  | .truncate size => (grown f.data size).map fun _ => (.ok .done, f.truncate size)

/-- Accesses of a file one after the other. -/
def accessAll : File → List Access → Option (List AccessResult × File)
  | f, [] => some ([], f)
  | f, op :: ops =>
    (f.access op).bind fun r => (r.2.accessAll ops).map fun rest => (r.1 :: rest.1, rest.2)

end File

/-! ## The tape -/

section Reference

variable (mode : OpenMode)

/-- Where a write goes. -/
def writeStart (t : Tape UInt8) : Nat := if mode = .append then t.cells.length else t.pos

/-- An access to a tape, under the mode of the file. -/
def accessOn (t : Tape UInt8) : Access → AccessResult × Tape UInt8
  | .read count =>
    if mode = .write then (.error (.permissionDenied "read" "File opened for write only"), t)
    else (.ok (.bytes (t.read count).1), (t.read count).2)
  | .write data =>
    if mode = .read then (.error (.permissionDenied "write" "File opened for read only"), t)
    else (.ok (.number data.length), t.writeAt 0 (writeStart mode t) data)
  | .seek position => (.ok (.number (t.seek position).1), (t.seek position).2)
  | .truncate size => (.ok .done, t.resize 0 size)

/-- Accesses to a tape one after the other. -/
def accessAllOn : Tape UInt8 → List Access → List AccessResult × Tape UInt8
  | t, [] => ([], t)
  | t, op :: ops =>
    let next := accessOn mode t op
    let rest := accessAllOn next.2 ops
    (next.1 :: rest.1, rest.2)

/-- The furthest position that an operation asks for. -/
def reach (t : Tape UInt8) : Access → Nat
  | .read count => t.pos + count
  | .write data => writeStart mode t + data.length
  | .seek position => position
  | .truncate size => size

/-- Positions and counts stay below 2^63. -/
def InRange : Tape UInt8 → List Access → Prop
  | _, [] => True
  | t, op :: ops => reach mode t op < 2 ^ 63 ∧ InRange (accessOn mode t op).2 ops

end Reference

/-! ## The refinement -/

/-- A file shows the bytes and the cursor of a tape, and its recorded size is the number of bytes. -/
structure Shows (mode : OpenMode) (f : File) (t : Tape UInt8) : Prop where
  mode_eq : f.mode = mode
  data_eq : f.data = t.cells
  position_eq : f.position = t.pos
  size_eq : f.size = f.data.length

variable {mode : OpenMode} {f : File} {t : Tape UInt8}

theorem Shows.writePos_eq (h : Shows mode f t) : f.writePos = writeStart mode t := by
  rw [File.writePos, writeStart, h.mode_eq, h.data_eq, h.position_eq]

theorem shows_read (h : Shows mode f t) (count : Nat) :
    (f.read count).1.map AccessReply.bytes = (accessOn mode t (.read count)).1 ∧
      Shows mode (f.read count).2 (accessOn mode t (.read count)).2 := by
  have hsame := h.mode_eq
  subst hsame
  simp only [File.read, accessOn, Tape.read]
  by_cases hmode : f.mode = .write
  · rw [if_pos hmode, if_pos hmode]
    exact ⟨rfl, h⟩
  · rw [if_neg hmode, if_neg hmode]
    by_cases hbehind : f.data.length ≤ f.position
    · -- nothing behind the cursor: the cursor stays
      have hnone : t.taken count = [] := by
        apply Tape.taken_of_le
        rw [← h.data_eq, ← h.position_eq]
        exact hbehind
      rw [if_pos hbehind, hnone]
      exact ⟨rfl, rfl, h.data_eq, h.position_eq, h.size_eq⟩
    · have htaken : (f.data.take (min (f.position + count) f.data.length)).drop f.position =
          t.taken count := by
        rw [Tape.taken_eq, h.data_eq, h.position_eq]
      rw [if_neg hbehind, htaken]
      refine ⟨rfl, rfl, h.data_eq, ?_, h.size_eq⟩
      show f.position + _ = t.pos + _
      rw [h.position_eq]

/-- The bytes after a write are the cells after it. -/
theorem overwrite_eq (old : List UInt8) (start : Nat) (data : List UInt8) :
    File.overwrite old start data =
      Tape.replaced (Tape.extended 0 old (start + data.length)) start data := by
  have hfit : start + data.length ≤ (Tape.extended 0 old (start + data.length)).length := by
    rw [Tape.length_extended]
    omega
  rw [Tape.replaced_eq _ _ _ hfit]
  rfl

theorem shows_write (h : Shows mode f t) (data : List UInt8) :
    (f.write data).1.map AccessReply.number = (accessOn mode t (.write data)).1 ∧
      Shows mode (f.write data).2 (accessOn mode t (.write data)).2 := by
  have hsame := h.mode_eq
  subst hsame
  simp only [File.write, accessOn]
  by_cases hmode : f.mode = .read
  · rw [if_pos hmode, if_pos hmode]
    exact ⟨rfl, h⟩
  · rw [if_neg hmode, if_neg hmode]
    refine ⟨rfl, rfl, ?_, ?_, rfl⟩
    -- both put the piece where the mode says: at the cursor, or at the end when appending
    · show f.dataAfter data = _
      rw [File.dataAfter, overwrite_eq, h.writePos_eq, h.data_eq]
      rfl
    · show f.writePos + data.length = _
      rw [h.writePos_eq]
      rfl

theorem shows_truncate (h : Shows mode f t) (size : Nat) :
    Shows mode (f.truncate size) (t.resize 0 size) := by
  have hbytes : (f.truncate size).data = (t.resize 0 size).cells := by
    show (if size < f.data.length then _ else _) = (Tape.extended 0 t.cells size).take size
    rw [h.data_eq, Tape.extended]
    split
    -- shorter: no blanks are added
    · next hcut => rw [List.take_append_of_le_length (Nat.le_of_lt hcut)]
    · next hle =>
      rw [List.take_of_length_le]
      rw [List.length_append, List.length_replicate]
      omega
  refine ⟨h.mode_eq, hbytes, h.position_eq, ?_⟩
  rw [hbytes, Tape.length_resize]
  rfl

/-- One operation inside the words. -/
theorem shows_access (h : Shows mode f t) (op : Access) (hreach : reach mode t op < 2 ^ 63) :
    ∃ f', f.access op = some ((accessOn mode t op).1, f') ∧ Shows mode f' (accessOn mode t op).2 := by
  cases op with
  | read count =>
    obtain ⟨hresult, hshows⟩ := shows_read h count
    -- the range is half of the words, so the sum does not wrap
    have hword : f.position + count < 2 ^ 64 := by
      rw [h.position_eq]
      exact Nat.lt_trans hreach (by decide)
    refine ⟨_, ?_, hshows⟩
    rw [File.access, File.readWords_eq hword, Option.map_some, hresult]
  | write data =>
    obtain ⟨hresult, hshows⟩ := shows_write h data
    have hlength : f.writePos + data.length ≤ isizeMax := by
      rw [h.writePos_eq]
      exact Nat.le_of_lt_succ hreach
    refine ⟨_, ?_, hshows⟩
    rw [File.access, File.writeWords_eq hlength, Option.map_some, hresult]
  | seek position =>
    refine ⟨(f.seek position).2, ?_, h.mode_eq, h.data_eq, rfl, h.size_eq⟩
    show some (Except.ok (AccessReply.number f.position), _) = some (Except.ok (AccessReply.number t.pos), _)
    rw [h.position_eq]
  -- truncating checks no mode, and the cursor stays where it is
  | truncate size =>
    have hlength : size ≤ isizeMax := Nat.le_of_lt_succ hreach
    refine ⟨_, ?_, shows_truncate h size⟩
    rw [File.access, grown_of_le f.data hlength]
    rfl

/-- A sequence of operations inside the words. -/
theorem shows_accessAll (h : Shows mode f t) (ops : List Access) (hrange : InRange mode t ops) :
    ∃ f', f.accessAll ops = some ((accessAllOn mode t ops).1, f') ∧
      Shows mode f' (accessAllOn mode t ops).2 := by
  induction ops generalizing f t with
  | nil => exact ⟨f, rfl, h⟩
  | cons op ops ih =>
    -- the range is stated over the tape, which the file still shows after the operation
    obtain ⟨f', hstep, hnext⟩ := shows_access h op hrange.1
    obtain ⟨f'', hrest, hlast⟩ := ih hnext hrange.2
    refine ⟨f'', ?_, hlast⟩
    rw [File.accessAll, hstep, Option.bind_some, hrest]
    rfl

theorem shows_new (inode : Nat) (name : String) (mode : OpenMode) :
    Shows mode (File.new inode name mode) ⟨[], 0⟩ := ⟨rfl, rfl, rfl, rfl⟩

/-- A new file gives the results of an empty tape, whatever is done to it, and keeps its contents. -/
theorem file_shows_tape (inode : Nat) (name : String) (mode : OpenMode) (ops : List Access)
    (h : InRange mode ⟨[], 0⟩ ops) :
    ∃ f, (File.new inode name mode).accessAll ops = some ((accessAllOn mode ⟨[], 0⟩ ops).1, f) ∧
      f.data = (accessAllOn mode ⟨[], 0⟩ ops).2.cells ∧
      f.position = (accessAllOn mode ⟨[], 0⟩ ops).2.pos ∧ f.size = f.data.length := by
  obtain ⟨f, hrun, hshows⟩ := shows_accessAll (shows_new inode name mode) ops h
  exact ⟨f, hrun, hshows.data_eq, hshows.position_eq, hshows.size_eq⟩

/-- A write, a jump behind the end, another write and a read at the end. -/
theorem file_shows_tape_jump :
    InRange .readWrite ⟨[], 0⟩ [.write [1, 2], .seek 4, .write [3], .seek 1, .read 9, .truncate 2] ∧
    ∃ f, (File.new 1 "test.txt" .readWrite).accessAll
        [.write [1, 2], .seek 4, .write [3], .seek 1, .read 9, .truncate 2] =
          some ((accessAllOn .readWrite ⟨[], 0⟩
            [.write [1, 2], .seek 4, .write [3], .seek 1, .read 9, .truncate 2]).1, f) ∧
      f.data = (accessAllOn .readWrite ⟨[], 0⟩
        [.write [1, 2], .seek 4, .write [3], .seek 1, .read 9, .truncate 2]).2.cells ∧
      f.position = (accessAllOn .readWrite ⟨[], 0⟩
        [.write [1, 2], .seek 4, .write [3], .seek 1, .read 9, .truncate 2]).2.pos ∧
      f.size = f.data.length := by
  have hrange : InRange .readWrite ⟨[], 0⟩
      [.write [1, 2], .seek 4, .write [3], .seek 1, .read 9, .truncate 2] := by
    simp [InRange, reach, accessOn, writeStart, Tape.seek, Tape.writeAt, Tape.extended,
      Tape.replaced]
  exact ⟨hrange, file_shows_tape 1 "test.txt" .readWrite _ hrange⟩

end GenshinOs.Files
