import GenshinOs.Files.Durable

/-!
# Descriptors of one file

The descriptors of a file share the file in memory, and with it one mode and one position; an open of a
file that is in memory gives it the mode of the new flags and takes the position back to the start
(`handle_open_with_response` in `src/services/file/service.rs`). A `Cursor` is what a read or a write
through a descriptor depends on, and `results_eq_outputs` reduces the requests of a descriptor to it.
`results_open_iff` compares two runs, with and without one more open: the results through an older
descriptor agree for all later reads and writes exactly when the open does not reach the file or the
cursor is not told apart from the rewound one.
-/

set_option autoImplicit false

namespace GenshinOs.Files

open GenshinOs.Lib GenshinOs.Hardware

/-! ## Cursors -/

/-- What reads and writes of a file depend on. -/
structure Cursor where
  mode : OpenMode
  position : Nat
  data : List UInt8
  deriving DecidableEq, Repr

/-- The cursor of an open file. -/
def File.cursor (f : File) : Cursor := ⟨f.mode, f.position, f.data⟩

/-- A read or a write through a descriptor. -/
inductive Transfer where
  | read (offset : Nat) (buf : VirtAddr) (size : Nat)
  | write (offset : Nat) (buf : VirtAddr) (size : Nat)
  | writeData (data : List UInt8)
  deriving DecidableEq, Repr

/-- The request of a transfer. -/
def Transfer.request (fd : UInt32) : Transfer → FileRequest
  | .read offset buf size => .read fd offset buf size
  | .write offset buf size => .write fd offset buf size
  | .writeData data => .writeData fd data

/-- What somebody sees of a request: its answers, and the bytes of the file after it. -/
abbrev Seen := List Answer × Option (List UInt8)

namespace Cursor

/-- The answer to a transfer that the mode does not allow. -/
def denied (operation reason : String) : Answer :=
  .error (.other 1 (ServiceError.permissionDenied operation reason).display)

/-- Read at the cursor. -/
def read (c : Cursor) (count : Nat) : Answer × Cursor :=
  if c.mode = .write then (denied "read" "File opened for write only", c)
  else
    let data := (c.data.drop c.position).take count
    (.ok (.bytes data), { c with position := c.position + data.length })

/-- Where the next bytes are written. -/
def writePos (c : Cursor) : Nat := if c.mode = .append then c.data.length else c.position

/-- Write at the cursor, or at the end. -/
def write (c : Cursor) (data : List UInt8) : Answer × Cursor :=
  if c.mode = .read then (denied "write" "File opened for read only", c)
  else
    (.ok (.bytesProcessed data.length),
      { c with position := c.writePos + data.length, data := File.overwrite c.data c.writePos data })

/-- The answer to a transfer, and the cursor after it. -/
def transfer (c : Cursor) : Transfer → Answer × Cursor
  | .read _ _ size => c.read size
  | .write _ _ size => c.write (List.replicate size 0)
  | .writeData data => c.write data

/-- A transfer with what is seen of it. -/
def perform (c : Cursor) (t : Transfer) : Seen × Cursor :=
  (([(c.transfer t).1], some (c.transfer t).2.data), (c.transfer t).2)

/-- Back at the start, in another mode. -/
def rewound (c : Cursor) (mode : OpenMode) : Cursor := { c with mode := mode, position := 0 }

end Cursor

/-! ## The service works on cursors -/

namespace FileService

/-- A transfer through a descriptor. The file is looked up again for the bytes after it. -/
def transfer (ord : HashOrder) (fd : UInt32) (s : FileService) (t : Transfer) : Seen × FileService :=
  let handled := s.handleEnvelope ord (t.request fd)
  ((handled.2, (handled.1.fileOf 0 fd).map fun file => file.2.data), handled.1)

/-- What is seen of the transfers through a descriptor, one after the other. -/
def results (s : FileService) (ord : HashOrder) (fd : UInt32) (ts : List Transfer) : List Seen :=
  outputs (transfer ord fd) s ts

end FileService

theorem fileOf_eq_some_iff {s : FileService} {pid : Pid} {fd : UInt32} {i : Nat} {f : File} :
    s.fileOf pid fd = some (i, f) ↔
      ∃ entry, s.fdManager.get pid fd.toNat = some entry ∧ entry.file = i ∧
        s.openFiles.lookup i = some f := by
  simp only [FileService.fileOf, Option.bind_eq_some_iff, Option.map_eq_some_iff]
  constructor
  · rintro ⟨entry, hentry, f', hf', heq⟩
    cases heq
    exact ⟨entry, hentry, rfl, hf'⟩
  · rintro ⟨entry, hentry, rfl, hf⟩
    exact ⟨entry, hentry, f, hf, rfl⟩

/-- The descriptor still leads to its file when only the file has changed. -/
theorem fileOf_setFile {s : FileService} {pid : Pid} {fd : UInt32} {i : Nat} {f : File}
    (h : s.fileOf pid fd = some (i, f)) (f' : File) : (s.setFile i f').fileOf pid fd = some (i, f') := by
  obtain ⟨entry, hentry, hfile, -⟩ := fileOf_eq_some_iff.1 h
  refine fileOf_eq_some_iff.2 ⟨entry, hentry, hfile, ?_⟩
  rw [lookup_setFile, if_pos rfl]

theorem fileOf_persist {s : FileService} {pid : Pid} {fd : UInt32} {i : Nat} {f : File}
    (h : s.fileOf pid fd = some (i, f)) (f' : File) :
    (s.persist i f').fileOf pid fd = some (i, (f'.syncToDisk s.disk).2.1) := by
  rw [persist_eq]
  exact fileOf_setFile h _

/-- Bringing a file to disk changes what it says of its run only. -/
theorem cursor_syncToDisk (f : File) (d : SectorDisk) : (f.syncToDisk d).2.1.cursor = f.cursor := by
  simp only [File.syncToDisk]
  split
  · rfl
  · split
    · rfl
    · split
      · rfl
      · split
        · rfl
        · rfl

/-- The two descriptions of the bytes that a read returns. -/
theorem take_drop_min (data : List UInt8) (position count : Nat) :
    (data.take (min (position + count) data.length)).drop position = (data.drop position).take count := by
  rw [List.drop_take, List.take_eq_take_iff, List.length_drop]
  omega

/-- A read of a file is a read of its cursor. -/
theorem cursor_read (f : File) (count : Nat) :
    (f.read count).2.cursor = (f.cursor.read count).2 ∧
      ((f.mode = .write ∧
          (f.read count).1 = .error (.permissionDenied "read" "File opened for write only") ∧
          (f.cursor.read count).1 = Cursor.denied "read" "File opened for write only") ∨
        ∃ data, (f.read count).1 = .ok data ∧ (f.cursor.read count).1 = .ok (.bytes data)) := by
  by_cases hmode : f.mode = .write
  · simp [File.read, Cursor.read, File.cursor, hmode]
  · by_cases hend : f.position ≥ f.data.length
    · -- nothing is left, and the position stays
      have hnone : f.data.drop f.position = [] := List.drop_eq_nil_of_le hend
      simp [File.read, Cursor.read, File.cursor, hmode, hend, hnone]
    · simp [File.read, Cursor.read, File.cursor, hmode, hend, take_drop_min]

theorem cursor_write (f : File) (data : List UInt8) :
    (f.write data).2.cursor = (f.cursor.write data).2 ∧
      ((f.mode = .read ∧
          (f.write data).1 = .error (.permissionDenied "write" "File opened for read only") ∧
          (f.cursor.write data).1 = Cursor.denied "write" "File opened for read only") ∨
        (f.write data).1 = .ok data.length ∧
          (f.cursor.write data).1 = .ok (.bytesProcessed data.length)) := by
  by_cases hmode : f.mode = .read
  · simp [File.write, Cursor.write, File.cursor, hmode]
  · simp [File.write, Cursor.write, Cursor.writePos, File.cursor, File.dataAfter, File.writePos, hmode]
    exact ⟨rfl, rfl⟩

/-- The descriptor leads to a file with this cursor. -/
def Tracks (fd : UInt32) (s : FileService) (c : Cursor) : Prop :=
  ∃ i f, s.fileOf 0 fd = some (i, f) ∧ f.cursor = c

/-- What is seen when the answer and the file after a request are those of a cursor. -/
theorem tracks_of_answer {ord : HashOrder} {fd : UInt32} {s s' : FileService} {t : Transfer} {c : Cursor}
    {i : Nat} {f' : File} (hanswer : s.handleEnvelope ord (t.request fd) = (s', [(c.transfer t).1]))
    (hfile : s'.fileOf 0 fd = some (i, f')) (hcursor : f'.cursor = (c.transfer t).2) :
    (FileService.transfer ord fd s t).1 = (c.perform t).1 ∧
      Tracks fd (FileService.transfer ord fd s t).2 (c.perform t).2 := by
  have hdata : f'.data = (c.transfer t).2.data := by
    rw [← hcursor]
    rfl
  simp only [FileService.transfer, Cursor.perform, hanswer, hfile, Option.map_some, hdata, true_and]
  exact ⟨i, f', hfile, hcursor⟩

theorem envelope_read {s : FileService} {fd : UInt32} {i : Nat} {f : File}
    (h : s.fileOf 0 fd = some (i, f)) (ord : HashOrder) (offset : Nat) (buf : VirtAddr) (size : Nat) :
    s.handleEnvelope ord (.read fd offset buf size) =
      (s.setFile i (f.read size).2, [(f.cursor.read size).1]) := by
  obtain ⟨-, ⟨-, hfile, hcursor⟩ | ⟨data, hfile, hcursor⟩⟩ := cursor_read f size
  · simp only [FileService.handleEnvelope, FileService.handleFileRequestWithResponse,
      FileService.handleReadWithResponse, h]
    rw [hcursor]
    generalize f.read size = r at hfile
    obtain ⟨result, f'⟩ := r
    cases hfile
    rfl
  · simp only [FileService.handleEnvelope, FileService.handleFileRequestWithResponse,
      FileService.handleReadWithResponse, h]
    rw [hcursor]
    generalize f.read size = r at hfile
    obtain ⟨result, f'⟩ := r
    cases hfile
    rfl

/-- The service after a write: on disk when the mode allows it. -/
theorem envelope_write {s : FileService} {fd : UInt32} {i : Nat} {f : File}
    (h : s.fileOf 0 fd = some (i, f)) (ord : HashOrder) {req : FileRequest} {data : List UInt8}
    (hreq : s.handleFileRequestWithResponse ord req = s.handleWriteWithResponse 0 fd data) :
    s.handleEnvelope ord req =
      (if f.mode = .read then s.setFile i f else s.persist i (f.write data).2,
        [(f.cursor.write data).1]) := by
  by_cases hmode : f.mode = .read
  · simp [FileService.handleEnvelope, hreq, FileService.handleWriteWithResponse, h, File.write, hmode,
      Cursor.write, File.cursor, Cursor.denied]
  · simp [FileService.handleEnvelope, hreq, FileService.handleWriteWithResponse, h, File.write, hmode,
      Cursor.write, File.cursor]

theorem tracks_write {s : FileService} {fd : UInt32} {i : Nat} {f : File}
    (h : s.fileOf 0 fd = some (i, f)) (data : List UInt8) :
    ∃ f', (if f.mode = .read then s.setFile i f else s.persist i (f.write data).2).fileOf 0 fd =
      some (i, f') ∧ f'.cursor = (f.cursor.write data).2 := by
  by_cases hmode : f.mode = .read
  · refine ⟨f, ?_, ?_⟩
    · rw [if_pos hmode]
      exact fileOf_setFile h f
    · have hrefused : f.cursor.mode = .read := hmode
      rw [Cursor.write, if_pos hrefused]
  · refine ⟨((f.write data).2.syncToDisk s.disk).2.1, ?_, ?_⟩
    · rw [if_neg hmode]
      exact fileOf_persist h _
    · rw [cursor_syncToDisk, (cursor_write f data).1]

/-- One transfer: the service shows what the cursor shows. -/
theorem Tracks.step {fd : UInt32} {s : FileService} {c : Cursor} (ord : HashOrder) (t : Transfer)
    (h : Tracks fd s c) :
    (FileService.transfer ord fd s t).1 = (c.perform t).1 ∧
      Tracks fd (FileService.transfer ord fd s t).2 (c.perform t).2 := by
  obtain ⟨i, f, hf, rfl⟩ := h
  cases t with
  | read offset buf size =>
    exact tracks_of_answer (envelope_read hf ord offset buf size) (fileOf_setFile hf _)
      (cursor_read f size).1
  | write offset buf size =>
    obtain ⟨f', hf', hcursor⟩ := tracks_write hf (List.replicate size 0)
    exact tracks_of_answer (envelope_write hf ord rfl) hf' hcursor
  | writeData data =>
    obtain ⟨f', hf', hcursor⟩ := tracks_write hf data
    exact tracks_of_answer (envelope_write hf ord rfl) hf' hcursor

/-- All transfers through a descriptor are those of the cursor of its file. -/
theorem results_eq_outputs {fd : UInt32} {s : FileService} {c : Cursor} (h : Tracks fd s c)
    (ord : HashOrder) (ts : List Transfer) : s.results ord fd ts = outputs Cursor.perform c ts :=
  outputs_eq_of_related (fun _ _ t hrelated => hrelated.step ord t) h ts

/-! ## One more open -/

/-- Does an open of the path reach the file? -/
def reaches (s : FileService) (path : String) (flags : OpenFlags) (inode : Nat) : Bool :=
  match (FileService.openNode s.vfs 0 path flags).1 with
  | .error _ => false
  | .ok node => node.isFile && node.inode == inode

theorem get_allocate (m : FileDescriptorManager) (pid : Pid) (file flags : Nat) {fd : Nat}
    (hnew : (m.getTable pid).nextFd ≠ fd) : (m.allocate pid file flags).2.get pid fd = m.get pid fd := by
  have htable : ((m.getTable pid).allocate pid file flags).2.get fd = (m.getTable pid).get fd := by
    simp only [FileTable.allocate]
    split
    · rfl
    · simp only [FileTable.get, HashMap.lookup_insert_eq]
      rw [if_neg (Ne.symm hnew)]
  simp only [FileDescriptorManager.allocate, FileDescriptorManager.get, FileDescriptorManager.setTable,
    HashMap.lookup_insert_eq, if_true, Option.bind_some, htable]
  simp only [FileDescriptorManager.getTable]
  cases m.processTables.lookup pid with
  | none => rfl
  | some t => rfl

/-- An open that finds a node which is no file, or no node at all, changes the tree only. -/
theorem open_cases (s : FileService) (path : String) (flags : OpenFlags) :
    (∃ v, (s.handleOpenWithResponse 0 path flags).service = { s with vfs := v } ∧
      ∀ inode, reaches s path flags inode = false) ∨
    ∃ (node : VFSNode) (v : VirtualFileSystem), (∀ inode, reaches s path flags inode = (node.inode == inode)) ∧
      (s.handleOpenWithResponse 0 path flags).service = { s with
        vfs := v
        openFiles := s.openFiles.insert node.inode
          (FileService.openedFile { s with vfs := v } node.inode path flags)
        fdManager := (s.fdManager.allocate 0 node.inode 0).2 } := by
  simp only [FileService.handleOpenWithResponse, reaches]
  rcases FileService.openNode s.vfs 0 path flags with ⟨⟨e, answer⟩ | node, v⟩
  · exact Or.inl ⟨v, rfl, fun _ => rfl⟩
  · by_cases hfile : node.isFile = false
    · refine Or.inl ⟨v, ?_, ?_⟩
      · simp only [hfile, if_true]
      · simp [hfile]
    · refine Or.inr ⟨node, v, ?_, ?_⟩
      · simp [hfile]
      · simp only [if_neg hfile]
        rcases s.fdManager.allocate 0 node.inode 0 with ⟨e | fd, manager⟩
        · rfl
        · rfl

/-- The file behind an older descriptor after an open. -/
theorem fileOf_open {s : FileService} {fd : UInt32} {i : Nat} {f : File}
    (h : s.fileOf 0 fd = some (i, f)) (hnew : (s.fdManager.getTable 0).nextFd ≠ fd.toNat)
    (ord : HashOrder) (path : String) (flags : OpenFlags) :
    (s.handleEnvelope ord (.open path flags)).1.fileOf 0 fd =
      some (i, if reaches s path flags i then
        { f with mode := openFlagsToMode flags, position := 0, eof := false } else f) := by
  obtain ⟨entry, hentry, hfile, hf⟩ := fileOf_eq_some_iff.1 h
  rw [FileService.handleEnvelope_service]
  show (s.handleOpenWithResponse 0 path flags).service.fileOf 0 fd = _
  obtain ⟨v, hservice, hmissed⟩ | ⟨node, v, hreached, hservice⟩ := open_cases s path flags
  · rw [hservice, hmissed i]
    exact h
  · rw [hservice, hreached i]
    refine fileOf_eq_some_iff.2 ⟨entry, ?_, hfile, ?_⟩
    · show (s.fdManager.allocate 0 node.inode 0).2.get 0 fd.toNat = some entry
      rw [get_allocate s.fdManager 0 node.inode 0 hnew, hentry]
    · show (s.openFiles.insert node.inode _).lookup i = _
      rw [HashMap.lookup_insert_eq]
      by_cases hsame : i = node.inode
      · subst hsame
        simp [FileService.openedFile, hf]
      · simp [hsame, Ne.symm hsame, hf]

/-! ## Telling cursors apart -/

/-- Before the position the old bytes stand, with zeros where there were none. -/
theorem overwrite_before (old : List UInt8) {pos j : Nat} (data : List UInt8) (h : j < pos) :
    (File.overwrite old pos data)[j]? = some (old.getD j 0) := by
  have hgrown : j < (old ++ List.replicate (pos + data.length - old.length) 0).length := by
    rw [List.length_append, List.length_replicate]
    omega
  have hfirst : j < ((old ++ List.replicate (pos + data.length - old.length) 0).take pos).length := by
    rw [List.length_take]
    omega
  simp only [File.overwrite, List.append_assoc]
  rw [List.getElem?_append_left hfirst, List.getElem?_take_of_lt h]
  rcases Nat.lt_or_ge j old.length with hlt | hge
  · rw [List.getElem?_append_left hlt, List.getD_eq_getElem?_getD, List.getElem?_eq_getElem hlt]
    rfl
  · rw [List.getElem?_append_right hge, List.getElem?_replicate, if_pos (by omega),
      List.getD_eq_getElem?_getD, List.getElem?_eq_none hge]
    rfl

/-- At the position the first new byte stands. -/
theorem overwrite_at (old : List UInt8) (pos : Nat) (b : UInt8) :
    (File.overwrite old pos [b])[pos]? = some b := by
  have hfirst : ((old ++ List.replicate (pos + [b].length - old.length) 0).take pos).length = pos := by
    rw [List.length_take, List.length_append, List.length_replicate, List.length_singleton]
    omega
  simp only [File.overwrite, List.append_assoc]
  rw [List.getElem?_append_right (Nat.le_of_eq hfirst), hfirst, Nat.sub_self]
  rfl

/-- One byte shows where it is written. -/
theorem overwrite_pos_injective {old : List UInt8} {pos pos' : Nat}
    (h : ∀ b, File.overwrite old pos [b] = File.overwrite old pos' [b]) : pos = pos' := by
  have hnot : ∀ {p p' : Nat}, (∀ b, File.overwrite old p [b] = File.overwrite old p' [b]) → ¬p < p' := by
    intro p p' hsame hlt
    -- a byte that differs from the old one at the earlier position
    have hbyte := overwrite_at old p (old.getD p 0 + 1)
    rw [hsame, overwrite_before old _ hlt] at hbyte
    exact absurd (Option.some.inj hbyte) (by simp)
  have hle := hnot h
  have hge := hnot fun b => (h b).symm
  omega

namespace Cursor

/-- At the end of the bytes, in a mode that reads nothing more and writes there. -/
def AtEnd (c : Cursor) : Prop :=
  c.data.length ≤ c.position ∧
    (c.mode = .append ∨ c.mode = .readWrite ∧ c.position = c.data.length)

/-- At the end of the bytes, and only for reading. -/
def Spent (c : Cursor) : Prop := c.data.length ≤ c.position ∧ c.mode = .read

/-- Cursors that no transfer tells apart. -/
inductive Alike : Cursor → Cursor → Prop
  | refl (c : Cursor) : Alike c c
  | atEnd {c c' : Cursor} : c.AtEnd → c'.AtEnd → c.data = c'.data → Alike c c'
  | spent {c c' : Cursor} : c.Spent → c'.Spent → c.data = c'.data → Alike c c'

theorem read_at_end {c : Cursor} (hend : c.data.length ≤ c.position) (hmode : c.mode ≠ .write)
    (count : Nat) : c.read count = (.ok (.bytes []), c) := by
  simp [read, hmode, List.drop_eq_nil_of_le hend]

theorem AtEnd.writePos_eq {c : Cursor} (h : c.AtEnd) : c.writePos = c.data.length := by
  obtain ⟨-, hmode | ⟨hmode, hpos⟩⟩ := h
  · rw [writePos, if_pos hmode]
  · rw [writePos, hmode, if_neg (by decide), hpos]

theorem AtEnd.not_read {c : Cursor} (h : c.AtEnd) : c.mode ≠ .read := by
  obtain ⟨-, hmode | ⟨hmode, -⟩⟩ := h
  · rw [hmode]
    decide
  · rw [hmode]
    decide

theorem AtEnd.not_write {c : Cursor} (h : c.AtEnd) : c.mode ≠ .write := by
  obtain ⟨-, hmode | ⟨hmode, -⟩⟩ := h
  · rw [hmode]
    decide
  · rw [hmode]
    decide

/-- Bytes that are written behind the last one. -/
theorem overwrite_end (old data : List UInt8) : File.overwrite old old.length data = old ++ data := by
  simp [File.overwrite]

theorem AtEnd.write_eq {c : Cursor} (h : c.AtEnd) (data : List UInt8) :
    c.write data = (.ok (.bytesProcessed data.length),
      ⟨c.mode, c.data.length + data.length, c.data ++ data⟩) := by
  rw [write, if_neg h.not_read, h.writePos_eq, overwrite_end]

theorem AtEnd.write {c : Cursor} (h : c.AtEnd) (data : List UInt8) : (c.write data).2.AtEnd := by
  rw [h.write_eq]
  obtain ⟨-, hmode | ⟨hmode, -⟩⟩ := h
  · exact ⟨by simp, Or.inl hmode⟩
  · exact ⟨by simp, Or.inr ⟨hmode, by simp⟩⟩

/-- What a transfer shows, and that it leads to cursors that are alike again. -/
def Agrees (r r' : Answer × Cursor) : Prop := r.1 = r'.1 ∧ r.2.data = r'.2.data ∧ Alike r.2 r'.2

theorem Alike.read {c c' : Cursor} (h : Alike c c') (count : Nat) :
    Agrees (c.read count) (c'.read count) := by
  cases h with
  | refl => exact ⟨rfl, rfl, Alike.refl _⟩
  | atEnd hc hc' hdata =>
    rw [read_at_end hc.1 hc.not_write, read_at_end hc'.1 hc'.not_write]
    exact ⟨rfl, hdata, Alike.atEnd hc hc' hdata⟩
  | spent hc hc' hdata =>
    rw [read_at_end hc.1 (by rw [hc.2]; decide), read_at_end hc'.1 (by rw [hc'.2]; decide)]
    exact ⟨rfl, hdata, Alike.spent hc hc' hdata⟩

theorem Alike.write {c c' : Cursor} (h : Alike c c') (data : List UInt8) :
    Agrees (c.write data) (c'.write data) := by
  cases h with
  | refl => exact ⟨rfl, rfl, Alike.refl _⟩
  | atEnd hc hc' hdata =>
    have hwritten : (c.write data).2.data = (c'.write data).2.data := by
      rw [hc.write_eq, hc'.write_eq, hdata]
    refine ⟨?_, hwritten, Alike.atEnd (hc.write data) (hc'.write data) hwritten⟩
    rw [hc.write_eq, hc'.write_eq]
  | spent hc hc' hdata =>
    rw [Cursor.write, if_pos hc.2, Cursor.write, if_pos hc'.2]
    exact ⟨rfl, hdata, Alike.spent hc hc' hdata⟩

theorem Alike.perform {c c' : Cursor} (h : Alike c c') (t : Transfer) :
    (c.perform t).1 = (c'.perform t).1 ∧ Alike (c.perform t).2 (c'.perform t).2 := by
  have hagrees : Agrees (c.transfer t) (c'.transfer t) := by
    cases t with
    | read offset buf size => exact h.read size
    | write offset buf size => exact h.write _
    | writeData data => exact h.write data
  obtain ⟨hanswer, hdata, halike⟩ := hagrees
  refine ⟨?_, halike⟩
  rw [Cursor.perform, Cursor.perform, hanswer, hdata]

/-- The modes and positions for which rewinding to a mode is not seen: the cursor is there already, or the
file is empty and both modes go on at its end. -/
def Settled (c : Cursor) (mode : OpenMode) : Prop :=
  c.mode = mode ∧ (c.position = 0 ∨ c.data = [] ∧ (mode = .read ∨ mode = .append)) ∨
    c.data = [] ∧ (c.mode = .readWrite ∧ c.position = 0 ∧ mode = .append ∨
      c.mode = .append ∧ mode = .readWrite)

instance (c : Cursor) (mode : OpenMode) : Decidable (c.Settled mode) :=
  inferInstanceAs (Decidable (_ ∨ _))

theorem Settled.alike {c : Cursor} {mode : OpenMode} (h : c.Settled mode) : Alike c (c.rewound mode) := by
  obtain ⟨hmode, hpos | ⟨hdata, hread | happend⟩⟩ | ⟨hdata, ⟨hmode, hpos, hnew⟩ | ⟨hmode, hnew⟩⟩ := h
  · have hsame : c.rewound mode = c := by
      rw [rewound, ← hmode, ← hpos]
    rw [hsame]
    exact Alike.refl c
  · exact Alike.spent ⟨by simp [hdata], hmode.trans hread⟩ ⟨by simp [rewound, hdata], hread⟩ rfl
  · exact Alike.atEnd ⟨by simp [hdata], Or.inl (hmode.trans happend)⟩
      ⟨by simp [rewound, hdata], Or.inl happend⟩ rfl
  · exact Alike.atEnd ⟨by simp [hdata], Or.inr ⟨hmode, by simp [hdata, hpos]⟩⟩
      ⟨by simp [rewound, hdata], Or.inl hnew⟩ rfl
  · exact Alike.atEnd ⟨by simp [hdata], Or.inl hmode⟩
      ⟨by simp [rewound, hdata], Or.inr ⟨hnew, by simp [rewound, hdata]⟩⟩ rfl

section observations

variable {c c' : Cursor} (h : ∀ ts, outputs perform c ts = outputs perform c' ts)

include h

/-- A single transfer shows the same. -/
theorem seen_single (t : Transfer) :
    (c.transfer t).1 = (c'.transfer t).1 ∧ (c.transfer t).2.data = (c'.transfer t).2.data := by
  have hone := h [t]
  simp only [outputs, perform, List.cons.injEq, Prod.mk.injEq, and_true, Option.some.injEq] at hone
  exact hone

/-- An empty read shows whether the file may be read. -/
theorem write_mode_iff : c.mode = .write ↔ c'.mode = .write := by
  have hseen := (seen_single h (.read 0 0 0)).1
  by_cases hc : c.mode = .write
  · by_cases hc' : c'.mode = .write
    · simp only [hc, hc']
    · simp [transfer, read, hc, hc', denied] at hseen
  · by_cases hc' : c'.mode = .write
    · simp [transfer, read, hc, hc', denied] at hseen
    · simp only [hc, hc']

/-- An empty write shows whether the file may be written. -/
theorem read_mode_iff : c.mode = .read ↔ c'.mode = .read := by
  have hseen := (seen_single h (.writeData [])).1
  by_cases hc : c.mode = .read
  · by_cases hc' : c'.mode = .read
    · simp only [hc, hc']
    · simp [transfer, write, hc, hc', denied] at hseen
  · by_cases hc' : c'.mode = .read
    · simp [transfer, write, hc, hc', denied] at hseen
    · simp only [hc, hc']

/-- A read of everything shows what is left. -/
theorem left_eq (hdata : c.data = c'.data) (hc : c.mode ≠ .write) :
    c.data.drop c.position = c.data.drop c'.position := by
  have hc' : c'.mode ≠ .write := fun hwrite => hc ((write_mode_iff h).2 hwrite)
  have hseen := (seen_single h (.read 0 0 c.data.length)).1
  simp only [transfer, read, hc, hc', if_false, Except.ok.injEq, ResponseData.bytes.injEq] at hseen
  rw [← hdata, List.take_of_length_le (by simp), List.take_of_length_le (by simp)] at hseen
  exact hseen

/-- A byte shows where writes go. -/
theorem writePos_eq (hdata : c.data = c'.data) (hc : c.mode ≠ .read) : c.writePos = c'.writePos := by
  have hc' : c'.mode ≠ .read := fun hread => hc ((read_mode_iff h).2 hread)
  apply @overwrite_pos_injective c.data
  intro b
  have hseen := (seen_single h (.writeData [b])).2
  simp only [transfer, write, hc, hc', if_false] at hseen
  rw [hseen, hdata]

end observations

theorem drop_eq_self {data : List UInt8} {n : Nat} (h : data.drop n = data) : n = 0 ∨ data = [] := by
  have hlength := congrArg List.length h
  rw [List.length_drop] at hlength
  rcases Nat.eq_zero_or_pos n with hzero | hpos
  · exact Or.inl hzero
  · exact Or.inr (List.length_eq_zero_iff.1 (by omega))

/-- Rewinding is not seen by any transfers exactly for the settled cursors. -/
theorem rewound_unseen_iff (c : Cursor) (mode : OpenMode) :
    (∀ ts, outputs perform (c.rewound mode) ts = outputs perform c ts) ↔ c.Settled mode := by
  constructor
  · intro hsame
    have h : ∀ ts, outputs perform c ts = outputs perform (c.rewound mode) ts := fun ts => (hsame ts).symm
    have hwrite : c.mode = .write ↔ mode = .write := write_mode_iff h
    have hread : c.mode = .read ↔ mode = .read := read_mode_iff h
    have hleft : c.mode ≠ .write → c.position = 0 ∨ c.data = [] :=
      fun hc => drop_eq_self (left_eq h rfl hc)
    have hpos : c.mode ≠ .read → c.writePos = (c.rewound mode).writePos := fun hc => writePos_eq h rfl hc
    -- sixteen pairs of modes, of which the two empty transfers leave six
    cases hc : c.mode <;> cases hm : mode <;>
      simp_all [Settled, writePos, rewound, List.length_eq_zero_iff]
  · intro hsettled ts
    exact (outputs_eq_of_related (R := Alike) (fun _ _ t halike => halike.perform t) hsettled.alike ts).symm

end Cursor

/-! ## Two runs -/

/-- With one more open, the transfers through an older descriptor are those of the cursor that the open
rewinds when it reaches the file. They are the same as without the open, for all later transfers, exactly
when it does not reach the file or the cursor is settled for the new mode. -/
theorem results_open_iff {s : FileService} {fd : UInt32} {inode : Nat} {f : File}
    (h : s.fileOf 0 fd = some (inode, f)) (hnew : (s.fdManager.getTable 0).nextFd ≠ fd.toNat)
    (ord : HashOrder) (path : String) (flags : OpenFlags) :
    (∀ ord' ts, (s.handleEnvelope ord (.open path flags)).1.results ord' fd ts =
      outputs Cursor.perform (if reaches s path flags inode then
        f.cursor.rewound (openFlagsToMode flags) else f.cursor) ts) ∧
    ((∀ ord' ts, (s.handleEnvelope ord (.open path flags)).1.results ord' fd ts =
        s.results ord' fd ts) ↔
      (reaches s path flags inode = true → f.cursor.Settled (openFlagsToMode flags))) := by
  -- transfers are those of the cursor, before and after the open
  have hafter : ∀ ord' ts, (s.handleEnvelope ord (.open path flags)).1.results ord' fd ts =
      outputs Cursor.perform (if reaches s path flags inode then
        f.cursor.rewound (openFlagsToMode flags) else f.cursor) ts := by
    intro ord' ts
    apply results_eq_outputs
    refine ⟨inode, _, fileOf_open h hnew ord path flags, ?_⟩
    split
    · rfl
    · rfl
  have hbefore : ∀ ord' ts, s.results ord' fd ts = outputs Cursor.perform f.cursor ts :=
    fun ord' ts => results_eq_outputs ⟨inode, f, h, rfl⟩ ord' ts
  refine ⟨hafter, ?_⟩
  -- an open of another file is not seen
  by_cases hreached : reaches s path flags inode = true
  · have hiff := f.cursor.rewound_unseen_iff (openFlagsToMode flags)
    simp only [hreached, if_true] at hafter
    constructor
    · intro hsame _
      apply hiff.1
      intro ts
      rw [← hafter ord ts, hsame ord ts, hbefore]
    · intro hsettled ord' ts
      rw [hafter, hbefore, hiff.2 (hsettled hreached)]
  · simp only [hreached] at hafter
    constructor
    · intro _ himpossible
      exact absurd himpossible hreached
    · intro _ ord' ts
      rw [hafter, hbefore]
      rfl

/-- A new file has a settled cursor for the mode that it has. -/
theorem results_open_again : ∃ f, withNewFile.fileOf 0 3 = some (29, f) ∧
    ((∀ ord ts, (withNewFile.handleEnvelope .stored
        (.open "/tmp/a" ⟨true, true, false, false, false⟩)).1.results ord 3 ts =
        withNewFile.results ord 3 ts) ↔
      (reaches withNewFile "/tmp/a" ⟨true, true, false, false, false⟩ 29 = true →
        f.cursor.Settled .readWrite)) := by
  have hfile : (withNewFile.fileOf 0 3).map (fun r => r.1) = some 29 := by
    decide +kernel
  obtain ⟨⟨i, f⟩, hf, hi⟩ := Option.map_eq_some_iff.1 hfile
  subst hi
  exact ⟨f, hf, (results_open_iff hf (by decide +kernel) .stored "/tmp/a" _).2⟩

/-- The file is open for reading and writing. After one more open for reading only, the same write through
the old descriptor is refused. -/
theorem write_refused_after_open : Reachable 4096 256 withNewFile ∧
    (withNewFile.fileOf 0 3).map (fun r => r.1) = some 29 ∧
    reaches withNewFile "/tmp/a" .readOnly 29 = true ∧
    (withNewFile.handleEnvelope .stored (.open "/tmp/a" .readOnly)).2 = [.ok (.fd 4)] ∧
    withNewFile.results .stored 3 [.writeData [1]] = [([.ok (.bytesProcessed 1)], some [1])] ∧
    (withNewFile.handleEnvelope .stored (.open "/tmp/a" .readOnly)).1.results .stored 3 [.writeData [1]] =
      [([Cursor.denied "write" "File opened for read only"], some [])] := by
  refine ⟨Reachable.take _ (Reachable.boot []), ?_, ?_, ?_, ?_, ?_⟩
  · decide +kernel
  · decide +kernel
  · decide +kernel
  · decide +kernel
  · decide +kernel

end GenshinOs.Files
