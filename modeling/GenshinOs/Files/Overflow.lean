import GenshinOs.Files.Paths
import GenshinOs.Files.Sharing
import GenshinOs.Files.Words

/-!
# Cursors of the service and the sums made with them

A request to read brings a count that nobody checks, and the count is added to the cursor before it is
cut off at the end of the file. `TableEffect` lists what a request does to the tables of the service. The
cursor of a file of the service is never behind its bytes (`Within`), so that the sums of the writes and all
slices stay in bounds; the sum of a read overflows exactly when the count is too large for the cursor
(`accesses_safe_iff`).
-/

set_option autoImplicit false

namespace GenshinOs.Files

open GenshinOs.Lib GenshinOs.Hardware

/-! ## What a request does to the tables -/

namespace FileService

theorem handleCloseWithResponse_service (s : FileService) (fd : UInt32) :
    (s.handleCloseWithResponse 0 fd).service = ((s.syncOnClose 0 fd).handleClose 0 fd).service := by
  simp only [handleCloseWithResponse]
  split
  · rfl
  · rfl

theorem handleDelete_tree (s : FileService) (path : String) :
    ∃ v, (s.handleDelete path).service = { s with vfs := v } := by
  simp only [handleDelete]
  split
  · exact ⟨s.vfs, rfl⟩
  · exact ⟨_, rfl⟩

theorem handleStat_tree (s : FileService) (path : String) :
    ∃ v, (s.handleStat path).service = { s with vfs := v } := by
  simp only [handleStat]
  split
  · exact ⟨s.vfs, rfl⟩
  · exact ⟨s.vfs, rfl⟩

theorem handleMkdir_tree (s : FileService) (path : String) :
    ∃ v, (s.handleMkdir 0 path).service = { s with vfs := v } := by
  simp only [handleMkdir]
  split
  · exact ⟨s.vfs, rfl⟩
  · split
    · exact ⟨s.vfs, rfl⟩
    · split
      · exact ⟨s.vfs, rfl⟩
      · split
        · exact ⟨_, rfl⟩
        · exact ⟨_, rfl⟩

theorem handleRmdir_tree (s : FileService) (path : String) :
    ∃ v, (s.handleRmdir path).service = { s with vfs := v } := by
  simp only [handleRmdir]
  split
  · exact ⟨s.vfs, rfl⟩
  · split
    · exact ⟨s.vfs, rfl⟩
    · split
      · exact ⟨s.vfs, rfl⟩
      · exact ⟨_, rfl⟩

/-- What works on paths changes the tree at most. The other requests have one effect each; a close that
is answered has two. -/
inductive TableEffect (s : FileService) (e : FileEvent) (s' : FileService) : Prop
  | tree (v : VirtualFileSystem) : s' = { s with vfs := v } → TableEffect s e s'
  | opened (path : String) (flags : OpenFlags) : e.req = .open path flags →
      s' = (s.handleOpenWithResponse 0 path flags).service → TableEffect s e s'
  | closed (fd : UInt32) : e.req = .close fd → s' = (s.handleClose 0 fd).service → TableEffect s e s'
  | synced (fd : UInt32) : e.req = .close fd → s' = ((s.syncOnClose 0 fd).handleClose 0 fd).service →
      TableEffect s e s'
  | read (fd : UInt32) (count : Nat) : (∃ offset buf, e.req = .read fd offset buf count) →
      s' = (s.handleReadWithResponse 0 fd count).service → TableEffect s e s'
  | wrote (fd : UInt32) (data : List UInt8) : written e.req = some (fd, data) →
      s' = (s.handleWriteWithResponse 0 fd data).service → TableEffect s e s'
  | cloned (fromPid toPid : Pid) :
      s' = { s with fdManager := s.fdManager.cloneFds e.ord fromPid toPid } → TableEffect s e s'

theorem TableEffect.of_tree {s s' : FileService} {e : FileEvent} (h : ∃ v, s' = { s with vfs := v }) :
    TableEffect s e s' := by
  obtain ⟨v, hv⟩ := h
  exact TableEffect.tree v hv

end FileService

open FileService

/-- Every request has one of the effects. -/
theorem take_tableEffect (s : FileService) (e : FileEvent) : TableEffect s e (s.take e) := by
  by_cases hclose : ∃ fd, e.req = .close fd
  · obtain ⟨fd, hreq⟩ := hclose
    -- only the form with an answer writes the file back before it closes
    rcases take_close s hreq with hanswered | hplain
    · exact TableEffect.synced fd hreq (hanswered.trans (handleCloseWithResponse_service s fd))
    · exact TableEffect.closed fd hreq hplain
  -- the two forms of any other request do the same
  · rcases take_eq_plain s fun fd hreq => hclose ⟨fd, hreq⟩ with hpanics | hplain
    · exact TableEffect.tree s.vfs hpanics
    rw [hplain]
    obtain ⟨ord, req, answered⟩ := e
    cases req with
    | «open» path flags => exact TableEffect.opened path flags rfl rfl
    | close fd => exact absurd ⟨fd, rfl⟩ hclose
    | read fd offset buf size => exact TableEffect.read fd size ⟨offset, buf, rfl⟩ rfl
    | write fd offset buf size => exact TableEffect.wrote fd (List.replicate size 0) rfl rfl
    | writeData fd data => exact TableEffect.wrote fd data rfl rfl
    | unlink path => exact TableEffect.of_tree (handleDelete_tree s path)
    | stat path => exact TableEffect.of_tree (handleStat_tree s path)
    | createDirectory path => exact TableEffect.of_tree (handleMkdir_tree s path)
    | removeDirectory path => exact TableEffect.of_tree (handleRmdir_tree s path)
    | openDirectory path => exact TableEffect.tree s.vfs (handleListdir_service s path)
    | cloneFds fromPid toPid => exact TableEffect.cloned fromPid toPid rfl
    | listDir path => exact TableEffect.tree s.vfs rfl
    | readDirectory dirFd => exact TableEffect.tree s.vfs rfl
    | closeDirectory dirFd => exact TableEffect.tree s.vfs rfl
    | diskInfo => exact TableEffect.tree s.vfs rfl
    | other => exact TableEffect.tree s.vfs rfl

/-! ## Safe accesses -/

namespace File

/-- The sum of a read does not overflow, and its slice is inside the bytes. -/
def ReadSafe (f : File) (count : Nat) : Prop :=
  f.mode ≠ .write → f.position + count < 2 ^ 64 ∧
    (f.position < f.data.length → f.position ≤ f.readEnd count ∧ f.readEnd count ≤ f.data.length)

/-- The sum of a write does not overflow, and its slice is inside the grown bytes. -/
def WriteSafe (f : File) (data : List UInt8) : Prop :=
  f.mode ≠ .read → f.writePos + data.length < 2 ^ 64 ∧ f.writePos ≤ f.writeEnd data ∧
    f.writeEnd data ≤ (resized f.data (f.writeEnd data)).length

/-- The cursor is not behind the bytes. -/
def Within (f : File) : Prop := f.position ≤ f.data.length

theorem readSafe_iff (f : File) (count : Nat) :
    f.ReadSafe count ↔ f.mode = .write ∨ f.position + count < 2 ^ 64 := by
  rw [ReadSafe]
  by_cases hmode : f.mode = .write
  · exact iff_of_true (fun h => absurd hmode h) (Or.inl hmode)
  · constructor
    · intro h
      exact Or.inr (h hmode).1
    · rintro (h | h) _
      · exact absurd h hmode
      · -- without a wrap the end is behind the cursor
        have hend : f.readEnd count = min (f.position + count) f.data.length := by
          rw [readEnd, wordSum_of_lt h]
        refine ⟨h, ?_⟩
        rw [hend]
        omega

theorem Within.writePos_le {f : File} (h : f.Within) : f.writePos ≤ f.data.length := by
  rw [writePos]
  split
  · exact Nat.le_refl _
  · exact h

theorem Within.writeSafe {f : File} (h : f.Within) (hlen : f.data.length < 2 ^ 63) {data : List UInt8}
    (hdata : data.length < 2 ^ 63) : f.WriteSafe data := by
  intro _
  have hpos := h.writePos_le
  have hsum : f.writePos + data.length < 2 ^ 64 := by omega
  have hend : f.writeEnd data = f.writePos + data.length := wordSum_of_lt hsum
  refine ⟨hsum, ?_, ?_⟩
  · rw [hend]
    exact Nat.le_add_right _ _
  · rw [length_resized]
    exact Nat.le_max_right _ _

/-! ## The cursor stays inside -/

theorem Within.read {f : File} (h : f.Within) (count : Nat) : (f.read count).2.Within := by
  rw [File.read]
  split
  · exact h
  · split
    · exact h
    -- what is read ends at the last byte at the latest
    · show f.position + _ ≤ f.data.length
      rw [List.length_drop, List.length_take]
      have hin : f.position ≤ f.data.length := h
      omega

theorem length_overwrite (old : List UInt8) (pos : Nat) (data : List UInt8) :
    (overwrite old pos data).length = max old.length (pos + data.length) := by
  simp only [overwrite, List.length_append, List.length_take, List.length_drop, List.length_replicate]
  omega

theorem within_write {f : File} (h : f.Within) (data : List UInt8) : (f.write data).2.Within := by
  rw [File.write]
  split
  · exact h
  -- the bytes reach at least to the end of the write
  · show f.writePos + data.length ≤ (f.dataAfter data).length
    rw [dataAfter, length_overwrite]
    exact Nat.le_max_right _ _

theorem within_rewound (f : File) (mode : OpenMode) :
    ({ f with mode := mode, position := 0, eof := false } : File).Within := Nat.zero_le _

theorem within_syncToDisk {f : File} (h : f.Within) (d : SectorDisk) : (f.syncToDisk d).2.1.Within := by
  have hcursor := cursor_syncToDisk f d
  have hpos : (f.syncToDisk d).2.1.position = f.position := congrArg Cursor.position hcursor
  have hdata : (f.syncToDisk d).2.1.data = f.data := congrArg Cursor.data hcursor
  rw [Within, hpos, hdata]
  exact h

/-- Bytes that come from disk are read from the start. -/
theorem position_loadFromDisk {f : File} (h : f.position = 0) (d : SectorDisk) :
    (f.loadFromDisk d).2.position = 0 := by
  rw [loadFromDisk]
  split
  · exact h
  · split
    · exact h
    · split
      · exact h
      · rfl

end File

open File

/-- All files in memory have their cursor inside. -/
def CursorsWithin (s : FileService) : Prop := ∀ i f, s.openFiles.lookup i = some f → f.Within

theorem within_loadFile (v : VirtualFileSystem) (d : SectorDisk) (inode : Nat) (path : String)
    (mode : OpenMode) : (FileService.loadFile v d inode path mode).Within := by
  -- a file without sectors is empty, and a loaded one is read from the front
  have hstart : (FileService.loadFile v d inode path mode).position = 0 := by
    simp only [FileService.loadFile]
    split
    · rfl
    · split
      · rfl
      · apply position_loadFromDisk
        rfl
  rw [Within, hstart]
  exact Nat.zero_le _

section Handlers

variable {s : FileService}

theorem CursorsWithin.setFile (h : CursorsWithin s) (i : Nat) {f : File} (hf : f.Within) :
    CursorsWithin (s.setFile i f) := by
  intro j g hg
  rw [lookup_setFile] at hg
  split at hg
  · cases hg
    exact hf
  · exact h j g hg

theorem within_fileOf (h : CursorsWithin s) {fd : UInt32} {i : Nat} {f : File}
    (hf : s.fileOf 0 fd = some (i, f)) : f.Within := h i f (fileOf_some hf).2

theorem cursorsWithin_open (h : CursorsWithin s) (path : String) (flags : OpenFlags) :
    CursorsWithin (s.handleOpenWithResponse 0 path flags).service := by
  obtain ⟨v, hservice, -⟩ | ⟨node, v, -, hservice⟩ := open_cases s path flags
  · rw [hservice]
    exact h
  · have hopened : (FileService.openedFile { s with vfs := v } node.inode path flags).Within := by
      simp only [FileService.openedFile]
      split
      -- a file that is in memory already is rewound
      · exact within_rewound _ _
      · exact within_loadFile v s.disk node.inode path _
    rw [hservice]
    exact h.setFile node.inode hopened

theorem cursorsWithin_read (h : CursorsWithin s) (fd : UInt32) (count : Nat) :
    CursorsWithin (s.handleReadWithResponse 0 fd count).service := by
  simp only [FileService.handleReadWithResponse]
  split
  · exact h
  · next i f hf =>
    have hread := (within_fileOf h hf).read count
    split
    · next hresult =>
      rw [hresult] at hread
      exact h.setFile i hread
    · next hresult =>
      rw [hresult] at hread
      exact h.setFile i hread

theorem cursorsWithin_write (h : CursorsWithin s) (fd : UInt32) (data : List UInt8) :
    CursorsWithin (s.handleWriteWithResponse 0 fd data).service := by
  simp only [FileService.handleWriteWithResponse]
  split
  · exact h
  · next i f hf =>
    have hwrite := within_write (within_fileOf h hf) data
    split
    · next hresult =>
      rw [hresult] at hwrite
      exact h.setFile i hwrite
    · next hresult =>
      rw [hresult] at hwrite
      rw [persist_eq]
      exact h.setFile i (within_syncToDisk hwrite s.disk)

theorem cursorsWithin_syncOnClose (h : CursorsWithin s) (fd : UInt32) :
    CursorsWithin (s.syncOnClose 0 fd) := by
  simp only [FileService.syncOnClose]
  split
  · exact h
  · next i f hf =>
    split
    · exact h.setFile i (within_syncToDisk (within_fileOf h hf) s.disk)
    · exact h

/-- No request moves a cursor behind the bytes. -/
theorem cursorsWithin_take (h : CursorsWithin s) (e : FileEvent) : CursorsWithin (s.take e) := by
  cases take_tableEffect s e with
  | tree v hv =>
    rw [hv]
    exact h
  | opened path flags _ hopen =>
    rw [hopen]
    exact cursorsWithin_open h path flags
  | closed fd _ hclose =>
    rw [hclose]
    exact h
  | synced fd _ hclose =>
    rw [hclose]
    exact cursorsWithin_syncOnClose h fd
  | read fd count _ hread =>
    rw [hread]
    exact cursorsWithin_read h fd count
  | wrote fd data _ hwrite =>
    rw [hwrite]
    exact cursorsWithin_write h fd data
  | cloned fromPid toPid hclone =>
    rw [hclone]
    exact h

end Handlers

/-! ## Runs -/

/-- The count that a request reads, and its descriptor. -/
def asked : FileRequest → Option (UInt32 × Nat)
  | .read fd _ _ size => some (fd, size)
  | _ => none

/-- The accesses that a request makes are safe. -/
def AccessSafe (s : FileService) (req : FileRequest) : Prop :=
  (∀ fd size i f, asked req = some (fd, size) → s.fileOf 0 fd = some (i, f) → f.ReadSafe size) ∧
    ∀ fd data i f, written req = some (fd, data) → s.fileOf 0 fd = some (i, f) → f.WriteSafe data

/-- A count to be read is not too large for the cursor, unless the file is not read at all. -/
def CountFits (s : FileService) (req : FileRequest) : Prop :=
  ∀ fd size i f, asked req = some (fd, size) → s.fileOf 0 fd = some (i, f) →
    f.mode = .write ∨ size < 2 ^ 64 - f.position

/-- Bytes of a vector: there are less than 2^63 of them. -/
def IsVector (data : List UInt8) : Prop := data.length < 2 ^ 63

/-- The vectors of the program before a request, and those of the request, are vectors. -/
def VectorsOf (s : FileService) (req : FileRequest) : Prop :=
  (∀ i f, s.openFiles.lookup i = some f → IsVector f.data) ∧
    ∀ fd data, written req = some (fd, data) → IsVector data

theorem accessSafe_iff {s : FileService} (h : CursorsWithin s) {req : FileRequest}
    (hvec : VectorsOf s req) : AccessSafe s req ↔ CountFits s req := by
  constructor
  · intro hsafe fd size i f hreq hf
    apply ((readSafe_iff f size).1 (hsafe.1 fd size i f hreq hf)).imp_right
    intro hsum
    omega
  · intro hfits
    constructor
    · intro fd size i f hreq hf
      apply (readSafe_iff f size).2
      apply (hfits fd size i f hreq hf).imp_right
      intro hsize
      omega
    -- a write needs no condition: its cursor is within the bytes, and both vectors are short
    · intro fd data i f hreq hf
      exact (within_fileOf h hf).writeSafe (hvec.1 i f (fileOf_some hf).2) (hvec.2 fd data hreq)

theorem cursorsWithin_run {s : FileService} (h : CursorsWithin s) (es : List FileEvent) :
    ∀ t ∈ (runTrace fileTransition s es).2, CursorsWithin t.pre := by
  have hkept := fileTrace_invariant h es fun t _ hpre => cursorsWithin_take hpre t.act
  exact fun t ht => (hkept.2 t ht).1

/-- All accesses of a run of a started service are safe exactly when no count is too large for the
cursor that it is added to. -/
theorem accesses_safe_iff {s : FileService} (hstart : s.openFiles = ∅) (es : List FileEvent)
    (hvec : ∀ t ∈ (runTrace fileTransition s es).2, VectorsOf t.pre t.act.req) :
    (∀ t ∈ (runTrace fileTransition s es).2, AccessSafe t.pre t.act.req) ↔
      ∀ t ∈ (runTrace fileTransition s es).2, CountFits t.pre t.act.req := by
  have hwithin : CursorsWithin s := by
    intro i f hf
    rw [hstart] at hf
    cases hf
  -- nothing is open at the start, and no request moves a cursor too far
  have hall := cursorsWithin_run hwithin es
  constructor
  · intro hsafe t ht
    exact (accessSafe_iff (hall t ht) (hvec t ht)).1 (hsafe t ht)
  · intro hfits t ht
    exact (accessSafe_iff (hall t ht) (hvec t ht)).2 (hfits t ht)

/-- A file of two bytes, opened again and read up to its second byte. -/
def halfRead : List FileEvent :=
  [⟨.stored, .open "/a" ⟨true, true, true, false, false⟩, true⟩, ⟨.stored, .writeData 3 [1, 2], true⟩,
    ⟨.stored, .open "/a" ⟨true, true, false, false, false⟩, true⟩, ⟨.stored, .read 4 0 0 1, true⟩]

theorem vectorsOf_of_entries {s : FileService} {req : FileRequest}
    (hfiles : ∀ e ∈ s.openFiles.entries, e.2.data.length < 2 ^ 63)
    (hreq : ∀ e ∈ written req, e.2.length < 2 ^ 63) : VectorsOf s req := by
  constructor
  · intro i f hf
    exact hfiles ⟨i, f⟩ (AList.mem_lookup_iff.1 hf)
  · intro fd data hwritten
    exact hreq (fd, data) hwritten

theorem halfRead_safe_iff :
    (FileService.boot 4096 256 []).openFiles = ∅ ∧
    (∀ t ∈ (runTrace fileTransition (FileService.boot 4096 256 []) halfRead).2,
      VectorsOf t.pre t.act.req) ∧
    ((∀ t ∈ (runTrace fileTransition (FileService.boot 4096 256 []) halfRead).2,
        AccessSafe t.pre t.act.req) ↔
      ∀ t ∈ (runTrace fileTransition (FileService.boot 4096 256 []) halfRead).2,
        CountFits t.pre t.act.req) := by
  have hstart : (FileService.boot 4096 256 []).openFiles = ∅ := rfl
  have hentries : ∀ t ∈ (runTrace fileTransition (FileService.boot 4096 256 []) halfRead).2,
      (∀ e ∈ t.pre.openFiles.entries, e.2.data.length < 2 ^ 63) ∧
        ∀ e ∈ written t.act.req, e.2.length < 2 ^ 63 := by decide +kernel
  have hvec : ∀ t ∈ (runTrace fileTransition (FileService.boot 4096 256 []) halfRead).2,
      VectorsOf t.pre t.act.req :=
    fun t ht => vectorsOf_of_entries (hentries t ht).1 (hentries t ht).2
  exact ⟨hstart, hvec, accesses_safe_iff hstart halfRead hvec⟩

/-- After that, the largest count stops the program. -/
theorem huge_read_unsafe :
    ∃ i f, (runTrace fileTransition (FileService.boot 4096 256 []) halfRead).1.fileOf 0 4 = some (i, f) ∧
      ¬f.ReadSafe (2 ^ 64 - 1) := by
  have hfile : ((runTrace fileTransition (FileService.boot 4096 256 []) halfRead).1.fileOf 0 4).any
      (fun e => e.2.position == 1 && e.2.mode == .readWrite) = true := by decide +kernel
  obtain ⟨⟨i, f⟩, hf, hcursor⟩ := (Option.any_eq_true _ _).1 hfile
  simp only [Bool.and_eq_true, beq_iff_eq] at hcursor
  refine ⟨i, f, hf, fun hsafe => ?_⟩
  -- the cursor is at 1, so that the largest count makes the sum overflow
  rcases (readSafe_iff f (2 ^ 64 - 1)).1 hsafe with hmode | hsum
  · rw [hcursor.2] at hmode
    cases hmode
  · rw [hcursor.1] at hsum
    exact absurd hsum (by decide)

end GenshinOs.Files
