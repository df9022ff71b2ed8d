import GenshinOs.Files.Sharing
import GenshinOs.Hardware.Translation
import GenshinOs.Lib.Scatter
import GenshinOs.Process.Loading

/-!
# Reading a file

The read call asks the file service for at most a page of bytes, which moves the cursor, and copies the
reply to `0x200` byte by byte. It ignores every byte that it cannot write, and its count is that of the
reply (`syscall_read` in `src/services/process/service.rs`). A reply that is late moves the cursor too, and
leaves R2 as it was, which is the length that was asked for. `read_delivers_iff` says when the bytes of the
file are where the count says that they are.
-/

set_option autoImplicit false

namespace GenshinOs.Process

open GenshinOs.Lib GenshinOs.Hardware GenshinOs.Memory

open GenshinOs.Files (File FileService)

/-! ## Copying to a process -/

/-- The place in memory that the `i`-th byte of a copy is written to. -/
def placeOf (m : MMU) (pid : Pid) (base : VirtAddr) (i : Nat) : Option Nat :=
  match m.translate pid (base + UInt64.ofNat i) .write with
  | .error _ => none
  | .ok paddr => if m.memory.InBounds paddr.toNat 1 then some paddr.toNat else none

theorem SameTables.translate_eq {m m' : MMU} (h : SameTables m m') (pid : Pid) (vaddr : VirtAddr)
    (access : AccessType) : m'.translate pid vaddr access = m.translate pid vaddr access :=
  MMU.translate_congr h.pageSize_eq (congrArg _ h.pageTables_eq) vaddr access

theorem SameTables.inBounds_iff {m m' : MMU} (h : SameTables m m') (a n : Nat) :
    m'.memory.InBounds a n ↔ m.memory.InBounds a n := by
  rw [PhysicalMemory.InBounds, PhysicalMemory.InBounds, h.size_eq]

theorem SameTables.placeOf_eq {m m' : MMU} (h : SameTables m m') (pid : Pid) (base : VirtAddr) :
    placeOf m' pid base = placeOf m pid base := by
  funext i
  simp only [placeOf, h.translate_eq, h.inBounds_iff]

/-- One byte of a copy is stored at its place, or dropped. -/
theorem data_writeU8Lossy (m : MMU) (pid : Pid) (base : VirtAddr) (e : UInt8 × Nat) :
    (m.writeU8Lossy pid (base + UInt64.ofNat e.2) e.1).memory.data =
      deposit (fun e => placeOf m pid base e.2) Prod.fst m.memory.data e := by
  simp only [MMU.writeU8Lossy, MMU.writeU8, deposit, placeOf]
  cases m.translate pid (base + UInt64.ofNat e.2) .write with
  -- without a page that can be written the byte is dropped, and so it is outside memory
  | error err => rfl
  | ok paddr =>
    by_cases hb : m.memory.InBounds paddr.toNat 1
    · simp only [PhysicalMemory.writeU8, PhysicalMemory.checkBounds, if_pos hb]
      rfl
    · simp only [PhysicalMemory.writeU8, PhysicalMemory.checkBounds, if_neg hb]

/-- A copy scatters its bytes over the places of the process. -/
theorem data_writeBytes (m : MMU) (pid : Pid) (base : VirtAddr) (data : List UInt8) :
    (m.writeBytes pid base data).memory.data =
      scatter (fun e => placeOf m pid base e.2) Prod.fst m.memory.data data.zipIdx := by
  rw [MMU.writeBytes]
  generalize data.zipIdx = entries
  -- the tables stay, so the places do not depend on the bytes copied so far
  have hcopy : ∀ m', SameTables m m' →
      (entries.foldl (fun m e => m.writeU8Lossy pid (base + UInt64.ofNat e.2) e.1) m').memory.data =
        scatter (fun e => placeOf m pid base e.2) Prod.fst m'.memory.data entries := by
    induction entries with
    | nil => exact fun m' h => rfl
    | cons e entries ih =>
      intro m' h
      have hone := data_writeU8Lossy m' pid base e
      rw [h.placeOf_eq] at hone
      rw [List.foldl_cons, ih _ (h.trans (sameTables_writeU8Lossy m' pid _ e.1)), hone]
      rfl
  exact hcopy m (SameTables.refl m)

/-- What is read after a copy: the last byte that went to the place, or the byte that was there. -/
theorem readU8_writeBytes_iff (m : MMU) (pid : Pid) (base vaddr : VirtAddr) (data : List UInt8)
    (b : UInt8) :
    (m.writeBytes pid base data).readU8 pid vaddr = .ok b ↔
      ∃ paddr, m.translate pid vaddr .read = .ok paddr ∧ m.memory.InBounds paddr.toNat 1 ∧
        (lastAt (fun e => placeOf m pid base e.2) Prod.fst paddr.toNat data.zipIdx).getD
          (m.memory.data paddr.toNat) = b := by
  have hsame := sameTables_writeBytes m pid base data
  rw [MMU.readU8_eq_ok_iff, hsame.translate_eq]
  apply exists_congr
  intro paddr
  -- a copy changes neither the tables nor the size of memory, only the bytes
  rw [PhysicalMemory.readU8_eq_ok_iff, hsame.inBounds_iff, data_writeBytes, scatter_apply]

/-! ## The call and the file service -/

/-- The world in which the file service takes the request. Its answer is received in time or not at
all. -/
def World.serving (w : World) (files : FileService) (id : RequestId) : World :=
  { w with
    fileReply := fun clock req =>
      if w.timely clock then
        (files.handleEnvelope (w.order clock) req).2.head?.map (Response.ofAnswer id)
      else none }

namespace Machine

/-- The request of a read call. -/
def readRequest (r1 r2 : UInt64) : FileRequest := .read r1.toUInt32 0 0 (min r2.toNat 4096)

/-- The read call, with the file service that takes its request. -/
def readCall (w : World) (files : FileService) (s : Machine) (pid : Pid) (r1 r2 : UInt64) :
    FileService × Machine :=
  ((files.handleEnvelope (w.order s.clock) (readRequest r1 r2)).1,
    s.syscallRead (w.serving files s.nextRequestId) pid r1 r2)

/-- The bytes that the request takes from the file. -/
def bytesRead (f : File) (r2 : UInt64) : List UInt8 :=
  (f.data.drop f.position).take (min r2.toNat 4096)

/-- The `n` bytes of the file from the cursor on are at `0x200`, and the cursor is behind them. -/
structure ReadDelivered (f : File) (pid : Pid) (fd : UInt32) (after : FileService × Machine) (n : Nat) :
    Prop where
  advanced : ∃ inode f', after.1.fileOf 0 fd = some (inode, f') ∧ f'.position = f.position + n
  bytes : ∀ i < n, ∃ b, f.data[f.position + i]? = some b ∧
    after.2.mmu.readU8 pid (0x200 + UInt64.ofNat i) = .ok b

/-- Whatever count the call leaves in R2, so many bytes are delivered. -/
def ReadHonest (f : File) (pid : Pid) (fd : UInt32) (after : FileService × Machine) : Prop :=
  ∀ n, (after.2.cpus.get pid).map (fun cpu => cpu.readRegister .r2) = some n →
    ReadDelivered f pid fd after n.toNat

/-- The bytes that are copied: none when the reply is late. -/
def bytesCopied (w : World) (s : Machine) (f : File) (r2 : UInt64) : List UInt8 :=
  if w.timely s.clock then bytesRead f r2 else []

/-- The reply is in time, or the file has all that was asked for. For each byte, its address leads to
memory, and the byte of the copy that goes there last equals it, or none goes there and the memory holds
it. -/
structure ReadLands (w : World) (s : Machine) (pid : Pid) (f : File) (r2 : UInt64) : Prop where
  counted : w.timely s.clock = true ∨ (bytesRead f r2).length = r2.toNat
  stored : ∀ i b, (bytesRead f r2)[i]? = some b → ∃ paddr,
    s.mmu.translate pid (0x200 + UInt64.ofNat i) .read = .ok paddr ∧
      s.mmu.memory.InBounds paddr.toNat 1 ∧
      (lastAt (fun e => placeOf s.mmu pid 0x200 e.2) Prod.fst paddr.toNat
        (bytesCopied w s f r2).zipIdx).getD (s.mmu.memory.data paddr.toNat) = b

variable {w : World} {files : FileService} {s : Machine} {pid : Pid} {cpu : VirtualCPU} {f : File}
  {inode : Nat} {r1 : UInt64} (r2 : UInt64)

theorem length_bytesRead_le (f : File) : (bytesRead f r2).length ≤ 4096 := by
  have hle := List.length_take_le (min r2.toNat 4096) (f.data.drop f.position)
  rw [bytesRead]
  omega

theorem getElem?_bytesRead {i : Nat} (h : i < (bytesRead f r2).length) :
    (bytesRead f r2)[i]? = f.data[f.position + i]? := by
  rw [bytesRead, List.length_take] at h
  rw [bytesRead, List.getElem?_take_of_lt (by omega), List.getElem?_drop]

/-- The answer to the request carries the bytes. -/
theorem answers_read (hopen : files.fileOf 0 r1.toUInt32 = some (inode, f)) (hmode : f.mode ≠ .write)
    (ord : HashOrder) : files.handleEnvelope ord (readRequest r1 r2) =
      (files.setFile inode (f.read (min r2.toNat 4096)).2, [.ok (.bytes (bytesRead f r2))]) := by
  have hreadable : f.cursor.mode ≠ .write := hmode
  rw [readRequest, Files.envelope_read hopen, Files.Cursor.read, if_neg hreadable]
  rfl

theorem readCall_advanced (w : World) (s : Machine) (pid : Pid) (r2 : UInt64)
    (hopen : files.fileOf 0 r1.toUInt32 = some (inode, f))
    (hmode : f.mode ≠ .write) : ∃ f', (readCall w files s pid r1 r2).1.fileOf 0 r1.toUInt32 =
      some (inode, f') ∧ f'.position = f.position + (bytesRead f r2).length := by
  refine ⟨(f.read (min r2.toNat 4096)).2, ?_, ?_⟩
  · rw [readCall, answers_read r2 hopen hmode]
    exact Files.fileOf_setFile hopen _
  · have hcursor := (Files.cursor_read f (min r2.toNat 4096)).1
    have hreadable : f.cursor.mode ≠ .write := hmode
    rw [Files.Cursor.read, if_neg hreadable] at hcursor
    exact congrArg Files.Cursor.position hcursor

/-- The machine after the call, for a reply in time and for a late one. -/
theorem readCall_machine (hopen : files.fileOf 0 r1.toUInt32 = some (inode, f))
    (hmode : f.mode ≠ .write) : (readCall w files s pid r1 r2).2 =
      if w.timely s.clock then
        (s.send (.file (readRequest r1 r2))).advance.deliverBytes pid (bytesRead f r2)
      else (s.send (.file (readRequest r1 r2))).advance := by
  have hanswers := answers_read r2 hopen hmode (w.order s.clock)
  rw [readRequest] at hanswers
  -- the service answers the same request whether or not its answer is waited for long enough
  simp only [readCall, syscallRead, requestFile, World.serving, hanswers, readRequest]
  cases w.timely s.clock with
  | true => rfl
  | false => rfl

theorem readCall_mmu (w : World) (s : Machine) (pid : Pid) (r2 : UInt64)
    (hopen : files.fileOf 0 r1.toUInt32 = some (inode, f)) (hmode : f.mode ≠ .write) :
    (readCall w files s pid r1 r2).2.mmu = s.mmu.writeBytes pid 0x200 (bytesCopied w s f r2) := by
  rw [readCall_machine r2 hopen hmode, bytesCopied]
  split
  -- the source cuts the reply at a page once more, and it is never longer
  · have hall : (bytesRead f r2).take (min (bytesRead f r2).length 4096) = bytesRead f r2 := by
      rw [Nat.min_eq_left (length_bytesRead_le r2 f), List.take_length]
    rw [deliverBytes, hall]
    rfl
  · rfl

/-- The count is that of the reply; without one, R2 stays. -/
theorem readCall_r2 (hcpu : s.cpus.get pid = some cpu)
    (hopen : files.fileOf 0 r1.toUInt32 = some (inode, f)) (hmode : f.mode ≠ .write) :
    ((readCall w files s pid r1 r2).2.cpus.get pid).map (fun cpu => cpu.readRegister .r2) =
      some (if w.timely s.clock then UInt64.ofNat (bytesRead f r2).length
        else cpu.readRegister .r2) := by
  rw [readCall_machine r2 hopen hmode]
  split
  · have hget := s.cpus.get_update pid pid
      (f := fun cpu => cpu.writeRegister .r2 (UInt64.ofNat (min (bytesRead f r2).length 4096)))
      fun _ => rfl
    rw [if_pos rfl, hcpu, Nat.min_eq_left (length_bytesRead_le r2 f)] at hget
    rw [deliverBytes, Nat.min_eq_left (length_bytesRead_le r2 f)]
    have hcpus := congrArg (Option.map fun cpu => cpu.readRegister .r2) hget
    exact hcpus.trans rfl
  · exact congrArg (Option.map fun cpu => cpu.readRegister .r2) hcpu

/-- What is delivered, when the count is that of the bytes. -/
theorem readDelivered_iff {fd : UInt32} {after : FileService × Machine} {n : Nat} {f' : File}
    (hfile : after.1.fileOf 0 fd = some (inode, f'))
    (hposition : f'.position = f.position + (bytesRead f r2).length) :
    ReadDelivered f pid fd after n ↔ n = (bytesRead f r2).length ∧
      ∀ i b, (bytesRead f r2)[i]? = some b →
        after.2.mmu.readU8 pid (0x200 + UInt64.ofNat i) = .ok b := by
  constructor
  · rintro ⟨⟨inode', f'', hfile', hadvanced⟩, hbytes⟩
    rw [hfile] at hfile'
    cases hfile'
    -- the cursor says how many bytes there are
    have hn : n = (bytesRead f r2).length := by omega
    refine ⟨hn, ?_⟩
    intro i b hb
    have hi := (List.getElem?_eq_some_iff.1 hb).1
    obtain ⟨b', hb', hread⟩ := hbytes i (by rwa [hn])
    rw [getElem?_bytesRead r2 hi, hb'] at hb
    cases hb
    exact hread
  · rintro ⟨hn, hbytes⟩
    refine ⟨⟨inode, f', hfile, by rw [hn, hposition]⟩, ?_⟩
    intro i hi
    rw [hn] at hi
    have hb := List.getElem?_eq_getElem hi
    exact ⟨_, by rw [← getElem?_bytesRead r2 hi, hb], hbytes i _ hb⟩

/-- A read call delivers what it leaves in R2 exactly when its bytes land. -/
theorem read_delivers_iff (hcpu : s.cpus.get pid = some cpu)
    (hopen : files.fileOf 0 (cpu.readRegister .r1).toUInt32 = some (inode, f))
    (hmode : f.mode ≠ .write) :
    ReadHonest f pid (cpu.readRegister .r1).toUInt32
        (readCall w files s pid (cpu.readRegister .r1) (cpu.readRegister .r2)) ↔
      ReadLands w s pid f (cpu.readRegister .r2) := by
  have hr2 := readCall_r2 (w := w) (cpu.readRegister .r2) hcpu hopen hmode
  have hmmu := readCall_mmu w s pid (cpu.readRegister .r2) hopen hmode
  obtain ⟨f', hfile, hposition⟩ := readCall_advanced w s pid (cpu.readRegister .r2) hopen hmode
  have hread : ∀ i b, (readCall w files s pid (cpu.readRegister .r1) (cpu.readRegister .r2)).2.mmu.readU8
      pid (0x200 + UInt64.ofNat i) = .ok b ↔ ∃ paddr,
        s.mmu.translate pid (0x200 + UInt64.ofNat i) .read = .ok paddr ∧
          s.mmu.memory.InBounds paddr.toNat 1 ∧
          (lastAt (fun e => placeOf s.mmu pid 0x200 e.2) Prod.fst paddr.toNat
            (bytesCopied w s f (cpu.readRegister .r2)).zipIdx).getD (s.mmu.memory.data paddr.toNat) =
              b := by
    intro i b
    rw [hmmu]
    exact readU8_writeBytes_iff s.mmu pid 0x200 _ _ b
  -- the count that is left in R2 against the number of the bytes
  have hcount : (if w.timely s.clock then UInt64.ofNat (bytesRead f (cpu.readRegister .r2)).length
        else cpu.readRegister .r2).toNat = (bytesRead f (cpu.readRegister .r2)).length ↔
      w.timely s.clock = true ∨
        (bytesRead f (cpu.readRegister .r2)).length = (cpu.readRegister .r2).toNat := by
    have hle := length_bytesRead_le (cpu.readRegister .r2) f
    cases w.timely s.clock with
    | true =>
      have hsmall : (bytesRead f (cpu.readRegister .r2)).length < UInt64.size :=
        Nat.lt_of_le_of_lt hle (by decide)
      rw [if_pos rfl, UInt64.toNat_ofNat_of_lt' hsmall]
      exact iff_of_true rfl (Or.inl rfl)
    | false => simp [eq_comm]
  -- the process has one R2, so that there is one count to look at
  have hhonest : ReadHonest f pid (cpu.readRegister .r1).toUInt32
        (readCall w files s pid (cpu.readRegister .r1) (cpu.readRegister .r2)) ↔
      ReadDelivered f pid (cpu.readRegister .r1).toUInt32
        (readCall w files s pid (cpu.readRegister .r1) (cpu.readRegister .r2))
        (if w.timely s.clock then UInt64.ofNat (bytesRead f (cpu.readRegister .r2)).length
          else cpu.readRegister .r2).toNat := by
    constructor
    · exact fun h => h _ hr2
    · intro h n hn
      rw [hr2] at hn
      cases hn
      exact h
  rw [hhonest, readDelivered_iff (cpu.readRegister .r2) hfile hposition, hcount]
  constructor
  · rintro ⟨hcounted, hbytes⟩
    exact ⟨hcounted, fun i b hb => (hread i b).1 (hbytes i b hb)⟩
  · rintro ⟨hcounted, hstored⟩
    exact ⟨hcounted, fun i b hb => (hread i b).2 (hstored i b hb)⟩

/-- A reply in time lands when every address of the copy is writable memory and no two of them are the
same memory. -/
theorem readLands_of_writable (htimely : w.timely s.clock = true)
    (hplace : ∀ i < (bytesRead f r2).length, (placeOf s.mmu pid 0x200 i).isSome = true)
    (hapart : ∀ i < (bytesRead f r2).length, ∀ j < (bytesRead f r2).length,
      placeOf s.mmu pid 0x200 i = placeOf s.mmu pid 0x200 j → i = j) :
    ReadLands w s pid f r2 := by
  refine ⟨Or.inl htimely, ?_⟩
  intro i b hb
  obtain ⟨hi, hbyte⟩ := List.getElem?_eq_some_iff.1 hb
  obtain ⟨a, ha⟩ := Option.isSome_iff_exists.1 (hplace i hi)
  have hwritten := ha
  simp only [placeOf] at hwritten
  cases htrans : s.mmu.translate pid (0x200 + UInt64.ofNat i) .write with
  | error e =>
    rw [htrans] at hwritten
    cases hwritten
  | ok paddr =>
    rw [htrans] at hwritten
    obtain ⟨hbound, heq⟩ := Option.ite_none_right_eq_some.1 hwritten
    cases heq
    refine ⟨paddr, ?_, hbound, ?_⟩
    · -- a page that can be written can be read
      obtain ⟨entry, hentry, hpresent, -, hpaddr⟩ := (MMU.translate_write_eq_ok_iff _ _ _ _).1 htrans
      exact (MMU.translate_read_eq_ok_iff _ _ _ _).2 ⟨entry, hentry, hpresent, hpaddr⟩
    · rw [bytesCopied, if_pos htimely, lastAt_of_agreeing (b := b)]
      · rfl
      -- every byte that goes to this place is the one with this index
      · intro e he hplaced
        have hget := List.mem_zipIdx_iff_getElem?.1 he
        have hj := (List.getElem?_eq_some_iff.1 hget).1
        have hsame := hapart e.2 hj i hi (hplaced.trans ha.symm)
        rw [hsame, hb] at hget
        cases hget
        rfl
      · exact ⟨(b, i), List.mem_zipIdx_iff_getElem?.2 hb, ha⟩

/-! ## A process of one page -/

/-- A process of one page that is about to read so many bytes from descriptor 3. -/
def onePageReader (len : UInt64) : Machine :=
  (((freshMachine haltCode).execImpl (World.calm haltCode) 1 "halt" []).2.setRegister 1 .r1 3).setRegister
    1 .r2 len

/-- A file that is open for reading, with the cursor at its start. -/
def openedForRead (data : List UInt8) : File :=
  { File.new 2 "/f" .read with data := data, size := data.length }

/-- A file service with this file behind descriptor 3. -/
def oneFile (data : List UInt8) : FileService :=
  let files := FileService.new Files.VirtualFileSystem.new (SectorDisk.create 64) 64
  { files with
    fdManager := (files.fdManager.allocate 0 2 0).2
    openFiles := files.openFiles.insert 2 (openedForRead data) }

theorem oneFile_opens (data : List UInt8) :
    (oneFile data).fileOf 0 (3 : UInt64).toUInt32 = some (2, openedForRead data) := rfl

theorem onePageReader_cpu (len : UInt64) : ∃ cpu, (onePageReader len).cpus.get 1 = some cpu ∧
    cpu.readRegister .r1 = 3 ∧ cpu.readRegister .r2 = len := by
  have hsome : (((freshMachine haltCode).execImpl (World.calm haltCode) 1 "halt" []).2.cpus.get
      1).isSome = true := by decide +kernel
  obtain ⟨cpu, hcpu⟩ := Option.isSome_iff_exists.1 hsome
  have hfirst := CpuTable.get_update
    ((freshMachine haltCode).execImpl (World.calm haltCode) 1 "halt" []).2.cpus 1 1
    (f := fun cpu => cpu.writeRegister .r1 3) fun _ => rfl
  have hsecond := CpuTable.get_update
    (((freshMachine haltCode).execImpl (World.calm haltCode) 1 "halt" []).2.setRegister 1 .r1 3).cpus 1 1
    (f := fun cpu => cpu.writeRegister .r2 len) fun _ => rfl
  rw [if_pos rfl, hcpu] at hfirst
  have hlater : (((freshMachine haltCode).execImpl (World.calm haltCode) 1 "halt" []).2.setRegister 1 .r1
      3).cpus.get 1 = some (cpu.writeRegister .r1 3) := hfirst
  rw [if_pos rfl, hlater] at hsecond
  exact ⟨_, hsecond, rfl, rfl⟩

/-- Two bytes are delivered. -/
theorem read_delivers_two : ReadHonest (openedForRead [104, 105]) 1 3
    (readCall (World.calm haltCode) (oneFile [104, 105]) (onePageReader 2) 1 3 2) := by
  obtain ⟨cpu, hcpu, hr1, hr2⟩ := onePageReader_cpu 2
  have hopen : (oneFile [104, 105]).fileOf 0 (cpu.readRegister .r1).toUInt32 =
      some (2, openedForRead [104, 105]) := by
    rw [hr1]
    exact oneFile_opens [104, 105]
  have hdelivers := read_delivers_iff (w := World.calm haltCode) hcpu hopen (by decide)
  rw [hr1, hr2] at hdelivers
  apply hdelivers.2
  have hlength : (bytesRead (openedForRead [104, 105]) 2).length = 2 := by decide +kernel
  apply readLands_of_writable 2 rfl
  · rw [hlength]
    decide +kernel
  · rw [hlength]
    decide +kernel

/-- Behind the last page nothing is delivered, and the count says otherwise. -/
theorem read_past_page_lost : ¬ReadHonest (openedForRead (List.replicate 4096 1)) 1 3
    (readCall (World.calm haltCode) (oneFile (List.replicate 4096 1)) (onePageReader 4096) 1 3 4096) := by
  intro hhonest
  obtain ⟨cpu, hcpu, hr1, hr2⟩ := onePageReader_cpu 4096
  have hopen := oneFile_opens (List.replicate 4096 1)
  have hmode : (openedForRead (List.replicate 4096 1)).mode ≠ .write := by decide +kernel
  have hcount := readCall_r2 (w := World.calm haltCode) 4096 hcpu hopen hmode
  have hlength : (bytesRead (openedForRead (List.replicate 4096 1)) 4096).length = 4096 := by
    have hdrop : bytesRead (openedForRead (List.replicate 4096 1)) 4096 =
        ((List.replicate 4096 (1 : UInt8)).drop 0).take (min 4096 4096) := rfl
    rw [hdrop, List.drop_zero, List.length_take, List.length_replicate, Nat.min_self, Nat.min_self]
  rw [hlength] at hcount
  have hcounted := hcount.trans (congrArg some (if_pos rfl))
  -- byte 3584 belongs at 0x1000, and the process has no page there
  obtain ⟨b, -, hread⟩ := (hhonest _ hcounted).bytes 3584 (by decide)
  rw [readCall_mmu _ _ _ 4096 hopen hmode, readU8_writeBytes_iff] at hread
  obtain ⟨paddr, htrans, -⟩ := hread
  have hnone : ((onePageReader 4096).mmu.translate 1 (0x200 + UInt64.ofNat 3584) .read).toOption =
      none := by decide +kernel
  rw [htrans] at hnone
  cases hnone

end Machine

end GenshinOs.Process
