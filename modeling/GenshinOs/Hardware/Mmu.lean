import GenshinOs.Lib.HashMap
import GenshinOs.Lib.PageAddr
import GenshinOs.Messaging
import GenshinOs.Hardware.Memory

/-!
# Memory management unit

Per-process page tables over the physical memory (`src/hardware/mmu.rs`). A mapping request rounds
both addresses down and overwrites whatever was mapped at that page; a translation adds the offset
to the frame address. `mapped` reads the tables as one function from process and page to entries,
and the lemmas say what each operation does to that function and to the bytes.
-/

set_option autoImplicit false

namespace GenshinOs.Hardware

open GenshinOs.Lib

/-- Page table entry flags. -/
structure PageFlags where
  present : Bool
  writable : Bool
  userAccessible : Bool
  deriving DecidableEq, Repr

/-- Flags of a frame that a page fault or a fork installs. -/
def PageFlags.presentWritable : PageFlags := ⟨true, true, true⟩

/-- Flags of a mapping request: present, and writable as the protection says. -/
def PageFlags.ofProt (prot : MemProt) : PageFlags := ⟨true, prot.writable, true⟩

/-- Page table entry: frame address and flags. -/
structure PageTableEntry where
  frame : PhysAddr
  flags : PageFlags
  deriving DecidableEq, Repr

/-- Errors of the MMU. -/
inductive MMUError where
  | pageNotPresent (pid : Pid) (vaddr : VirtAddr)
  | permissionDenied (pid : Pid) (vaddr : VirtAddr) (accessType : AccessType)
      (required : PageFlags)
  | invalidPhysicalAddress (paddr : PhysAddr)
  | pageTableNotFound (pid : Pid)
  deriving DecidableEq, Repr

/-- Page tables of all processes, the memory behind them, and the page size. -/
structure MMU where
  pageTables : HashMap Pid (HashMap VirtAddr PageTableEntry)
  memory : PhysicalMemory
  pageSize : PageSize

namespace MMU

/-- An MMU without tables. -/
def new (memory : PhysicalMemory) (pageSize : PageSize) : MMU := ⟨∅, memory, pageSize⟩

/-- The page of an address. -/
def alignDown (m : MMU) (addr : UInt64) : UInt64 := m.pageSize.alignDown addr

/-- A process gets an empty table, unless it has one. -/
def createPageTable (m : MMU) (pid : Pid) : MMU :=
  match m.pageTables.lookup pid with
  | some _ => m
  | none => { m with pageTables := m.pageTables.insert pid ∅ }

/-- The table of a process goes away. -/
def removePageTable (m : MMU) (pid : Pid) : MMU :=
  { m with pageTables := m.pageTables.erase pid }

/-- The entries of one process, in iteration order. -/
def getPageEntries (m : MMU) (ord : HashOrder) (pid : Pid) :
    List (VirtAddr × PhysAddr × PageFlags) :=
  match m.pageTables.lookup pid with
  | some table => (HashMap.iter ord table).map fun e => (e.1, e.2.frame, e.2.flags)
  | none => []

/-- The present pages of all processes, in iteration order of the outer and of the inner maps. -/
def allPresentPages (m : MMU) (ord : HashOrder) : List (Pid × VirtAddr × PhysAddr) :=
  (HashMap.iter ord m.pageTables).flatMap fun p =>
    ((HashMap.iter ord p.2).filter fun e => e.2.flags.present).map fun e =>
      (p.1, e.1, e.2.frame)

/-- A page is mapped, in the place of what it was mapped to; the table is made if there is none. -/
def mapPage (m : MMU) (pid : Pid) (vaddr : VirtAddr) (paddr : PhysAddr) (flags : PageFlags) :
    Except MMUError MMU :=
  let table := (m.pageTables.lookup pid).getD ∅
  .ok { m with
    pageTables := m.pageTables.insert pid
      (table.insert (m.alignDown vaddr) ⟨m.alignDown paddr, flags⟩) }

/-- A page is unmapped. Only a missing table is an error. -/
def unmapPage (m : MMU) (pid : Pid) (vaddr : VirtAddr) : Except MMUError MMU :=
  match m.pageTables.lookup pid with
  | none => .error (.pageTableNotFound pid)
  | some table =>
    .ok { m with pageTables := m.pageTables.insert pid (table.erase (m.alignDown vaddr)) }

/-- Translate a virtual address. Reads need a present page, writes and fetches a writable one. -/
def translate (m : MMU) (pid : Pid) (vaddr : VirtAddr) (access : AccessType) :
    Except MMUError PhysAddr :=
  let pageVaddr := m.alignDown vaddr
  let offset := vaddr - pageVaddr
  match m.pageTables.lookup pid with
  | none => .error (.pageTableNotFound pid)
  | some table =>
    match table.lookup pageVaddr with
    | none => .error (.pageNotPresent pid vaddr)
    | some entry =>
      if entry.flags.present = false then .error (.pageNotPresent pid vaddr)
      else
        match access with
        | .read => .ok (entry.frame + offset)
        | .write =>
          if entry.flags.writable = false then
            .error (.permissionDenied pid vaddr .write ⟨true, true, entry.flags.userAccessible⟩)
          else .ok (entry.frame + offset)
        | .execute =>
          if entry.flags.writable = false then
            .error (.permissionDenied pid vaddr .execute ⟨true, true, entry.flags.userAccessible⟩)
          else .ok (entry.frame + offset)

/-- Read a byte of a process. -/
def readU8 (m : MMU) (pid : Pid) (vaddr : VirtAddr) : Except MMUError UInt8 :=
  match m.translate pid vaddr .read with
  | .error e => .error e
  | .ok paddr =>
    match m.memory.readU8 paddr.toNat with
    | .error _ => .error (.invalidPhysicalAddress paddr)
    | .ok b => .ok b

/-- Read a word of a process; only its first byte is translated. -/
def readU32 (m : MMU) (pid : Pid) (vaddr : VirtAddr) : Except MMUError UInt32 :=
  match m.translate pid vaddr .read with
  | .error e => .error e
  | .ok paddr =>
    match m.memory.readU32 paddr.toNat with
    | .error _ => .error (.invalidPhysicalAddress paddr)
    | .ok b => .ok b

/-- Write a byte of a process. -/
def writeU8 (m : MMU) (pid : Pid) (vaddr : VirtAddr) (value : UInt8) : Except MMUError MMU :=
  match m.translate pid vaddr .write with
  | .error e => .error e
  | .ok paddr =>
    match m.memory.writeU8 paddr.toNat value with
    | .error _ => .error (.invalidPhysicalAddress paddr)
    | .ok memory => .ok { m with memory := memory }

/-- Write a word of a process; only its first byte is translated. -/
def writeU32 (m : MMU) (pid : Pid) (vaddr : VirtAddr) (value : UInt32) : Except MMUError MMU :=
  match m.translate pid vaddr .write with
  | .error e => .error e
  | .ok paddr =>
    match m.memory.writeU32 paddr.toNat value with
    | .error _ => .error (.invalidPhysicalAddress paddr)
    | .ok memory => .ok { m with memory := memory }

/-- Write a byte and ignore a failure, as the services do in their copy loops. -/
def writeU8Lossy (m : MMU) (pid : Pid) (vaddr : VirtAddr) (value : UInt8) : MMU :=
  match m.writeU8 pid vaddr value with
  | .error _ => m
  | .ok m' => m'

/-- Write a run of bytes from `vaddr` on, ignoring failures byte by byte. -/
def writeBytes (m : MMU) (pid : Pid) (vaddr : VirtAddr) (data : List UInt8) : MMU :=
  (data.zipIdx).foldl (fun m e => m.writeU8Lossy pid (vaddr + UInt64.ofNat e.2) e.1) m

/-- The entry mapped at a page. -/
def mapped (m : MMU) (pid : Pid) (page : VirtAddr) : Option PageTableEntry :=
  (m.pageTables.lookup pid).bind fun table => table.lookup page

/-! ## Effect of the operations on the mapped entries -/

theorem mapPage_ok (m : MMU) (pid : Pid) (vaddr : VirtAddr) (paddr : PhysAddr)
    (flags : PageFlags) :
    ∃ m', m.mapPage pid vaddr paddr flags = .ok m' ∧ m'.memory = m.memory ∧
      m'.pageSize = m.pageSize ∧
      ∀ q page, m'.mapped q page =
        if q = pid ∧ page = m.alignDown vaddr then some ⟨m.alignDown paddr, flags⟩
        else m.mapped q page := by
  refine ⟨_, rfl, rfl, rfl, fun q page => ?_⟩
  unfold mapped
  rw [HashMap.lookup_insert_eq]
  by_cases hq : q = pid
  · subst hq
    simp only [if_true, Option.bind_some, HashMap.lookup_insert_eq, true_and]
    split
    · rfl
    · cases m.pageTables.lookup q with
      | none => rfl
      | some table => rfl
  · simp [hq]

theorem unmapPage_mapped {m m' : MMU} {pid : Pid} {vaddr : VirtAddr}
    (h : m.unmapPage pid vaddr = .ok m') :
    m'.memory = m.memory ∧ m'.pageSize = m.pageSize ∧
      ∀ q page, m'.mapped q page =
        if q = pid ∧ page = m.alignDown vaddr then none else m.mapped q page := by
  unfold unmapPage at h
  cases ht : m.pageTables.lookup pid with
  | none => simp [ht] at h
  | some table =>
    simp only [ht, Except.ok.injEq] at h
    subst h
    refine ⟨rfl, rfl, fun q page => ?_⟩
    unfold mapped
    rw [HashMap.lookup_insert_eq]
    by_cases hq : q = pid
    · subst hq
      simp [HashMap.lookup_erase_eq, ht]
    · simp [hq]

theorem mem_allPresentPages (m : MMU) (ord : HashOrder) (pid : Pid) (page : VirtAddr)
    (frame : PhysAddr) :
    (pid, page, frame) ∈ m.allPresentPages ord ↔
      ∃ entry, m.mapped pid page = some entry ∧ entry.flags.present = true ∧
        entry.frame = frame := by
  unfold allPresentPages mapped
  rw [List.mem_flatMap]
  constructor
  · rintro ⟨⟨q, table⟩, hq, hmem⟩
    obtain ⟨⟨v, entry⟩, he, heq⟩ := List.mem_map.1 hmem
    obtain ⟨rfl, rfl, rfl⟩ : q = pid ∧ v = page ∧ entry.frame = frame := by simpa using heq
    obtain ⟨he, hpres⟩ := List.mem_filter.1 he
    rw [HashMap.mem_iter] at hq he
    exact ⟨entry, by simp [hq, he], hpres, rfl⟩
  · rintro ⟨entry, hmap, hpres, rfl⟩
    obtain ⟨table, ht, hv⟩ := Option.bind_eq_some_iff.1 hmap
    refine ⟨(pid, table), (HashMap.mem_iter ord m.pageTables pid table).2 ht, ?_⟩
    refine List.mem_map.2 ⟨(page, entry), List.mem_filter.2 ⟨?_, hpres⟩, rfl⟩
    exact (HashMap.mem_iter ord table page entry).2 hv

theorem mem_getPageEntries (m : MMU) (ord : HashOrder) (pid : Pid) (page : VirtAddr)
    (frame : PhysAddr) (flags : PageFlags) :
    (page, frame, flags) ∈ m.getPageEntries ord pid ↔
      m.mapped pid page = some ⟨frame, flags⟩ := by
  unfold getPageEntries mapped
  cases ht : m.pageTables.lookup pid with
  | none => simp
  | some table =>
    simp only [Option.bind_some, List.mem_map, Prod.mk.injEq]
    constructor
    · rintro ⟨⟨v, entry⟩, he, rfl, rfl, rfl⟩
      exact (HashMap.mem_iter ord table _ _).1 he
    · intro he
      exact ⟨(page, ⟨frame, flags⟩), (HashMap.mem_iter ord table _ _).2 he, rfl, rfl, rfl⟩

theorem nodup_getPageEntries (m : MMU) (ord : HashOrder) (pid : Pid) :
    ((m.getPageEntries ord pid).map Prod.fst).Nodup := by
  unfold getPageEntries
  cases m.pageTables.lookup pid with
  | none => exact List.nodup_nil
  | some table =>
    have hkeys := HashMap.nodup_iter_keys ord table
    rwa [List.map_map]

/-! ## Byte accesses through the tables -/

/-- A read translation succeeds exactly on present pages. -/
theorem translate_read_eq_ok_iff (m : MMU) (pid : Pid) (vaddr : VirtAddr) (paddr : PhysAddr) :
    m.translate pid vaddr .read = .ok paddr ↔
      ∃ entry, m.mapped pid (m.alignDown vaddr) = some entry ∧ entry.flags.present = true ∧
        paddr = entry.frame + (vaddr - m.alignDown vaddr) := by
  unfold translate mapped
  cases ht : m.pageTables.lookup pid with
  | none => simp
  | some table =>
    cases he : table.lookup (m.alignDown vaddr) with
    | none => simp [he]
    | some entry =>
      cases hp : entry.flags.present with
      | false => simp [he, hp]
      | true =>
        simp only [Option.bind_some, he, hp, Bool.true_eq_false, if_false, Except.ok.injEq]
        constructor
        · intro h
          exact ⟨entry, rfl, hp, h.symm⟩
        · rintro ⟨entry', heq, -, rfl⟩
          cases heq
          rfl

/-- A write translation succeeds exactly on present writable pages. -/
theorem translate_write_eq_ok_iff (m : MMU) (pid : Pid) (vaddr : VirtAddr) (paddr : PhysAddr) :
    m.translate pid vaddr .write = .ok paddr ↔
      ∃ entry, m.mapped pid (m.alignDown vaddr) = some entry ∧ entry.flags.present = true ∧
        entry.flags.writable = true ∧ paddr = entry.frame + (vaddr - m.alignDown vaddr) := by
  unfold translate mapped
  cases ht : m.pageTables.lookup pid with
  | none => simp
  | some table =>
    cases he : table.lookup (m.alignDown vaddr) with
    | none => simp [he]
    | some entry =>
      cases hp : entry.flags.present with
      | false => simp [he, hp]
      | true =>
        cases hw : entry.flags.writable with
        | false => simp [he, hp, hw]
        | true =>
          simp only [Option.bind_some, he, hp, hw, Bool.true_eq_false, if_false, Except.ok.injEq]
          constructor
          · intro h
            exact ⟨entry, rfl, hp, hw, h.symm⟩
          · rintro ⟨entry', heq, -, -, rfl⟩
            cases heq
            rfl

theorem readU8_eq_ok_iff (m : MMU) (pid : Pid) (vaddr : VirtAddr) (b : UInt8) :
    m.readU8 pid vaddr = .ok b ↔
      ∃ paddr, m.translate pid vaddr .read = .ok paddr ∧ m.memory.readU8 paddr.toNat = .ok b := by
  unfold readU8
  cases ht : m.translate pid vaddr .read with
  | error e => simp
  | ok paddr =>
    cases hr : m.memory.readU8 paddr.toNat with
    | error e => simp [hr]
    | ok v => simp [hr]

/-- A byte write leaves tables and page size alone and stores one byte of the page's frame. -/
theorem writeU8_eq_ok {m m' : MMU} {pid : Pid} {vaddr : VirtAddr} {value : UInt8}
    (h : m.writeU8 pid vaddr value = .ok m') :
    ∃ paddr, m.translate pid vaddr .write = .ok paddr ∧
      m.memory.InBounds paddr.toNat 1 ∧
      m' = { m with memory := m.memory.store paddr.toNat value } := by
  unfold writeU8 at h
  cases ht : m.translate pid vaddr .write with
  | error e => simp [ht] at h
  | ok paddr =>
    cases hw : m.memory.writeU8 paddr.toNat value with
    | error e => simp [ht, hw] at h
    | ok memory =>
      simp only [ht, hw, Except.ok.injEq] at h
      subst h
      obtain ⟨hb, rfl⟩ := (PhysicalMemory.writeU8_eq_ok_iff _ _ _ _).1 hw
      exact ⟨paddr, rfl, hb, rfl⟩

theorem writeU8Lossy_cases (m : MMU) (pid : Pid) (vaddr : VirtAddr) (value : UInt8) :
    m.writeU8Lossy pid vaddr value = m ∨
      m.writeU8 pid vaddr value = .ok (m.writeU8Lossy pid vaddr value) := by
  unfold writeU8Lossy
  cases h : m.writeU8 pid vaddr value with
  | error e => exact Or.inl rfl
  | ok m' => exact Or.inr rfl

theorem writeU8Lossy_tables (m : MMU) (pid : Pid) (vaddr : VirtAddr) (value : UInt8) :
    (m.writeU8Lossy pid vaddr value).pageTables = m.pageTables ∧
      (m.writeU8Lossy pid vaddr value).pageSize = m.pageSize ∧
      (m.writeU8Lossy pid vaddr value).memory.size = m.memory.size := by
  rcases m.writeU8Lossy_cases pid vaddr value with h | h
  · rw [h]
    exact ⟨rfl, rfl, rfl⟩
  · obtain ⟨paddr, -, -, heq⟩ := writeU8_eq_ok h
    rw [heq]
    exact ⟨rfl, rfl, rfl⟩

/-! ## Bytes of a mapped page -/

/-- Inside a page the physical position is the frame plus the offset. -/
theorem toNat_frame_add (m : MMU) {frame : PhysAddr} (hframe : m.alignDown frame = frame)
    (vaddr : VirtAddr) :
    (frame + (vaddr - m.alignDown vaddr)).toNat =
      frame.toNat + vaddr.toNat % 2 ^ m.pageSize.shift := by
  have hoff : (vaddr - m.alignDown vaddr).toNat = vaddr.toNat % 2 ^ m.pageSize.shift :=
    m.pageSize.toNat_sub_alignDown vaddr
  have hmod : frame.toNat % 2 ^ m.pageSize.shift = 0 := by
    rw [← hframe]
    exact m.pageSize.alignDown_mod frame
  rw [m.pageSize.toNat_page_add hmod m.pageSize.shift_le (by rw [hoff]; exact Nat.mod_lt _ (by simp)),
    hoff]

/-- Reading a byte of a mapped page reads the frame at the same offset. -/
theorem readU8_of_mapped {m : MMU} {pid : Pid} {vaddr : VirtAddr} {entry : PageTableEntry}
    (hmap : m.mapped pid (m.alignDown vaddr) = some entry) (hpres : entry.flags.present = true)
    (hframe : m.alignDown entry.frame = entry.frame) (b : UInt8) :
    m.readU8 pid vaddr = .ok b ↔
      m.memory.InBounds (entry.frame.toNat + vaddr.toNat % 2 ^ m.pageSize.shift) 1 ∧
        m.memory.data (entry.frame.toNat + vaddr.toNat % 2 ^ m.pageSize.shift) = b := by
  have htrans : m.translate pid vaddr .read = .ok (entry.frame + (vaddr - m.alignDown vaddr)) :=
    (m.translate_read_eq_ok_iff pid vaddr _).2 ⟨entry, hmap, hpres, rfl⟩
  rw [readU8_eq_ok_iff]
  constructor
  · rintro ⟨paddr, hp, hread⟩
    rw [htrans] at hp
    cases hp
    rw [m.toNat_frame_add hframe] at hread
    exact (PhysicalMemory.readU8_eq_ok_iff _ _ _).1 hread
  · intro h
    refine ⟨_, htrans, ?_⟩
    rw [m.toNat_frame_add hframe]
    exact (PhysicalMemory.readU8_eq_ok_iff _ _ _).2 h

/-- Writing a byte of a mapped writable page inside the memory stores it in the frame. -/
theorem writeU8Lossy_of_mapped {m : MMU} {pid : Pid} {vaddr : VirtAddr} {entry : PageTableEntry}
    (hmap : m.mapped pid (m.alignDown vaddr) = some entry) (hpres : entry.flags.present = true)
    (hwrite : entry.flags.writable = true) (hframe : m.alignDown entry.frame = entry.frame)
    (hb : m.memory.InBounds (entry.frame.toNat + vaddr.toNat % 2 ^ m.pageSize.shift) 1)
    (value : UInt8) :
    m.writeU8Lossy pid vaddr value =
      { m with
        memory := m.memory.store (entry.frame.toNat + vaddr.toNat % 2 ^ m.pageSize.shift) value } := by
  have htrans : m.translate pid vaddr .write = .ok (entry.frame + (vaddr - m.alignDown vaddr)) :=
    (m.translate_write_eq_ok_iff pid vaddr _).2 ⟨entry, hmap, hpres, hwrite, rfl⟩
  have hmem := (PhysicalMemory.writeU8_eq_ok_iff m.memory _ _ value).2 ⟨hb, rfl⟩
  rw [← m.toNat_frame_add hframe] at hmem ⊢
  simp only [writeU8Lossy, writeU8, htrans, hmem]

/-- Copying into a mapped page from offset `k` on: tables and size stay, the copied range of the
frame holds the data, and every other byte is as before. -/
theorem foldl_writeU8Lossy {pid : Pid} {page : VirtAddr} {entry : PageTableEntry}
    (data : List UInt8) {m : MMU} {k : Nat} (hpage : m.alignDown page = page)
    (hmap : m.mapped pid page = some entry) (hpres : entry.flags.present = true)
    (hwrite : entry.flags.writable = true) (hframe : m.alignDown entry.frame = entry.frame)
    (hlen : k + data.length ≤ 2 ^ m.pageSize.shift)
    (hb : m.memory.InBounds (entry.frame.toNat + k) data.length) :
    let m' := (data.zipIdx k).foldl
      (fun m e => m.writeU8Lossy pid (page + UInt64.ofNat e.2) e.1) m
    m'.pageTables = m.pageTables ∧ m'.pageSize = m.pageSize ∧ m'.memory.size = m.memory.size ∧
      ∀ a, m'.memory.data a =
        if entry.frame.toNat + k ≤ a ∧ a < entry.frame.toNat + k + data.length
        then data.getD (a - (entry.frame.toNat + k)) 0 else m.memory.data a := by
  induction data generalizing m k with
  | nil =>
    refine ⟨rfl, rfl, rfl, fun a => ?_⟩
    rw [if_neg (by simp only [List.length_nil]; omega)]
    rfl
  | cons b data ih =>
    rw [List.length_cons] at hlen hb
    have hshift := m.pageSize.shift_le
    have hpow : 2 ^ m.pageSize.shift ≤ 2 ^ 64 := Nat.pow_le_pow_right (by omega) hshift
    have hk : (UInt64.ofNat k).toNat = k := by
      rw [UInt64.toNat_ofNat']
      exact Nat.mod_eq_of_lt (by omega)
    have hpagemod : page.toNat % 2 ^ m.pageSize.shift = 0 := by
      rw [← hpage]
      exact m.pageSize.alignDown_mod page
    have halign : m.alignDown (page + UInt64.ofNat k) = page :=
      m.pageSize.alignDown_page_add hpage (by omega)
    have hoff : (page + UInt64.ofNat k).toNat % 2 ^ m.pageSize.shift = k := by
      rw [m.pageSize.toNat_page_add hpagemod hshift (by omega), hk, Nat.add_mod, hpagemod,
        Nat.zero_add, Nat.mod_mod, Nat.mod_eq_of_lt (by omega)]
    have hbk : m.memory.InBounds (entry.frame.toNat +
        (page + UInt64.ofNat k).toNat % 2 ^ m.pageSize.shift) 1 := by
      rw [hoff]
      exact ⟨by have := hb.1; omega, by have := hb.2; omega⟩
    have hone := writeU8Lossy_of_mapped (by rw [halign]; exact hmap) hpres hwrite hframe hbk b
    rw [hoff] at hone
    -- the first byte is stored; the rest of the copy starts one position further
    obtain ⟨ht, hps, hsz, hdata⟩ := ih
      (m := { m with memory := m.memory.store (entry.frame.toNat + k) b }) (k := k + 1)
      hpage hmap hframe (by show k + 1 + data.length ≤ 2 ^ m.pageSize.shift; omega)
      (by constructor
          · have := hb.1
            omega
          · show entry.frame.toNat + (k + 1) + data.length ≤ m.memory.size
            have := hb.2
            omega)
    simp only [List.zipIdx_cons, List.foldl_cons, hone]
    refine ⟨ht, hps, hsz, fun a => ?_⟩
    rw [hdata a, PhysicalMemory.store_data, List.length_cons]
    rcases Nat.lt_trichotomy a (entry.frame.toNat + k) with ha | rfl | ha
    · rw [if_neg (by omega), if_neg (by omega), if_neg (by omega)]
    · rw [if_neg (by omega), if_pos rfl, if_pos (by omega)]
      simp
    · rcases Nat.lt_or_ge a (entry.frame.toNat + (k + 1) + data.length) with ha' | ha'
      · rw [if_pos (by omega), if_pos (by omega)]
        have hsub : a - (entry.frame.toNat + k) = a - (entry.frame.toNat + (k + 1)) + 1 := by omega
        rw [hsub]
        rfl
      · rw [if_neg (by omega), if_neg (by omega), if_neg (by omega)]

end MMU

end GenshinOs.Hardware
