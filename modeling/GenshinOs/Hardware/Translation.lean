import GenshinOs.Hardware.Mmu

/-!
# Translation

What the page tables are for: a map from a process and a page to the mapping that was made last and
not taken away. `PageMap` states this over the history of the operations, with addresses of any
alignment; the tables of the MMU refine it, and a translation is its entry with the offset added.

Since every frame in the tables is aligned, a word access through the MMU is the same as four byte
accesses: the physical address of an aligned word is aligned, and its four bytes are in one page.
-/

set_option autoImplicit false

namespace GenshinOs.Hardware

open GenshinOs.Lib

/-- An operation on the page tables. -/
inductive TableOp where
  | createPageTable (pid : Pid)
  | removePageTable (pid : Pid)
  | mapPage (pid : Pid) (vaddr : VirtAddr) (paddr : PhysAddr) (flags : PageFlags)
  | unmapPage (pid : Pid) (vaddr : VirtAddr)
  deriving DecidableEq, Repr

namespace TableOp

/-- The process of an operation. -/
def pid : TableOp → Pid
  | createPageTable pid => pid
  | removePageTable pid => pid
  | mapPage pid _ _ _ => pid
  | unmapPage pid _ => pid

/-- The address an operation is about, if it is about a page. -/
def vaddr : TableOp → Option VirtAddr
  | createPageTable _ => none
  | removePageTable _ => none
  | mapPage _ vaddr _ _ => some vaddr
  | unmapPage _ vaddr => some vaddr

end TableOp

/-! ## The abstract map -/

/-- The number of the page that contains an address. -/
def pageOf (ps : PageSize) (addr : UInt64) : Nat := addr.toNat / 2 ^ ps.shift

/-- For each process and page number, the mapping in force: its physical address and flags. -/
abbrev PageMap := Pid → Nat → Option (PhysAddr × PageFlags)

namespace PageMap

/-- Nothing is mapped. -/
def empty : PageMap := fun _ _ => none

/-- What an operation means. -/
def perform (ps : PageSize) (map : PageMap) : TableOp → PageMap
  | .createPageTable _ => map
  | .removePageTable pid => fun q page => if q = pid then none else map q page
  | .mapPage pid vaddr paddr flags => fun q page =>
      if q = pid ∧ page = pageOf ps vaddr then some (paddr, flags) else map q page
  | .unmapPage pid vaddr => fun q page =>
      if q = pid ∧ page = pageOf ps vaddr then none else map q page

/-- The latest surviving mappings after some operations. -/
def after (ps : PageSize) (ops : List TableOp) : PageMap := ops.foldl (perform ps) empty

end PageMap

namespace MMU

/-- An operation; a failure leaves the tables as they are. -/
def perform (m : MMU) : TableOp → MMU
  | .createPageTable pid => m.createPageTable pid
  | .removePageTable pid => m.removePageTable pid
  | .mapPage pid vaddr paddr flags =>
    match m.mapPage pid vaddr paddr flags with
    | .ok m' => m'
    | .error _ => m
  | .unmapPage pid vaddr =>
    match m.unmapPage pid vaddr with
    | .ok m' => m'
    | .error _ => m

/-- A fresh MMU after some operations. -/
def after (memory : PhysicalMemory) (ps : PageSize) (ops : List TableOp) : MMU :=
  ops.foldl perform (new memory ps)

/-! ## The tables refine the map -/

/-- Two addresses are in the same page exactly when they are rounded down to the same address. -/
theorem alignDown_eq_iff (ps : PageSize) (a b : UInt64) :
    ps.alignDown a = ps.alignDown b ↔ pageOf ps a = pageOf ps b := by
  have ha := Nat.div_add_mod a.toNat (2 ^ ps.shift)
  have hb := Nat.div_add_mod b.toNat (2 ^ ps.shift)
  rw [← UInt64.toNat_inj, ps.toNat_alignDown, ps.toNat_alignDown, pageOf, pageOf]
  constructor
  · intro heq
    have hmul : 2 ^ ps.shift * (a.toNat / 2 ^ ps.shift) =
        2 ^ ps.shift * (b.toNat / 2 ^ ps.shift) := by omega
    exact Nat.eq_of_mul_eq_mul_left (Nat.two_pow_pos ps.shift) hmul
  · intro heq
    rw [heq] at ha
    omega

theorem createPageTable_mapped (m : MMU) (pid q : Pid) (page : VirtAddr) :
    (m.createPageTable pid).mapped q page = m.mapped q page := by
  unfold createPageTable mapped
  cases ht : m.pageTables.lookup pid with
  | some table => rfl
  | none =>
    simp only [HashMap.lookup_insert_eq]
    rcases eq_or_ne q pid with rfl | hne
    · simp [ht]
    · simp [hne]

theorem removePageTable_mapped (m : MMU) (pid q : Pid) (page : VirtAddr) :
    (m.removePageTable pid).mapped q page = if q = pid then none else m.mapped q page := by
  unfold removePageTable mapped
  simp only [HashMap.lookup_erase_eq]
  split <;> rfl

/-- Without a table there is nothing to unmap. -/
theorem unmapPage_error_mapped {m : MMU} {pid : Pid} {vaddr : VirtAddr} {e : MMUError}
    (h : m.unmapPage pid vaddr = .error e) (page : VirtAddr) : m.mapped pid page = none := by
  unfold unmapPage at h
  cases ht : m.pageTables.lookup pid with
  | none => simp [mapped, ht]
  | some table => simp [ht] at h

/-- The tables hold the mappings of the map, with their addresses rounded down. -/
structure Refines (ps : PageSize) (m : MMU) (map : PageMap) : Prop where
  pageSize_eq : m.pageSize = ps
  mapped_eq : ∀ pid vaddr, m.mapped pid (ps.alignDown vaddr) =
    (map pid (pageOf ps vaddr)).map fun e => ⟨ps.alignDown e.1, e.2⟩

variable {ps : PageSize} {m : MMU} {map : PageMap}

theorem Refines.new (memory : PhysicalMemory) (ps : PageSize) :
    Refines ps (MMU.new memory ps) PageMap.empty := ⟨rfl, fun _ _ => rfl⟩

theorem Refines.alignDown_eq (h : Refines ps m map) (addr : UInt64) :
    m.alignDown addr = ps.alignDown addr := by
  rw [MMU.alignDown, h.pageSize_eq]

theorem Refines.perform (h : Refines ps m map) (op : TableOp) :
    Refines ps (m.perform op) (PageMap.perform ps map op) := by
  cases op with
  | createPageTable pid =>
    refine ⟨?_, fun q v => ?_⟩
    · rw [MMU.perform, createPageTable]
      split <;> exact h.pageSize_eq
    · rw [MMU.perform, createPageTable_mapped]
      exact h.mapped_eq q v
  | removePageTable pid =>
    refine ⟨h.pageSize_eq, fun q v => ?_⟩
    simp only [MMU.perform, removePageTable_mapped, h.mapped_eq, PageMap.perform]
    split <;> rfl
  | mapPage pid vaddr paddr flags =>
    obtain ⟨m', hok, -, hsize, hmapped⟩ := m.mapPage_ok pid vaddr paddr flags
    simp only [MMU.perform, hok]
    refine ⟨hsize.trans h.pageSize_eq, fun q v => ?_⟩
    simp only [hmapped, h.alignDown_eq, alignDown_eq_iff, h.mapped_eq, PageMap.perform]
    split <;> rfl
  | unmapPage pid vaddr =>
    simp only [MMU.perform]
    cases hun : m.unmapPage pid vaddr with
    | ok m' =>
      obtain ⟨-, hsize, hmapped⟩ := unmapPage_mapped hun
      refine ⟨hsize.trans h.pageSize_eq, fun q v => ?_⟩
      simp only [hmapped, h.alignDown_eq, alignDown_eq_iff, h.mapped_eq, PageMap.perform]
      split <;> rfl
    | error e =>
      -- the process has no table, so the map has no mapping of it either
      refine ⟨h.pageSize_eq, fun q v => ?_⟩
      simp only [PageMap.perform]
      split
      · next hboth =>
        rw [hboth.1]
        exact unmapPage_error_mapped hun _
      · exact h.mapped_eq q v

theorem after_refines (memory : PhysicalMemory) (ps : PageSize) (ops : List TableOp) :
    Refines ps (after memory ps ops) (PageMap.after ps ops) := by
  have hfold : ∀ (m : MMU) (map : PageMap), Refines ps m map →
      Refines ps (ops.foldl MMU.perform m) (ops.foldl (PageMap.perform ps) map) := by
    induction ops with
    | nil => exact fun m map h => h
    | cons op ops ih => exact fun m map h => ih _ _ (h.perform op)
  exact hfold _ _ (Refines.new memory ps)

/-! ## Translations -/

/-- The flags allow the access: the page is present, and writable unless it is only read. -/
def Allows (flags : PageFlags) (access : AccessType) : Prop :=
  flags.present = true ∧ (access ≠ .read → flags.writable = true)

instance (flags : PageFlags) (access : AccessType) : Decidable (Allows flags access) :=
  inferInstanceAs (Decidable (_ ∧ _))

/-- A translation gives the entry of the page with the offset added, if the flags allow it. -/
theorem toOption_translate (m : MMU) (pid : Pid) (vaddr : VirtAddr) (access : AccessType) :
    (m.translate pid vaddr access).toOption =
      (m.mapped pid (m.alignDown vaddr)).bind fun entry =>
        if Allows entry.flags access then some (entry.frame + (vaddr - m.alignDown vaddr))
        else none := by
  unfold translate mapped
  cases m.pageTables.lookup pid with
  | none => rfl
  | some table =>
    simp only [Option.bind_some]
    cases table.lookup (m.alignDown vaddr) with
    | none => rfl
    | some entry =>
      obtain ⟨frame, present, writable, userAccessible⟩ := entry
      simp only [Option.bind_some, Allows]
      cases present with
      | false => simp [Except.toOption]
      | true => cases access <;> cases writable <;> simp [Except.toOption]

theorem translate_eq_ok_iff (m : MMU) (pid : Pid) (vaddr : VirtAddr) (access : AccessType)
    (paddr : PhysAddr) :
    m.translate pid vaddr access = .ok paddr ↔
      ∃ entry, m.mapped pid (m.alignDown vaddr) = some entry ∧ Allows entry.flags access ∧
        paddr = entry.frame + (vaddr - m.alignDown vaddr) := by
  have hopt : m.translate pid vaddr access = .ok paddr ↔
      (m.translate pid vaddr access).toOption = some paddr := by
    cases m.translate pid vaddr access <;> simp [Except.toOption]
  rw [hopt, toOption_translate, Option.bind_eq_some_iff]
  apply exists_congr
  intro entry
  apply and_congr_right
  intro _
  split
  · next hallows => simp [hallows, eq_comm]
  · next hallows => simp [hallows]

/-- A translation only reads the table of its process. -/
theorem translate_congr {m m' : MMU} {pid : Pid} (hsize : m'.pageSize = m.pageSize)
    (htable : m'.pageTables.lookup pid = m.pageTables.lookup pid) (vaddr : VirtAddr)
    (access : AccessType) : m'.translate pid vaddr access = m.translate pid vaddr access := by
  unfold translate
  rw [htable, alignDown, alignDown, hsize]

/-- An operation on one process leaves the tables of the others alone. -/
theorem perform_lookup_of_ne (m : MMU) {op : TableOp} {pid : Pid} (hne : op.pid ≠ pid) :
    (m.perform op).pageTables.lookup pid = m.pageTables.lookup pid := by
  have hinsert : ∀ (tables : HashMap Pid (HashMap VirtAddr PageTableEntry)) table,
      (tables.insert op.pid table).lookup pid = tables.lookup pid := by
    intro tables table
    rw [HashMap.lookup_insert_eq, if_neg (Ne.symm hne)]
  cases op with
  | createPageTable q =>
    rw [perform, createPageTable]
    split
    · rfl
    · exact hinsert ..
  | removePageTable q =>
    exact (HashMap.lookup_erase_eq ..).trans (if_neg (Ne.symm hne))
  | mapPage q vaddr paddr flags => exact hinsert ..
  | unmapPage q vaddr =>
    rw [perform, unmapPage]
    cases m.pageTables.lookup q with
    | none => rfl
    | some table => exact hinsert ..

theorem after_append (memory : PhysicalMemory) (ps : PageSize) (ops : List TableOp) (op : TableOp) :
    after memory ps (ops ++ [op]) = (after memory ps ops).perform op := by
  rw [after, List.foldl_append]
  rfl

/-- The address that a translation adds the offset to is that of the map, rounded down. -/
theorem Refines.translate_eq_ok_iff (h : Refines ps m map) (pid : Pid) (vaddr : VirtAddr)
    (access : AccessType) (result : PhysAddr) :
    m.translate pid vaddr access = .ok result ↔
      ∃ paddr flags, map pid (pageOf ps vaddr) = some (paddr, flags) ∧ Allows flags access ∧
        result.toNat = (ps.alignDown paddr).toNat + vaddr.toNat % ps.bytes.toNat := by
  have hoffset : ∀ paddr : PhysAddr,
      (ps.alignDown paddr + (vaddr - ps.alignDown vaddr)).toNat =
        (ps.alignDown paddr).toNat + vaddr.toNat % ps.bytes.toNat := by
    intro paddr
    have haligned : m.alignDown (ps.alignDown paddr) = ps.alignDown paddr := by
      rw [h.alignDown_eq, ps.alignDown_alignDown]
    have hsum := m.toNat_frame_add haligned vaddr
    rwa [h.alignDown_eq, h.pageSize_eq, ← ps.bytes_eq] at hsum
  rw [m.translate_eq_ok_iff, h.alignDown_eq, h.mapped_eq]
  constructor
  · rintro ⟨entry, hentry, hallows, rfl⟩
    obtain ⟨⟨paddr, flags⟩, hmap, rfl⟩ := Option.map_eq_some_iff.1 hentry
    exact ⟨paddr, flags, hmap, hallows, hoffset paddr⟩
  · rintro ⟨paddr, flags, hmap, hallows, hresult⟩
    refine ⟨⟨ps.alignDown paddr, flags⟩, by rw [hmap]; rfl, hallows, ?_⟩
    apply UInt64.toNat_inj.1
    rw [hresult, hoffset]

/-- Going on inside a page goes on in its frame. -/
theorem Refines.translate_in_page (h : Refines ps m map) {pid : Pid} {vaddr : VirtAddr}
    {access : AccessType} {i : Nat} (hfit : vaddr.toNat % ps.bytes.toNat + i < ps.bytes.toNat)
    (result : PhysAddr) :
    m.translate pid (vaddr + UInt64.ofNat i) access = .ok result ↔
      ∃ first, m.translate pid vaddr access = .ok first ∧ result.toNat = first.toNat + i := by
  have hival : (UInt64.ofNat i).toNat = i := by
    have := ps.bytes.toNat_lt
    rw [UInt64.toNat_ofNat', Nat.mod_eq_of_lt (by omega)]
  have hstep := @PageSize.add_in_page ps vaddr (UInt64.ofNat i) (by
    rw [hival, ← ps.bytes_eq]
    exact hfit)
  have hpage : pageOf ps (vaddr + UInt64.ofNat i) = pageOf ps vaddr :=
    (alignDown_eq_iff ps _ _).1 hstep.1
  have hoff : (vaddr + UInt64.ofNat i).toNat % ps.bytes.toNat = vaddr.toNat % ps.bytes.toNat + i := by
    rw [ps.bytes_eq, hstep.2, hival]
  rw [h.translate_eq_ok_iff, hpage, hoff]
  constructor
  · rintro ⟨paddr, flags, hmap, hallows, hresult⟩
    have hok : ∃ first, m.translate pid vaddr access = .ok first :=
      ⟨_, (MMU.translate_eq_ok_iff m pid vaddr access _).2
        ⟨⟨ps.alignDown paddr, flags⟩, by rw [h.alignDown_eq, h.mapped_eq, hmap]; rfl, hallows, rfl⟩⟩
    obtain ⟨first, hfirst⟩ := hok
    refine ⟨first, hfirst, ?_⟩
    obtain ⟨paddr', flags', hmap', -, hsum⟩ := (h.translate_eq_ok_iff pid vaddr access first).1 hfirst
    rw [hmap] at hmap'
    cases hmap'
    omega
  · rintro ⟨first, hfirst, hresult⟩
    obtain ⟨paddr, flags, hmap, hallows, hsum⟩ := (h.translate_eq_ok_iff pid vaddr access first).1 hfirst
    exact ⟨paddr, flags, hmap, hallows, by omega⟩

/-- The latest surviving mapping of the page decides a translation: whether it succeeds, and the
address, whose sum does not overflow. Operations on other processes never change the result, and
operations on other pages of the process change neither the success nor the address. -/
theorem translate_latest_mapping (memory : PhysicalMemory) (ps : PageSize) (ops : List TableOp)
    (pid : Pid) (vaddr : VirtAddr) (access : AccessType) :
    ((∃ result, (after memory ps ops).translate pid vaddr access = .ok result) ↔
      ∃ paddr flags, PageMap.after ps ops pid (pageOf ps vaddr) = some (paddr, flags) ∧
        flags.present = true ∧ (access ≠ .read → flags.writable = true)) ∧
    (∀ result, (after memory ps ops).translate pid vaddr access = .ok result →
      ∃ paddr flags, PageMap.after ps ops pid (pageOf ps vaddr) = some (paddr, flags) ∧
        result.toNat = (ps.alignDown paddr).toNat + vaddr.toNat % ps.bytes.toNat) ∧
    (∀ op : TableOp, op.pid ≠ pid →
      (after memory ps (ops ++ [op])).translate pid vaddr access =
        (after memory ps ops).translate pid vaddr access) ∧
    ∀ (op : TableOp) (other : VirtAddr), op.vaddr = some other →
      pageOf ps other ≠ pageOf ps vaddr →
      ((after memory ps (ops ++ [op])).translate pid vaddr access).toOption =
        ((after memory ps ops).translate pid vaddr access).toOption := by
  have h := after_refines memory ps ops
  refine ⟨?_, ?_, ?_, ?_⟩
  · constructor
    · rintro ⟨result, hresult⟩
      obtain ⟨paddr, flags, hmap, hallows, -⟩ := (h.translate_eq_ok_iff pid vaddr access result).1 hresult
      exact ⟨paddr, flags, hmap, hallows⟩
    · rintro ⟨paddr, flags, hmap, hallows⟩
      have hok := (MMU.translate_eq_ok_iff (after memory ps ops) pid vaddr access _).2
        ⟨⟨ps.alignDown paddr, flags⟩, by rw [h.alignDown_eq, h.mapped_eq, hmap]; rfl, hallows, rfl⟩
      exact ⟨_, hok⟩
  · intro result hresult
    obtain ⟨paddr, flags, hmap, -, hsum⟩ := (h.translate_eq_ok_iff pid vaddr access result).1 hresult
    exact ⟨paddr, flags, hmap, hsum⟩
  -- a translation looks at the table of its own process only
  · intro op hne
    have hnext := after_refines memory ps (ops ++ [op])
    apply translate_congr
    · rw [hnext.pageSize_eq, h.pageSize_eq]
    · rw [after_append, perform_lookup_of_ne _ hne]
  · intro op other hother hpage
    have hnext := after_refines memory ps (ops ++ [op])
    have hmap : PageMap.after ps (ops ++ [op]) pid (pageOf ps vaddr) =
        PageMap.after ps ops pid (pageOf ps vaddr) := by
      rw [PageMap.after, List.foldl_append]
      cases op with
      | createPageTable q => cases hother
      | removePageTable q => cases hother
      | mapPage q v paddr flags =>
        cases hother
        exact if_neg fun hand => hpage hand.2.symm
      | unmapPage q v =>
        cases hother
        exact if_neg fun hand => hpage hand.2.symm
    -- the errors name the address, so that only success and address are compared
    rw [toOption_translate, toOption_translate, hnext.alignDown_eq, h.alignDown_eq,
      hnext.mapped_eq, h.mapped_eq, hmap]

/-- The first mapping of a process makes its table, which turns the error of an unmapped page into
another one. -/
theorem other_page_changes_error :
    pageOf PageSize.fourK 0x2000 ≠ pageOf PageSize.fourK 0x1000 ∧
    (after (PhysicalMemory.new 8192) PageSize.fourK []).translate 1 0x1000 .read =
      .error (.pageTableNotFound 1) ∧
    (after (PhysicalMemory.new 8192) PageSize.fourK
      [.mapPage 1 0x2000 0 PageFlags.presentWritable]).translate 1 0x1000 .read =
      .error (.pageNotPresent 1 0x1000) ∧
    (after (PhysicalMemory.new 8192) PageSize.fourK
      [.mapPage 1 0x2000 0 PageFlags.presentWritable]).translate 1 0x1000 .read ≠
      (after (PhysicalMemory.new 8192) PageSize.fourK []).translate 1 0x1000 .read := by
  refine ⟨by decide, by decide, by decide, by decide⟩

/-! ## Words -/

/-- The number with the given little-endian bytes. -/
def leWord (b0 b1 b2 b3 : UInt8) : Nat :=
  b0.toNat + 2 ^ 8 * b1.toNat + 2 ^ 16 * b2.toNat + 2 ^ 24 * b3.toNat

/-- Bits below a place and bits from it on are added. -/
theorem or_shiftLeft {a : Nat} (b : Nat) {k : Nat} (h : a < 2 ^ k) :
    a ||| b <<< k = a + 2 ^ k * b := by
  rw [Nat.or_comm, ← Nat.shiftLeft_add_eq_or_of_lt h, Nat.shiftLeft_eq, Nat.mul_comm, Nat.add_comm]

theorem toNat_byte_shiftLeft (b : UInt8) {k : UInt32} (hk : k.toNat ≤ 24) :
    (b.toUInt32 <<< k).toNat = b.toNat <<< k.toNat := by
  have hb := b.toNat_lt
  rw [UInt32.toNat_shiftLeft, Nat.mod_eq_of_lt (by omega : k.toNat < 32), UInt8.toNat_toUInt32]
  apply Nat.mod_eq_of_lt
  rw [Nat.shiftLeft_eq]
  calc b.toNat * 2 ^ k.toNat < 2 ^ 8 * 2 ^ k.toNat :=
        Nat.mul_lt_mul_of_pos_right hb (Nat.two_pow_pos _)
    _ ≤ 2 ^ 8 * 2 ^ 24 := Nat.mul_le_mul_left _ (Nat.pow_le_pow_right (by decide) hk)
    _ = 2 ^ 32 := by decide

/-- The bytes that a word read puts together. -/
theorem toNat_or_bytes (b0 b1 b2 b3 : UInt8) :
    (b0.toUInt32 ||| (b1.toUInt32 <<< 8) ||| (b2.toUInt32 <<< 16) |||
      (b3.toUInt32 <<< 24)).toNat = leWord b0 b1 b2 b3 := by
  have h0 : b0.toNat < 2 ^ 8 := b0.toNat_lt
  have h1 : b1.toNat < 2 ^ 8 := b1.toNat_lt
  have h2 : b2.toNat < 2 ^ 8 := b2.toNat_lt
  have e1 : (b1.toUInt32 <<< 8).toNat = b1.toNat <<< 8 := toNat_byte_shiftLeft b1 (by decide)
  have e2 : (b2.toUInt32 <<< 16).toNat = b2.toNat <<< 16 := toNat_byte_shiftLeft b2 (by decide)
  have e3 : (b3.toUInt32 <<< 24).toNat = b3.toNat <<< 24 := toNat_byte_shiftLeft b3 (by decide)
  rw [UInt32.toNat_or, UInt32.toNat_or, UInt32.toNat_or, e1, e2, e3, UInt8.toNat_toUInt32,
    or_shiftLeft b1.toNat h0, or_shiftLeft b2.toNat (by omega), or_shiftLeft b3.toNat (by omega)]
  rfl

theorem toNat_shiftRight_byte (x : UInt32) {k : UInt32} (hk : k.toNat < 32) :
    (x >>> k).toUInt8.toNat = x.toNat / 2 ^ k.toNat % 2 ^ 8 := by
  rw [UInt32.toNat_toUInt8, UInt32.toNat_shiftRight, Nat.mod_eq_of_lt hk,
    Nat.shiftRight_eq_div_pow]

/-- The bytes that a word write takes apart. -/
theorem bytes_of_leWord {x : UInt32} {b0 b1 b2 b3 : UInt8} (h : x.toNat = leWord b0 b1 b2 b3) :
    x.toUInt8 = b0 ∧ (x >>> 8).toUInt8 = b1 ∧ (x >>> 16).toUInt8 = b2 ∧ (x >>> 24).toUInt8 = b3 := by
  have h0 : b0.toNat < 2 ^ 8 := b0.toNat_lt
  have h1 : b1.toNat < 2 ^ 8 := b1.toNat_lt
  have h2 : b2.toNat < 2 ^ 8 := b2.toNat_lt
  have h3 : b3.toNat < 2 ^ 8 := b3.toNat_lt
  have e1 : (x >>> 8).toUInt8.toNat = x.toNat / 2 ^ 8 % 2 ^ 8 := toNat_shiftRight_byte x (by decide)
  have e2 : (x >>> 16).toUInt8.toNat = x.toNat / 2 ^ 16 % 2 ^ 8 :=
    toNat_shiftRight_byte x (by decide)
  have e3 : (x >>> 24).toUInt8.toNat = x.toNat / 2 ^ 24 % 2 ^ 8 :=
    toNat_shiftRight_byte x (by decide)
  have e0 : x.toUInt8.toNat = x.toNat % 2 ^ 8 := UInt32.toNat_toUInt8 x
  rw [leWord] at h
  refine ⟨UInt8.toNat_inj.1 ?_, UInt8.toNat_inj.1 ?_, UInt8.toNat_inj.1 ?_, UInt8.toNat_inj.1 ?_⟩
  · omega
  · omega
  · omega
  · omega

/-! ## Word accesses -/

theorem readU32_mem_iff (memory : PhysicalMemory) (addr : Nat) (w : UInt32) :
    memory.readU32 addr = .ok w ↔ addr % 4 = 0 ∧ memory.InBounds addr 4 ∧
      w.toNat = leWord (memory.data addr) (memory.data (addr + 1)) (memory.data (addr + 2))
        (memory.data (addr + 3)) := by
  rw [← toNat_or_bytes, UInt32.toNat_inj]
  unfold PhysicalMemory.readU32 PhysicalMemory.checkAlignment PhysicalMemory.checkBounds
  by_cases halign : addr % 4 = 0
  · by_cases hb : memory.InBounds addr 4
    · simp [halign, hb, eq_comm]
    · simp [halign, hb]
  · simp [halign]

/-- The word as four stores. -/
def storeWord (memory : PhysicalMemory) (addr : Nat) (b0 b1 b2 b3 : UInt8) : PhysicalMemory :=
  (((memory.store addr b0).store (addr + 1) b1).store (addr + 2) b2).store (addr + 3) b3

theorem writeU32_mem_iff (memory memory' : PhysicalMemory) (addr : Nat) {x : UInt32}
    {b0 b1 b2 b3 : UInt8} (hx : x.toNat = leWord b0 b1 b2 b3) :
    memory.writeU32 addr x = .ok memory' ↔ addr % 4 = 0 ∧ memory.InBounds addr 4 ∧
      memory' = storeWord memory addr b0 b1 b2 b3 := by
  obtain ⟨h0, h1, h2, h3⟩ := bytes_of_leWord hx
  unfold PhysicalMemory.writeU32 PhysicalMemory.checkAlignment PhysicalMemory.checkBounds
  rw [h0, h1, h2, h3]
  by_cases halign : addr % 4 = 0
  · by_cases hb : memory.InBounds addr 4
    · simp [halign, hb, storeWord, eq_comm]
    · simp [halign, hb]
  · simp [halign]

theorem inBounds_word_iff (memory : PhysicalMemory) (addr : Nat) :
    memory.InBounds addr 4 ↔ ∀ i < 4, memory.InBounds (addr + i) 1 := by
  simp only [PhysicalMemory.InBounds]
  constructor
  · intro h i hi
    omega
  · intro h
    have := h 3 (by omega)
    omega

section word

variable (h : Refines ps m map) (hps : 4 ≤ ps.bytes.toNat)

include hps

/-- Four divides a page size that is not below it. -/
theorem four_dvd_pageSize : 4 ∣ ps.bytes.toNat := by
  rw [ps.bytes_eq] at hps ⊢
  have htwo : 2 ≤ ps.shift := by
    by_contra hlt
    have hpow : 2 ^ ps.shift ≤ 2 ^ 1 := Nat.pow_le_pow_right (by omega) (by omega)
    omega
  exact Nat.pow_dvd_pow 2 htwo

include h

/-- A translation keeps the position in a word. -/
theorem translate_mod_four {pid : Pid} {vaddr : VirtAddr} {access : AccessType} {result : PhysAddr}
    (htrans : m.translate pid vaddr access = .ok result) :
    result.toNat % 4 = vaddr.toNat % 4 := by
  obtain ⟨paddr, flags, -, -, hsum⟩ := (h.translate_eq_ok_iff pid vaddr access result).1 htrans
  have hdvd := four_dvd_pageSize hps
  have hframe : (ps.alignDown paddr).toNat % ps.bytes.toNat = 0 := by
    rw [ps.bytes_eq]
    exact ps.alignDown_mod paddr
  have hframe4 : (ps.alignDown paddr).toNat % 4 = 0 :=
    Nat.mod_eq_zero_of_dvd (hdvd.trans (Nat.dvd_of_mod_eq_zero hframe))
  have hoff : vaddr.toNat % ps.bytes.toNat % 4 = vaddr.toNat % 4 := Nat.mod_mod_of_dvd _ hdvd
  omega

/-- The bytes of an aligned word follow each other in physical memory. -/
theorem translate_in_word {pid : Pid} {vaddr : VirtAddr} {access : AccessType}
    (halign : vaddr.toNat % 4 = 0) {i : Nat} (hi : i < 4) (result : PhysAddr) :
    m.translate pid (vaddr + UInt64.ofNat i) access = .ok result ↔
      ∃ first, m.translate pid vaddr access = .ok first ∧ result.toNat = first.toNat + i := by
  apply h.translate_in_page
  have hdvd := four_dvd_pageSize hps
  have hlt : vaddr.toNat % ps.bytes.toNat < ps.bytes.toNat := Nat.mod_lt _ (by omega)
  have hmod : vaddr.toNat % ps.bytes.toNat % 4 = 0 := by
    rw [Nat.mod_mod_of_dvd _ hdvd]
    exact halign
  obtain ⟨k, hk⟩ := hdvd
  omega

theorem readU8_in_word {pid : Pid} {vaddr : VirtAddr} (halign : vaddr.toNat % 4 = 0) {i : Nat}
    (hi : i < 4) (b : UInt8) :
    m.readU8 pid (vaddr + UInt64.ofNat i) = .ok b ↔
      ∃ first, m.translate pid vaddr .read = .ok first ∧ m.memory.InBounds (first.toNat + i) 1 ∧
        m.memory.data (first.toNat + i) = b := by
  rw [readU8_eq_ok_iff]
  constructor
  · rintro ⟨paddr, htrans, hread⟩
    obtain ⟨first, hfirst, hsum⟩ := (translate_in_word h hps halign hi paddr).1 htrans
    rw [hsum] at hread
    exact ⟨first, hfirst, (PhysicalMemory.readU8_eq_ok_iff ..).1 hread⟩
  · rintro ⟨first, hfirst, hb, hdata⟩
    have hlt : first.toNat + i < 2 ^ 64 := by
      have := hb.1
      omega
    have hval : (UInt64.ofNat (first.toNat + i)).toNat = first.toNat + i := by
      rw [UInt64.toNat_ofNat', Nat.mod_eq_of_lt hlt]
    refine ⟨UInt64.ofNat (first.toNat + i),
      (translate_in_word h hps halign hi _).2 ⟨first, hfirst, hval⟩, ?_⟩
    rw [hval]
    exact (PhysicalMemory.readU8_eq_ok_iff ..).2 ⟨hb, hdata⟩

theorem readU32_eq_ok_iff (pid : Pid) (vaddr : VirtAddr) (w : UInt32) :
    m.readU32 pid vaddr = .ok w ↔ vaddr.toNat % 4 = 0 ∧
      ∃ first, m.translate pid vaddr .read = .ok first ∧
        (∀ i < 4, m.memory.InBounds (first.toNat + i) 1) ∧
        w.toNat = leWord (m.memory.data first.toNat) (m.memory.data (first.toNat + 1))
          (m.memory.data (first.toNat + 2)) (m.memory.data (first.toNat + 3)) := by
  unfold readU32
  cases htrans : m.translate pid vaddr .read with
  | error e => simp
  | ok first =>
    simp only [Except.ok.injEq, exists_eq_left']
    rw [← translate_mod_four h hps htrans, ← inBounds_word_iff, ← readU32_mem_iff]
    cases m.memory.readU32 first.toNat <;> simp

/-- A byte write at a place of an aligned word, whatever was stored before. -/
theorem writeU8_in_word {pid : Pid} {vaddr : VirtAddr} (halign : vaddr.toNat % 4 = 0)
    {first : PhysAddr} (hfirst : m.translate pid vaddr .write = .ok first) {i : Nat} (hi : i < 4)
    (hb : m.memory.InBounds (first.toNat + i) 1) {memory : PhysicalMemory}
    (hsize : memory.size = m.memory.size) (b : UInt8) :
    { m with memory := memory }.writeU8 pid (vaddr + UInt64.ofNat i) b =
      .ok { m with memory := memory.store (first.toNat + i) b } := by
  have hval : (UInt64.ofNat (first.toNat + i)).toNat = first.toNat + i := by
    have := hb.1
    rw [UInt64.toNat_ofNat', Nat.mod_eq_of_lt (by omega)]
  have htrans : { m with memory := memory }.translate pid (vaddr + UInt64.ofNat i) .write =
      .ok (UInt64.ofNat (first.toNat + i)) :=
    (translate_in_word h hps halign hi _).2 ⟨first, hfirst, hval⟩
  have hstore : memory.writeU8 (first.toNat + i) b = .ok (memory.store (first.toNat + i) b) := by
    refine (PhysicalMemory.writeU8_eq_ok_iff ..).2 ⟨?_, rfl⟩
    rw [PhysicalMemory.InBounds, hsize]
    exact hb
  simp only [writeU8, htrans, hval, hstore]

theorem writeU32_eq_ok_iff (pid : Pid) (vaddr : VirtAddr) {x : UInt32} {b0 b1 b2 b3 : UInt8}
    (hx : x.toNat = leWord b0 b1 b2 b3) (m' : MMU) :
    m.writeU32 pid vaddr x = .ok m' ↔ vaddr.toNat % 4 = 0 ∧
      ∃ first, m.translate pid vaddr .write = .ok first ∧
        (∀ i < 4, m.memory.InBounds (first.toNat + i) 1) ∧
        m' = { m with memory := storeWord m.memory first.toNat b0 b1 b2 b3 } := by
  unfold writeU32
  cases htrans : m.translate pid vaddr .write with
  | error e => simp
  | ok first =>
    simp only [Except.ok.injEq, exists_eq_left']
    rw [← translate_mod_four h hps htrans, ← inBounds_word_iff]
    cases hwrite : m.memory.writeU32 first.toNat x with
    | error e =>
      refine iff_of_false nofun ?_
      rintro ⟨halign, hb, -⟩
      rw [(writeU32_mem_iff m.memory _ first.toNat hx).2 ⟨halign, hb, rfl⟩] at hwrite
      cases hwrite
    | ok memory =>
      obtain ⟨halign, hb, rfl⟩ := (writeU32_mem_iff m.memory _ first.toNat hx).1 hwrite
      simp [halign, hb, eq_comm]

/-- A word can be read when it is aligned and its bytes can be read. -/
theorem readU32_iff_bytes (pid : Pid) (vaddr : VirtAddr) :
    (∃ w, m.readU32 pid vaddr = .ok w) ↔ vaddr.toNat % 4 = 0 ∧
      ∀ i < 4, ∃ b, m.readU8 pid (vaddr + UInt64.ofNat i) = .ok b := by
  constructor
  · rintro ⟨w, hw⟩
    obtain ⟨halign, first, hfirst, hb, -⟩ := (readU32_eq_ok_iff h hps pid vaddr w).1 hw
    refine ⟨halign, fun i hi => ⟨m.memory.data (first.toNat + i), ?_⟩⟩
    exact (readU8_in_word h hps halign hi _).2 ⟨first, hfirst, hb i hi, rfl⟩
  · rintro ⟨halign, hbytes⟩
    -- all four bytes are read through the same translation
    obtain ⟨b, hb⟩ := hbytes 0 (by omega)
    obtain ⟨first, hfirst, -⟩ := (readU8_in_word h hps halign (by omega) b).1 hb
    have hbounds : ∀ i < 4, m.memory.InBounds (first.toNat + i) 1 := by
      intro i hi
      obtain ⟨b', hb'⟩ := hbytes i hi
      obtain ⟨first', hfirst', hin, -⟩ := (readU8_in_word h hps halign hi b').1 hb'
      rw [hfirst] at hfirst'
      cases hfirst'
      exact hin
    exact ⟨_, (readU32_eq_ok_iff h hps pid vaddr _).2
      ⟨halign, first, hfirst, hbounds, toNat_or_bytes _ _ _ _⟩⟩

/-- A word that is read is the number of its bytes. -/
theorem readU32_bytes {pid : Pid} {vaddr : VirtAddr} {w : UInt32}
    (hw : m.readU32 pid vaddr = .ok w) :
    ∃ b0 b1 b2 b3, m.readU8 pid vaddr = .ok b0 ∧ m.readU8 pid (vaddr + 1) = .ok b1 ∧
      m.readU8 pid (vaddr + 2) = .ok b2 ∧ m.readU8 pid (vaddr + 3) = .ok b3 ∧
      w.toNat = leWord b0 b1 b2 b3 := by
  obtain ⟨halign, first, hfirst, hb, hval⟩ := (readU32_eq_ok_iff h hps pid vaddr w).1 hw
  have hread : ∀ i < 4, m.readU8 pid (vaddr + UInt64.ofNat i) =
      .ok (m.memory.data (first.toNat + i)) := fun i hi =>
    (readU8_in_word h hps halign hi _).2 ⟨first, hfirst, hb i hi, rfl⟩
  have hfirstByte := hread 0 (by omega)
  rw [show vaddr + UInt64.ofNat 0 = vaddr by simp] at hfirstByte
  exact ⟨_, _, _, _, hfirstByte, hread 1 (by omega), hread 2 (by omega), hread 3 (by omega), hval⟩

/-- A word can be written when it is aligned and its bytes can be written. -/
theorem writeU32_iff_bytes (pid : Pid) (vaddr : VirtAddr) (x : UInt32) (byte : Nat → UInt8)
    (hx : x.toNat = leWord (byte 0) (byte 1) (byte 2) (byte 3)) :
    (∃ m', m.writeU32 pid vaddr x = .ok m') ↔ vaddr.toNat % 4 = 0 ∧
      ∀ i < 4, ∃ m', m.writeU8 pid (vaddr + UInt64.ofNat i) (byte i) = .ok m' := by
  constructor
  · rintro ⟨m', hw⟩
    obtain ⟨halign, first, hfirst, hb, -⟩ := (writeU32_eq_ok_iff h hps pid vaddr hx m').1 hw
    exact ⟨halign, fun i hi => ⟨_, writeU8_in_word h hps halign hfirst hi (hb i hi) rfl _⟩⟩
  · rintro ⟨halign, hbytes⟩
    obtain ⟨m0, hw0⟩ := hbytes 0 (by omega)
    obtain ⟨first, hfirst, -⟩ := writeU8_eq_ok hw0
    rw [show vaddr + UInt64.ofNat 0 = vaddr by simp] at hfirst
    have hbounds : ∀ i < 4, m.memory.InBounds (first.toNat + i) 1 := by
      intro i hi
      obtain ⟨m1, hw1⟩ := hbytes i hi
      obtain ⟨paddr, htrans, hin, -⟩ := writeU8_eq_ok hw1
      obtain ⟨first', hfirst', hsum⟩ := (translate_in_word h hps halign hi paddr).1 htrans
      rw [hfirst] at hfirst'
      cases hfirst'
      rwa [hsum] at hin
    exact ⟨_, (writeU32_eq_ok_iff h hps pid vaddr hx _).2 ⟨halign, first, hfirst, hbounds, rfl⟩⟩

/-- A word that is written is four bytes written one after the other. -/
theorem writeU32_bytes {pid : Pid} {vaddr : VirtAddr} {x : UInt32} {b0 b1 b2 b3 : UInt8}
    (hx : x.toNat = leWord b0 b1 b2 b3) {m' : MMU} (hw : m.writeU32 pid vaddr x = .ok m') :
    ∃ m1 m2 m3, m.writeU8 pid vaddr b0 = .ok m1 ∧ m1.writeU8 pid (vaddr + 1) b1 = .ok m2 ∧
      m2.writeU8 pid (vaddr + 2) b2 = .ok m3 ∧ m3.writeU8 pid (vaddr + 3) b3 = .ok m' := by
  obtain ⟨halign, first, hfirst, hb, rfl⟩ := (writeU32_eq_ok_iff h hps pid vaddr hx m').1 hw
  have hstore : ∀ (i : Nat), i < 4 → ∀ (memory : PhysicalMemory) (b : UInt8),
      memory.size = m.memory.size →
      { m with memory := memory }.writeU8 pid (vaddr + UInt64.ofNat i) b =
        .ok { m with memory := memory.store (first.toNat + i) b } :=
    fun i hi memory b hsize => writeU8_in_word h hps halign hfirst hi (hb i hi) hsize b
  have hfirstByte := hstore 0 (by omega) m.memory b0 rfl
  rw [show vaddr + UInt64.ofNat 0 = vaddr by simp] at hfirstByte
  exact ⟨_, _, _, hfirstByte, hstore 1 (by omega) _ _ rfl, hstore 2 (by omega) _ _ rfl,
    hstore 3 (by omega) _ _ rfl⟩

end word

/-- The `i`-th little-endian byte of a word. -/
def leByte (x : UInt32) (i : Nat) : UInt8 := UInt8.ofNat (x.toNat / 2 ^ (8 * i))

theorem leWord_leByte (x : UInt32) :
    x.toNat = leWord (leByte x 0) (leByte x 1) (leByte x 2) (leByte x 3) := by
  have hlt := x.toNat_lt
  simp only [leWord, leByte, UInt8.toNat_ofNat']
  omega

/-- The MMU after a write; a write that fails leaves it as it was. -/
def written (m : MMU) (result : Except MMUError MMU) : MMU := result.toOption.getD m

/-- A word access is the four byte accesses. A read succeeds for an aligned address whose four bytes
can be read, and gives their little-endian number. A write succeeds for an aligned address whose four
bytes can be written, has the effect of writing the four bytes, and else none. -/
theorem word_access_eq_byte_accesses (memory : PhysicalMemory) (ps : PageSize)
    (hps : 4 ≤ ps.bytes.toNat) (ops : List TableOp) (pid : Pid) (vaddr : VirtAddr) (x : UInt32) :
    ((∃ w, (after memory ps ops).readU32 pid vaddr = .ok w) ↔ vaddr.toNat % 4 = 0 ∧
      ∀ i < 4, ∃ b, (after memory ps ops).readU8 pid (vaddr + UInt64.ofNat i) = .ok b) ∧
    (∀ w, (after memory ps ops).readU32 pid vaddr = .ok w → ∃ b0 b1 b2 b3,
      (after memory ps ops).readU8 pid vaddr = .ok b0 ∧
      (after memory ps ops).readU8 pid (vaddr + 1) = .ok b1 ∧
      (after memory ps ops).readU8 pid (vaddr + 2) = .ok b2 ∧
      (after memory ps ops).readU8 pid (vaddr + 3) = .ok b3 ∧ w.toNat = leWord b0 b1 b2 b3) ∧
    ((∃ m', (after memory ps ops).writeU32 pid vaddr x = .ok m') ↔ vaddr.toNat % 4 = 0 ∧
      ∀ i < 4, ∃ m', (after memory ps ops).writeU8 pid (vaddr + UInt64.ofNat i) (leByte x i) =
        .ok m') ∧
    (∀ m', (after memory ps ops).writeU32 pid vaddr x = .ok m' → ∃ m1 m2 m3,
      (after memory ps ops).writeU8 pid vaddr (leByte x 0) = .ok m1 ∧
      m1.writeU8 pid (vaddr + 1) (leByte x 1) = .ok m2 ∧
      m2.writeU8 pid (vaddr + 2) (leByte x 2) = .ok m3 ∧
      m3.writeU8 pid (vaddr + 3) (leByte x 3) = .ok m') ∧
    ∀ e, (after memory ps ops).writeU32 pid vaddr x = .error e →
      ((after memory ps ops).written ((after memory ps ops).writeU32 pid vaddr x)).memory =
        (after memory ps ops).memory := by
  have h := after_refines memory ps ops
  refine ⟨readU32_iff_bytes h hps pid vaddr, fun w hw => readU32_bytes h hps hw,
    writeU32_iff_bytes h hps pid vaddr x (leByte x) (leWord_leByte x),
    fun m' hw => writeU32_bytes h hps (leWord_leByte x) hw, ?_⟩
  intro e he
  rw [he]
  rfl

/-- A page of four bytes at the end of the memory. -/
theorem word_at_end_of_memory :
    4 ≤ (PageSize.mk 4 2 rfl).bytes.toNat ∧
      ∃ w, (after (PhysicalMemory.new 8) (PageSize.mk 4 2 rfl)
        [.mapPage 1 0xFFFFFFFFFFFFFFFC 4 PageFlags.presentWritable]).readU32 1 0xFFFFFFFFFFFFFFFC =
          .ok w := by
  refine ⟨by decide, ?_⟩
  refine (word_access_eq_byte_accesses (PhysicalMemory.new 8) (PageSize.mk 4 2 rfl) (by decide)
    [.mapPage 1 0xFFFFFFFFFFFFFFFC 4 PageFlags.presentWritable] 1 0xFFFFFFFFFFFFFFFC 0).1.2
    ⟨by decide, ?_⟩
  intro i hi
  refine ⟨0, ?_⟩
  interval_cases i <;> rfl

end MMU

end GenshinOs.Hardware
