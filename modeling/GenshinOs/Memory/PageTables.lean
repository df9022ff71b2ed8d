import GenshinOs.Memory.Paging
import GenshinOs.Hardware.Translation
import Mathlib.Data.Set.Card

/-!
# The page tables of the memory service as maps

The operations on a page table that the requests do not use (`src/services/memory/paging.rs`): a page is
taken out, its flags are changed, the table is cleared, an address is translated. Over every history the
table is a map from page numbers to what was put there (`table_refines_map`).

The MMU has tables of its own for the same purpose. `tables_agree_iff` says when the two mean the same for
a process: the addresses of the frames are those of page starts, and what is executable is writable. An
address that is not one of a page start is rounded down by the MMU and kept by the table.
-/

set_option autoImplicit false

namespace GenshinOs.Memory

open GenshinOs.Lib GenshinOs.Hardware

/-! ## Operations -/

namespace TableFlags

/-- Check if access is allowed. A present page is readable. -/
def checkAccess (f : TableFlags) (access : AccessType) : Bool :=
  f.present &&
    match access with
    | .read => true
    | .write => f.writable
    | .execute => f.executable

theorem present_of_checkAccess {f : TableFlags} {access : AccessType} (h : f.checkAccess access = true) :
    f.present = true := by
  simp only [checkAccess, Bool.and_eq_true] at h
  exact h.1

end TableFlags

namespace TableEntry

/-- The flags allow the access. -/
def checkAccess (e : TableEntry) (access : AccessType) : Bool := e.flags.checkAccess access

/-- Physical address for an offset within this page. -/
def physAddressForOffset (e : TableEntry) (offset : Nat) : Option PhysAddr :=
  if !e.isPresent || e.size ≤ offset then none else some (e.physAddr + UInt64.ofNat offset)

/-- Other flags for the same frame. -/
def setFlags (e : TableEntry) (flags : TableFlags) : TableEntry := { e with flags := flags }

end TableEntry

/-- Errors of a translation. -/
inductive TranslateError where
  | notMapped (vpn : Nat)
  | permissionDenied (virtAddr : VirtAddr) (access : AccessType)
  | invalidOffset (virtAddr : VirtAddr) (offset : Nat)
  deriving DecidableEq, Repr

namespace PageTable

/-- A page is unmapped; its entry is the result. -/
def unmap (t : PageTable) (virtAddr : VirtAddr) : Except PageError (TableEntry × PageTable) :=
  let vpn := virtAddr.toNat / t.pageSize
  match t.entries.lookup vpn with
  | some entry =>
    .ok (entry, { t with
      entries := t.entries.erase vpn
      mappedCount := t.mappedCount - 1 })
  | none => .error (.notMapped vpn)

/-- The physical address of an address, if the access is allowed. -/
def translate (t : PageTable) (virtAddr : VirtAddr) (access : AccessType) : Except TranslateError PhysAddr :=
  match t.lookup virtAddr with
  | none => .error (.notMapped (virtAddr.toNat / t.pageSize))
  | some entry =>
    if !entry.checkAccess access then .error (.permissionDenied virtAddr access)
    else
      match entry.physAddressForOffset (virtAddr.toNat % t.pageSize) with
      | some physAddr => .ok physAddr
      | none => .error (.invalidOffset virtAddr (virtAddr.toNat % t.pageSize))

/-- Clear all mappings. -/
def clear (t : PageTable) : PageTable := { t with entries := ∅, mappedCount := 0 }

/-- Other flags for a page. -/
def updateFlags (t : PageTable) (virtAddr : VirtAddr) (flags : TableFlags) : Except PageError PageTable :=
  let vpn := virtAddr.toNat / t.pageSize
  match t.entries.lookup vpn with
  | some entry => .ok { t with entries := t.entries.insert vpn (entry.setFlags flags) }
  | none => .error (.notMapped vpn)

end PageTable

/-- An operation on a page table. -/
inductive PageOp where
  | map (virtAddr : VirtAddr) (physAddr : PhysAddr) (prot : MemProt)
  | unmap (virtAddr : VirtAddr)
  | updateFlags (virtAddr : VirtAddr) (flags : TableFlags)
  | clear
  deriving DecidableEq, Repr

namespace PageTable

/-- An operation; a failure leaves the table as it is. -/
def perform (t : PageTable) : PageOp → PageTable
  | .map virtAddr physAddr prot => (t.map virtAddr physAddr prot).toOption.getD t
  | .unmap virtAddr => ((t.unmap virtAddr).toOption.map Prod.snd).getD t
  | .updateFlags virtAddr flags => (t.updateFlags virtAddr flags).toOption.getD t
  | .clear => t.clear

end PageTable

/-! ## The abstract map -/

/-- For each page number, the address and the flags that were put there. -/
abbrev AddressMap := Nat → Option (PhysAddr × TableFlags)

namespace AddressMap

/-- What an operation means, for pages of this size. -/
def perform (size : Nat) (m : AddressMap) : PageOp → AddressMap
  | .map virtAddr physAddr prot =>
    if (m (virtAddr.toNat / size)).isSome then m
    else Function.update m (virtAddr.toNat / size) (some (physAddr, TableFlags.fromProt prot))
  | .unmap virtAddr => Function.update m (virtAddr.toNat / size) none
  | .updateFlags virtAddr flags =>
    Function.update m (virtAddr.toNat / size) ((m (virtAddr.toNat / size)).map fun e => (e.1, flags))
  | .clear => fun _ => none

/-- What is mapped after some operations. -/
def after (size : Nat) (ops : List PageOp) : AddressMap := ops.foldl (perform size) fun _ => none

end AddressMap

namespace PageTable

/-- The table holds the mappings of the map, in pages of its size, and counts them. -/
structure Holds (t : PageTable) (size : Nat) (m : AddressMap) : Prop where
  size_eq : t.pageSize = size
  entry_eq : ∀ vpn, (t.entries.lookup vpn).map (fun e => (e.physAddr, e.flags)) = m vpn
  entry_size : ∀ vpn e, t.entries.lookup vpn = some e → e.size = size
  count : t.mappedCount = t.entries.keys.length

variable {t : PageTable} {size : Nat} {m : AddressMap}

theorem holds_new (pid : Pid) (size totalPages : Nat) : (new pid size totalPages).Holds size fun _ => none where
  size_eq := rfl
  entry_eq _ := rfl
  entry_size _ _ h := by cases h
  count := rfl

namespace Holds

theorem map_some (h : t.Holds size m) {vpn : Nat} {e : TableEntry} (he : t.entries.lookup vpn = some e) :
    m vpn = some (e.physAddr, e.flags) := by
  rw [← h.entry_eq vpn, he]
  rfl

theorem map_none (h : t.Holds size m) {vpn : Nat} (hnone : t.entries.lookup vpn = none) : m vpn = none := by
  rw [← h.entry_eq vpn, hnone]
  rfl

/-- A new or changed entry, which is counted if it is new. -/
theorem insert (h : t.Holds size m) (vpn : Nat) {e : TableEntry} (he : e.size = size) {count : Nat}
    (hcount : count = t.mappedCount + if (t.entries.lookup vpn).isSome then 0 else 1) :
    ({ t with entries := t.entries.insert vpn e, mappedCount := count } : PageTable).Holds size
      (Function.update m vpn (some (e.physAddr, e.flags))) where
  size_eq := h.size_eq
  entry_eq v := by
    rw [HashMap.lookup_insert_eq, Function.update_apply, ← h.entry_eq v]
    split
    · rfl
    · rfl
  entry_size v e' he' := by
    rw [HashMap.lookup_insert_eq] at he'
    split at he'
    · cases he'
      exact he
    · exact h.entry_size v e' he'
  count := by rw [hcount, HashMap.length_keys_insert, h.count]

/-- An entry less. -/
theorem erase (h : t.Holds size m) {vpn : Nat} {e : TableEntry} (he : t.entries.lookup vpn = some e) :
    ({ t with entries := t.entries.erase vpn, mappedCount := t.mappedCount - 1 } : PageTable).Holds size
      (Function.update m vpn none) where
  size_eq := h.size_eq
  entry_eq v := by
    rw [HashMap.lookup_erase_eq, Function.update_apply, ← h.entry_eq v]
    split
    · rfl
    · rfl
  entry_size v e' he' := by
    rw [HashMap.lookup_erase_eq] at he'
    split at he'
    · cases he'
    · exact h.entry_size v e' he'
  count := by rw [HashMap.length_keys_erase, he, h.count]; rfl

theorem perform (h : t.Holds size m) (op : PageOp) :
    (t.perform op).Holds size (AddressMap.perform size m op) := by
  obtain rfl := h.size_eq
  cases op with
  | map virtAddr physAddr prot =>
    simp only [PageTable.perform, PageTable.map, AddressMap.perform]
    cases hentry : t.entries.lookup (virtAddr.toNat / t.pageSize) with
    | some e =>
      rw [h.map_some hentry]
      exact h
    | none =>
      rw [h.map_none hentry]
      exact h.insert _ rfl (by rw [hentry]; rfl)
  | unmap virtAddr =>
    simp only [PageTable.perform, PageTable.unmap, AddressMap.perform]
    cases hentry : t.entries.lookup (virtAddr.toNat / t.pageSize) with
    | some e => exact h.erase hentry
    | none =>
      rw [← h.map_none hentry, Function.update_eq_self]
      exact h
  | updateFlags virtAddr flags =>
    simp only [PageTable.perform, PageTable.updateFlags, AddressMap.perform]
    cases hentry : t.entries.lookup (virtAddr.toNat / t.pageSize) with
    | some e =>
      rw [h.map_some hentry]
      exact h.insert _ (e := e.setFlags flags) (h.entry_size _ e hentry) (by rw [hentry]; rfl)
    | none =>
      rw [h.map_none hentry, Option.map_none, ← h.map_none hentry, Function.update_eq_self]
      exact h
  | clear =>
    refine ⟨rfl, fun _ => rfl, ?_, rfl⟩
    intro vpn e he
    cases he

/-- As many pages are mapped as the table counts. -/
theorem count_eq (h : t.Holds size m) : t.mappedCount = {vpn | (m vpn).isSome}.ncard := by
  have hkeys : {vpn | (m vpn).isSome} = (t.entries.keys.toFinset : Set Nat) := by
    ext vpn
    rw [Set.mem_ofPred_eq, ← h.entry_eq vpn, Option.isSome_map, List.coe_toFinset, Set.mem_ofPred_eq,
      ← AList.mem_keys, AList.lookup_isSome]
  rw [hkeys, Set.ncard_coe_finset, List.toFinset_card_of_nodup t.entries.keys_nodup, h.count]

/-- A translation gives the address of the page with the offset added, if the flags allow it. -/
theorem translate_eq_ok_iff (h : t.Holds size m) (hsize : 0 < size) (virtAddr : VirtAddr)
    (access : AccessType) (result : PhysAddr) :
    t.translate virtAddr access = .ok result ↔
      ∃ physAddr flags, m (virtAddr.toNat / size) = some (physAddr, flags) ∧
        flags.checkAccess access = true ∧ result = physAddr + UInt64.ofNat (virtAddr.toNat % size) := by
  obtain rfl := h.size_eq
  rw [translate, lookup]
  cases hentry : t.entries.lookup (virtAddr.toNat / t.pageSize) with
  | none =>
    rw [h.map_none hentry]
    simp
  | some e =>
    rw [h.map_some hentry]
    have hoffset : virtAddr.toNat % t.pageSize < e.size := by
      rw [h.entry_size _ e hentry]
      exact Nat.mod_lt _ hsize
    by_cases hcheck : e.flags.checkAccess access = true
    · have hpresent : e.isPresent = true := TableFlags.present_of_checkAccess hcheck
      have haddr : e.physAddressForOffset (virtAddr.toNat % t.pageSize) =
          some (e.physAddr + UInt64.ofNat (virtAddr.toNat % t.pageSize)) := by
        rw [TableEntry.physAddressForOffset, hpresent]
        exact if_neg (by simpa using hoffset)
      simp only [TableEntry.checkAccess, hcheck, haddr]
      constructor
      · rintro hresult
        cases hresult
        exact ⟨_, _, rfl, hcheck, rfl⟩
      · rintro ⟨physAddr, flags, hsame, -, rfl⟩
        cases hsame
        rfl
    · simp [TableEntry.checkAccess, hcheck]

end Holds

/-- A fresh table after some operations. -/
def after (pid : Pid) (size totalPages : Nat) (ops : List PageOp) : PageTable :=
  ops.foldl perform (new pid size totalPages)

theorem holds_after (pid : Pid) (size totalPages : Nat) (ops : List PageOp) :
    (after pid size totalPages ops).Holds size (AddressMap.after size ops) := by
  have hfold : ∀ (t : PageTable) (m : AddressMap), t.Holds size m →
      (ops.foldl perform t).Holds size (ops.foldl (AddressMap.perform size) m) := by
    induction ops with
    | nil => exact fun t m h => h
    | cons op ops ih => exact fun t m h => ih _ _ (h.perform op)
  exact hfold _ _ (holds_new pid size totalPages)

/-- After any operations an address is translated exactly when its page is mapped with flags that allow
the access, to the address of the page with the offset added; a page is counted exactly when it is mapped;
and a page can be mapped exactly when it is not, taken out and changed exactly when it is. -/
theorem table_refines_map (pid : Pid) {size : Nat} (hsize : 0 < size) (totalPages : Nat) (ops : List PageOp) :
    (∀ virtAddr access result, (after pid size totalPages ops).translate virtAddr access = .ok result ↔
      ∃ physAddr flags, AddressMap.after size ops (virtAddr.toNat / size) = some (physAddr, flags) ∧
        flags.checkAccess access = true ∧ result = physAddr + UInt64.ofNat (virtAddr.toNat % size)) ∧
    (after pid size totalPages ops).mappedCount = {vpn | (AddressMap.after size ops vpn).isSome}.ncard ∧
    ∀ virtAddr,
      (∀ physAddr prot, ((after pid size totalPages ops).map virtAddr physAddr prot).toOption.isSome ↔
        AddressMap.after size ops (virtAddr.toNat / size) = none) ∧
      (((after pid size totalPages ops).unmap virtAddr).toOption.isSome ↔
        (AddressMap.after size ops (virtAddr.toNat / size)).isSome) ∧
      ∀ flags, ((after pid size totalPages ops).updateFlags virtAddr flags).toOption.isSome ↔
        (AddressMap.after size ops (virtAddr.toNat / size)).isSome := by
  have h := holds_after pid size totalPages ops
  generalize after pid size totalPages ops = t at h
  generalize AddressMap.after size ops = m at h
  refine ⟨h.translate_eq_ok_iff hsize, h.count_eq, fun virtAddr => ?_⟩
  obtain rfl := h.size_eq
  simp only [map, unmap, updateFlags]
  cases hentry : t.entries.lookup (virtAddr.toNat / t.pageSize) with
  | some e => simp [h.map_some hentry, Except.toOption]
  | none => simp [h.map_none hentry, Except.toOption]

/-- The table keeps an address inside a frame as it is, and adds the offset in the page to it. -/
theorem table_refines_map_inside :
    (after 1 4096 256 [.map 0x1000 0x5000 .readWrite, .unmap 0x1fff, .map 0x1008 0x6008 .readOnly]).translate
      0x1010 .read = .ok 0x6018 := by
  apply ((table_refines_map 1 (by decide : 0 < 4096) 256 [.map 0x1000 0x5000 .readWrite, .unmap 0x1fff,
    .map 0x1008 0x6008 .readOnly]).1 0x1010 .read 0x6018).2
  exact ⟨0x6008, TableFlags.fromProt .readOnly, by decide, by decide, by decide⟩

end PageTable

/-! ## The two page tables of a process -/

/-- A request that maps or unmaps a page. -/
inductive Mapping where
  | map (virtAddr : VirtAddr) (physAddr : PhysAddr) (prot : MemProt)
  | unmap (virtAddr : VirtAddr)
  deriving DecidableEq, Repr

namespace Mapping

/-- The request as an operation on the table of the service. -/
def onTable : Mapping → PageOp
  | map virtAddr physAddr prot => .map virtAddr physAddr prot
  | unmap virtAddr => .unmap virtAddr

/-- The request as an operation of the MMU. -/
def onMmu (pid : Pid) : Mapping → TableOp
  | map virtAddr physAddr prot => .mapPage pid virtAddr physAddr (PageFlags.ofProt prot)
  | unmap virtAddr => .unmapPage pid virtAddr

/-- The page is not mapped when it is to be mapped. -/
def Fresh (size : Nat) (m : AddressMap) : Mapping → Prop
  | map virtAddr _ _ => m (virtAddr.toNat / size) = none
  | unmap _ => True

/-- No page is mapped while it is mapped. -/
def AllFresh (size : Nat) : AddressMap → List Mapping → Prop
  | _, [] => True
  | m, req :: reqs => req.Fresh size m ∧ AllFresh size (AddressMap.perform size m req.onTable) reqs

end Mapping

/-- The flags of the MMU for an entry of the table. -/
def TableFlags.onMmu (f : TableFlags) : PageFlags := ⟨f.present, f.writable, f.user⟩

/-- Both maps have the same mappings of a process, and all of them are present. -/
structure SameMappings (pid : Pid) (m : AddressMap) (map : PageMap) : Prop where
  same : ∀ page, map pid page = (m page).map fun e => (e.1, e.2.onMmu)
  present : ∀ page e, m page = some e → e.2.present = true

namespace SameMappings

variable {ps : PageSize} {pid : Pid} {m : AddressMap} {map : PageMap}

theorem perform (h : SameMappings pid m map) {req : Mapping} (hfresh : req.Fresh ps.bytes.toNat m) :
    SameMappings pid (AddressMap.perform ps.bytes.toNat m req.onTable)
      (PageMap.perform ps map (req.onMmu pid)) := by
  cases req with
  | map virtAddr physAddr prot =>
    have hnone : m (virtAddr.toNat / ps.bytes.toNat) = none := hfresh
    simp only [Mapping.onTable, Mapping.onMmu, AddressMap.perform, PageMap.perform, hnone, pageOf,
      ← ps.bytes_eq]
    constructor
    · intro page
      by_cases hpage : page = virtAddr.toNat / ps.bytes.toNat
      · subst hpage
        simp [TableFlags.onMmu, TableFlags.fromProt, PageFlags.ofProt]
      · simp [hpage, h.same page]
    · intro page e he
      by_cases hpage : page = virtAddr.toNat / ps.bytes.toNat
      · subst hpage
        simp only [Option.isSome_none, Bool.false_eq_true, if_false, Function.update_self] at he
        cases he
        rfl
      · simp only [Option.isSome_none, Bool.false_eq_true, if_false, Function.update_of_ne hpage] at he
        exact h.present page e he
  | unmap virtAddr =>
    simp only [Mapping.onTable, Mapping.onMmu, AddressMap.perform, PageMap.perform, pageOf, ← ps.bytes_eq]
    constructor
    · intro page
      by_cases hpage : page = virtAddr.toNat / ps.bytes.toNat
      · subst hpage
        simp
      · simp [hpage, h.same page]
    · intro page e he
      by_cases hpage : page = virtAddr.toNat / ps.bytes.toNat
      · subst hpage
        simp at he
      · rw [Function.update_of_ne hpage] at he
        exact h.present page e he

theorem performs {reqs : List Mapping} (h : SameMappings pid m map)
    (hfresh : Mapping.AllFresh ps.bytes.toNat m reqs) :
    SameMappings pid ((reqs.map Mapping.onTable).foldl (AddressMap.perform ps.bytes.toNat) m)
      ((reqs.map (Mapping.onMmu pid)).foldl (PageMap.perform ps) map) := by
  induction reqs generalizing m map with
  | nil => exact h
  | cons req reqs ih => exact ih (h.perform hfresh.1) hfresh.2

end SameMappings

/-- Two results are the same success, or both fail. -/
theorem toOption_eq_iff {ε ε' α : Type} (x : Except ε α) (y : Except ε' α) :
    x.toOption = y.toOption ↔ ∀ a, x = .ok a ↔ y = .ok a := by
  have hok : ∀ {ε : Type} (x : Except ε α) a, x = .ok a ↔ x.toOption = some a := by
    intro ε x a
    cases x <;> simp [Except.toOption]
  simp only [hok]
  exact ⟨fun h a => by rw [h], Option.ext⟩

section agreement

variable {ps : PageSize} {pid : Pid} {t : PageTable} {m : AddressMap} {mmu : MMU} {map : PageMap}

/-- The offset in a page does not carry the address of an aligned frame past the last word. -/
theorem eq_add_offset_iff {physAddr : PhysAddr} (haligned : ps.alignDown physAddr = physAddr)
    (virtAddr : VirtAddr) (result : PhysAddr) :
    result = physAddr + UInt64.ofNat (virtAddr.toNat % ps.bytes.toNat) ↔
      result.toNat = physAddr.toNat + virtAddr.toNat % ps.bytes.toNat := by
  have hoffset : (UInt64.ofNat (virtAddr.toNat % ps.bytes.toNat)).toNat = virtAddr.toNat % ps.bytes.toNat :=
    Nat.mod_eq_of_lt ((Nat.mod_le _ _).trans_lt virtAddr.toNat_lt)
  have hmod : physAddr.toNat % 2 ^ ps.shift = 0 := by
    rw [← haligned]
    exact ps.alignDown_mod physAddr
  rw [← UInt64.toNat_inj, ps.toNat_page_add hmod ps.shift_le, hoffset]
  rw [hoffset, ← ps.bytes_eq]
  exact Nat.mod_lt _ ps.one_le_bytes

/-- The flags of table and MMU allow the same accesses, but for execution. -/
theorem checkAccess_iff {flags : TableFlags} (hpresent : flags.present = true) (access : AccessType) :
    flags.checkAccess access = true ↔
      match access with
      | .execute => flags.executable = true
      | access => MMU.Allows flags.onMmu access := by
  cases access with
  | read => simp [TableFlags.checkAccess, MMU.Allows, TableFlags.onMmu, hpresent]
  | write => simp [TableFlags.checkAccess, MMU.Allows, TableFlags.onMmu, hpresent]
  | execute => simp [TableFlags.checkAccess, hpresent]

section entry

variable (ht : t.Holds ps.bytes.toNat m) (hmmu : MMU.Refines ps mmu map) (hsame : SameMappings pid m map)
  {virtAddr : VirtAddr} {physAddr : PhysAddr} {flags : TableFlags}
  (hentry : m (pageOf ps virtAddr) = some (physAddr, flags))

include hentry

include ht in
/-- What the table translates an address of a mapped page to. -/
theorem table_translate_iff (access : AccessType) (result : PhysAddr) :
    t.translate virtAddr access = .ok result ↔ flags.checkAccess access = true ∧
      result = physAddr + UInt64.ofNat (virtAddr.toNat % ps.bytes.toNat) := by
  rw [ht.translate_eq_ok_iff ps.one_le_bytes]
  rw [pageOf, ← ps.bytes_eq] at hentry
  constructor
  · rintro ⟨physAddr', flags', hentry', hcheck, hresult⟩
    cases hentry.symm.trans hentry'
    exact ⟨hcheck, hresult⟩
  · rintro ⟨hcheck, hresult⟩
    exact ⟨physAddr, flags, hentry, hcheck, hresult⟩

include hmmu hsame in
/-- What the MMU translates it to. -/
theorem mmu_translate_iff (access : AccessType) (result : PhysAddr) :
    mmu.translate pid virtAddr access = .ok result ↔ MMU.Allows flags.onMmu access ∧
      result.toNat = (ps.alignDown physAddr).toNat + virtAddr.toNat % ps.bytes.toNat := by
  have hmapped : map pid (pageOf ps virtAddr) = some (physAddr, flags.onMmu) := by
    rw [hsame.same, hentry]
    rfl
  rw [hmmu.translate_eq_ok_iff]
  constructor
  · rintro ⟨physAddr', flags', hentry', hallows, hresult⟩
    cases hmapped.symm.trans hentry'
    exact ⟨hallows, hresult⟩
  · rintro ⟨hallows, hresult⟩
    exact ⟨physAddr, flags.onMmu, hmapped, hallows, hresult⟩

end entry

/-- The table and the MMU translate all addresses the same way exactly when the addresses that were mapped
are those of page starts, and what is executable is writable. -/
theorem translate_agrees_iff (ht : t.Holds ps.bytes.toNat m) (hmmu : MMU.Refines ps mmu map)
    (hsame : SameMappings pid m map) :
    (∀ virtAddr access, (t.translate virtAddr access).toOption =
      (mmu.translate pid virtAddr access).toOption) ↔
    ∀ virtAddr physAddr flags, m (pageOf ps virtAddr) = some (physAddr, flags) →
      ps.alignDown physAddr = physAddr ∧ flags.executable = flags.writable := by
  simp only [toOption_eq_iff]
  constructor
  · intro hagree virtAddr physAddr flags hentry
    -- the first address of the page has no offset
    have hpage : pageOf ps (ps.alignDown virtAddr) = pageOf ps virtAddr :=
      (MMU.alignDown_eq_iff ps _ _).1 (ps.alignDown_alignDown virtAddr)
    have hzero : (ps.alignDown virtAddr).toNat % ps.bytes.toNat = 0 := by
      rw [ps.bytes_eq]
      exact ps.alignDown_mod virtAddr
    rw [← hpage] at hentry
    have hpresent : flags.present = true := hsame.present _ _ hentry
    have hboth : ∀ access result, flags.checkAccess access = true ∧ result = physAddr ↔
        MMU.Allows flags.onMmu access ∧ result.toNat = (ps.alignDown physAddr).toNat := by
      intro access result
      have hstep := hagree (ps.alignDown virtAddr) access result
      rw [table_translate_iff ht hentry, mmu_translate_iff hmmu hsame hentry, hzero] at hstep
      simpa using hstep
    have hread := (hboth .read physAddr).1 ⟨(checkAccess_iff hpresent .read).2 ⟨hpresent, by simp⟩, rfl⟩
    have haligned : ps.alignDown physAddr = physAddr := UInt64.toNat_inj.1 hread.2.symm
    refine ⟨haligned, Bool.eq_iff_iff.2 ?_⟩
    have hexecute := hboth .execute physAddr
    rw [haligned, checkAccess_iff hpresent] at hexecute
    simpa [MMU.Allows, TableFlags.onMmu, hpresent] using hexecute
  · intro hgood virtAddr access result
    cases hentry : m (pageOf ps virtAddr) with
    | none =>
      have hnone : map pid (pageOf ps virtAddr) = none := by
        rw [hsame.same, hentry]
        rfl
      rw [ht.translate_eq_ok_iff ps.one_le_bytes, hmmu.translate_eq_ok_iff, hnone]
      rw [pageOf, ← ps.bytes_eq] at hentry
      rw [hentry]
      simp
    | some e =>
      obtain ⟨physAddr, flags⟩ := e
      obtain ⟨haligned, hexecutable⟩ := hgood virtAddr physAddr flags hentry
      have hpresent : flags.present = true := hsame.present _ _ hentry
      rw [table_translate_iff ht hentry, mmu_translate_iff hmmu hsame hentry, haligned,
        eq_add_offset_iff haligned, checkAccess_iff hpresent]
      cases access with
      | read => rfl
      | write => rfl
      | execute => simp [MMU.Allows, TableFlags.onMmu, hpresent, hexecutable]

end agreement

/-- Give the table of the service and the MMU the same requests for a process, none of them for a page that
is mapped already. Then they translate all addresses the same way exactly when every mapping in force was
given the address of a page start, and is executable exactly when it is writable. -/
theorem tables_agree_iff (memory : PhysicalMemory) (ps : PageSize) (pid : Pid) (totalPages : Nat)
    (reqs : List Mapping) (hfresh : Mapping.AllFresh ps.bytes.toNat (fun _ => none) reqs) :
    (∀ virtAddr access,
      ((PageTable.after pid ps.bytes.toNat totalPages (reqs.map Mapping.onTable)).translate virtAddr
        access).toOption =
      ((MMU.after memory ps (reqs.map (Mapping.onMmu pid))).translate pid virtAddr access).toOption) ↔
    ∀ virtAddr physAddr flags,
      AddressMap.after ps.bytes.toNat (reqs.map Mapping.onTable) (pageOf ps virtAddr) =
        some (physAddr, flags) →
      ps.alignDown physAddr = physAddr ∧ flags.executable = flags.writable := by
  have hempty : SameMappings pid (fun _ => none) PageMap.empty := by
    constructor
    · intro page
      rfl
    · intro page e he
      cases he
  exact translate_agrees_iff (PageTable.holds_after pid ps.bytes.toNat totalPages _)
    (MMU.after_refines memory ps _) (hempty.performs hfresh)

/-- A page that may be written is executed by the MMU and not by the table; one that may only be read is
translated the same way by both. -/
theorem tables_agree_iff_prot :
    (¬∀ virtAddr access,
      ((PageTable.after 1 4096 256 ([.map 0x1000 0x5000 .readWrite].map Mapping.onTable)).translate virtAddr
        access).toOption =
      ((MMU.after (PhysicalMemory.new 8192) PageSize.fourK
        ([.map 0x1000 0x5000 .readWrite].map (Mapping.onMmu 1))).translate 1 virtAddr access).toOption) ∧
    ∀ virtAddr access,
      ((PageTable.after 1 4096 256 ([.map 0x1000 0x5000 .readOnly].map Mapping.onTable)).translate virtAddr
        access).toOption =
      ((MMU.after (PhysicalMemory.new 8192) PageSize.fourK
        ([.map 0x1000 0x5000 .readOnly].map (Mapping.onMmu 1))).translate 1 virtAddr access).toOption := by
  constructor
  · intro hagree
    have hgood := (tables_agree_iff (PhysicalMemory.new 8192) PageSize.fourK 1 256
      [.map 0x1000 0x5000 .readWrite] ⟨rfl, trivial⟩).1 hagree 0x1000 0x5000 (TableFlags.fromProt .readWrite) rfl
    cases hgood.2
  · apply (tables_agree_iff (PhysicalMemory.new 8192) PageSize.fourK 1 256 [.map 0x1000 0x5000 .readOnly]
      ⟨rfl, trivial⟩).2
    intro virtAddr physAddr flags hentry
    have hmapped : ∀ vpn, AddressMap.after 4096 [.map 0x1000 0x5000 .readOnly] vpn =
        Function.update (fun _ : Nat => none) 1 (some (0x5000, TableFlags.fromProt .readOnly)) vpn :=
      fun _ => rfl
    have hentry' := (hmapped (pageOf PageSize.fourK virtAddr)).symm.trans hentry
    rw [Function.update_apply] at hentry'
    split at hentry'
    · cases hentry'
      exact ⟨by decide, rfl⟩
    · cases hentry'

end GenshinOs.Memory
