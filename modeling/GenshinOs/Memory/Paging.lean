import GenshinOs.Lib.HashMap
import GenshinOs.Messaging

/-!
# Page tables of the memory service

The second set of page tables, which the fire-and-forget requests use
(`src/services/memory/paging.rs`). It is keyed by virtual page number and refuses to map a page
twice; the MMU of the hardware knows nothing of it. Only mapping and lookup are requested by the
service.
-/

set_option autoImplicit false

namespace GenshinOs.Memory

open GenshinOs.Lib

/-- Page flags. -/
structure TableFlags where
  present : Bool
  writable : Bool
  user : Bool
  accessed : Bool
  dirty : Bool
  executable : Bool
  global : Bool
  deriving DecidableEq, Repr

/-- The flags of a page with this protection. -/
def TableFlags.fromProt (prot : MemProt) : TableFlags where
  present := true
  writable := prot.writable
  user := true
  accessed := false
  dirty := false
  executable := prot.executable
  global := false

/-- Page table entry: virtual page to physical frame. -/
structure TableEntry where
  vpn : Nat
  pfn : Nat
  flags : TableFlags
  virtAddr : VirtAddr
  physAddr : PhysAddr
  size : Nat
  deriving DecidableEq, Repr

/-- The page is in memory. -/
def TableEntry.isPresent (e : TableEntry) : Bool := e.flags.present

/-- Errors of a page table. -/
inductive PageError where
  | alreadyMapped (vpn : Nat)
  | notMapped (vpn : Nat)
  deriving DecidableEq, Repr

/-- Page table of one process. -/
structure PageTable where
  pid : Pid
  pageSize : Nat
  entries : HashMap Nat TableEntry
  mappedCount : Nat
  totalPages : Nat

namespace PageTable

/-- A table without pages. -/
def new (pid : Pid) (pageSize totalPages : Nat) : PageTable := ⟨pid, pageSize, ∅, 0, totalPages⟩

/-- A page is mapped, unless it is already. -/
def map (t : PageTable) (virtAddr : VirtAddr) (physAddr : PhysAddr) (prot : MemProt) :
    Except PageError PageTable :=
  let vpn := virtAddr.toNat / t.pageSize
  let pfn := physAddr.toNat / t.pageSize
  match t.entries.lookup vpn with
  | some _ => .error (.alreadyMapped vpn)
  | none =>
    .ok { t with
      entries := t.entries.insert vpn
        ⟨vpn, pfn, TableFlags.fromProt prot, virtAddr, physAddr, t.pageSize⟩
      mappedCount := t.mappedCount + 1 }

/-- The entry of an address. -/
def lookup (t : PageTable) (virtAddr : VirtAddr) : Option TableEntry :=
  t.entries.lookup (virtAddr.toNat / t.pageSize)

/-- A page that is in the table cannot be mapped. -/
theorem map_of_some {t : PageTable} {virtAddr : VirtAddr} {entry : TableEntry}
    (h : t.lookup virtAddr = some entry) (physAddr : PhysAddr) (prot : MemProt) :
    t.map virtAddr physAddr prot = .error (.alreadyMapped (virtAddr.toNat / t.pageSize)) := by
  have hentry : t.entries.lookup (virtAddr.toNat / t.pageSize) = some entry := h
  simp only [map, hentry]

/-- Any other page can, and then it is in the table. -/
theorem map_of_none {t : PageTable} {virtAddr : VirtAddr} (h : t.lookup virtAddr = none)
    (physAddr : PhysAddr) (prot : MemProt) :
    ∃ t', t.map virtAddr physAddr prot = .ok t' ∧ (t'.lookup virtAddr).isSome := by
  have hentry : t.entries.lookup (virtAddr.toNat / t.pageSize) = none := h
  simp only [map, hentry]
  refine ⟨_, rfl, ?_⟩
  rw [lookup, HashMap.lookup_insert_eq, if_pos rfl]
  rfl

end PageTable

/-- Page tables of all processes. -/
structure PageTableManager where
  tables : HashMap Pid PageTable
  pageSize : Nat
  pagesPerProcess : Nat

namespace PageTableManager

/-- No process has a table. -/
def new (pageSize pagesPerProcess : Nat) : PageTableManager := ⟨∅, pageSize, pagesPerProcess⟩

/-- An empty table for a process; a table it had before is replaced. -/
def createTable (m : PageTableManager) (pid : Pid) : PageTable × PageTableManager :=
  let table := PageTable.new pid m.pageSize m.pagesPerProcess
  (table, { m with tables := m.tables.insert pid table })

/-- The table of a process. -/
def getTable (m : PageTableManager) (pid : Pid) : Option PageTable := m.tables.lookup pid

/-- Write back a table that was changed behind its lock. -/
def putTable (m : PageTableManager) (pid : Pid) (table : PageTable) : PageTableManager :=
  { m with tables := m.tables.insert pid table }

theorem getTable_putTable (m : PageTableManager) (pid : Pid) (table : PageTable) :
    (m.putTable pid table).getTable pid = some table :=
  AList.lookup_insert m.tables

end PageTableManager

end GenshinOs.Memory
