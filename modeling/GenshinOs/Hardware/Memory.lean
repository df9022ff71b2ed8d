import Mathlib.Tactic

/-!
# Physical memory

The byte-addressed RAM (`src/hardware/memory.rs`). Only indices below `size` are ever read or
written; every access checks its bounds first, with the addition that `checked_add` guards.
-/

set_option autoImplicit false

namespace GenshinOs.Hardware

/-- Errors of a physical access. -/
inductive MemoryError where
  | outOfBounds (addr size maxSize : Nat)
  | misaligned (addr requiredAlignment : Nat)
  deriving DecidableEq, Repr

/-- Physical memory of `size` bytes. -/
structure PhysicalMemory where
  data : Nat → UInt8
  size : Nat

namespace PhysicalMemory

/-- Zeroed memory. -/
def new (size : Nat) : PhysicalMemory := ⟨fun _ => 0, size⟩

/-- The end of the access neither overflows `usize` nor lies past the end of the memory. -/
def InBounds (m : PhysicalMemory) (addr size : Nat) : Prop :=
  addr + size < 2 ^ 64 ∧ addr + size ≤ m.size

instance (m : PhysicalMemory) (addr size : Nat) : Decidable (m.InBounds addr size) :=
  inferInstanceAs (Decidable (_ ∧ _))

/-- The bytes are in memory. -/
def checkBounds (m : PhysicalMemory) (addr size : Nat) : Except MemoryError Unit :=
  if m.InBounds addr size then .ok () else .error (.outOfBounds addr size m.size)

/-- The address is a multiple of the size. -/
def checkAlignment (addr size : Nat) : Except MemoryError Unit :=
  if addr % size = 0 then .ok () else .error (.misaligned addr size)

/-- Read a byte. -/
def readU8 (m : PhysicalMemory) (addr : Nat) : Except MemoryError UInt8 :=
  match m.checkBounds addr 1 with
  | .error e => .error e
  | .ok () => .ok (m.data addr)

/-- Little-endian 32-bit read. -/
def readU32 (m : PhysicalMemory) (addr : Nat) : Except MemoryError UInt32 :=
  match checkAlignment addr 4 with
  | .error e => .error e
  | .ok () =>
    match m.checkBounds addr 4 with
    | .error e => .error e
    | .ok () =>
      .ok ((m.data addr).toUInt32 ||| ((m.data (addr + 1)).toUInt32 <<< 8) |||
        ((m.data (addr + 2)).toUInt32 <<< 16) ||| ((m.data (addr + 3)).toUInt32 <<< 24))

/-- Store one byte without a check. -/
def store (m : PhysicalMemory) (addr : Nat) (value : UInt8) : PhysicalMemory :=
  { m with data := Function.update m.data addr value }

/-- Write a byte. -/
def writeU8 (m : PhysicalMemory) (addr : Nat) (value : UInt8) : Except MemoryError PhysicalMemory :=
  match m.checkBounds addr 1 with
  | .error e => .error e
  | .ok () => .ok (m.store addr value)

/-- Little-endian 32-bit write. -/
def writeU32 (m : PhysicalMemory) (addr : Nat) (value : UInt32) :
    Except MemoryError PhysicalMemory :=
  match checkAlignment addr 4 with
  | .error e => .error e
  | .ok () =>
    match m.checkBounds addr 4 with
    | .error e => .error e
    | .ok () =>
      .ok ((((m.store addr value.toUInt8).store (addr + 1) (value >>> 8).toUInt8).store
        (addr + 2) (value >>> 16).toUInt8).store (addr + 3) (value >>> 24).toUInt8)

/-- The bytes `addr .. addr + len`. -/
def readSlice (m : PhysicalMemory) (addr len : Nat) : Except MemoryError (List UInt8) :=
  match m.checkBounds addr len with
  | .error e => .error e
  | .ok () => .ok ((List.range len).map fun i => m.data (addr + i))

/-- Write bytes one behind the other. -/
def writeSlice (m : PhysicalMemory) (addr : Nat) (buf : List UInt8) :
    Except MemoryError PhysicalMemory :=
  match m.checkBounds addr buf.length with
  | .error e => .error e
  | .ok () =>
    .ok { m with data := fun a => if addr ≤ a then buf.getD (a - addr) (m.data a) else m.data a }

@[simp] theorem store_size (m : PhysicalMemory) (addr : Nat) (value : UInt8) :
    (m.store addr value).size = m.size := rfl

theorem store_data (m : PhysicalMemory) (addr a : Nat) (value : UInt8) :
    (m.store addr value).data a = if a = addr then value else m.data a := by
  simp [store, Function.update_apply]

theorem readU8_eq_ok_iff (m : PhysicalMemory) (addr : Nat) (b : UInt8) :
    m.readU8 addr = .ok b ↔ m.InBounds addr 1 ∧ m.data addr = b := by
  unfold readU8 checkBounds
  by_cases h : m.InBounds addr 1
  · simp [h]
  · simp [h]

theorem writeU8_eq_ok_iff (m m' : PhysicalMemory) (addr : Nat) (b : UInt8) :
    m.writeU8 addr b = .ok m' ↔ m.InBounds addr 1 ∧ m' = m.store addr b := by
  unfold writeU8 checkBounds
  by_cases h : m.InBounds addr 1
  · simp [h, eq_comm]
  · simp [h]

end PhysicalMemory

end GenshinOs.Hardware
