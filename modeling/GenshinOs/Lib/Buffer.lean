import Mathlib.Data.List.Basic

/-!
# Buffers of bytes

A vector of bytes has at most `isizeMax` elements. To ask for a longer one stops the program, whatever
memory there is.
-/

set_option autoImplicit false

namespace GenshinOs.Lib

/-- The length of the longest vector of bytes, `isize::MAX`. -/
def isizeMax : Nat := 0x7FFFFFFFFFFFFFFF

/-- A vector of zeros of this length, where there is one. -/
def zeroed (size : Nat) : Option (List UInt8) := if size ≤ isizeMax then some (List.replicate size 0) else none

/-- A length that a vector can have. -/
theorem zeroed_of_le {size : Nat} (h : size ≤ isizeMax) : zeroed size = some (List.replicate size 0) := if_pos h

/-- There is no vector exactly for longer ones. -/
theorem zeroed_isNone_iff {size : Nat} : (zeroed size).isNone = true ↔ isizeMax < size := by
  rw [zeroed]
  split
  · next hle => exact iff_of_false Bool.false_ne_true (Nat.not_lt.2 hle)
  · next hlt => exact iff_of_true rfl (Nat.lt_of_not_le hlt)

/-- The vector grown with zeros to a length, when it is shorter. -/
def resized (data : List UInt8) (size : Nat) : List UInt8 :=
  if size > data.length then data ++ List.replicate (size - data.length) 0 else data

/-- Zeros are added, or none. -/
theorem resized_eq (data : List UInt8) (size : Nat) :
    resized data size = data ++ List.replicate (size - data.length) 0 := by
  rw [resized]
  split
  · rfl
  · next hle => rw [Nat.sub_eq_zero_of_le (Nat.le_of_not_lt hle), List.replicate_zero, List.append_nil]

/-- The vector has at least this length. -/
theorem length_resized (data : List UInt8) (size : Nat) :
    (resized data size).length = max data.length size := by
  rw [resized_eq, List.length_append, List.length_replicate]
  omega

/-- The grown vector, where there is one of its length. -/
def grown (data : List UInt8) (size : Nat) : Option (List UInt8) :=
  if data.length < size ∧ isizeMax < size then none else some (resized data size)

/-- A vector grows to every length that it can have. -/
theorem grown_of_le (data : List UInt8) {size : Nat} (h : size ≤ isizeMax) :
    grown data size = some (resized data size) := if_neg fun hboth => Nat.not_lt.2 h hboth.2

end GenshinOs.Lib
