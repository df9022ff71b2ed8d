import GenshinOs.Files.File
import GenshinOs.Lib.Buffer

/-!
# Reads and writes in machine words

`File::read` and `File::write` (`src/services/file/file.rs`) with the sums, slices and vectors that the
program really makes. Cursor, count and length are words of 64 bits; a sum of two words wraps around, and a
slice that is not inside its vector or a vector that is too long stops the program (`none`). Where the sum
fits, the two are `File.read` and `File.write`; `readWords_isSome_iff` and `writeWords_isSome_iff` say when
the program goes on.
-/

set_option autoImplicit false

namespace GenshinOs.Files

open GenshinOs.Lib

/-- A sum of two `usize` values. -/
def wordSum (a b : Nat) : Nat := (a + b) % 2 ^ 64

/-- `data[start..stop]`, for a slice inside the vector. -/
def slice (data : List UInt8) (start stop : Nat) : Option (List UInt8) :=
  if start ≤ stop ∧ stop ≤ data.length then some ((data.take stop).drop start) else none

theorem wordSum_of_lt {a b : Nat} (h : a + b < 2 ^ 64) : wordSum a b = a + b := Nat.mod_eq_of_lt h

namespace File

/-- Where a read ends. -/
def readEnd (f : File) (count : Nat) : Nat := min (wordSum f.position count) f.data.length

/-- Read at the cursor with sums of words; `none` where the code panics. -/
def readWords (f : File) (count : Nat) : Option (Except ServiceError (List UInt8) × File) :=
  if f.mode = .write then some (.error (.permissionDenied "read" "File opened for write only"), f)
  else if f.position ≥ f.data.length then some (.ok [], { f with eof := true })
  else
    -- after a wrap the end may lie before the cursor, and then there is no such slice
    (slice f.data f.position (f.readEnd count)).map fun data =>
      (.ok data, { f with
        position := f.position + data.length
        eof := decide (f.readEnd count = f.data.length) })

/-- Where a write ends. -/
def writeEnd (f : File) (data : List UInt8) : Nat := wordSum f.writePos data.length

/-- Write with sums of words; `none` where the code panics. -/
def writeWords (f : File) (data : List UInt8) : Option (Except ServiceError Nat × File) :=
  if f.mode = .read then some (.error (.permissionDenied "write" "File opened for read only"), f)
  else
    (grown f.data (f.writeEnd data)).bind fun grown =>
      -- the slice that is copied into; its length is that of the data whenever it exists
      (slice grown f.writePos (f.writeEnd data)).map fun _ =>
        let bytes := grown.take f.writePos ++ data ++ grown.drop (f.writeEnd data)
        (.ok data.length, { f with
          data := bytes
          position := f.writeEnd data
          dirty := true
          size := bytes.length })

/-! ## Without a wrap -/

/-- While the sum fits, a read on words is a read. -/
theorem readWords_eq {f : File} {count : Nat} (h : f.position + count < 2 ^ 64) :
    f.readWords count = some (f.read count) := by
  have hend : f.readEnd count = min (f.position + count) f.data.length := by
    rw [readEnd, wordSum_of_lt h]
  rw [readWords, read]
  split
  · rfl
  · split
    · rfl
    · next hbefore =>
      -- the cursor is inside the bytes, and so is the end of the slice
      have hin : f.position ≤ f.readEnd count ∧ f.readEnd count ≤ f.data.length := by
        rw [hend]
        omega
      rw [slice, if_pos hin, hend]
      rfl

/-- While the bytes fit into a vector, a write on words is a write. -/
theorem writeWords_eq {f : File} {data : List UInt8} (h : f.writePos + data.length ≤ isizeMax) :
    f.writeWords data = some (f.write data) := by
  have hend : f.writeEnd data = f.writePos + data.length :=
    wordSum_of_lt (Nat.lt_of_le_of_lt h (by decide))
  rw [writeWords, write]
  split
  · rfl
  · have hin : f.writePos ≤ f.writeEnd data ∧
        f.writeEnd data ≤ (resized f.data (f.writeEnd data)).length := by
      rw [length_resized, hend]
      omega
    have hslice : slice (resized f.data (f.writeEnd data)) f.writePos (f.writeEnd data) = some _ :=
      if_pos hin
    rw [grown_of_le f.data (by rw [hend]; exact h), Option.bind_some]
    simp only [hslice, Option.map_some]
    simp only [hend, resized_eq]
    rfl

/-! ## When the program goes on -/

/-- The count leaves a slice: the file is not read, nothing is left of it, or the sum is not before the
cursor. -/
def ReadGoesOn (f : File) (count : Nat) : Prop :=
  f.mode = .write ∨ f.data.length ≤ f.position ∨ f.position ≤ wordSum f.position count

instance (f : File) (count : Nat) : Decidable (f.ReadGoesOn count) := inferInstanceAs (Decidable (_ ∨ _ ∨ _))

/-- So many bytes leave a vector and a slice of it: the file is not written, or the sum is not before the
place of the write, and in the bytes of the file or at most the length of a vector. -/
def WriteGoesOn (f : File) (count : Nat) : Prop :=
  f.mode = .read ∨ f.writePos ≤ wordSum f.writePos count ∧
    (wordSum f.writePos count ≤ f.data.length ∨ wordSum f.writePos count ≤ isizeMax)

instance (f : File) (count : Nat) : Decidable (f.WriteGoesOn count) :=
  inferInstanceAs (Decidable (_ ∨ _ ∧ (_ ∨ _)))

/-- A read goes on exactly when there is such a slice, -/
theorem readWords_isSome_iff (f : File) (count : Nat) :
    (f.readWords count).isSome = true ↔ f.ReadGoesOn count := by
  rw [readWords, ReadGoesOn]
  by_cases hmode : f.mode = .write
  · rw [if_pos hmode]
    exact iff_of_true rfl (Or.inl hmode)
  · by_cases hend : f.position ≥ f.data.length
    · rw [if_neg hmode, if_pos hend]
      exact iff_of_true rfl (Or.inr (Or.inl hend))
    · have hslice : f.position ≤ f.readEnd count ∧ f.readEnd count ≤ f.data.length ↔
          f.position ≤ wordSum f.position count := by
        rw [readEnd]
        omega
      rw [if_neg hmode, if_neg hend, Option.isSome_map, slice, ← hslice]
      split
      · next hin => exact iff_of_true rfl (Or.inr (Or.inr hin))
      · next hout =>
        refine iff_of_false Bool.false_ne_true ?_
        rintro (h | h | h)
        · exact hmode h
        · exact hend h
        · exact hout h

/-- and a write when there are such a vector and such a slice. -/
theorem writeWords_isSome_iff (f : File) (data : List UInt8) :
    (f.writeWords data).isSome = true ↔ f.WriteGoesOn data.length := by
  rw [writeWords, WriteGoesOn]
  by_cases hmode : f.mode = .read
  · rw [if_pos hmode]
    exact iff_of_true rfl (Or.inl hmode)
  · rw [if_neg hmode, grown, or_iff_right hmode, ← writeEnd]
    split
    · next hlong =>
      refine iff_of_false Bool.false_ne_true ?_
      rintro ⟨-, hin | hfits⟩
      · exact Nat.not_lt.2 hin hlong.1
      · exact Nat.not_lt.2 hfits hlong.2
    · next hfits =>
      have hlast : f.writeEnd data ≤ (resized f.data (f.writeEnd data)).length := by
        rw [length_resized]
        exact Nat.le_max_right _ _
      rw [Option.bind_some, Option.isSome_map, slice]
      split
      · next hin => exact iff_of_true rfl ⟨hin.1, by omega⟩
      · next hout => exact iff_of_false Bool.false_ne_true fun h => hout ⟨h.1, hlast⟩

end File

end GenshinOs.Files
