import Mathlib.Data.List.Basic
import Mathlib.Tactic

/-!
# Cells with a position

A list of cells and a position that may lie behind the last one: what a file that is read and written
piece by piece is for. Reading takes the cells from the position on; writing extends the cells with blanks
to the end of the piece and replaces those of the piece; resizing cuts the cells off or lets blanks follow.
`replaced_eq` and `taken_eq` are the two ways in which programs spell this with slices.
-/

set_option autoImplicit false

namespace GenshinOs.Lib

/-- The cells, and the position of the next read or write. -/
structure Tape (α : Type*) where
  cells : List α
  pos : Nat

namespace Tape

variable {α : Type*} (blank : α)

/-- The cells with blanks behind them, up to a length. -/
def extended (cells : List α) (n : Nat) : List α := cells ++ List.replicate (n - cells.length) blank

/-- The cells with a piece in the place of those from `start` on. -/
def replaced (cells : List α) (start : Nat) (piece : List α) : List α :=
  cells.mapIdx fun i c => if start ≤ i then piece.getD (i - start) c else c

/-- Up to `n` cells from the position on. -/
def taken (t : Tape α) (n : Nat) : List α := (t.cells.drop t.pos).take n

/-- Read up to a number of cells. -/
def read (t : Tape α) (n : Nat) : List α × Tape α :=
  (t.taken n, { t with pos := t.pos + (t.taken n).length })

/-- Write a piece; cells in front of it that are not there are blank. -/
def writeAt (t : Tape α) (start : Nat) (piece : List α) : Tape α where
  cells := replaced (extended blank t.cells (start + piece.length)) start piece
  pos := start + piece.length

/-- Move the head anywhere. -/
def seek (t : Tape α) (pos : Nat) : Nat × Tape α := (t.pos, { t with pos := pos })

/-- Cut the tape, or make it longer by blank cells. -/
def resize (t : Tape α) (n : Nat) : Tape α := { t with cells := (extended blank t.cells n).take n }

/-! ## Lengths -/

theorem length_extended (cells : List α) (n : Nat) :
    (extended blank cells n).length = max cells.length n := by
  rw [extended, List.length_append, List.length_replicate]
  omega

theorem length_resize (t : Tape α) (n : Nat) : (t.resize blank n).cells.length = n := by
  rw [resize, List.length_take, length_extended]
  omega

/-! ## Slices -/

/-- A piece inside the cells stands between what was before and what was behind it. -/
theorem replaced_eq (cells : List α) (start : Nat) (piece : List α) (h : start + piece.length ≤ cells.length) :
    replaced cells start piece = cells.take start ++ piece ++ cells.drop (start + piece.length) := by
  apply List.ext_getElem?
  intro i
  rw [replaced, List.getElem?_mapIdx]
  rcases Nat.lt_or_ge i start with hbefore | hfrom
  · -- before the piece
    have hlen : i < (cells.take start).length := by
      rw [List.length_take]
      omega
    rw [List.append_assoc, List.getElem?_append_left hlen, List.getElem?_take_of_lt hbefore]
    cases cells[i]? with
    | none => rfl
    | some c => simp [Nat.not_le.2 hbefore]
  · have hstart : (cells.take start).length = start := by
      rw [List.length_take]
      omega
    rw [List.append_assoc, List.getElem?_append_right (by omega), hstart]
    rcases Nat.lt_or_ge (i - start) piece.length with hin | hbehind
    · -- in the piece
      have hlt : i < cells.length := by omega
      have hcell : cells[i]? = some cells[i] := List.getElem?_eq_getElem hlt
      rw [List.getElem?_append_left hin, hcell, List.getElem?_eq_getElem hin]
      simp [hfrom, List.getD_eq_getElem?_getD, List.getElem?_eq_getElem hin]
    · -- behind the piece
      rw [List.getElem?_append_right hbehind, List.getElem?_drop,
        show start + piece.length + (i - start - piece.length) = i by omega]
      cases cells[i]? with
      | none => rfl
      | some c => simp [hfrom, List.getD_eq_getElem?_getD, List.getElem?_eq_none hbehind]

/-- What is read is a slice that ends at the last cell at the latest. -/
theorem taken_eq (t : Tape α) (n : Nat) :
    t.taken n = (t.cells.take (min (t.pos + n) t.cells.length)).drop t.pos := by
  rw [taken, List.drop_take, List.take_eq_take_iff, List.length_drop]
  omega

theorem taken_of_le (t : Tape α) {n : Nat} (h : t.cells.length ≤ t.pos) : t.taken n = [] := by
  rw [taken, List.drop_eq_nil_of_le h, List.take_nil]

end Tape

end GenshinOs.Lib
