import Mathlib.Tactic

/-!
# Virtual disk

The file-backed block device (`src/hardware/disk.rs`), as far as the swap space uses it: single
sectors are read and written at their offset in the image file. The file itself neither fails nor
forgets, so the only errors left are those of the checks before the access.
-/

set_option autoImplicit false

namespace GenshinOs.Hardware

/-- Bytes of a sector. -/
def sectorSize : Nat := 512

/-- The sector that a byte is in, counted from the start of another one. -/
theorem sector_of_byte (start k : Nat) : (start * sectorSize + k) / sectorSize = start + k / sectorSize := by
  rw [Nat.add_comm, Nat.add_mul_div_right k start (show 0 < sectorSize by decide), Nat.add_comm]

/-- Errors of a disk access. -/
inductive DiskError where
  | invalidSector (sector maxSector : Nat)
  | ioFailed (operation : String) (sector : Nat)
  | busy
  | notReady
  | outOfSpace
  deriving DecidableEq, Repr

/-- The text of an error. -/
def DiskError.display : DiskError → String
  | .invalidSector sector maxSector =>
      "Invalid sector " ++ toString sector ++ " (max " ++ toString maxSector ++ ")"
  | .ioFailed operation sector => operation ++ " failed on sector " ++ toString sector
  | .busy => "Disk is busy"
  | .notReady => "Disk is not ready"
  | .outOfSpace => "Disk out of space"

/-- The image file and the number of sectors the disk was opened with. -/
structure VirtualDisk where
  file : Nat → UInt8
  totalSectors : Nat

namespace VirtualDisk

/-- The sector is on the disk. -/
def checkSector (d : VirtualDisk) (sector : Nat) : Except DiskError Unit :=
  if sector ≥ d.totalSectors then .error (.invalidSector sector (d.totalSectors - 1)) else .ok ()

/-- The bytes of a sector. -/
def readSector (d : VirtualDisk) (sector : Nat) : Except DiskError (List UInt8) :=
  match d.checkSector sector with
  | .error e => .error e
  | .ok () => .ok ((List.range sectorSize).map fun j => d.file (sector * sectorSize + j))

/-- Bytes for a sector. -/
def writeSector (d : VirtualDisk) (sector : Nat) (buf : List UInt8) :
    Except DiskError VirtualDisk :=
  match d.checkSector sector with
  | .error e => .error e
  | .ok () =>
    if buf.length ≠ sectorSize then .error (.ioFailed "write_sector" sector)
    else
      .ok { d with
        file := fun a =>
          if sector * sectorSize ≤ a then buf.getD (a - sector * sectorSize) (d.file a)
          else d.file a }

theorem readSector_of_lt {d : VirtualDisk} {sector : Nat} (h : sector < d.totalSectors) :
    d.readSector sector =
      .ok ((List.range sectorSize).map fun j => d.file (sector * sectorSize + j)) := by
  simp [readSector, checkSector, Nat.not_le.2 h]

theorem readSector_of_ge {d : VirtualDisk} {sector : Nat} (h : d.totalSectors ≤ sector) :
    d.readSector sector = .error (.invalidSector sector (d.totalSectors - 1)) := by
  simp [readSector, checkSector, h]

/-- A write that succeeds changes exactly the bytes of its sector. -/
theorem writeSector_ok {d d' : VirtualDisk} {sector : Nat} {buf : List UInt8}
    (h : d.writeSector sector buf = .ok d') :
    sector < d.totalSectors ∧ d'.totalSectors = d.totalSectors ∧
      (∀ j, j < sectorSize → d'.file (sector * sectorSize + j) = buf.getD j 0) ∧
      ∀ a, (a < sector * sectorSize ∨ (sector + 1) * sectorSize ≤ a) → d'.file a = d.file a := by
  rcases Nat.lt_or_ge sector d.totalSectors with hs | hs
  · rcases eq_or_ne buf.length sectorSize with hlen | hlen
    · simp only [writeSector, checkSector, ge_iff_le, Nat.not_le.2 hs, if_false, hlen, ne_eq,
        not_true_eq_false, Except.ok.injEq] at h
      subst h
      refine ⟨hs, rfl, fun j hj => ?_, fun a ha => ?_⟩
      · have hj' : j < buf.length := by omega
        simp [List.getD_eq_getElem?_getD, List.getElem?_eq_getElem hj']
      · -- outside the sector the position lies before it, or past the end of the buffer
        show (if sector * sectorSize ≤ a then buf.getD (a - sector * sectorSize) (d.file a)
          else d.file a) = d.file a
        split
        · have hlong : buf.length ≤ a - sector * sectorSize := by
            rw [Nat.add_mul, Nat.one_mul] at ha
            omega
          simp [List.getD_eq_getElem?_getD, List.getElem?_eq_none hlong]
        · rfl
    · simp [writeSector, checkSector, Nat.not_le.2 hs, hlen] at h
  · simp [writeSector, checkSector, hs] at h

/-! ## Runs of sectors -/

/-- Write sectors one after the other, from sector `i` of a run on. An error stops the loop, and what is
written stays. -/
def writeRun (sector : Nat → List UInt8) (start : Nat) : Nat → Nat → VirtualDisk →
    Except DiskError Unit × VirtualDisk
  | 0, _, d => (.ok (), d)
  | n + 1, i, d =>
    match d.writeSector (start + i) (sector i) with
    | .error e => (.error e, d)
    | .ok d' => writeRun sector start n (i + 1) d'

/-- Read `n` sectors one after the other, from sector `i` of a run on. -/
def readRun (d : VirtualDisk) (start : Nat) : Nat → Nat → Except DiskError (List UInt8)
  | 0, _ => .ok []
  | n + 1, i =>
    match d.readSector (start + i) with
    | .error e => .error e
    | .ok bytes =>
      match readRun d start n (i + 1) with
      | .error e => .error e
      | .ok rest => .ok (bytes ++ rest)

/-- The bytes of a run of sectors. -/
def bytesOf (d : VirtualDisk) (start n : Nat) : List UInt8 :=
  (List.range (n * sectorSize)).map fun j => d.file (start * sectorSize + j)

/-- What a run that does not fit answers: its first sector that is not on the disk. -/
def beyond (d : VirtualDisk) (start : Nat) : DiskError :=
  .invalidSector (max d.totalSectors start) (d.totalSectors - 1)

theorem writeSector_of_lt {d : VirtualDisk} {sector : Nat} {buf : List UInt8} (h : sector < d.totalSectors)
    (hlen : buf.length = sectorSize) : d.writeSector sector buf = .ok { d with
      file := fun a => if a / sectorSize = sector then buf.getD (a % sectorSize) 0 else d.file a } := by
  simp only [writeSector, checkSector, ge_iff_le, Nat.not_le.2 h, if_false, hlen, ne_eq, not_true_eq_false]
  congr 2
  funext a
  have hsplit := Nat.div_add_mod a sectorSize
  have hoff := Nat.mod_lt a (show 0 < sectorSize by decide)
  rw [sectorSize] at hsplit hoff hlen ⊢
  by_cases hsector : a / 512 = sector
  · rw [if_pos hsector, if_pos (by omega), show a - sector * 512 = a % 512 by omega,
      List.getD_eq_getElem?_getD, List.getD_eq_getElem?_getD, List.getElem?_eq_getElem (by omega)]
    rfl
  · rw [if_neg hsector]
    split
    · -- behind the sector
      rw [List.getD_eq_getElem?_getD, List.getElem?_eq_none (by omega)]
      rfl
    · rfl

theorem writeSector_of_ge {d : VirtualDisk} {sector : Nat} (h : d.totalSectors ≤ sector)
    (buf : List UInt8) : d.writeSector sector buf = .error (.invalidSector sector (d.totalSectors - 1)) := by
  simp [writeSector, checkSector, h]

/-- A change of no byte. -/
theorem change_none {d : VirtualDisk} {p : Nat → Prop} [DecidablePred p] (f : Nat → UInt8)
    (h : ∀ a, ¬p a) : ({ d with file := fun a => if p a then f a else d.file a } : VirtualDisk) = d := by
  have hfile : (fun a => if p a then f a else d.file a) = d.file := funext fun a => if_neg (h a)
  rw [hfile]

/-- A run is written as far as it is on the disk, and nothing else. -/
theorem writeRun_eq {sector : Nat → List UInt8} (start n i : Nat) (d : VirtualDisk)
    (hlen : ∀ j, i ≤ j → j < i + n → (sector j).length = sectorSize) :
    writeRun sector start n i d =
      (if n = 0 ∨ start + i + n ≤ d.totalSectors then .ok () else .error (d.beyond (start + i)),
        { d with file := fun a =>
          if start + i ≤ a / sectorSize ∧ a / sectorSize < start + i + n ∧ a / sectorSize < d.totalSectors
          then (sector (a / sectorSize - start)).getD (a % sectorSize) 0 else d.file a }) := by
  induction n generalizing i d with
  | zero =>
    rw [writeRun, if_pos (Or.inl rfl), change_none _ fun a => by omega]
  | succ n ih =>
    rw [writeRun]
    rcases Nat.lt_or_ge (start + i) d.totalSectors with hlt | hge
    · rw [writeSector_of_lt hlt (hlen i (Nat.le_refl i) (by omega))]
      simp only
      rw [ih (i + 1) _ fun j hij hj => hlen j (by omega) (by omega)]
      congr 1
      · by_cases hfit : start + i + (n + 1) ≤ d.totalSectors
        · rw [if_pos (Or.inr (show start + (i + 1) + n ≤ d.totalSectors by omega)), if_pos (Or.inr hfit)]
        · have hbeyond : max d.totalSectors (start + (i + 1)) = max d.totalSectors (start + i) := by omega
          rw [if_neg (show ¬(n = 0 ∨ start + (i + 1) + n ≤ d.totalSectors) by omega), if_neg (by omega),
            beyond, beyond, hbeyond]
      · congr 1
        funext a
        -- the first sector, one of the others, or none of them
        simp only
        by_cases hfirst : a / sectorSize = start + i
        · rw [if_neg (by omega), if_pos hfirst, if_pos (by omega), hfirst, Nat.add_sub_cancel_left]
        · rw [if_neg hfirst]
          exact if_congr (by omega) rfl rfl
    · rw [writeSector_of_ge hge]
      simp only
      rw [if_neg (by omega), beyond, Nat.max_eq_right hge, change_none _ fun a => by omega]

section written

variable {sector : Nat → List UInt8} {start n i : Nat} {d : VirtualDisk}

theorem writeRun_totalSectors (hlen : ∀ j, i ≤ j → j < i + n → (sector j).length = sectorSize) :
    (writeRun sector start n i d).2.totalSectors = d.totalSectors := by
  rw [writeRun_eq start n i d hlen]

theorem writeRun_inside (hlen : ∀ j, i ≤ j → j < i + n → (sector j).length = sectorSize) {k j : Nat}
    (hik : i ≤ k) (hkn : k < i + n) (hj : j < sectorSize) (hdisk : start + k < d.totalSectors) :
    (writeRun sector start n i d).2.file ((start + k) * sectorSize + j) = (sector k).getD j 0 := by
  -- the position is in sector `k` of the run
  have hdiv : ((start + k) * sectorSize + j) / sectorSize = start + k := by
    rw [sector_of_byte, Nat.div_eq_of_lt hj, Nat.add_zero]
  have hmod : ((start + k) * sectorSize + j) % sectorSize = j := by
    rw [sectorSize] at hj ⊢
    omega
  rw [writeRun_eq start n i d hlen]
  simp only [hdiv, hmod, Nat.add_sub_cancel_left]
  exact if_pos (by omega)

theorem writeRun_outside (hlen : ∀ j, i ≤ j → j < i + n → (sector j).length = sectorSize) {a : Nat}
    (ha : a < (start + i) * sectorSize ∨ (start + i + n) * sectorSize ≤ a) :
    (writeRun sector start n i d).2.file a = d.file a := by
  rw [writeRun_eq start n i d hlen]
  apply if_neg
  rw [sectorSize] at ha ⊢
  omega

end written

theorem bytesOf_succ (d : VirtualDisk) (start n : Nat) : d.bytesOf start (n + 1) =
    (List.range sectorSize).map (fun j => d.file (start * sectorSize + j)) ++ d.bytesOf (start + 1) n := by
  have hlater : (List.range (n * sectorSize)).map
      ((fun j => d.file (start * sectorSize + j)) ∘ (sectorSize + ·)) = d.bytesOf (start + 1) n := by
    apply List.map_congr_left
    intro j _
    rw [Function.comp_apply, show start * sectorSize + (sectorSize + j) = (start + 1) * sectorSize + j by ring]
  rw [bytesOf, show (n + 1) * sectorSize = sectorSize + n * sectorSize by ring, List.range_add,
    List.map_append, List.map_map, hlater]

/-- A run is read if it is on the disk. -/
theorem readRun_eq (d : VirtualDisk) (start n i : Nat) : d.readRun start n i =
    if n = 0 ∨ start + i + n ≤ d.totalSectors then .ok (d.bytesOf (start + i) n)
    else .error (d.beyond (start + i)) := by
  induction n generalizing i with
  | zero => rfl
  | succ n ih =>
    rw [readRun]
    rcases Nat.lt_or_ge (start + i) d.totalSectors with hlt | hge
    · rw [readSector_of_lt hlt]
      simp only
      rw [ih]
      by_cases hfit : start + i + (n + 1) ≤ d.totalSectors
      · rw [if_pos (show n = 0 ∨ start + (i + 1) + n ≤ d.totalSectors by omega), if_pos (Or.inr hfit),
          bytesOf_succ]
        rfl
      · have hbeyond : max d.totalSectors (start + (i + 1)) = max d.totalSectors (start + i) := by omega
        rw [if_neg (show ¬(n = 0 ∨ start + (i + 1) + n ≤ d.totalSectors) by omega), if_neg (by omega),
          beyond, beyond, hbeyond]
    · rw [readSector_of_ge hge, if_neg (by omega), beyond, Nat.max_eq_right hge]

theorem length_bytesOf (d : VirtualDisk) (start n : Nat) : (d.bytesOf start n).length = n * sectorSize := by
  rw [bytesOf, List.length_map, List.length_range]

theorem bytesOf_getD (d : VirtualDisk) (start : Nat) {n j : Nat} (hj : j < n * sectorSize) :
    (d.bytesOf start n).getD j 0 = d.file (start * sectorSize + j) := by
  simp [bytesOf, List.getD_eq_getElem?_getD, hj]

end VirtualDisk

end GenshinOs.Hardware
