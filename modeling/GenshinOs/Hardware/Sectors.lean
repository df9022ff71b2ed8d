import GenshinOs.Hardware.Disk
import GenshinOs.Lib.Bitmap

/-!
# Sector allocation

The other half of the virtual disk (`src/hardware/disk.rs`): a bitmap of the sectors in use, of which
sector 0 of the image keeps a copy, and the allocation of runs of sectors by first fit. The four
sectors at the front are never handed out. What the operations do is said in terms of `isFree` and of
the bytes behind sector 0; `allocateSectors_first_fit` says exactly which run is handed out.
-/

set_option autoImplicit false

namespace GenshinOs.Hardware

open GenshinOs.Lib

/-- `{:?}` of a disk error. -/
def DiskError.debug : DiskError → String
  | .invalidSector sector maxSector =>
      "InvalidSector \x7b sector: " ++ toString sector ++ ", max_sector: " ++ toString maxSector ++ " \x7d"
  | .ioFailed operation sector =>
      "IoFailed \x7b operation: " ++ operation.quote ++ ", sector: " ++ toString sector ++ " \x7d"
  | .busy => "Busy"
  | .notReady => "NotReady"
  | .outOfSpace => "OutOfSpace"

/-- A disk with its allocation bitmap. -/
structure SectorDisk extends VirtualDisk where
  bitmap : Bitmap

/-- The sectors that are kept for metadata. -/
def isMetadata (sector : Nat) : Bool := decide (sector < 4)

namespace SectorDisk

/-- Byte `k` of a word, the lowest one first. -/
def leByte (word : UInt64) (k : Nat) : UInt8 := (word >>> UInt64.ofNat (8 * k)).toUInt8

/-- The copy of the bitmap in sector 0, as far as it fits. -/
def bitmapSector (b : Bitmap) : List UInt8 :=
  (List.range sectorSize).map fun j => leByte ((b[j / 8]?).getD 0) (j % 8)

/-- The bitmap as sector 0 has it. -/
def readBitmap (file : Nat → UInt8) (words : Nat) : Bitmap :=
  (List.range words).map fun i =>
    if i < 64 then
      (List.range 8).foldl (fun word k => word ||| ((file (i * 8 + k)).toUInt64 <<< UInt64.ofNat (8 * k))) 0
    else 0

/-- The words that the bits of these sectors need. -/
def bitmapWords (totalSectors : Nat) : Nat := (totalSectors + 63) / 64

/-- A new image, with the first sectors in use. -/
def create (totalSectors : Nat) : SectorDisk where
  file := fun _ => 0
  totalSectors := totalSectors
  bitmap := Bitmap.markUsedRange (List.replicate (bitmapWords totalSectors) 0) 0 3

/-- Open the image again. -/
def reopen (d : SectorDisk) : SectorDisk :=
  { d with bitmap := readBitmap d.file (bitmapWords d.totalSectors) }

/-- Write the bitmap to sector 0. -/
def flushBitmap (d : SectorDisk) : Except DiskError SectorDisk :=
  match d.toVirtualDisk.writeSector 0 (bitmapSector d.bitmap) with
  | .error e => .error e
  | .ok disk => .ok { d with toVirtualDisk := disk }

/-- Write the bitmap to sector 0, ignoring a failure. -/
def flushLossy (d : SectorDisk) : SectorDisk :=
  match d.flushBitmap with
  | .error _ => d
  | .ok d' => d'

/-- The first free run of `count` sectors becomes used. -/
def allocateSectors (d : SectorDisk) (count : Nat) : Except DiskError Nat × SectorDisk :=
  match findRun d.bitmap.isFree count (d.totalSectors - 4) 4 4 0 with
  | some start => (.ok start, flushLossy { d with bitmap := d.bitmap.markUsedRange start count })
  | none => (.error .outOfSpace, d)

/-- A range of sectors becomes free, whoever uses it. -/
def freeSectors (d : SectorDisk) (start count : Nat) : Except DiskError Unit × SectorDisk :=
  let freed := { d with bitmap := d.bitmap.markFreeRange isMetadata start count }
  match freed.flushBitmap with
  | .error e => (.error e, freed)
  | .ok d' => (.ok (), d')

/-- The number of set bits. -/
def usedSectorsCount (d : SectorDisk) : Nat :=
  (d.bitmap.map fun word => (List.range 64).countP fun i => word.toNat.testBit i).sum

/-- Write one sector, bitmap aside. -/
def putSector (d : SectorDisk) (sector : Nat) (buf : List UInt8) : Except DiskError SectorDisk :=
  match d.toVirtualDisk.writeSector sector buf with
  | .error e => .error e
  | .ok disk => .ok { d with toVirtualDisk := disk }

/-! ## What the operations do -/

/-- The bitmap has a bit for every sector. -/
structure Sized (d : SectorDisk) : Prop where
  eight_le : 8 ≤ d.totalSectors
  length_eq : d.bitmap.length = bitmapWords d.totalSectors

theorem Sized.word_lt {d : SectorDisk} (h : d.Sized) {n : Nat} (hn : n < d.totalSectors) :
    n / 64 < d.bitmap.length := by
  rw [h.length_eq, bitmapWords]
  omega

theorem sized_create {totalSectors : Nat} (h : 8 ≤ totalSectors) : (create totalSectors).Sized := by
  refine ⟨h, ?_⟩
  rw [create, Bitmap.length_markUsedRange, List.length_replicate]

/-- Same sectors and bits, and the same bytes behind sector 0. -/
structure SameBeyond (d d' : SectorDisk) : Prop where
  total_eq : d'.totalSectors = d.totalSectors
  length_eq : d'.bitmap.length = d.bitmap.length
  file_eq : ∀ a, sectorSize ≤ a → d'.file a = d.file a

theorem SameBeyond.trans {d d' d'' : SectorDisk} (h : SameBeyond d d') (h' : SameBeyond d' d'') :
    SameBeyond d d'' :=
  ⟨h'.total_eq.trans h.total_eq, h'.length_eq.trans h.length_eq,
    fun a ha => (h'.file_eq a ha).trans (h.file_eq a ha)⟩

theorem SameBeyond.sized {d d' : SectorDisk} (h : SameBeyond d d') (hd : d.Sized) : d'.Sized :=
  ⟨by rw [h.total_eq]; exact hd.eight_le, by rw [h.length_eq, h.total_eq]; exact hd.length_eq⟩

theorem flushBitmap_ok {d d' : SectorDisk} (h : d.flushBitmap = .ok d') :
    SameBeyond d d' ∧ d'.bitmap = d.bitmap := by
  simp only [flushBitmap] at h
  split at h
  · cases h
  · next disk hwrite =>
    cases h
    obtain ⟨-, htotal, -, hfile⟩ := VirtualDisk.writeSector_ok hwrite
    refine ⟨⟨htotal, rfl, ?_⟩, rfl⟩
    intro a ha
    exact hfile a (Or.inr (by simpa using ha))

theorem flushLossy_spec (d : SectorDisk) :
    SameBeyond d d.flushLossy ∧ d.flushLossy.bitmap = d.bitmap := by
  simp only [flushLossy]
  split
  · exact ⟨⟨rfl, rfl, fun _ _ => rfl⟩, rfl⟩
  · next hflush => exact flushBitmap_ok hflush

theorem freeSectors_spec (d : SectorDisk) (start count : Nat) :
    SameBeyond d (d.freeSectors start count).2 ∧
      ∀ n, (d.freeSectors start count).2.bitmap.isFree n =
        if start ≤ n ∧ n < start + count ∧ isMetadata n = false then true else d.bitmap.isFree n := by
  have hmarked : SameBeyond d { d with bitmap := d.bitmap.markFreeRange isMetadata start count } :=
    ⟨rfl, Bitmap.length_markFreeRange d.bitmap isMetadata start count, fun _ _ => rfl⟩
  have hfree := Bitmap.isFree_markFreeRange d.bitmap isMetadata start count
  simp only [freeSectors]
  split
  · exact ⟨hmarked, hfree⟩
  · next hflush =>
    obtain ⟨hsame, hbitmap⟩ := flushBitmap_ok hflush
    refine ⟨hmarked.trans hsame, ?_⟩
    rw [hbitmap]
    exact hfree

/-- A run of free sectors behind the metadata. -/
def HasRun (d : SectorDisk) (count : Nat) : Prop :=
  ∃ start, 4 ≤ start ∧ start + count ≤ d.totalSectors ∧ FreeRun d.bitmap.isFree start count

/-- The sectors handed out were free, and exactly they become used. -/
theorem allocateSectors_ok {d d' : SectorDisk} (hd : d.Sized) {count start : Nat}
    (h : d.allocateSectors count = (.ok start, d')) :
    4 ≤ start ∧ start + count ≤ d.totalSectors ∧ FreeRun d.bitmap.isFree start count ∧
      SameBeyond d d' ∧ ∀ n, d'.bitmap.isFree n =
        if start ≤ n ∧ n < start + count then false else d.bitmap.isFree n := by
  simp only [allocateSectors] at h
  split at h
  · next r hfound =>
    cases h
    have hempty : FreeRun d.bitmap.isFree 4 0 := by
      intro k hle hlt
      omega
    obtain ⟨hrun, hfit, hlow⟩ := findRun_spec hempty (by omega) hfound
    rw [if_pos rfl] at hlow
    have height := hd.eight_le
    have hend : start + count ≤ d.totalSectors := by omega
    obtain ⟨hsame, hbitmap⟩ :=
      flushLossy_spec { d with bitmap := d.bitmap.markUsedRange start count }
    have hmarked : SameBeyond d { d with bitmap := d.bitmap.markUsedRange start count } :=
      ⟨rfl, Bitmap.length_markUsedRange d.bitmap start count, fun _ _ => rfl⟩
    refine ⟨hlow, hend, hrun, hmarked.trans hsame, ?_⟩
    intro n
    rw [hbitmap]
    exact Bitmap.isFree_markUsedRange d.bitmap n fun k _ hk => hd.word_lt (by omega)
  · cases h

theorem allocateSectors_error {d d' : SectorDisk} {count : Nat} (hcount : 0 < count) {e : DiskError}
    (h : d.allocateSectors count = (.error e, d')) : d' = d ∧ e = .outOfSpace ∧ ¬d.HasRun count := by
  simp only [allocateSectors] at h
  split at h
  · cases h
  · next hnone =>
    cases h
    refine ⟨rfl, rfl, ?_⟩
    rintro ⟨start, hlow, hfit, hrun⟩
    exact findRun_eq_none hcount hcount (by omega) hnone (by rw [if_pos rfl]; exact hlow) (by omega) hrun

/-- First fit finds a run whenever there is one. -/
theorem allocateSectors_of_hasRun {d : SectorDisk} {count : Nat} (hcount : 0 < count)
    (h : d.HasRun count) : ∃ start d', d.allocateSectors count = (.ok start, d') := by
  cases hresult : d.allocateSectors count with
  | mk result d' =>
    cases result with
    | ok start => exact ⟨start, d', rfl⟩
    | error e => exact absurd h (allocateSectors_error hcount hresult).2.2

/-- The first sectors of the free runs of `count` sectors. -/
def runStarts (d : SectorDisk) (count : Nat) : Set Nat :=
  {s | 4 ≤ s ∧ s < d.totalSectors ∧
    ∀ n, s ≤ n → n < s + count → n < d.totalSectors ∧ d.bitmap.isFree n = true}

theorem mem_runStarts {d : SectorDisk} {count s : Nat} (hcount : 0 < count) :
    s ∈ d.runStarts count ↔
      4 ≤ s ∧ s + count ≤ d.totalSectors ∧ FreeRun d.bitmap.isFree s count := by
  constructor
  · rintro ⟨hlow, -, hrun⟩
    have hlast := (hrun (s + count - 1) (by omega) (by omega)).1
    exact ⟨hlow, by omega, fun n hle hlt => (hrun n hle hlt).2⟩
  · rintro ⟨hlow, hfit, hrun⟩
    exact ⟨hlow, by omega, fun n hle hlt => ⟨by omega, hrun n hle hlt⟩⟩

/-- The run handed out is the first one that is long enough, and exactly its sectors become used; an
error means that there is none, and changes nothing. -/
theorem allocateSectors_first_fit {d : SectorDisk} (hd : d.Sized) {count : Nat} (hcount : 1 ≤ count) :
    (∀ s d', d.allocateSectors count = (.ok s, d') → IsLeast (d.runStarts count) s ∧
      ∀ n, d'.bitmap.isFree n = false ↔ (s ≤ n ∧ n < s + count) ∨ d.bitmap.isFree n = false) ∧
    ((∃ e, (d.allocateSectors count).1 = .error e) ↔ d.runStarts count = ∅) ∧
    ∀ e d', d.allocateSectors count = (.error e, d') → d'.bitmap = d.bitmap := by
  refine ⟨?_, ?_, ?_⟩
  · intro s d' h
    obtain ⟨hlow, hfit, hrun, -, hfree⟩ := allocateSectors_ok hd h
    refine ⟨⟨(mem_runStarts hcount).2 ⟨hlow, hfit, hrun⟩, ?_⟩, ?_⟩
    · intro r hr
      obtain ⟨hlow', -, hrun'⟩ := (mem_runStarts hcount).1 hr
      -- the start comes from the search, which takes the first run
      have hfound : findRun d.bitmap.isFree count (d.totalSectors - 4) 4 4 0 = some s := by
        simp only [allocateSectors] at h
        split at h
        · next hfound =>
          cases h
          exact hfound
        · cases h
      exact findRun_least hcount (by omega) hfound (by rw [if_pos rfl]; exact hlow') hrun'
    · intro n
      rw [hfree]
      split
      · next hin => exact ⟨fun _ => Or.inl hin, fun _ => rfl⟩
      · next hout => exact ⟨Or.inr, fun h => h.resolve_left hout⟩
  · constructor
    · rintro ⟨e, he⟩
      -- an error means that the search found no run
      obtain ⟨-, -, hnone⟩ := allocateSectors_error hcount (Prod.ext he rfl)
      apply Set.eq_empty_of_forall_notMem
      intro s hs
      exact hnone ⟨s, (mem_runStarts hcount).1 hs⟩
    · intro hempty
      cases hresult : (d.allocateSectors count).1 with
      | error e => exact ⟨e, rfl⟩
      | ok s =>
        obtain ⟨hlow, hfit, hrun, -⟩ := allocateSectors_ok hd (Prod.ext hresult rfl)
        have hmem := (mem_runStarts hcount).2 ⟨hlow, hfit, hrun⟩
        rw [hempty] at hmem
        exact absurd hmem (Set.notMem_empty s)
  · intro e d' h
    rw [(allocateSectors_error hcount h).1]

/-- On a new image of eight sectors a run of two begins at sector 4, and there is none of five. -/
theorem allocateSectors_first_fit_new : IsLeast ((create 8).runStarts 2) 4 ∧ (create 8).runStarts 5 = ∅ := by
  have hsized := @sized_create 8 (by decide)
  constructor
  · have hok : ((create 8).allocateSectors 2).1 = .ok 4 := by decide +kernel
    exact ((allocateSectors_first_fit hsized (by decide)).1 4 _ (Prod.ext hok rfl)).1
  · have herror : ((create 8).allocateSectors 5).1 = .error .outOfSpace := by decide +kernel
    exact (allocateSectors_first_fit hsized (by decide)).2.1.1 ⟨_, herror⟩

end SectorDisk

end GenshinOs.Hardware
