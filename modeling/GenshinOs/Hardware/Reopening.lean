import GenshinOs.Hardware.Sectors

/-!
# Closing and opening a disk

The bitmap of a disk has a bit for every sector, its copy in sector 0 has room for 4096 of them. What
does not fit is left out when the bitmap is written, and counts as free when the image is opened again.
The bits that fit come back as they were (`isFree_reopen_flushed`); so a disk survives being closed
exactly as long as no sector behind number 4095 is in use (`survives_iff`). Single sectors are handed out
and given back here as well. The end of a range of sectors is a 32-bit number.
-/

set_option autoImplicit false

namespace GenshinOs.Hardware

open GenshinOs.Lib

namespace SectorDisk

/-- The first free sector becomes used. -/
def allocSector (d : SectorDisk) : Option Nat × SectorDisk :=
  match (List.range' 4 (d.totalSectors - 4)).find? d.bitmap.isFree with
  | some s => (some s, flushLossy { d with bitmap := d.bitmap.markUsed s })
  | none => (none, d)

/-- One sector becomes free, the metadata apart. -/
def freeSector (d : SectorDisk) (sector : Nat) : Except DiskError Unit × SectorDisk :=
  if isMetadata sector then (.ok (), d)
  else
    let freed := { d with bitmap := d.bitmap.markFree sector }
    match freed.flushBitmap with
    | .error e => (.error e, freed)
    | .ok d' => (.ok (), d')

/-- What changes the bitmap of a disk. -/
inductive SectorOp where
  | allocSector
  | freeSector (sector : UInt32)
  | allocateSectors (count : UInt32)
  | freeSectors (start count : UInt32)

/-- The disk after an operation. A range whose end wraps around is empty. -/
def perform (d : SectorDisk) : SectorOp → SectorDisk
  | .allocSector => d.allocSector.2
  | .freeSector sector => (d.freeSector sector.toNat).2
  | .allocateSectors count => (d.allocateSectors count.toNat).2
  | .freeSectors start count => (d.freeSectors start.toNat ((start + count).toNat - start.toNat)).2

/-- A new image after some operations. -/
def closed (totalSectors : Nat) (ops : List SectorOp) : SectorDisk :=
  ops.foldl perform (create totalSectors)

/-! ## Bytes and bits -/

theorem toBitVec_shiftLeft_byte (x : UInt64) {k : Nat} (hk : k < 8) :
    (x <<< UInt64.ofNat (8 * k)).toBitVec = x.toBitVec <<< (8 * k) := by
  rw [UInt64.toBitVec_shiftLeft]
  interval_cases k <;> rfl

theorem toBitVec_shiftRight_byte (x : UInt64) {k : Nat} (hk : k < 8) :
    (x >>> UInt64.ofNat (8 * k)).toBitVec = x.toBitVec >>> (8 * k) := by
  rw [UInt64.toBitVec_shiftRight]
  interval_cases k <;> rfl

/-- Bit `j` of byte `k` of a word. -/
theorem getLsbD_leByte (word : UInt64) {k j : Nat} (hk : k < 8) (hj : j < 8) :
    (leByte word k).toBitVec.getLsbD j = word.toBitVec.getLsbD (8 * k + j) := by
  rw [leByte, UInt64.toBitVec_toUInt8, toBitVec_shiftRight_byte word hk]
  simp [hj]

/-- The bits of a word that is put together from its first `m` bytes. -/
theorem getLsbD_fold_bytes (byte : Nat → UInt8) {m : Nat} (hm : m ≤ 8) (k : Nat) :
    ((List.range m).foldl (fun word i => word ||| ((byte i).toUInt64 <<< UInt64.ofNat (8 * i)))
      0).toBitVec.getLsbD k = (decide (k < 8 * m) && (byte (k / 8)).toBitVec.getLsbD (k % 8)) := by
  induction m with
  | zero => simp
  | succ m ih =>
    rw [List.range_succ, List.foldl_append, List.foldl_cons, List.foldl_nil, UInt64.toBitVec_or,
      BitVec.getLsbD_or, ih (by omega), toBitVec_shiftLeft_byte _ (by omega), BitVec.getLsbD_shiftLeft,
      UInt8.toBitVec_toUInt64, BitVec.getLsbD_setWidth]
    rcases Nat.lt_or_ge k (8 * m) with hlow | hlow
    · have hbefore : k < 8 * (m + 1) := by omega
      simp [hlow, hbefore]
    · rcases Nat.lt_or_ge k (8 * (m + 1)) with hthis | hbeyond
      · -- a bit of the byte that is added last
        have hbyte : k / 8 = m := by omega
        have hbit : k - 8 * m = k % 8 := by omega
        have hword : k < 64 := by omega
        have hlong : k % 8 < 64 := by omega
        simp [Nat.not_lt.2 hlow, hthis, hbyte, hbit, hword, hlong]
      · have hzero : (byte m).toBitVec.getLsbD (k - 8 * m) = false := BitVec.getLsbD_of_ge _ _ (by omega)
        simp [Nat.not_lt.2 hlow, Nat.not_lt.2 hbeyond, hzero]

theorem getElem?_readBitmap (file : Nat → UInt8) {words i : Nat} (hi : i < words) :
    (readBitmap file words)[i]? = some (if i < 64 then
      (List.range 8).foldl (fun word k => word ||| ((file (i * 8 + k)).toUInt64 <<< UInt64.ofNat (8 * k))) 0
    else 0) := by
  rw [readBitmap, List.getElem?_map, List.getElem?_range hi]
  rfl

/-- A sector whose bit fits is free when its bit in sector 0 is clear. -/
theorem isFree_readBitmap (file : Nat → UInt8) {words s : Nat} (hs : s / 64 < words) (hfit : s < 4096) :
    Bitmap.isFree (readBitmap file words) s = !(file (s / 8)).toBitVec.getLsbD (s % 8) := by
  have hbit : s % 64 < 8 * 8 := by omega
  have hbyte : s / 64 * 8 + s % 64 / 8 = s / 8 := by omega
  rw [Bitmap.isFree_eq, getElem?_readBitmap file hs, if_pos (by omega)]
  simp only [Option.map_some, Option.getD_some,
    getLsbD_fold_bytes (fun k => file (s / 64 * 8 + k)) (Nat.le_refl 8), hbit, decide_true, Bool.true_and,
    hbyte, show s % 64 % 8 = s % 8 by omega]

/-- A sector whose bit does not fit is free once the image is opened. -/
theorem isFree_readBitmap_beyond (file : Nat → UInt8) (words : Nat) {s : Nat} (hs : 4096 ≤ s) :
    Bitmap.isFree (readBitmap file words) s = true := by
  rw [Bitmap.isFree_eq]
  rcases Nat.lt_or_ge (s / 64) words with hlt | hge
  · rw [getElem?_readBitmap file hlt, if_neg (by omega)]
    simp
  · rw [List.getElem?_eq_none (by rw [readBitmap, List.length_map, List.length_range]; exact hge)]
    rfl

/-- Writing the bitmap always succeeds, and sector 0 has its bytes then. -/
theorem flushBitmap_eq {d : SectorDisk} (hd : d.Sized) : ∃ d', d.flushBitmap = .ok d' ∧
    d'.bitmap = d.bitmap ∧ d'.totalSectors = d.totalSectors ∧
    ∀ j, j < sectorSize → d'.file j = leByte ((d.bitmap[j / 8]?).getD 0) (j % 8) := by
  have hlength : (bitmapSector d.bitmap).length = sectorSize := by
    rw [bitmapSector, List.length_map, List.length_range]
  have hlow : 0 < d.totalSectors := Nat.lt_of_lt_of_le (by decide) hd.eight_le
  have hwritten : ∃ disk, d.toVirtualDisk.writeSector 0 (bitmapSector d.bitmap) = .ok disk := by
    simp [VirtualDisk.writeSector, VirtualDisk.checkSector, hlength, Nat.not_le.2 hlow]
  obtain ⟨disk, hwrite⟩ := hwritten
  obtain ⟨-, htotal, hbytes, -⟩ := VirtualDisk.writeSector_ok hwrite
  refine ⟨{ d with toVirtualDisk := disk }, by rw [flushBitmap, hwrite], rfl, htotal, ?_⟩
  intro j hj
  have hbyte := hbytes j hj
  rw [Nat.zero_mul, Nat.zero_add] at hbyte
  show disk.file j = _
  rw [hbyte, bitmapSector, List.getD_eq_getElem?_getD, List.getElem?_map, List.getElem?_range hj]
  rfl

/-! ## What sector 0 keeps -/

/-- The bits that fit are in sector 0 as they are in the bitmap. -/
def Copied (d : SectorDisk) : Prop :=
  ∀ s, 4 ≤ s → s < 4096 → s < d.totalSectors → d.reopen.bitmap.isFree s = d.bitmap.isFree s

/-- What is flushed is in sector 0. -/
theorem isFree_reopen_flushed {d d' : SectorDisk} (hd : d.Sized) (h : d.flushBitmap = .ok d') :
    d'.Copied := by
  intro s _ hfit hs
  obtain ⟨d'', hflush, hbitmap, htotal, hfile⟩ := flushBitmap_eq hd
  cases h.symm.trans hflush
  rw [htotal] at hs
  have hword : s / 64 < bitmapWords d'.totalSectors := by
    rw [htotal, bitmapWords]
    omega
  rw [show d'.reopen.bitmap = readBitmap d'.file (bitmapWords d'.totalSectors) from rfl,
    isFree_readBitmap d'.file hword hfit, hfile (s / 8) (by rw [sectorSize]; omega), hbitmap,
    Bitmap.isFree_eq]
  have hin := hd.word_lt hs
  rw [show s / 8 / 8 = s / 64 by omega, List.getElem?_eq_getElem hin, Option.getD_some,
    getLsbD_leByte _ (by omega) (by omega), show 8 * (s / 8 % 8) + s % 8 = s % 64 by omega]
  rfl

theorem copied_flushLossy {d : SectorDisk} (hd : d.Sized) : d.flushLossy.Copied := by
  obtain ⟨d', hflush, -⟩ := flushBitmap_eq hd
  rw [flushLossy, hflush]
  exact isFree_reopen_flushed hd hflush

/-- A new image has no copy of its bitmap yet, and needs none: only metadata is in use. -/
theorem isFree_create {totalSectors s : Nat} (htotal : 8 ≤ totalSectors) (hs : 4 ≤ s) :
    (create totalSectors).bitmap.isFree s = true := by
  have hlen : ∀ n, 0 ≤ n → n < 0 + 3 →
      n / 64 < (List.replicate (bitmapWords totalSectors) (0 : UInt64)).length := by
    intro n _ hn
    rw [List.length_replicate, bitmapWords]
    omega
  rw [create, Bitmap.isFree_markUsedRange _ s hlen, if_neg (by omega), Bitmap.isFree_eq,
    List.getElem?_replicate]
  split
  · simp
  · rfl

theorem copied_create {totalSectors : Nat} (htotal : 8 ≤ totalSectors) : (create totalSectors).Copied := by
  intro s hs hfit hlt
  have hword : s / 64 < bitmapWords totalSectors := by
    rw [bitmapWords]
    exact Nat.lt_of_le_of_lt (Nat.div_le_div_right (Nat.le_sub_one_of_lt hlt))
      (by have : (create totalSectors).totalSectors = totalSectors := rfl; omega)
  rw [isFree_create htotal hs, show (create totalSectors).reopen.bitmap =
    readBitmap (fun _ => 0) (bitmapWords totalSectors) from rfl, isFree_readBitmap _ hword hfit]
  simp

/-- Every operation keeps the copy: it writes the bitmap again, or leaves it alone. -/
theorem copied_perform {d : SectorDisk} (hd : d.Sized) (h : d.Copied) (op : SectorOp) :
    (d.perform op).Sized ∧ (d.perform op).totalSectors = d.totalSectors ∧ (d.perform op).Copied := by
  -- a bitmap that was changed is flushed
  have hchanged : ∀ b : Bitmap, b.length = d.bitmap.length → ({ d with bitmap := b } : SectorDisk).Sized :=
    fun b hb => ⟨hd.eight_le, hb.trans hd.length_eq⟩
  have hlossy : ∀ b : Bitmap, b.length = d.bitmap.length →
      (flushLossy { d with bitmap := b }).Sized ∧
        (flushLossy { d with bitmap := b }).totalSectors = d.totalSectors ∧
        (flushLossy { d with bitmap := b }).Copied := by
    intro b hb
    obtain ⟨hsame, -⟩ := flushLossy_spec { d with bitmap := b }
    exact ⟨hsame.sized (hchanged b hb), hsame.total_eq, copied_flushLossy (hchanged b hb)⟩
  have hflushed : ∀ b : Bitmap, b.length = d.bitmap.length → ∀ d',
      flushBitmap { d with bitmap := b } = .ok d' →
      d'.Sized ∧ d'.totalSectors = d.totalSectors ∧ d'.Copied := by
    intro b hb d' hflush
    obtain ⟨hsame, -⟩ := flushBitmap_ok hflush
    exact ⟨hsame.sized (hchanged b hb), hsame.total_eq, isFree_reopen_flushed (hchanged b hb) hflush⟩
  cases op with
  | allocSector =>
    simp only [perform, allocSector]
    split
    · exact hlossy _ (Bitmap.length_markUsed _ _)
    · exact ⟨hd, rfl, h⟩
  | freeSector sector =>
    simp only [perform, freeSector]
    split
    · exact ⟨hd, rfl, h⟩
    · obtain ⟨d', hflush, -⟩ := flushBitmap_eq (hchanged _ (Bitmap.length_markFree d.bitmap sector.toNat))
      rw [hflush]
      exact hflushed _ (Bitmap.length_markFree _ _) d' hflush
  | allocateSectors count =>
    simp only [perform, allocateSectors]
    split
    · exact hlossy _ (Bitmap.length_markUsedRange _ _ _)
    · exact ⟨hd, rfl, h⟩
  | freeSectors start count =>
    obtain ⟨d', hflush, -⟩ := flushBitmap_eq (hchanged _ (Bitmap.length_markFreeRange d.bitmap isMetadata
      start.toNat ((start + count).toNat - start.toNat)))
    simp only [perform, freeSectors]
    rw [hflush]
    exact hflushed _ (Bitmap.length_markFreeRange _ _ _ _) d' hflush

theorem copied_closed {totalSectors : Nat} (htotal : 8 ≤ totalSectors) (ops : List SectorOp) :
    (closed totalSectors ops).Sized ∧ (closed totalSectors ops).totalSectors = totalSectors ∧
      (closed totalSectors ops).Copied := by
  apply List.foldlRecOn (motive := fun d : SectorDisk =>
    d.Sized ∧ d.totalSectors = totalSectors ∧ d.Copied)
  · exact ⟨sized_create htotal, rfl, copied_create htotal⟩
  · rintro d ⟨hd, htotal', hcopied⟩ op -
    obtain ⟨hd', hsame, hcopied'⟩ := copied_perform hd hcopied op
    exact ⟨hd', hsame.trans htotal', hcopied'⟩

/-! ## Which disks survive -/

/-- Behind the metadata the same sectors are free after the image was closed and opened again. -/
def Survives (totalSectors : Nat) (ops : List SectorOp) : Prop :=
  ∀ s, 4 ≤ s → s < totalSectors →
    (closed totalSectors ops).reopen.bitmap.isFree s = (closed totalSectors ops).bitmap.isFree s

theorem survives_iff_beyond {totalSectors : Nat} (htotal : 8 ≤ totalSectors) (ops : List SectorOp) :
    Survives totalSectors ops ↔
      ∀ s, 4096 ≤ s → s < totalSectors → (closed totalSectors ops).bitmap.isFree s = true := by
  obtain ⟨-, hsame, hcopied⟩ := copied_closed htotal ops
  constructor
  · intro h s hs hlt
    rw [← h s (by omega) hlt]
    exact isFree_readBitmap_beyond _ _ hs
  · intro h s hs hlt
    rcases Nat.lt_or_ge s 4096 with hfit | hbeyond
    · exact hcopied s hs hfit (by rw [hsame]; exact hlt)
    · rw [h s hbeyond hlt]
      exact isFree_readBitmap_beyond _ _ hbeyond

/-- On a disk with more than 4096 sectors, a run that reaches sector 4096. -/
theorem isFree_closed_long {totalSectors : Nat} (htotal : 4096 < totalSectors) :
    (closed totalSectors [.allocateSectors 4093]).bitmap.isFree 4096 = false := by
  have hsized := sized_create (show 8 ≤ totalSectors by omega)
  have hroom : (create totalSectors).HasRun 4093 := by
    refine ⟨4, Nat.le_refl 4, ?_, ?_⟩
    · show 4 + 4093 ≤ totalSectors
      omega
    · intro n hn _
      exact isFree_create (by omega) hn
  obtain ⟨start, d', halloc⟩ := allocateSectors_of_hasRun (by decide) hroom
  obtain ⟨hlow, hfree⟩ := (allocateSectors_first_fit hsized (by decide)).1 start d' halloc
  have hfour : 4 ∈ (create totalSectors).runStarts 4093 :=
    (mem_runStarts (by decide)).2 ⟨Nat.le_refl 4, by show 4 + 4093 ≤ totalSectors; omega,
      fun n hn _ => isFree_create (by omega) hn⟩
  have hstart : start ≤ 4 := hlow.2 hfour
  have hclosed : closed totalSectors [.allocateSectors 4093] = d' := by
    show ((create totalSectors).allocateSectors (4093 : UInt32).toNat).2 = d'
    rw [show (4093 : UInt32).toNat = 4093 from rfl, halloc]
  rw [hclosed]
  have hfirst := hlow.1.1
  exact (hfree 4096).2 (Or.inl ⟨by omega, by omega⟩)

/-- A disk survives being closed exactly if no sector behind number 4095 is in use; and every history
survives exactly on disks that have no such sector. -/
theorem survives_iff {totalSectors : Nat} (htotal : 8 ≤ totalSectors) :
    (∀ ops, Survives totalSectors ops ↔
      ∀ s, 4096 ≤ s → s < totalSectors → (closed totalSectors ops).bitmap.isFree s = true) ∧
    ((∀ ops, Survives totalSectors ops) ↔ totalSectors ≤ 4096) := by
  refine ⟨survives_iff_beyond htotal, ?_⟩
  constructor
  · intro h
    by_contra hlarge
    have hfree := (survives_iff_beyond htotal _).1 (h [.allocateSectors 4093]) 4096 (Nat.le_refl _) (by omega)
    rw [isFree_closed_long (by omega)] at hfree
    cases hfree
  · intro hsmall ops
    rw [survives_iff_beyond htotal]
    intro s hs hlt
    omega

/-- A disk of 4160 sectors: a history that stays below sector 4096 survives, but not every history does. -/
theorem survives_iff_large :
    Survives 4160 [.allocateSectors 60] ∧ ¬∀ ops, Survives 4160 ops := by
  obtain ⟨hone, hall⟩ := @survives_iff 4160 (by decide)
  refine ⟨(hone _).2 ?_, fun h => absurd (hall.1 h) (by decide)⟩
  have hfree : ((List.range 64).all fun k =>
      (closed 4160 [.allocateSectors 60]).bitmap.isFree (4096 + k)) = true := by decide +kernel
  intro s hlow hhigh
  have hs := List.all_eq_true.1 hfree (s - 4096) (List.mem_range.2 (by omega))
  rwa [show 4096 + (s - 4096) = s by omega] at hs

/-- A disk of 4160 sectors: sector 4096 is in use, and free after the image was opened again. -/
theorem reopened_loses : ¬Survives 4160 [.allocateSectors 4093] := by
  intro h
  have hfree := (survives_iff_beyond (by decide) _).1 h 4096 (Nat.le_refl _) (by decide)
  rw [isFree_closed_long (by decide)] at hfree
  cases hfree

end SectorDisk

end GenshinOs.Hardware
