import GenshinOs.Hardware.Disk

/-!
# Block devices

Blocks of eight sectors over a virtual disk, and partitions of block devices
(`src/hardware/block.rs`). Numbers of blocks have 64 bits and numbers of sectors have 32: the first sector
of a block is computed modulo 2^32, and only the sectors are checked against the disk. A partition checks
its numbers itself and adds its start, modulo 2^64 in a build without overflow checks; a build with them
stops there, as it does at the multiplication.

So a number that is too large stands for another block, also when a partition hands it on, and the last
block may be half on the disk. `blocks_inside_iff` says for which numbers a device, and for which places a
partition, stays inside its range.
-/

set_option autoImplicit false

namespace GenshinOs.Hardware

/-- Bytes of a block, in eight sectors. -/
def blockSize : Nat := 4096

/-- Block device over a state. -/
structure BlockDevice (σ : Type) where
  readBlock : σ → UInt64 → Except DiskError (List UInt8)
  writeBlock : σ → UInt64 → List UInt8 → Except DiskError Unit × σ
  totalBlocks : σ → UInt64

/-- First sector of a block, as the 32-bit number that the disk is asked for. -/
def blockSector (blockId : UInt64) : Nat := (blockId * 8).toUInt32.toNat

namespace PhysicalBlockDevice

/-- The eight sectors of a block. -/
def readBlock (d : VirtualDisk) (blockId : UInt64) : Except DiskError (List UInt8) :=
  d.readRun (blockSector blockId) 8 0

/-- Bytes `512 * i ..`, a sector of them. -/
def chunk (data : List UInt8) (i : Nat) : List UInt8 := (data.drop (i * sectorSize)).take sectorSize

/-- Bytes for the eight sectors of a block. -/
def writeBlock (d : VirtualDisk) (blockId : UInt64) (data : List UInt8) : Except DiskError Unit × VirtualDisk :=
  if data.length ≠ blockSize then (.error (.ioFailed "write_block" blockId.toUInt32.toNat), d)
  else VirtualDisk.writeRun (chunk data) (blockSector blockId) 8 0 d

/-- The blocks that are on the disk as a whole. -/
def totalBlocks (d : VirtualDisk) : UInt64 := UInt64.ofNat d.totalSectors / 8

end PhysicalBlockDevice

/-- A virtual disk as a block device. -/
def physicalBlockDevice : BlockDevice VirtualDisk where
  readBlock := PhysicalBlockDevice.readBlock
  writeBlock := PhysicalBlockDevice.writeBlock
  totalBlocks := PhysicalBlockDevice.totalBlocks

/-- Disk partition: a range of blocks. -/
structure Partition where
  startBlock : UInt64
  totalBlocks : UInt64

namespace Partition

/-- The block of the device that a block of the partition is. -/
def absoluteBlock (p : Partition) (blockId : UInt64) : Except DiskError UInt64 :=
  if blockId ≥ p.totalBlocks then
    .error (.invalidSector blockId.toUInt32.toNat p.totalBlocks.toUInt32.toNat)
  else .ok (p.startBlock + blockId)

/-- A partition of a block device. -/
def device {σ : Type} (device : BlockDevice σ) (p : Partition) : BlockDevice σ where
  readBlock s blockId :=
    match p.absoluteBlock blockId with
    | .error e => .error e
    | .ok absolute => device.readBlock s absolute
  writeBlock s blockId data :=
    match p.absoluteBlock blockId with
    | .error e => (.error e, s)
    | .ok absolute => device.writeBlock s absolute data
  totalBlocks _ := p.totalBlocks

/-- The sum is exact for all blocks of the partition. -/
def Exact (p : Partition) : Prop :=
  ∀ blockId absolute, p.absoluteBlock blockId = .ok absolute →
    absolute.toNat = p.startBlock.toNat + blockId.toNat

theorem absoluteBlock_of_lt (p : Partition) (blockId : UInt64)
    (h : blockId.toNat < p.totalBlocks.toNat) :
    p.absoluteBlock blockId = .ok (p.startBlock + blockId) := by
  rw [absoluteBlock, if_neg]
  rw [ge_iff_le, UInt64.le_iff_toNat_le]
  omega

theorem lt_of_absoluteBlock {p : Partition} {blockId absolute : UInt64}
    (h : p.absoluteBlock blockId = .ok absolute) : blockId.toNat < p.totalBlocks.toNat := by
  rw [absoluteBlock] at h
  split at h
  · cases h
  · next hlt =>
    rw [ge_iff_le, UInt64.le_iff_toNat_le] at hlt
    omega

/-- The sum is exact for all blocks of the partition exactly when the partition ends by 2^64. -/
theorem exact_iff (p : Partition) :
    p.Exact ↔ p.startBlock.toNat + p.totalBlocks.toNat ≤ 2 ^ 64 := by
  have hstart := p.startBlock.toNat_lt
  have htotal := p.totalBlocks.toNat_lt
  constructor
  · intro hexact
    by_cases hempty : p.totalBlocks.toNat = 0
    · omega
    -- the last block of the partition
    have hlast : (p.totalBlocks - 1).toNat = p.totalBlocks.toNat - 1 := by
      rw [UInt64.toNat_sub, show (1 : UInt64).toNat = 1 from rfl]
      omega
    have hsum := hexact _ _ (p.absoluteBlock_of_lt (p.totalBlocks - 1) (by omega))
    have hlt := (p.startBlock + (p.totalBlocks - 1)).toNat_lt
    omega
  · intro hend blockId absolute hok
    have hlt := lt_of_absoluteBlock hok
    rw [p.absoluteBlock_of_lt blockId hlt] at hok
    cases hok
    rw [UInt64.toNat_add]
    omega

end Partition

/-! ## Blocks of a disk -/

namespace PhysicalBlockDevice

/-- The property of a block number and a buffer: a block of the disk is written and read back, and other
numbers are refused. -/
structure StaysInside (d : VirtualDisk) (blockId : UInt64) (data : List UInt8) : Prop where
  written : blockId < totalBlocks d → (writeBlock d blockId data).1 = .ok () ∧
    readBlock (writeBlock d blockId data).2 blockId = .ok data ∧
      ∀ a, (a / sectorSize < 8 * blockId.toNat ∨ 8 * blockId.toNat + 8 ≤ a / sectorSize) →
        (writeBlock d blockId data).2.file a = d.file a
  refused : totalBlocks d ≤ blockId → (∃ e, readBlock d blockId = .error e) ∧
    (∃ e, (writeBlock d blockId data).1 = .error e) ∧ (writeBlock d blockId data).2 = d

theorem blockSector_eq (blockId : UInt64) : blockSector blockId = 8 * (blockId.toNat % 2 ^ 29) := by
  rw [blockSector, UInt64.toNat_toUInt32, UInt64.toNat_mul, show (8 : UInt64).toNat = 8 from rfl]
  omega

theorem length_chunk {data : List UInt8} (hdata : data.length = blockSize) {i : Nat} (hi : i < 8) :
    (chunk data i).length = sectorSize := by
  rw [chunk, List.length_take, List.length_drop, hdata, blockSize, sectorSize]
  omega

theorem chunk_getD (data : List UInt8) (i : Nat) {j : Nat} (hj : j < sectorSize) :
    (chunk data i).getD j 0 = data.getD (i * sectorSize + j) 0 := by
  rw [chunk, List.getD_eq_getElem?_getD, List.getElem?_take_of_lt hj, List.getElem?_drop,
    List.getD_eq_getElem?_getD]

/-- A block is written as far as it is on the disk. -/
theorem writeBlock_eq (d : VirtualDisk) (blockId : UInt64) {data : List UInt8}
    (hdata : data.length = blockSize) : writeBlock d blockId data =
      (if blockSector blockId + 8 ≤ d.totalSectors then .ok () else .error (d.beyond (blockSector blockId)),
        { d with file := fun a =>
          if blockSector blockId ≤ a / sectorSize ∧ a / sectorSize < blockSector blockId + 8 ∧
            a / sectorSize < d.totalSectors
          then data.getD (a - blockSector blockId * sectorSize) 0 else d.file a }) := by
  have hlen : ∀ j, 0 ≤ j → j < 0 + 8 → (chunk data j).length = sectorSize :=
    fun j _ hj => length_chunk hdata (by omega)
  rw [writeBlock, if_neg (not_not.2 hdata), VirtualDisk.writeRun_eq _ _ _ _ hlen]
  simp only [Nat.add_zero, show ¬8 = 0 by decide, false_or]
  congr 2
  funext a
  split
  · next hsector =>
    have hsplit := Nat.div_add_mod a sectorSize
    have hoff := Nat.mod_lt a (show 0 < sectorSize by decide)
    rw [chunk_getD _ _ hoff, Nat.sub_mul]
    congr 1
    rw [sectorSize] at hsector hsplit hoff ⊢
    omega
  · rfl

theorem readBlock_eq (d : VirtualDisk) (blockId : UInt64) : readBlock d blockId =
    if blockSector blockId + 8 ≤ d.totalSectors then .ok (d.bytesOf (blockSector blockId) 8)
    else .error (d.beyond (blockSector blockId)) := by
  rw [readBlock, VirtualDisk.readRun_eq]
  simp only [Nat.add_zero, show ¬8 = 0 by decide, false_or]

/-- A run of eight sectors that holds the bytes of a block. -/
theorem bytesOf_eq {d : VirtualDisk} {start : Nat} {data : List UInt8} (hdata : data.length = blockSize)
    (h : ∀ j, j < blockSize → d.file (start * sectorSize + j) = data.getD j 0) : d.bytesOf start 8 = data := by
  apply List.ext_getElem
  · rw [VirtualDisk.length_bytesOf, hdata]
    rfl
  · intro j hj hj'
    simp only [VirtualDisk.bytesOf, List.getElem_map, List.getElem_range]
    rw [h j (by rw [← hdata]; exact hj'), List.getD_eq_getElem?_getD, List.getElem?_eq_getElem hj']
    rfl

/-- What is read from a block after it was written. -/
theorem readBlock_written {d : VirtualDisk} {blockId : UInt64} {data : List UInt8}
    (hdata : data.length = blockSize) (hfit : blockSector blockId + 8 ≤ d.totalSectors) :
    readBlock (writeBlock d blockId data).2 blockId = .ok data := by
  rw [writeBlock_eq d blockId hdata, readBlock_eq, if_pos hfit]
  refine congrArg Except.ok (bytesOf_eq hdata ?_)
  intro j hj
  have hin : j / sectorSize < 8 := by
    rw [blockSize] at hj
    rw [sectorSize]
    omega
  simp only [sector_of_byte]
  rw [if_pos ⟨Nat.le_add_right _ _, by omega, by omega⟩, Nat.add_sub_cancel_left]

theorem toNat_totalBlocks (file : Nat → UInt8) (total : UInt32) :
    (totalBlocks ⟨file, total.toNat⟩).toNat = total.toNat / 8 := by
  have htotal := total.toNat_lt
  rw [totalBlocks, UInt64.toNat_div, UInt64.toNat_ofNat_of_lt' (Nat.lt_trans htotal (by decide))]
  rfl

/-- A number that stands for a sector of the disk: some buffer changes the first byte of that sector. -/
theorem overwrites_first {d : VirtualDisk} {blockId : UInt64}
    (hsector : blockSector blockId < d.totalSectors) :
    ∃ data, data.length = blockSize ∧ (writeBlock d blockId data).2.file
      (blockSector blockId * sectorSize) ≠ d.file (blockSector blockId * sectorSize) := by
  have hfirst : blockSector blockId * sectorSize / sectorSize = blockSector blockId :=
    Nat.mul_div_cancel _ (by decide)
  refine ⟨List.replicate blockSize (d.file (blockSector blockId * sectorSize) + 1),
    List.length_replicate, fun hbyte => ?_⟩
  rw [writeBlock_eq d blockId List.length_replicate] at hbyte
  simp only [hfirst] at hbyte
  rw [if_pos ⟨Nat.le_refl _, by omega, hsector⟩, Nat.sub_self] at hbyte
  -- a byte is not its own successor
  have hhead : ∀ b : UInt8, (List.replicate blockSize b).getD 0 0 = b := fun _ => rfl
  rw [hhead] at hbyte
  have hnat := congrArg UInt8.toNat hbyte
  have hlt := (d.file (blockSector blockId * sectorSize)).toNat_lt
  rw [UInt8.toNat_add, show (1 : UInt8).toNat = 1 from rfl] at hnat
  omega

/-- Such a number from the end on is not refused as it should be. -/
theorem not_refused {d : VirtualDisk} {blockId : UInt64} (hrange : totalBlocks d ≤ blockId)
    (hsector : blockSector blockId < d.totalSectors) :
    ∃ data, data.length = blockSize ∧ ¬StaysInside d blockId data := by
  obtain ⟨data, hdata, hbyte⟩ := overwrites_first hsector
  refine ⟨data, hdata, fun hinside => hbyte ?_⟩
  obtain ⟨-, -, hsame⟩ := hinside.refused hrange
  rw [hsame]

end PhysicalBlockDevice

/-! ## Partitions of a disk -/

namespace Partition

variable {p : Partition}

/-- A sector of the disk that belongs to the partition. -/
def Owns (p : Partition) (sector : Nat) : Prop :=
  8 * p.startBlock.toNat ≤ sector ∧ sector < 8 * (p.startBlock.toNat + p.totalBlocks.toNat)

/-- The property of a partition of a disk: numbers of blocks are added up exactly, a write leaves the
sectors of others as they are, and what a read finds does not depend on them. -/
structure StaysInside (p : Partition) (d : VirtualDisk) : Prop where
  exact : p.Exact
  written : ∀ blockId data a, ¬p.Owns (a / sectorSize) →
    ((p.device physicalBlockDevice).writeBlock d blockId data).2.file a = d.file a
  read : ∀ blockId file, (∀ a, p.Owns (a / sectorSize) → file a = d.file a) →
    (p.device physicalBlockDevice).readBlock { d with file := file } blockId =
      (p.device physicalBlockDevice).readBlock d blockId

/-- No block of the partition stands for sectors of others, on a disk of so many sectors: the partition or
the disk is empty, the partition starts with the disk, or it does not go over a multiple of 2^29 blocks and
either starts below the first of them or is over sectors that the disk does not have. -/
def Unaliased (p : Partition) (sectors : Nat) : Prop :=
  p.totalBlocks = 0 ∨ sectors = 0 ∨ p.startBlock = 0 ∨
    (p.startBlock.toNat % 2 ^ 29 + p.totalBlocks.toNat ≤ 2 ^ 29 ∧
      (p.startBlock.toNat < 2 ^ 29 ∨ sectors ≤ 8 * (p.startBlock.toNat % 2 ^ 29)))

instance (p : Partition) (sectors : Nat) : Decidable (p.Unaliased sectors) :=
  inferInstanceAs (Decidable (_ ∨ _ ∨ _ ∨ _ ∧ (_ ∨ _)))

/-- The sectors that a block stands for are in the partition, or not on the disk. -/
theorem owns_of_unaliased {sectors : Nat} (h : p.Unaliased sectors) (hexact : p.Exact)
    {blockId absolute : UInt64} (hok : p.absoluteBlock blockId = .ok absolute) {sector : Nat}
    (hlow : blockSector absolute ≤ sector) (hhigh : sector < blockSector absolute + 8)
    (hsector : sector < sectors) : p.Owns sector := by
  have hlt := lt_of_absoluteBlock hok
  have hsum := hexact blockId absolute hok
  rw [PhysicalBlockDevice.blockSector_eq, hsum] at hlow hhigh
  rw [Owns]
  rcases h with hempty | hnone | hfirst | ⟨hend, hplace⟩
  · rw [hempty] at hlt
    exact absurd hlt (Nat.not_lt_zero _)
  · omega
  · rw [hfirst, show (0 : UInt64).toNat = 0 from rfl] at hlow hhigh ⊢
    omega
  · rcases hplace with hbelow | hbeyond <;> omega

/-- A write to the partition leaves the sectors of others. -/
theorem writeBlock_inside {d : VirtualDisk} (h : p.Unaliased d.totalSectors) (hexact : p.Exact)
    (blockId : UInt64) (data : List UInt8) {a : Nat} (ha : ¬p.Owns (a / sectorSize)) :
    ((p.device physicalBlockDevice).writeBlock d blockId data).2.file a = d.file a := by
  cases hasked : p.absoluteBlock blockId with
  | error e => simp only [device, hasked]
  | ok absolute =>
    simp only [device, hasked, physicalBlockDevice]
    by_cases hdata : data.length = blockSize
    · rw [PhysicalBlockDevice.writeBlock_eq d absolute hdata]
      refine if_neg ?_
      rintro ⟨hlow, hhigh, hsector⟩
      exact ha (owns_of_unaliased h hexact hasked hlow hhigh hsector)
    · rw [PhysicalBlockDevice.writeBlock, if_pos hdata]

/-- A read of the partition finds the same whatever is in the sectors of others. -/
theorem readBlock_inside {d : VirtualDisk} (h : p.Unaliased d.totalSectors) (hexact : p.Exact)
    (blockId : UInt64) {file : Nat → UInt8}
    (hfile : ∀ a, p.Owns (a / sectorSize) → file a = d.file a) :
    (p.device physicalBlockDevice).readBlock { d with file := file } blockId =
      (p.device physicalBlockDevice).readBlock d blockId := by
  cases hasked : p.absoluteBlock blockId with
  | error e => simp only [device, hasked]
  | ok absolute =>
    simp only [device, hasked, physicalBlockDevice]
    rw [PhysicalBlockDevice.readBlock_eq, PhysicalBlockDevice.readBlock_eq]
    by_cases hfit : blockSector absolute + 8 ≤ d.totalSectors
    · rw [if_pos hfit, if_pos hfit]
      refine congrArg Except.ok (List.map_congr_left fun j hj => ?_)
      have hlt : j < 8 * sectorSize := List.mem_range.1 hj
      have hin : j / sectorSize < 8 := Nat.div_lt_of_lt_mul (by rw [Nat.mul_comm]; exact hlt)
      apply hfile
      rw [sector_of_byte]
      have hhigh := Nat.add_lt_add_left hin (blockSector absolute)
      exact owns_of_unaliased h hexact hasked (Nat.le_add_right _ _) hhigh
        (Nat.lt_of_lt_of_le hhigh hfit)
    · rw [if_neg hfit, if_neg hfit]
      rfl

/-- A block whose number stands for a sector in front of the partition overwrites it. -/
theorem overwritten {d : VirtualDisk} (blockId : UInt64) (hexact : p.Exact)
    (hlt : blockId.toNat < p.totalBlocks.toNat)
    (hbefore : (p.startBlock.toNat + blockId.toNat) % 2 ^ 29 < p.startBlock.toNat)
    (hsector : 8 * ((p.startBlock.toNat + blockId.toNat) % 2 ^ 29) < d.totalSectors) :
    ¬p.StaysInside d := by
  intro hinside
  have hasked := p.absoluteBlock_of_lt blockId hlt
  have hstart : blockSector (p.startBlock + blockId) =
      8 * ((p.startBlock.toNat + blockId.toNat) % 2 ^ 29) := by
    rw [PhysicalBlockDevice.blockSector_eq, hexact _ _ hasked]
  rw [← hstart] at hsector
  obtain ⟨data, hdata, hbyte⟩ := PhysicalBlockDevice.overwrites_first hsector
  have hsame := hinside.written blockId data (blockSector (p.startBlock + blockId) * sectorSize) (by
    rw [Nat.mul_div_cancel _ (show 0 < sectorSize by decide), Owns]
    omega)
  simp only [device, hasked, physicalBlockDevice] at hsame
  exact hbyte hsame

/-- Exactly when a partition of a disk stays inside. -/
theorem staysInside_iff (p : Partition) (file : Nat → UInt8) (total : UInt32) :
    p.StaysInside ⟨file, total.toNat⟩ ↔
      p.startBlock.toNat + p.totalBlocks.toNat ≤ 2 ^ 64 ∧ p.Unaliased total.toNat := by
  constructor
  · intro hinside
    refine ⟨p.exact_iff.1 hinside.exact, ?_⟩
    by_contra haliased
    rw [Unaliased, ← UInt64.toNat_inj, ← UInt64.toNat_inj, show (0 : UInt64).toNat = 0 from rfl]
      at haliased
    by_cases hcrosses : 2 ^ 29 < p.startBlock.toNat % 2 ^ 29 + p.totalBlocks.toNat
    · -- the block at the next multiple of 2^29 is block 0 of the disk
      have hstart := p.startBlock.toNat_lt
      have hid : (UInt64.ofNat ((2 ^ 29 - p.startBlock.toNat % 2 ^ 29) % 2 ^ 29)).toNat =
          (2 ^ 29 - p.startBlock.toNat % 2 ^ 29) % 2 ^ 29 :=
        UInt64.toNat_ofNat_of_lt' (Nat.lt_trans (Nat.mod_lt _ (by decide)) (by decide))
      refine overwritten (UInt64.ofNat ((2 ^ 29 - p.startBlock.toNat % 2 ^ 29) % 2 ^ 29))
        hinside.exact ?_ ?_ ?_ hinside
      · omega
      · omega
      · show _ < total.toNat
        omega
    · refine overwritten 0 hinside.exact ?_ ?_ ?_ hinside
      · rw [show (0 : UInt64).toNat = 0 from rfl]
        omega
      · rw [show (0 : UInt64).toNat = 0 from rfl]
        omega
      · rw [show (0 : UInt64).toNat = 0 from rfl]
        show _ < total.toNat
        omega
  · rintro ⟨hend, hunaliased⟩
    have hexact := p.exact_iff.2 hend
    exact ⟨hexact, fun blockId data a ha => writeBlock_inside hunaliased hexact blockId data ha,
      fun blockId file hfile => readBlock_inside hunaliased hexact blockId hfile⟩

end Partition

namespace PhysicalBlockDevice

/-- Exactly when block numbers are safe. For a physical device over a disk these are the numbers of its
blocks and those whose first sector, modulo 2^32, is not on the disk. For a partition of the disk they are
all, exactly when it ends by 2^64 and none of its blocks stands for sectors of others. -/
theorem blocks_inside_iff (file : Nat → UInt8) (total : UInt32) (blockId : UInt64) (p : Partition) :
    ((∀ data, data.length = blockSize → StaysInside ⟨file, total.toNat⟩ blockId data) ↔
      blockId < totalBlocks ⟨file, total.toNat⟩ ∨ total.toNat ≤ blockSector blockId) ∧
    (p.StaysInside ⟨file, total.toNat⟩ ↔
      p.startBlock.toNat + p.totalBlocks.toNat ≤ 2 ^ 64 ∧ p.Unaliased total.toNat) := by
  refine ⟨?_, Partition.staysInside_iff p file total⟩
  have htotal := total.toNat_lt
  have hblocks := toNat_totalBlocks file total
  constructor
  · intro hinside
    by_cases hrange : blockId < totalBlocks ⟨file, total.toNat⟩
    · exact Or.inl hrange
    · right
      by_contra hsector
      obtain ⟨data, hdata, hnot⟩ := not_refused (UInt64.not_lt.1 hrange) (Nat.not_le.1 hsector)
      exact hnot (hinside data hdata)
  · intro hsafe data hdata
    constructor
    · intro hrange
      rw [UInt64.lt_iff_toNat_lt, hblocks] at hrange
      -- the number is small enough for its sectors
      have hstart : blockSector blockId = 8 * blockId.toNat := by
        rw [blockSector_eq, Nat.mod_eq_of_lt (by omega)]
      have hfit : blockSector blockId + 8 ≤ total.toNat := by omega
      refine ⟨?_, readBlock_written hdata hfit, ?_⟩
      · rw [writeBlock_eq _ _ hdata]
        exact if_pos hfit
      · intro a ha
        rw [writeBlock_eq _ _ hdata]
        exact if_neg (by omega)
    · intro hrange
      have hbeyond : total.toNat ≤ blockSector blockId := hsafe.resolve_left (UInt64.not_lt.2 hrange)
      rw [writeBlock_eq _ _ hdata, readBlock_eq, if_neg (by show ¬_ ≤ total.toNat; omega),
        if_neg (by show ¬_ ≤ total.toNat; omega)]
      refine ⟨⟨_, rfl⟩, ⟨_, rfl⟩, VirtualDisk.change_none _ fun a => ?_⟩
      show ¬(_ ∧ _ ∧ a / sectorSize < total.toNat)
      omega

/-- Block 2^29 is block 0, block 1 of a disk of twelve sectors is written in half, the second block of a
partition at the end of the numbers is the first block of the device, and so is the first block of a
partition from block 2^29 on. -/
theorem blocks_outside :
    (∃ data, data.length = blockSize ∧ ¬StaysInside ⟨fun _ => 0, 16⟩ 536870912 data) ∧
      (∃ data, data.length = blockSize ∧ ¬StaysInside ⟨fun _ => 0, 12⟩ 1 data) ∧
      ¬Partition.StaysInside ⟨0xFFFFFFFFFFFFFFFF, 2⟩ ⟨fun _ => 0, 16⟩ ∧
      ¬Partition.StaysInside ⟨536870912, 2⟩ ⟨fun _ => 0, 16⟩ := by
  refine ⟨not_refused (by decide) (by decide), not_refused (by decide) (by decide), ?_, ?_⟩
  · intro hinside
    exact absurd (hinside.exact 1 0 rfl) (by decide)
  · have hexact := (Partition.exact_iff ⟨536870912, 2⟩).2 (by decide)
    exact Partition.overwritten 0 hexact (by decide) (by decide) (by decide)

end PhysicalBlockDevice

end GenshinOs.Hardware
