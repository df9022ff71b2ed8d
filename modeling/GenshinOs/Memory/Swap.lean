import GenshinOs.Lib.HashMap
import GenshinOs.Messaging
import GenshinOs.Hardware.Disk

/-!
# Swap space

Swap slots over the virtual disk (`src/services/memory/swap.rs`). A slot is eight sectors, and a
slot number is handed out from a queue of free numbers. `SwapManager.Exact` says that a number in
the queue is the number of a free slot; with it an occupied slot is never handed out again, and
`swapIn` after `swapOut` gives the page back as long as nobody writes the slot in between.
-/

set_option autoImplicit false

namespace GenshinOs.Memory

open GenshinOs.Lib GenshinOs.Hardware

/-- Swap slot on disk. -/
structure SwapSlot where
  number : Nat
  size : Nat
  occupied : Bool
  owner : Option Pid
  vpn : Option Nat
  deriving DecidableEq, Repr

/-- A slot that is free. -/
def SwapSlot.new (number size : Nat) : SwapSlot := ⟨number, size, false, none, none⟩

/-- The slot holds a page of a process. -/
def SwapSlot.occupy (s : SwapSlot) (pid : Pid) (vpn : Nat) : SwapSlot :=
  { s with occupied := true, owner := some pid, vpn := some vpn }

/-- The slot holds nothing. -/
def SwapSlot.free (s : SwapSlot) : SwapSlot :=
  { s with occupied := false, owner := none, vpn := none }

/-- Swap space configuration. -/
structure SwapConfig where
  totalSize : Nat
  slotSize : Nat
  maxSlots : Nat
  devicePath : String
  deriving DecidableEq, Repr

/-- One gibibyte in slots of one page. -/
def SwapConfig.default : SwapConfig := ⟨1024 * 1024 * 1024, 4096, 262144, "/swap/swapfile"⟩

/-- The swap manager and its disk. -/
structure SwapManager where
  config : SwapConfig
  slots : List SwapSlot
  freeQueue : List Nat
  processSlots : HashMap Pid (List Nat)
  totalSlots : Nat
  usedSlots : Nat
  enabled : Bool
  disk : VirtualDisk

namespace SwapManager

/-- All slots are free, in the order of their numbers. -/
def new (config : SwapConfig) (disk : VirtualDisk) : SwapManager :=
  let totalSlots := config.totalSize / config.slotSize
  { config := config
    slots := (List.range totalSlots).map fun i => SwapSlot.new i config.slotSize
    freeQueue := List.range totalSlots
    processSlots := ∅
    totalSlots := totalSlots
    usedSlots := 0
    enabled := true
    disk := disk }

/-- Is there a free slot? -/
def hasSpace (m : SwapManager) : Bool := !m.freeQueue.isEmpty

/-- Take the slot at the front of the queue. As in the frame allocator the index is in range. -/
def allocateSlot (m : SwapManager) (pid : Pid) (vpn : Nat) : Option SwapSlot × SwapManager :=
  if m.enabled = false then (none, m)
  else
    match m.freeQueue with
    | [] => (none, m)
    | slotNum :: rest =>
      match m.slots[slotNum]? with
      | none => (none, m)
      | some slot =>
        (some (slot.occupy pid vpn),
          { m with
            slots := m.slots.set slotNum (slot.occupy pid vpn)
            freeQueue := rest
            processSlots := m.processSlots.insert pid
              ((m.processSlots.lookup pid).getD [] ++ [slotNum])
            usedSlots := m.usedSlots + 1 })

/-- Free a slot that is occupied. It goes to the end of the queue. -/
def freeSlot (m : SwapManager) (slotNum : Nat) : Bool × SwapManager :=
  if slotNum ≥ m.totalSlots then (false, m)
  else
    match m.slots[slotNum]? with
    | none => (false, m)
    | some slot =>
      if slot.occupied = false then (false, m)
      else
        (true,
          { m with
            slots := m.slots.set slotNum slot.free
            freeQueue := m.freeQueue ++ [slotNum]
            processSlots := HashMap.adjust m.processSlots (slot.owner.getD 0) fun slots =>
              slots.erase slotNum
            usedSlots := m.usedSlots - 1 })

/-- The slot of a number. -/
def getSlot (m : SwapManager) (slotNum : Nat) : Option SwapSlot :=
  if slotNum < m.totalSlots then m.slots[slotNum]? else none

/-- The slots of a process, oldest first. -/
def getProcessSlots (m : SwapManager) (pid : Pid) : List SwapSlot :=
  match m.processSlots.lookup pid with
  | some nums => nums.filterMap m.getSlot
  | none => []

/-- First sector of a slot, as a 32-bit number. -/
def startSector (slotNum : Nat) : Nat := slotNum * 8 % 2 ^ 32

/-- Bytes `512 * i ..` of a page, padded with zeros to a sector. -/
def sectorOf (data : List UInt8) (i : Nat) : List UInt8 :=
  (List.range sectorSize).map fun j => data.getD (i * sectorSize + j) 0

/-- Write the sectors `i ..` of a page; an error stops the loop, and what is written stays. -/
def swapOutLoop (start : Nat) (data : List UInt8) : Nat → Nat → VirtualDisk →
    Except String Unit × VirtualDisk
  | 0, _, d => (.ok (), d)
  | k + 1, i, d =>
    match d.writeSector (start + i) (sectorOf data i) with
    | .error e => (.error ("swap_out: " ++ e.display), d)
    | .ok d' => swapOutLoop start data k (i + 1) d'

/-- Write a page to the eight sectors of a slot. -/
def swapOut (m : SwapManager) (slotNum : Nat) (data : List UInt8) :
    Except String Unit × SwapManager :=
  let result := swapOutLoop (startSector slotNum) data 8 0 m.disk
  (result.1, { m with disk := result.2 })

/-- Read the sectors `i ..` of a page. -/
def swapInLoop (d : VirtualDisk) (start : Nat) : Nat → Nat → Except String (List UInt8)
  | 0, _ => .ok []
  | k + 1, i =>
    match d.readSector (start + i) with
    | .error e => .error ("swap_in: " ++ e.display)
    | .ok sector =>
      match swapInLoop d start k (i + 1) with
      | .error e => .error e
      | .ok rest => .ok (sector ++ rest)

/-- Read a page from the eight sectors of a slot. -/
def swapIn (m : SwapManager) (slotNum : Nat) : Except String (List UInt8) :=
  swapInLoop m.disk (startSector slotNum) 8 0

/-! ## The data path -/

/-- A byte of a slot on the disk. -/
def slotByte (m : SwapManager) (slotNum k : Nat) : UInt8 :=
  m.disk.file (startSector slotNum * sectorSize + k)

/-- The slot lies on the disk. -/
def Backed (m : SwapManager) (slotNum : Nat) : Prop :=
  startSector slotNum + 8 ≤ m.disk.totalSectors

theorem sectorOf_getD (data : List UInt8) {i j : Nat} (hj : j < sectorSize) :
    (sectorOf data i).getD j 0 = data.getD (i * sectorSize + j) 0 := by
  simp [sectorOf, List.getD_eq_getElem?_getD, hj]

theorem length_sectorOf (data : List UInt8) (i : Nat) : (sectorOf data i).length = sectorSize := by
  rw [sectorOf, List.length_map, List.length_range]

/-- A page is written as a run of sectors, and an error of the disk gets the name of the operation. -/
theorem swapOutLoop_eq (start : Nat) (data : List UInt8) (k i : Nat) (d : VirtualDisk) :
    swapOutLoop start data k i d =
      ((VirtualDisk.writeRun (sectorOf data) start k i d).1.mapError fun e => "swap_out: " ++ e.display,
        (VirtualDisk.writeRun (sectorOf data) start k i d).2) := by
  induction k generalizing i d with
  | zero => rfl
  | succ k ih =>
    rw [swapOutLoop, VirtualDisk.writeRun]
    cases d.writeSector (start + i) (sectorOf data i) with
    | error e => rfl
    | ok d' => exact ih (i + 1) d'

/-- A page is read as a run of sectors. -/
theorem swapInLoop_eq (d : VirtualDisk) (start k i : Nat) :
    swapInLoop d start k i = (d.readRun start k i).mapError fun e => "swap_in: " ++ e.display := by
  induction k generalizing i with
  | zero => rfl
  | succ k ih =>
    rw [swapInLoop, VirtualDisk.readRun]
    cases d.readSector (start + i) with
    | error e => rfl
    | ok sector =>
      simp only
      rw [ih]
      cases d.readRun start k (i + 1) with
      | error e => rfl
      | ok rest => rfl

/-- A slot on the disk is read whole, another one not at all. -/
theorem swapIn_eq (m : SwapManager) (slotNum : Nat) : m.swapIn slotNum =
    if startSector slotNum + 8 ≤ m.disk.totalSectors then .ok (m.disk.bytesOf (startSector slotNum) 8)
    else .error ("swap_in: " ++ (m.disk.beyond (startSector slotNum)).display) := by
  rw [swapIn, swapInLoop_eq, VirtualDisk.readRun_eq, Nat.add_zero]
  by_cases hfit : startSector slotNum + 8 ≤ m.disk.totalSectors
  · rw [if_pos (Or.inr hfit), if_pos hfit]
    rfl
  · rw [if_neg (by omega), if_neg hfit]
    rfl

/-- Reading a slot on the disk yields its page of bytes. -/
theorem swapIn_ok {m : SwapManager} {slotNum : Nat} (h : m.Backed slotNum) :
    ∃ data, m.swapIn slotNum = .ok data ∧ data.length = 4096 ∧
      ∀ k, k < 4096 → data.getD k 0 = m.slotByte slotNum k := by
  refine ⟨m.disk.bytesOf (startSector slotNum) 8, ?_, VirtualDisk.length_bytesOf _ _ _, fun k hk => ?_⟩
  · rw [swapIn_eq]
    exact if_pos h
  · exact VirtualDisk.bytesOf_getD _ _ (by rw [sectorSize]; omega)

theorem swapIn_error {m : SwapManager} {slotNum : Nat} (h : ¬m.Backed slotNum) :
    ∃ e, m.swapIn slotNum = .error e := by
  rw [swapIn_eq]
  exact ⟨_, if_neg h⟩

/-- A slot on the disk is written whole, another one as far as it is on the disk. -/
theorem swapOut_eq (m : SwapManager) (slotNum : Nat) (data : List UInt8) : m.swapOut slotNum data =
    (if startSector slotNum + 8 ≤ m.disk.totalSectors then .ok ()
      else .error ("swap_out: " ++ (m.disk.beyond (startSector slotNum)).display),
      { m with disk := { m.disk with
        file := fun a =>
          if startSector slotNum ≤ a / sectorSize ∧ a / sectorSize < startSector slotNum + 8 ∧
              a / sectorSize < m.disk.totalSectors then
            data.getD ((a / sectorSize - startSector slotNum) * sectorSize + a % sectorSize) 0
          else m.disk.file a } }) := by
  rw [swapOut, swapOutLoop_eq,
    VirtualDisk.writeRun_eq (startSector slotNum) 8 0 m.disk fun j _ _ => length_sectorOf data j, Nat.add_zero]
  apply Prod.ext
  · by_cases hfit : startSector slotNum + 8 ≤ m.disk.totalSectors
    · simp only [if_pos hfit, if_pos (Or.inr hfit : 8 = 0 ∨ _)]
      rfl
    · simp only [if_neg hfit, if_neg (show ¬(8 = 0 ∨ startSector slotNum + 8 ≤ m.disk.totalSectors) by omega)]
      rfl
  · simp only [Nat.add_zero, SwapManager.mk.injEq, VirtualDisk.mk.injEq, and_true, true_and]
    funext a
    rw [sectorOf_getD data (Nat.mod_lt a (show 0 < sectorSize by decide))]

theorem swapOut_totalSectors (m : SwapManager) (slotNum : Nat) (data : List UInt8) :
    (m.swapOut slotNum data).2.disk.totalSectors = m.disk.totalSectors := by
  rw [swapOut_eq]

theorem swapOut_backed_iff (m : SwapManager) (slotNum other : Nat) (data : List UInt8) :
    (m.swapOut slotNum data).2.Backed other ↔ m.Backed other := by
  rw [Backed, swapOut_totalSectors]
  rfl

/-- A page goes to a slot exactly when the slot lies on the disk. -/
theorem swapOut_iff (m : SwapManager) (n : Nat) (data : List UInt8) :
    (m.swapOut n data).1 = .ok () ↔ m.Backed n := by
  rw [swapOut_eq]
  by_cases hfit : startSector n + 8 ≤ m.disk.totalSectors
  · exact iff_of_true (if_pos hfit) hfit
  · refine iff_of_false ?_ hfit
    simp only [if_neg hfit]
    exact fun h => by cases h

/-- A successful `swapOut` stores the page, and the slot lies on the disk. -/
theorem swapOut_ok {m : SwapManager} {slotNum : Nat} {data : List UInt8}
    (h : (m.swapOut slotNum data).1 = .ok ()) :
    (m.swapOut slotNum data).2.Backed slotNum ∧
      ∀ k, k < 4096 → (m.swapOut slotNum data).2.slotByte slotNum k = data.getD k 0 := by
  have hbacked := (m.swapOut_iff slotNum data).1 h
  refine ⟨(m.swapOut_backed_iff slotNum slotNum data).2 hbacked, ?_⟩
  intro k hk
  rw [Backed] at hbacked
  -- byte `k` is in sector `k / 512` of the slot
  have hoff : (startSector slotNum * sectorSize + k) % sectorSize = k % sectorSize := by
    rw [sectorSize]
    omega
  have hslot : k / sectorSize < 8 := by
    rw [sectorSize]
    omega
  rw [slotByte, swapOut_eq]
  simp only [sector_of_byte, hoff, Nat.add_sub_cancel_left, Nat.div_add_mod']
  exact if_pos ⟨Nat.le_add_right _ _, Nat.add_lt_add_left hslot _, by omega⟩

/-- `swapOut` changes the disk only. -/
theorem swapOut_disk {m m' : SwapManager} {slotNum : Nat} {data : List UInt8}
    {r : Except String Unit} (h : m.swapOut slotNum data = (r, m')) :
    m' = { m with disk := m'.disk } := by
  cases h
  rfl

/-- `swapOut` leaves every other slot alone. -/
theorem swapOut_slotByte_of_ne {m : SwapManager} {slotNum other : Nat} (data : List UInt8)
    (hne : startSector other ≠ startSector slotNum) {k : Nat} (hk : k < 4096) :
    (m.swapOut slotNum data).2.slotByte other k = m.slotByte other k := by
  rw [slotByte, swapOut_eq]
  apply if_neg
  -- first sectors are multiples of eight, so different slots do not overlap
  simp only [startSector, sectorSize] at *
  omega

/-! ## Slot numbers -/

/-- The queue holds numbers of free slots, each once, and the slot numbers are small enough for
their sectors not to wrap around. -/
structure Exact (m : SwapManager) : Prop where
  length_eq : m.slots.length = m.totalSlots
  total_le : m.totalSlots * 8 ≤ 2 ^ 32
  number_eq : ∀ (i : Nat) (s : SwapSlot), m.slots[i]? = some s → s.number = i
  queue_nodup : m.freeQueue.Nodup
  queue_free : ∀ n ∈ m.freeQueue, ∃ s, m.slots[n]? = some s ∧ s.occupied = false

/-- The slot is in use. -/
def Occupied (m : SwapManager) (slotNum : Nat) : Prop :=
  ∃ s, m.slots[slotNum]? = some s ∧ s.occupied = true

theorem new_exact (config : SwapConfig) (disk : VirtualDisk)
    (hsmall : config.totalSize / config.slotSize * 8 ≤ 2 ^ 32) : (new config disk).Exact where
  length_eq := by simp [new]
  total_le := hsmall
  number_eq i s h := by
    simp only [new, List.getElem?_map, Option.map_eq_some_iff] at h
    obtain ⟨j, hj, rfl⟩ := h
    have hij := (List.getElem?_eq_some_iff.1 hj).2
    rw [List.getElem_range] at hij
    simp [SwapSlot.new, hij]
  queue_nodup := List.nodup_range
  queue_free n hn := by
    have hlt : n < config.totalSize / config.slotSize := List.mem_range.1 hn
    exact ⟨SwapSlot.new n config.slotSize, by simp [new, hlt], rfl⟩

theorem default_exact (disk : VirtualDisk) : (new SwapConfig.default disk).Exact :=
  new_exact SwapConfig.default disk (by decide)

theorem Exact.lt_of_occupied {m : SwapManager} (hx : m.Exact) {n : Nat} (h : m.Occupied n) :
    n < m.totalSlots := by
  obtain ⟨s, hs, -⟩ := h
  rw [← hx.length_eq]
  exact (List.getElem?_eq_some_iff.1 hs).1

/-- Different slot numbers have different sectors. -/
theorem Exact.startSector_ne {m : SwapManager} (hx : m.Exact) {n n' : Nat}
    (hn : n < m.totalSlots) (hn' : n' < m.totalSlots) (hne : n ≠ n') :
    startSector n ≠ startSector n' := by
  have htotal := hx.total_le
  simp only [startSector]
  omega

/-- What a successful allocation does. -/
theorem allocateSlot_some {m m' : SwapManager} {pid : Pid} {vpn : Nat} {slot : SwapSlot}
    (h : m.allocateSlot pid vpn = (some slot, m')) :
    ∃ n rest old, m.freeQueue = n :: rest ∧ m.slots[n]? = some old ∧ slot = old.occupy pid vpn ∧
      m' = { m with
        slots := m.slots.set n (old.occupy pid vpn)
        freeQueue := rest
        processSlots := m.processSlots.insert pid ((m.processSlots.lookup pid).getD [] ++ [n])
        usedSlots := m.usedSlots + 1 } := by
  cases hen : m.enabled with
  | false => simp [allocateSlot, hen] at h
  | true =>
    cases hq : m.freeQueue with
    | nil => simp [allocateSlot, hen, hq] at h
    | cons n rest =>
      cases hs : m.slots[n]? with
      | none => simp [allocateSlot, hen, hq, hs] at h
      | some old =>
        simp only [allocateSlot, hen, hq, hs, Bool.true_eq_false, if_false, Prod.mk.injEq,
          Option.some.injEq] at h
        exact ⟨n, rest, old, rfl, hs, h.1.symm, h.2.symm⟩

theorem allocateSlot_none {m m' : SwapManager} {pid : Pid} {vpn : Nat}
    (h : m.allocateSlot pid vpn = (none, m')) : m' = m := by
  cases hen : m.enabled with
  | false =>
    simp only [allocateSlot, hen, if_true, Prod.mk.injEq] at h
    exact h.2.symm
  | true =>
    cases hq : m.freeQueue with
    | nil =>
      simp only [allocateSlot, hen, hq, Bool.true_eq_false, if_false, Prod.mk.injEq] at h
      exact h.2.symm
    | cons n rest =>
      cases hs : m.slots[n]? with
      | none =>
        simp only [allocateSlot, hen, hq, hs, Bool.true_eq_false, if_false, Prod.mk.injEq] at h
        exact h.2.symm
      | some old => simp [allocateSlot, hen, hq, hs] at h

/-- Reading the slots after one of them is replaced. -/
theorem getElem?_set_slot {slots : List SwapSlot} {n : Nat} {old : SwapSlot}
    (hold : slots[n]? = some old) (s : SwapSlot) (i : Nat) :
    (slots.set n s)[i]? = if n = i then some s else slots[i]? := by
  obtain ⟨hlt, -⟩ := List.getElem?_eq_some_iff.1 hold
  rw [List.getElem?_set]
  rcases eq_or_ne n i with rfl | hi
  · simp [hlt]
  · simp [hi]

/-- A new slot was free before and is occupied after; the other slots keep their status, and the
disk is untouched. -/
theorem allocateSlot_spec {m m' : SwapManager} (hx : m.Exact) {pid : Pid} {vpn : Nat}
    {slot : SwapSlot} (h : m.allocateSlot pid vpn = (some slot, m')) :
    m'.Exact ∧ m'.disk = m.disk ∧ ¬ m.Occupied slot.number ∧ m'.Occupied slot.number ∧
      slot.number < m'.totalSlots ∧ m'.totalSlots = m.totalSlots ∧
      ∀ n, m.Occupied n → m'.Occupied n := by
  obtain ⟨n, rest, old, hq, hold, rfl, rfl⟩ := allocateSlot_some h
  have hnum : (old.occupy pid vpn).number = n := hx.number_eq n old hold
  have hnd := hx.queue_nodup
  rw [hq, List.nodup_cons] at hnd
  -- the number comes from the front of the queue, and queued numbers are free
  have hnfree : old.occupied = false := by
    obtain ⟨s, hs, hfree⟩ := hx.queue_free n (by simp [hq])
    rw [hold] at hs
    cases hs
    exact hfree
  have hlt : n < m.totalSlots := by
    rw [← hx.length_eq]
    exact (List.getElem?_eq_some_iff.1 hold).1
  rw [hnum]
  refine ⟨⟨?_, hx.total_le, fun i s hs => ?_, hnd.2, fun k hk => ?_⟩, rfl, ?_, ?_, hlt, rfl,
    fun k hk => ?_⟩
  · simpa using hx.length_eq
  · rw [getElem?_set_slot hold] at hs
    split at hs
    · next hi =>
      cases hs
      exact hnum.trans hi
    · exact hx.number_eq i s hs
  · rw [getElem?_set_slot hold]
    have hkn : n ≠ k := by
      rintro rfl
      exact hnd.1 hk
    rw [if_neg hkn]
    exact hx.queue_free k (by rw [hq]; exact List.mem_cons_of_mem n hk)
  · rintro ⟨s, hs, hocc⟩
    rw [hold] at hs
    cases hs
    rw [hnfree] at hocc
    exact Bool.noConfusion hocc
  · exact ⟨old.occupy pid vpn, by rw [getElem?_set_slot hold, if_pos rfl], rfl⟩
  · obtain ⟨s, hs, hocc⟩ := hk
    show ∃ s, (m.slots.set n (old.occupy pid vpn))[k]? = some s ∧ s.occupied = true
    rw [getElem?_set_slot hold]
    split
    · exact ⟨_, rfl, rfl⟩
    · exact ⟨s, hs, hocc⟩

/-- The slot table after an allocation: the new slot carries the process and the page. -/
theorem allocateSlot_slots {m m' : SwapManager} (hx : m.Exact) {pid : Pid} {vpn : Nat}
    {slot : SwapSlot} (h : m.allocateSlot pid vpn = (some slot, m')) :
    slot.occupied = true ∧ slot.owner = some pid ∧ slot.vpn = some vpn ∧
      ∀ i, m'.slots[i]? = if i = slot.number then some slot else m.slots[i]? := by
  obtain ⟨n, rest, old, hq, hold, rfl, rfl⟩ := allocateSlot_some h
  have hnum : (old.occupy pid vpn).number = n := hx.number_eq n old hold
  refine ⟨rfl, rfl, rfl, ?_⟩
  intro i
  rw [hnum, getElem?_set_slot hold]
  simp only [eq_comm]

/-- After an occupied slot is freed. -/
def released (m : SwapManager) (slotNum : Nat) (slot : SwapSlot) : SwapManager :=
  { m with
    slots := m.slots.set slotNum slot.free
    freeQueue := m.freeQueue ++ [slotNum]
    processSlots := HashMap.adjust m.processSlots (slot.owner.getD 0) fun slots => slots.erase slotNum
    usedSlots := m.usedSlots - 1 }

/-- A free either finds no occupied slot and changes nothing, or frees the slot. -/
theorem freeSlot_cases (m : SwapManager) (n : Nat) :
    (m.freeSlot n = (false, m) ∧ (n < m.totalSlots → ¬m.Occupied n)) ∨
      ∃ old, m.slots[n]? = some old ∧ old.occupied = true ∧
        m.freeSlot n = (true, m.released n old) := by
  rw [freeSlot]
  split
  · next hge =>
    left
    refine ⟨rfl, ?_⟩
    intro hlt
    exact absurd hlt (Nat.not_lt.2 hge)
  · cases hslot : m.slots[n]? with
    | none =>
      left
      refine ⟨rfl, ?_⟩
      rintro - ⟨s, hs, -⟩
      rw [hslot] at hs
      cases hs
    | some old =>
      by_cases hfree : old.occupied = false
      · left
        refine ⟨if_pos hfree, ?_⟩
        rintro - ⟨s, hs, hocc⟩
        rw [hslot] at hs
        cases hs
        rw [hfree] at hocc
        cases hocc
      · right
        exact ⟨old, rfl, eq_true_of_ne_false hfree, if_neg hfree⟩

/-- The slot table after a slot is freed, at all other numbers. -/
theorem freeSlot_slots (m : SwapManager) {n i : Nat} (hne : i ≠ n) :
    (m.freeSlot n).2.slots[i]? = m.slots[i]? := by
  rcases m.freeSlot_cases n with ⟨heq, -⟩ | ⟨old, -, -, heq⟩
  · rw [heq]
  · rw [heq]
    exact List.getElem?_set_ne (Ne.symm hne)

/-- Freeing a slot touches only that slot, and not the disk. -/
theorem freeSlot_spec {m : SwapManager} (hx : m.Exact) (n : Nat) :
    (m.freeSlot n).2.Exact ∧ (m.freeSlot n).2.disk = m.disk ∧
      (m.freeSlot n).2.totalSlots = m.totalSlots ∧
      ∀ k, k ≠ n → m.Occupied k → (m.freeSlot n).2.Occupied k := by
  rcases m.freeSlot_cases n with ⟨heq, -⟩ | ⟨old, hs, hocc, heq⟩
  · rw [heq]
    exact ⟨hx, rfl, rfl, fun _ _ h => h⟩
  · rw [heq]
    -- an occupied slot is not queued, so that queueing it keeps the numbers distinct
    have hnq : n ∉ m.freeQueue := by
      intro hmem
      obtain ⟨s, hs', hfree⟩ := hx.queue_free n hmem
      rw [hs] at hs'
      cases hs'
      rw [hocc] at hfree
      exact Bool.noConfusion hfree
    have hslots : ∀ i, (m.released n old).slots[i]? = if n = i then some old.free else m.slots[i]? :=
      getElem?_set_slot hs old.free
    refine ⟨⟨?_, hx.total_le, fun i s hi => ?_, ?_, fun k hk => ?_⟩, rfl, rfl, fun k hk hkocc => ?_⟩
    · exact List.length_set.trans hx.length_eq
    · rw [hslots] at hi
      split at hi
      · next hin =>
        cases hi
        exact (hx.number_eq n old hs).trans hin
      · exact hx.number_eq i s hi
    · show (m.freeQueue ++ [n]).Nodup
      rw [List.nodup_append]
      refine ⟨hx.queue_nodup, List.nodup_singleton n, ?_⟩
      rintro a ha b hb rfl
      rw [List.mem_singleton] at hb
      subst hb
      exact hnq ha
    · rw [hslots]
      rcases List.mem_append.1 hk with hk | hk
      · rw [if_neg (by rintro rfl; exact hnq hk)]
        exact hx.queue_free k hk
      · rw [List.mem_singleton] at hk
        subst hk
        exact ⟨old.free, by simp, rfl⟩
    · obtain ⟨s, hks, hkocc⟩ := hkocc
      refine ⟨s, ?_, hkocc⟩
      rw [hslots, if_neg (Ne.symm hk)]
      exact hks

end SwapManager

end GenshinOs.Memory
