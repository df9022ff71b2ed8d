import GenshinOs.Hardware.Cpu
import GenshinOs.Hardware.Translation

/-!
# Address spaces

What virtual memory is for: a process works on bytes of its own, wherever its pages lie. `Space` is
what one process sees of the memory, and `stepIn` is the step of the CPU on it. The CPU behind the MMU
refines this machine: a step depends on the space of its own process alone, and does to it what the
abstract step does. So the frames of a process, and its number, do not matter for what it computes.
-/

set_option autoImplicit false

namespace GenshinOs.Hardware

open GenshinOs.Lib

/-! ## The abstract memory -/

/-- What a process sees of the memory: the byte at each address, whether it can be written, and which
addresses lie in the same byte. -/
@[ext] structure Space where
  read : VirtAddr → Option UInt8
  writable : VirtAddr → Bool
  shared : VirtAddr → VirtAddr → Bool

namespace Space

/-- A byte is written at all addresses that share it. -/
def write (s : Space) (addr : VirtAddr) (value : UInt8) : Option Space :=
  if s.writable addr then
    some { s with read := fun a => if s.shared addr a then some value else s.read a }
  else none

/-- The number in four bytes from a multiple of four on. -/
def word (s : Space) (addr : VirtAddr) : Option UInt64 :=
  if addr.toNat % 4 = 0 then do
    let b0 ← s.read addr
    let b1 ← s.read (addr + 1)
    let b2 ← s.read (addr + 2)
    let b3 ← s.read (addr + 3)
    return UInt64.ofNat (MMU.leWord b0 b1 b2 b3)
  else none

/-- The fields of the instruction at an address. -/
def encodedAt (s : Space) (pc : VirtAddr) : Option VirtualCPU.Encoded := do
  let opcode ← s.read pc
  let dstReg ← s.read (pc + 1)
  let srcType ← s.read (pc + 2)
  let _ ← s.read (pc + 3)
  let srcValue ← s.word (pc + 4)
  return ⟨opcode, dstReg, srcType, srcValue⟩

end Space

namespace VirtualCPU

/-- Outcome of an execution in an address space. -/
structure SteppedIn where
  result : Except CPUError Unit
  cpu : VirtualCPU
  space : Space

/-- Execute an instruction in an address space. A page fault gives nothing. -/
def executeIn (cpu : VirtualCPU) (s : Space) : Instruction → Option SteppedIn
  | .load dst addr =>
    (s.read (cpu.readOperand addr)).map fun value =>
      ⟨.ok (), cpu.writeRegister dst value.toUInt64, s⟩
  | .store src addr =>
    (s.write (cpu.readOperand addr) (cpu.readRegister src).toUInt8).map fun s' => ⟨.ok (), cpu, s'⟩
  | .mov dst src => some ⟨.ok (), cpu.writeRegister dst (cpu.readOperand src), s⟩
  | .add dst src => some ⟨.ok (), cpu.arith dst src (· + ·), s⟩
  | .sub dst src => some ⟨.ok (), cpu.arith dst src (· - ·), s⟩
  | .mul dst src => some ⟨.ok (), cpu.arith dst src (· * ·), s⟩
  | .div dst src =>
    if cpu.readOperand src = 0 then some ⟨.error (.divideByZero cpu.pc), cpu, s⟩
    else some ⟨.ok (), cpu.arith dst src (· / ·), s⟩
  | .jmp addr => some ⟨.ok (), cpu.setPc addr, s⟩
  | .cmp dst src =>
    let a := cpu.readRegister dst
    let b := cpu.readOperand src
    some ⟨.ok (), { cpu with flags := CPUFlags.fromResult (a - b) a b }, s⟩
  | .jz addr => some ⟨.ok (), if cpu.flags.zero then cpu.setPc addr else cpu, s⟩
  | .jnz addr => some ⟨.ok (), if cpu.flags.zero then cpu else cpu.setPc addr, s⟩
  | .int vector => some ⟨.ok (), cpu.handleSoftwareInterrupt vector, s⟩
  | .halt => some ⟨.ok (), cpu.halt, s⟩

/-- A page fault leaves everything but the mark. -/
def markFault (cpu : VirtualCPU) : VirtualCPU := { cpu with pagefaultPending := true }

/-- Count an instruction that was executed. -/
def count (cpu : VirtualCPU) : VirtualCPU :=
  { cpu with instructionCount := cpu.instructionCount + 1 }

/-- Execute the instruction at the program counter, which a fault leaves there. -/
def runIn (cpu : VirtualCPU) (s : Space) (instr : Instruction) : SteppedIn :=
  match executeIn (cpu.setPc (cpu.pc + 8)) s instr with
  | none => ⟨.ok (), cpu.markFault, s⟩
  | some ⟨.error e, cpu', s'⟩ => ⟨.error e, cpu', s'⟩
  | some ⟨.ok (), cpu', s'⟩ => ⟨.ok (), cpu'.count, s'⟩

/-- One instruction in an address space. -/
def stepIn (cpu : VirtualCPU) (s : Space) : SteppedIn :=
  if cpu.halted then ⟨.error .halted, cpu, s⟩
  else if cpu.pagefaultPending then ⟨.ok (), cpu, s⟩
  else
    match s.encodedAt cpu.pc with
    | none => ⟨.ok (), cpu.markFault, s⟩
    | some encoded =>
      match decode encoded (cpu.pc + 8) with
      | .error e => ⟨.error e, cpu.setPc (cpu.pc + 8), s⟩
      | .ok instr => cpu.runIn s instr

end VirtualCPU

/-! ## The space of a process -/

/-- The space that the tables give to a process. -/
def MMU.space (m : MMU) (pid : Pid) : Space where
  read addr := (m.readU8 pid addr).toOption
  writable addr :=
    match m.translate pid addr .write with
    | .ok paddr => decide (m.memory.InBounds paddr.toNat 1)
    | .error _ => false
  shared a b :=
    match m.translate pid a .read, m.translate pid b .read with
    | .ok p, .ok q => decide (p = q)
    | _, _ => false

namespace MMU

variable {m : MMU} {pid : Pid}

theorem space_read_eq_some (m : MMU) (pid : Pid) (addr : VirtAddr) (b : UInt8) :
    (m.space pid).read addr = some b ↔ m.readU8 pid addr = .ok b := by
  change (m.readU8 pid addr).toOption = some b ↔ _
  cases m.readU8 pid addr <;> simp [Except.toOption]

theorem space_read_eq_none (m : MMU) (pid : Pid) (addr : VirtAddr) :
    (m.space pid).read addr = none ↔ ∃ e, m.readU8 pid addr = .error e := by
  change (m.readU8 pid addr).toOption = none ↔ _
  cases m.readU8 pid addr <;> simp [Except.toOption]

theorem space_writable_iff (m : MMU) (pid : Pid) (addr : VirtAddr) :
    (m.space pid).writable addr = true ↔
      ∃ paddr, m.translate pid addr .write = .ok paddr ∧ m.memory.InBounds paddr.toNat 1 := by
  simp only [space]
  cases m.translate pid addr .write <;> simp

theorem space_shared_iff (m : MMU) (pid : Pid) (a b : VirtAddr) :
    (m.space pid).shared a b = true ↔
      ∃ paddr, m.translate pid a .read = .ok paddr ∧ m.translate pid b .read = .ok paddr := by
  simp only [space]
  cases m.translate pid a .read <;> cases m.translate pid b .read <;> simp [eq_comm]

/-- What can be written can be read, at the same place. -/
theorem translate_read_of_write {addr : VirtAddr} {paddr : PhysAddr}
    (h : m.translate pid addr .write = .ok paddr) : m.translate pid addr .read = .ok paddr := by
  obtain ⟨entry, hentry, hpresent, -, rfl⟩ := (m.translate_write_eq_ok_iff pid addr paddr).1 h
  exact (m.translate_read_eq_ok_iff pid addr _).2 ⟨entry, hentry, hpresent, rfl⟩

/-- The space depends on the tables and on the bytes that they lead to. -/
theorem space_store (m : MMU) (pid : Pid) (paddr : PhysAddr) (value : UInt8)
    (hbounds : m.memory.InBounds paddr.toNat 1) :
    ({ m with memory := m.memory.store paddr.toNat value } : MMU).space pid =
      { m.space pid with
        read := fun a =>
          if m.translate pid a .read = .ok paddr then some value else (m.space pid).read a } := by
  refine Space.ext ?_ rfl rfl
  funext a
  have htables : ({ m with memory := m.memory.store paddr.toNat value } : MMU).translate pid a .read =
      m.translate pid a .read := rfl
  simp only [space, MMU.readU8, htables]
  cases htrans : m.translate pid a .read with
  | error e => rfl
  | ok place =>
    by_cases hplace : place = paddr
    · subst hplace
      have hread : (m.memory.store place.toNat value).readU8 place.toNat = .ok value :=
        (PhysicalMemory.readU8_eq_ok_iff ..).2 ⟨hbounds, by rw [PhysicalMemory.store_data, if_pos rfl]⟩
      simp [hread, Except.toOption]
    · have hread : (m.memory.store paddr.toNat value).readU8 place.toNat =
          m.memory.readU8 place.toNat := by
        have hne : place.toNat ≠ paddr.toNat := fun h => hplace (UInt64.toNat_inj.1 h)
        simp only [PhysicalMemory.readU8, PhysicalMemory.checkBounds, PhysicalMemory.InBounds,
          PhysicalMemory.store_size, PhysicalMemory.store_data, if_neg hne]
        rfl
      simp [hread, hplace]

/-- A write of the MMU is the write of the space. -/
theorem space_writeU8 {m' : MMU} {addr : VirtAddr} {value : UInt8}
    (h : m.writeU8 pid addr value = .ok m') :
    (m.space pid).write addr value = some (m'.space pid) := by
  obtain ⟨paddr, htrans, hbounds, rfl⟩ := writeU8_eq_ok h
  have hwritable : (m.space pid).writable addr = true :=
    (m.space_writable_iff pid addr).2 ⟨paddr, htrans, hbounds⟩
  have hplace := translate_read_of_write htrans
  rw [Space.write, if_pos hwritable, m.space_store pid paddr value hbounds]
  congr 2
  funext a
  have hshared : (m.space pid).shared addr a = true ↔ m.translate pid a .read = .ok paddr := by
    rw [space_shared_iff, hplace]
    constructor
    · rintro ⟨place, heq, ha⟩
      cases heq
      exact ha
    · intro ha
      exact ⟨paddr, rfl, ha⟩
  simp only [hshared]

theorem space_writeU8_error {addr : VirtAddr} {value : UInt8} {e : MMUError}
    (h : m.writeU8 pid addr value = .error e) : (m.space pid).write addr value = none := by
  apply if_neg
  rw [space_writable_iff]
  rintro ⟨paddr, htrans, hbounds⟩
  have hwrite := (PhysicalMemory.writeU8_eq_ok_iff m.memory _ paddr.toNat value).2 ⟨hbounds, rfl⟩
  simp only [writeU8, htrans, hwrite] at h
  cases h

/-- A word of the MMU is the word of the space. -/
theorem space_word {ps : PageSize} {map : PageMap} (h : Refines ps m map) (hps : 4 ≤ ps.bytes.toNat)
    (addr : VirtAddr) :
    (m.space pid).word addr = (m.readU32 pid addr).toOption.map UInt32.toUInt64 := by
  cases hread : m.readU32 pid addr with
  | ok w =>
    obtain ⟨b0, b1, b2, b3, h0, h1, h2, h3, hw⟩ := readU32_bytes h hps hread
    have haligned := ((readU32_iff_bytes h hps pid addr).1 ⟨w, hread⟩).1
    simp only [← space_read_eq_some] at h0 h1 h2 h3
    rw [Space.word, if_pos haligned, h0, h1, h2, h3]
    simp only [Option.bind_eq_bind, Option.bind_some, Except.toOption, Option.map_some]
    congr 1
    apply UInt64.toNat_inj.1
    rw [← hw, UInt32.toNat_toUInt64, UInt64.toNat_ofNat', Nat.mod_eq_of_lt]
    exact Nat.lt_trans w.toNat_lt (by decide)
  | error e =>
    -- one of the four bytes is missing, or the address is not aligned
    have hnot : ¬ ∃ w, m.readU32 pid addr = .ok w := by
      rw [hread]
      rintro ⟨w, hw⟩
      cases hw
    rw [readU32_iff_bytes h hps] at hnot
    rw [Except.toOption, Option.map_none, Space.word]
    split
    · next haligned =>
      cases hword : ((m.space pid).read addr).bind fun b0 => ((m.space pid).read (addr + 1)).bind
          fun b1 => ((m.space pid).read (addr + 2)).bind fun b2 => ((m.space pid).read (addr + 3)).bind
            fun b3 => some (UInt64.ofNat (leWord b0 b1 b2 b3)) with
      | none => exact hword
      | some w =>
        simp only [Option.bind_eq_some_iff, space_read_eq_some] at hword
        obtain ⟨b0, h0, b1, h1, b2, h2, b3, h3, -⟩ := hword
        refine absurd ⟨haligned, fun i hi => ?_⟩ hnot
        interval_cases i
        · exact ⟨b0, by simpa using h0⟩
        · exact ⟨b1, h1⟩
        · exact ⟨b2, h2⟩
        · exact ⟨b3, h3⟩
    · rfl

/-! ## Where the pages lie -/

/-- The frames in the tables begin at multiples of the page size. -/
theorem Refines.frame_aligned {ps : PageSize} {map : PageMap} (h : Refines ps m map)
    {addr : VirtAddr} {entry : PageTableEntry} (hentry : m.mapped pid (m.alignDown addr) = some entry) :
    m.alignDown entry.frame = entry.frame := by
  rw [h.alignDown_eq, h.mapped_eq] at hentry
  obtain ⟨e, -, rfl⟩ := Option.map_eq_some_iff.1 hentry
  rw [h.alignDown_eq, ps.alignDown_alignDown]

section relocated

variable (haligned : ∀ {addr entry}, m.mapped pid (m.alignDown addr) = some entry →
  m.alignDown entry.frame = entry.frame)

include haligned

theorem space_read_iff_entry (addr : VirtAddr) (b : UInt8) :
    (m.space pid).read addr = some b ↔
      ∃ entry, m.mapped pid (m.alignDown addr) = some entry ∧ entry.flags.present = true ∧
        m.memory.InBounds (entry.frame.toNat + addr.toNat % 2 ^ m.pageSize.shift) 1 ∧
        m.memory.data (entry.frame.toNat + addr.toNat % 2 ^ m.pageSize.shift) = b := by
  rw [space_read_eq_some]
  constructor
  · intro hread
    obtain ⟨paddr, htrans, -⟩ := (m.readU8_eq_ok_iff pid addr b).1 hread
    obtain ⟨entry, hentry, hpresent, -⟩ := (m.translate_read_eq_ok_iff pid addr paddr).1 htrans
    exact ⟨entry, hentry, hpresent, (readU8_of_mapped hentry hpresent (haligned hentry) b).1 hread⟩
  · rintro ⟨entry, hentry, hpresent, hbyte⟩
    exact (readU8_of_mapped hentry hpresent (haligned hentry) b).2 hbyte

theorem space_writable_iff_entry (addr : VirtAddr) :
    (m.space pid).writable addr = true ↔
      ∃ entry, m.mapped pid (m.alignDown addr) = some entry ∧ entry.flags.present = true ∧
        entry.flags.writable = true ∧
        m.memory.InBounds (entry.frame.toNat + addr.toNat % 2 ^ m.pageSize.shift) 1 := by
  rw [space_writable_iff]
  constructor
  · rintro ⟨paddr, htrans, hbounds⟩
    obtain ⟨entry, hentry, hpresent, hwritable, rfl⟩ :=
      (m.translate_write_eq_ok_iff pid addr paddr).1 htrans
    rw [m.toNat_frame_add (haligned hentry)] at hbounds
    exact ⟨entry, hentry, hpresent, hwritable, hbounds⟩
  · rintro ⟨entry, hentry, hpresent, hwritable, hbounds⟩
    refine ⟨_, (m.translate_write_eq_ok_iff pid addr _).2 ⟨entry, hentry, hpresent, hwritable, rfl⟩, ?_⟩
    rw [m.toNat_frame_add (haligned hentry)]
    exact hbounds

theorem space_shared_iff_entry (a b : VirtAddr) :
    (m.space pid).shared a b = true ↔
      ∃ entry entry', m.mapped pid (m.alignDown a) = some entry ∧
        m.mapped pid (m.alignDown b) = some entry' ∧ entry.flags.present = true ∧
        entry'.flags.present = true ∧ entry.frame = entry'.frame ∧
        a.toNat % 2 ^ m.pageSize.shift = b.toNat % 2 ^ m.pageSize.shift := by
  have hpos := Nat.two_pow_pos m.pageSize.shift
  rw [space_shared_iff]
  constructor
  · rintro ⟨paddr, ha, hb⟩
    obtain ⟨entry, hentry, hpresent, hsum⟩ := (m.translate_read_eq_ok_iff pid a paddr).1 ha
    obtain ⟨entry', hentry', hpresent', hsum'⟩ := (m.translate_read_eq_ok_iff pid b paddr).1 hb
    have hplace : entry.frame.toNat + a.toNat % 2 ^ m.pageSize.shift =
        entry'.frame.toNat + b.toNat % 2 ^ m.pageSize.shift := by
      rw [← m.toNat_frame_add (haligned hentry), ← m.toNat_frame_add (haligned hentry'), ← hsum, ← hsum']
    -- both frames are multiples of the page size, and both offsets are below it
    have hmod : entry.frame.toNat % 2 ^ m.pageSize.shift = 0 := by
      rw [← haligned hentry]
      exact m.pageSize.alignDown_mod _
    have hmod' : entry'.frame.toNat % 2 ^ m.pageSize.shift = 0 := by
      rw [← haligned hentry']
      exact m.pageSize.alignDown_mod _
    have hoffset : a.toNat % 2 ^ m.pageSize.shift = b.toNat % 2 ^ m.pageSize.shift := by
      have hmods := congrArg (· % 2 ^ m.pageSize.shift) hplace
      simpa [Nat.add_mod, hmod, hmod'] using hmods
    refine ⟨entry, entry', hentry, hentry', hpresent, hpresent', ?_, hoffset⟩
    apply UInt64.toNat_inj.1
    omega
  · rintro ⟨entry, entry', hentry, hentry', hpresent, hpresent', hframe, hoffset⟩
    refine ⟨_, (m.translate_read_eq_ok_iff pid a _).2 ⟨entry, hentry, hpresent, rfl⟩,
      (m.translate_read_eq_ok_iff pid b _).2 ⟨entry', hentry', hpresent', ?_⟩⟩
    apply UInt64.toNat_inj.1
    rw [m.toNat_frame_add (haligned hentry), m.toNat_frame_add (haligned hentry'), hframe, hoffset]

end relocated

/-- A process that is moved to other frames, with its bytes, sees the same memory. -/
theorem space_relocated {m' : MMU} {pid' : Pid} (f : PhysAddr → PhysAddr)
    (hsize : m'.pageSize = m.pageSize)
    (haligned : ∀ {addr entry}, m.mapped pid (m.alignDown addr) = some entry →
      m.alignDown entry.frame = entry.frame)
    (haligned' : ∀ {addr entry}, m'.mapped pid' (m'.alignDown addr) = some entry →
      m'.alignDown entry.frame = entry.frame)
    (hmapped : ∀ addr, m'.mapped pid' (m'.alignDown addr) =
      (m.mapped pid (m.alignDown addr)).map fun entry => ⟨f entry.frame, entry.flags⟩)
    (hinj : ∀ a b entry entry', m.mapped pid (m.alignDown a) = some entry →
      m.mapped pid (m.alignDown b) = some entry' → f entry.frame = f entry'.frame →
      entry.frame = entry'.frame)
    (hbytes : ∀ addr entry, m.mapped pid (m.alignDown addr) = some entry →
      ∀ i < 2 ^ m.pageSize.shift,
        (m'.memory.InBounds ((f entry.frame).toNat + i) 1 ↔
          m.memory.InBounds (entry.frame.toNat + i) 1) ∧
        m'.memory.data ((f entry.frame).toNat + i) = m.memory.data (entry.frame.toNat + i)) :
    m'.space pid' = m.space pid := by
  have hoffset : ∀ addr : VirtAddr, addr.toNat % 2 ^ m.pageSize.shift < 2 ^ m.pageSize.shift :=
    fun addr => Nat.mod_lt _ (Nat.two_pow_pos _)
  have hentries : ∀ addr entry', m'.mapped pid' (m'.alignDown addr) = some entry' ↔
      ∃ entry, m.mapped pid (m.alignDown addr) = some entry ∧ entry' = ⟨f entry.frame, entry.flags⟩ := by
    intro addr entry'
    rw [hmapped, Option.map_eq_some_iff]
    simp only [eq_comm]
  apply Space.ext
  · funext addr
    apply Option.ext
    intro b
    rw [space_read_iff_entry haligned, space_read_iff_entry haligned', hsize]
    simp only [hentries]
    constructor
    · rintro ⟨_, ⟨entry, hentry, rfl⟩, hpresent, hbounds, hdata⟩
      have hbyte := hbytes addr entry hentry _ (hoffset addr)
      exact ⟨entry, hentry, hpresent, hbyte.1.1 hbounds, hbyte.2.symm.trans hdata⟩
    · rintro ⟨entry, hentry, hpresent, hbounds, hdata⟩
      have hbyte := hbytes addr entry hentry _ (hoffset addr)
      exact ⟨_, ⟨entry, hentry, rfl⟩, hpresent, hbyte.1.2 hbounds, hbyte.2.trans hdata⟩
  · funext addr
    rw [Bool.eq_iff_iff, space_writable_iff_entry haligned, space_writable_iff_entry haligned', hsize]
    simp only [hentries]
    constructor
    · rintro ⟨_, ⟨entry, hentry, rfl⟩, hpresent, hwritable, hbounds⟩
      have hbyte := hbytes addr entry hentry _ (hoffset addr)
      exact ⟨entry, hentry, hpresent, hwritable, hbyte.1.1 hbounds⟩
    · rintro ⟨entry, hentry, hpresent, hwritable, hbounds⟩
      have hbyte := hbytes addr entry hentry _ (hoffset addr)
      exact ⟨_, ⟨entry, hentry, rfl⟩, hpresent, hwritable, hbyte.1.2 hbounds⟩
  · funext a b
    rw [Bool.eq_iff_iff, space_shared_iff_entry haligned, space_shared_iff_entry haligned', hsize]
    simp only [hentries]
    constructor
    · rintro ⟨_, _, ⟨entry, hentry, rfl⟩, ⟨entry', hentry', rfl⟩, hpresent, hpresent', hframe, hsum⟩
      exact ⟨entry, entry', hentry, hentry', hpresent, hpresent',
        hinj a b entry entry' hentry hentry' hframe, hsum⟩
    · rintro ⟨entry, entry', hentry, hentry', hpresent, hpresent', hframe, hsum⟩
      exact ⟨_, _, ⟨entry, hentry, rfl⟩, ⟨entry', hentry', rfl⟩, hpresent, hpresent',
        congrArg f hframe, hsum⟩

end MMU

/-! ## The step refines the abstract step -/

namespace VirtualCPU

section refinement

variable {ps : PageSize} {m : MMU} {map : PageMap} (h : MMU.Refines ps m map)
  (hps : 4 ≤ ps.bytes.toNat)

/-- A fetched byte is the byte of the space, and nothing is fetched where there is none. -/
theorem run_byte_space {α : Type} (m : MMU) (cpu : VirtualCPU) (rest : UInt8 → Fetch α) :
    (fetchByte m >>= rest).run.run cpu =
      match (m.space cpu.currentPid).read cpu.pc with
      | none => (.error (.pageFault cpu.pc .read), cpu)
      | some b => (rest b).run.run (cpu.setPc (cpu.pc + 1)) := by
  rw [run_bind, run_fetchByte]
  cases hread : m.readU8 cpu.currentPid cpu.pc with
  | error e => rw [(m.space_read_eq_none cpu.currentPid cpu.pc).2 ⟨e, hread⟩]
  | ok b => rw [(m.space_read_eq_some cpu.currentPid cpu.pc b).2 hread]

include h hps

theorem run_qword_space {α : Type} (cpu : VirtualCPU) (rest : UInt64 → Fetch α) :
    (fetchQword m >>= rest).run.run cpu =
      match (m.space cpu.currentPid).word cpu.pc with
      | none => (.error (.pageFault cpu.pc .read), cpu)
      | some w => (rest w).run.run (cpu.setPc (cpu.pc + 4)) := by
  rw [run_bind, run_fetchQword, MMU.space_word h hps]
  cases m.readU32 cpu.currentPid cpu.pc with
  | error e => rfl
  | ok w => rfl

/-- The five fetches find what the space has at the program counter, or one of them faults. -/
theorem run_fetchEncoded_space (cpu : VirtualCPU) :
    match (m.space cpu.currentPid).encodedAt cpu.pc with
    | none => ∃ addr cpu', (fetchEncoded m).run.run cpu = (.error (.pageFault addr .read), cpu')
    | some encoded => (fetchEncoded m).run.run cpu = (.ok encoded, cpu.setPc (cpu.pc + 8)) := by
  have hfrom : ∀ i j n : UInt64, i + j = n → cpu.pc + i + j = cpu.pc + n := by
    rintro i j n rfl
    rw [UInt64.add_assoc]
  rw [fetchEncoded, run_byte_space, Space.encodedAt]
  cases (m.space cpu.currentPid).read cpu.pc with
  | none => exact ⟨cpu.pc, cpu, rfl⟩
  | some opcode =>
    simp only [Option.bind_eq_bind, Option.bind_some]
    rw [run_byte_space]
    simp only [setPc]
    cases (m.space cpu.currentPid).read (cpu.pc + 1) with
    | none => exact ⟨_, _, rfl⟩
    | some dstReg =>
      simp only [Option.bind_some]
      rw [run_byte_space]
      simp only [setPc, hfrom 1 1 2 rfl]
      cases (m.space cpu.currentPid).read (cpu.pc + 2) with
      | none => exact ⟨_, _, rfl⟩
      | some srcType =>
        simp only [Option.bind_some]
        rw [run_byte_space]
        simp only [setPc, hfrom 2 1 3 rfl]
        cases (m.space cpu.currentPid).read (cpu.pc + 3) with
        | none => exact ⟨_, _, rfl⟩
        | some pad =>
          simp only [Option.bind_some]
          rw [run_qword_space h hps]
          simp only [setPc, hfrom 3 1 4 rfl]
          cases (m.space cpu.currentPid).word (cpu.pc + 4) with
          | none => exact ⟨_, _, rfl⟩
          | some srcValue =>
            simp only [Option.bind_some, hfrom 4 4 8 rfl]
            rfl

/-- An instruction is fetched when its bytes are there; else the fetch faults. -/
theorem fetchInstruction_space (cpu : VirtualCPU) :
    match (m.space cpu.currentPid).encodedAt cpu.pc with
    | none => ∃ addr cpu', fetchInstruction m cpu = (.error (.pageFault addr .read), cpu')
    | some encoded => fetchInstruction m cpu =
        (decode encoded (cpu.pc + 8), cpu.setPc (cpu.pc + 8)) := by
  have hrun := run_fetchEncoded_space h hps cpu
  rw [fetchInstruction]
  split
  · next hspace =>
    rw [hspace] at hrun
    obtain ⟨addr, cpu', hfetch⟩ := hrun
    rw [hfetch]
    exact ⟨addr, cpu', rfl⟩
  · next encoded hspace =>
    rw [hspace] at hrun
    replace hrun : (fetchEncoded m).run.run cpu = (.ok encoded, cpu.setPc (cpu.pc + 8)) := hrun
    rw [hrun]
    rfl

omit h hps in
/-- An instruction does in the space what it does to the memory. -/
theorem executeInstruction_space (cpu : VirtualCPU) (m : MMU) (instr : Instruction) :
    match cpu.executeIn (m.space cpu.currentPid) instr with
    | none => ∃ addr access,
        executeInstruction cpu m instr = ⟨.error (.pageFault addr access), cpu, m⟩
    | some out => ∃ m', executeInstruction cpu m instr = ⟨out.result, out.cpu, m'⟩ ∧
        m'.space cpu.currentPid = out.space ∧ ∀ addr access, out.result ≠ .error (.pageFault addr access) := by
  cases instr with
  | load dst addr =>
    simp only [executeIn, executeInstruction]
    cases hread : m.readU8 cpu.currentPid (cpu.readOperand addr) with
    | error e =>
      rw [(m.space_read_eq_none cpu.currentPid _).2 ⟨e, hread⟩]
      exact ⟨_, _, rfl⟩
    | ok value =>
      rw [(m.space_read_eq_some cpu.currentPid _ value).2 hread]
      exact ⟨m, rfl, rfl, fun _ _ heq => by cases heq⟩
  | store src addr =>
    simp only [executeIn, executeInstruction]
    cases hwrite : m.writeU8 cpu.currentPid (cpu.readOperand addr) (cpu.readRegister src).toUInt8 with
    | error e =>
      rw [MMU.space_writeU8_error hwrite]
      exact ⟨_, _, rfl⟩
    | ok m' =>
      rw [MMU.space_writeU8 hwrite]
      exact ⟨m', rfl, rfl, fun _ _ heq => by cases heq⟩
  | div dst src =>
    simp only [executeIn, executeInstruction]
    by_cases hzero : cpu.readOperand src = 0
    · rw [if_pos hzero, if_pos hzero]
      exact ⟨m, rfl, rfl, fun _ _ heq => by cases heq⟩
    · rw [if_neg hzero, if_neg hzero]
      exact ⟨m, rfl, rfl, fun _ _ heq => by cases heq⟩
  | mov dst src => exact ⟨m, rfl, rfl, fun _ _ heq => by cases heq⟩
  | add dst src => exact ⟨m, rfl, rfl, fun _ _ heq => by cases heq⟩
  | sub dst src => exact ⟨m, rfl, rfl, fun _ _ heq => by cases heq⟩
  | mul dst src => exact ⟨m, rfl, rfl, fun _ _ heq => by cases heq⟩
  | jmp addr => exact ⟨m, rfl, rfl, fun _ _ heq => by cases heq⟩
  | cmp dst src => exact ⟨m, rfl, rfl, fun _ _ heq => by cases heq⟩
  | jz addr => exact ⟨m, rfl, rfl, fun _ _ heq => by cases heq⟩
  | jnz addr => exact ⟨m, rfl, rfl, fun _ _ heq => by cases heq⟩
  | int vector => exact ⟨m, rfl, rfl, fun _ _ heq => by cases heq⟩
  | halt => exact ⟨m, rfl, rfl, fun _ _ heq => by cases heq⟩

omit h hps in
theorem decodeBinary_ne_pageFault (e : Encoded) (make : Register → Operand → Instruction)
    (addr : VirtAddr) (access : AccessType) : decodeBinary e make ≠ .error (.pageFault addr access) := by
  have hregister : ∀ index, (∃ r, decodeRegister index = .ok r) ∨
      decodeRegister index = .error (.invalidRegister index) := by
    intro index
    rw [decodeRegister]
    cases Register.fromIndex index with
    | none => exact Or.inr rfl
    | some r => exact Or.inl ⟨r, rfl⟩
  have hoperand : (∃ o, decodeOperand e = .ok o) ∨
      ∃ index, decodeOperand e = .error (.invalidRegister index) := by
    rw [decodeOperand]
    split
    · rcases hregister e.srcValue.toNat with ⟨r, hr⟩ | herr
      · rw [hr]
        exact Or.inl ⟨.reg r, rfl⟩
      · rw [herr]
        exact Or.inr ⟨_, rfl⟩
    · exact Or.inl ⟨_, rfl⟩
  rw [decodeBinary]
  rcases hregister e.dstReg.toNat with ⟨r, hr⟩ | herr
  · rw [hr]
    rcases hoperand with ⟨o, ho⟩ | ⟨index, herr⟩
    · rw [ho]
      exact fun heq => by cases heq
    · rw [herr]
      exact fun heq => by cases heq
  · rw [herr]
    exact fun heq => by cases heq

omit h hps in
/-- Only memory accesses fault. -/
theorem decode_ne_pageFault (e : Encoded) (pc : UInt64) (addr : VirtAddr) (access : AccessType) :
    decode e pc ≠ .error (.pageFault addr access) := by
  rw [decode]
  split
  all_goals first
    | exact decodeBinary_ne_pageFault e _ addr access
    | exact fun heq => by cases heq

/-- The CPU behind the MMU refines the CPU in the space of its process. -/
theorem step_refines_stepIn (cpu : VirtualCPU) :
    (cpu.step m).result = (cpu.stepIn (m.space cpu.currentPid)).result ∧
      (cpu.step m).cpu = (cpu.stepIn (m.space cpu.currentPid)).cpu ∧
      (cpu.step m).mmu.space cpu.currentPid = (cpu.stepIn (m.space cpu.currentPid)).space := by
  have hfetch := fetchInstruction_space h hps cpu
  obtain ⟨pc, hpc⟩ := fetchInstruction_cpu m cpu
  rw [step, stepIn]
  split
  · exact ⟨rfl, rfl, rfl⟩
  split
  · exact ⟨rfl, rfl, rfl⟩
  cases hspace : (m.space cpu.currentPid).encodedAt cpu.pc with
  | none =>
    -- the fetch has moved the counter only, and the fault puts it back
    rw [hspace] at hfetch
    obtain ⟨addr, cpu', hfetch⟩ := hfetch
    rw [hfetch] at hpc
    replace hpc : cpu' = cpu.setPc pc := hpc
    rw [hfetch, hpc]
    exact ⟨rfl, rfl, rfl⟩
  | some encoded =>
    rw [hspace] at hfetch
    replace hfetch : fetchInstruction m cpu = (decode encoded (cpu.pc + 8), cpu.setPc (cpu.pc + 8)) :=
      hfetch
    rw [hfetch]
    cases hdecode : decode encoded (cpu.pc + 8) with
    | error e =>
      have hplain := decode_ne_pageFault encoded (cpu.pc + 8)
      rw [hdecode] at hplain
      simp only [hdecode]
      cases e with
      | pageFault addr access => exact absurd rfl (hplain addr access)
      | halted => exact ⟨rfl, rfl, rfl⟩
      | invalidRegister index => exact ⟨rfl, rfl, rfl⟩
      | invalidInstruction pc opcode => exact ⟨rfl, rfl, rfl⟩
      | divideByZero pc => exact ⟨rfl, rfl, rfl⟩
    | ok instr =>
      have hexec := executeInstruction_space (cpu.setPc (cpu.pc + 8)) m instr
      rw [setPc_pid] at hexec
      cases hrun : (cpu.setPc (cpu.pc + 8)).executeIn (m.space cpu.currentPid) instr with
      | none =>
        rw [hrun] at hexec
        obtain ⟨addr, access, hexec⟩ := hexec
        simp only [hdecode, runIn, hrun, hexec]
        refine ⟨?_, ?_, ?_⟩ <;> trivial
      | some out =>
        rw [hrun] at hexec
        obtain ⟨m', hexec, hspace', hplain⟩ := hexec
        obtain ⟨result, cpu', space'⟩ := out
        simp only [hdecode, runIn, hrun, hexec]
        cases result with
        | ok => exact ⟨rfl, rfl, hspace'⟩
        | error e =>
          cases e with
          | pageFault addr access => exact absurd rfl (hplain addr access)
          | halted => exact ⟨rfl, rfl, hspace'⟩
          | invalidRegister index => exact ⟨rfl, rfl, hspace'⟩
          | invalidInstruction pc opcode => exact ⟨rfl, rfl, hspace'⟩
          | divideByZero pc => exact ⟨rfl, rfl, hspace'⟩

end refinement

end VirtualCPU

end GenshinOs.Hardware
