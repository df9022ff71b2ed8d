import GenshinOs.Hardware.Mmu

/-!
# Virtual CPU

The fetch-decode-execute cycle of the mock instruction set (`src/hardware/cpu.rs`). A step works on
the CPU and the MMU behind it. A page fault in the fetch or in a memory operand puts the program
counter back and leaves a pending mark for the timer loop; other errors are returned with the
program counter where the fetch left it. Reports on the bus are not modelled: the process service
takes only timer interrupts from there.
-/

set_option autoImplicit false

namespace GenshinOs.Hardware

open GenshinOs.Lib

/-- General-purpose registers. -/
inductive Register where
  | r0
  | r1
  | r2
  | r3
  deriving DecidableEq, Repr

/-- The register with this number, if there is one. -/
def Register.fromIndex (idx : Nat) : Option Register :=
  match idx with
  | 0 => some .r0
  | 1 => some .r1
  | 2 => some .r2
  | 3 => some .r3
  | _ => none

/-- CPU flags register. -/
structure CPUFlags where
  zero : Bool
  sign : Bool
  overflow : Bool
  carry : Bool
  deriving DecidableEq, Repr

/-- No flag is set. -/
def CPUFlags.new : CPUFlags := ⟨false, false, false, false⟩

/-- The sign bit of a word. -/
def isNegative (x : UInt64) : Bool := decide (2 ^ 63 ≤ x.toNat)

/-- Flags of an arithmetic result. -/
def CPUFlags.fromResult (result a b : UInt64) : CPUFlags where
  zero := result == 0
  sign := isNegative result
  overflow := (!isNegative a && !isNegative b && isNegative result) ||
    (isNegative a && isNegative b && !isNegative result)
  carry := decide (result < a)

/-- Operand: register or immediate value. -/
inductive Operand where
  | reg (reg : Register)
  | imm (value : UInt64)
  deriving DecidableEq, Repr

/-- Instructions. -/
inductive Instruction where
  | mov (dst : Register) (src : Operand)
  | add (dst : Register) (src : Operand)
  | sub (dst : Register) (src : Operand)
  | mul (dst : Register) (src : Operand)
  | div (dst : Register) (src : Operand)
  | load (dst : Register) (addr : Operand)
  | store (src : Register) (addr : Operand)
  | jmp (addr : VirtAddr)
  | cmp (dst : Register) (src : Operand)
  | jz (addr : VirtAddr)
  | jnz (addr : VirtAddr)
  | int (vector : UInt8)
  | halt
  deriving DecidableEq, Repr

/-- Errors of the CPU. -/
inductive CPUError where
  | halted
  | pageFault (vaddr : VirtAddr) (accessType : AccessType)
  | invalidRegister (index : Nat)
  | invalidInstruction (pc : UInt64) (opcode : UInt8)
  | divideByZero (pc : UInt64)
  deriving DecidableEq, Repr

/-- Virtual CPU. -/
structure VirtualCPU where
  registers : Register → UInt64
  pc : UInt64
  sp : UInt64
  flags : CPUFlags
  currentPid : Pid
  halted : Bool
  syscallPending : Bool
  syscallRegs : Register → UInt64
  instructionCount : UInt64
  pagefaultPending : Bool

namespace VirtualCPU

/-- A CPU at address 0 with its stack at the end of the addresses. -/
def new (pid : Pid) : VirtualCPU where
  registers := fun _ => 0
  pc := 0
  sp := 0xFFFFFFFFFFFFF000
  flags := CPUFlags.new
  currentPid := pid
  halted := false
  syscallPending := false
  syscallRegs := fun _ => 0
  instructionCount := 0
  pagefaultPending := false

/-- The value of a register. -/
def readRegister (cpu : VirtualCPU) (reg : Register) : UInt64 := cpu.registers reg

/-- A register gets a value. -/
def writeRegister (cpu : VirtualCPU) (reg : Register) (value : UInt64) : VirtualCPU :=
  { cpu with registers := Function.update cpu.registers reg value }

/-- The program counter gets a value. -/
def setPc (cpu : VirtualCPU) (pc : UInt64) : VirtualCPU := { cpu with pc := pc }

/-- The stack pointer gets a value. -/
def setSp (cpu : VirtualCPU) (sp : UInt64) : VirtualCPU := { cpu with sp := sp }

/-- The CPU stops. -/
def halt (cpu : VirtualCPU) : VirtualCPU := { cpu with halted := true }

/-- The value of an operand: that of its register, or its number. -/
def readOperand (cpu : VirtualCPU) : Operand → UInt64
  | .reg reg => cpu.readRegister reg
  | .imm value => value

/-! ## Fetch and decode -/

/-- Code that moves the CPU on and may stop with an error, which leaves the CPU where it is. -/
abbrev Fetch (α : Type) := ExceptT CPUError (StateM VirtualCPU) α

/-- Fetch a single byte at the program counter. -/
def fetchByte (m : MMU) : Fetch UInt8 := do
  let cpu ← get
  match m.readU8 cpu.currentPid cpu.pc with
  | .error _ => throw (.pageFault cpu.pc .read)
  | .ok value =>
    set (cpu.setPc (cpu.pc + 1))
    return value

/-- Fetch the operand word: four bytes, widened. -/
def fetchQword (m : MMU) : Fetch UInt64 := do
  let cpu ← get
  match m.readU32 cpu.currentPid cpu.pc with
  | .error _ => throw (.pageFault cpu.pc .read)
  | .ok value =>
    set (cpu.setPc (cpu.pc + 4))
    return value.toUInt64

/-- The fields of an encoded instruction, without the padding byte. -/
structure Encoded where
  opcode : UInt8
  dstReg : UInt8
  srcType : UInt8
  srcValue : UInt64
  deriving DecidableEq, Repr

/-- The five fetches of an instruction. -/
def fetchEncoded (m : MMU) : Fetch Encoded := do
  let opcode ← fetchByte m
  let dstReg ← fetchByte m
  let srcType ← fetchByte m
  let _ ← fetchByte m
  let srcValue ← fetchQword m
  return ⟨opcode, dstReg, srcType, srcValue⟩

/-- A register number of the code, or an error. -/
def decodeRegister (index : Nat) : Except CPUError Register :=
  match Register.fromIndex index with
  | some reg => .ok reg
  | none => .error (.invalidRegister index)

/-- Source operand: a register when the type byte is zero. -/
def decodeOperand (e : Encoded) : Except CPUError Operand :=
  if e.srcType = 0 then (decodeRegister e.srcValue.toNat).map .reg else .ok (.imm e.srcValue)

/-- An instruction with a register and an operand. -/
def decodeBinary (e : Encoded) (make : Register → Operand → Instruction) :
    Except CPUError Instruction := do
  let dst ← decodeRegister e.dstReg.toNat
  let src ← decodeOperand e
  pure (make dst src)

/-- Subtraction that stops at zero. -/
def saturatingSub (a b : UInt64) : UInt64 := if b ≤ a then a - b else 0

/-- The instruction of an opcode. -/
def decode (e : Encoded) (pc : UInt64) : Except CPUError Instruction :=
  match e.opcode.toNat with
  | 0x01 => decodeBinary e .mov
  | 0x02 => decodeBinary e .add
  | 0x03 => decodeBinary e .sub
  | 0x04 => decodeBinary e .mul
  | 0x05 => decodeBinary e .div
  | 0x06 => decodeBinary e .load
  | 0x07 => decodeBinary e .store
  | 0x10 => .ok (.jmp e.srcValue)
  | 0x11 => decodeBinary e .cmp
  | 0x12 => .ok (.jz e.srcValue)
  | 0x13 => .ok (.jnz e.srcValue)
  | 0x80 => .ok (.int e.srcValue.toUInt8)
  | 0xFF => .ok .halt
  | _ => .error (.invalidInstruction (saturatingSub pc 11) e.opcode)

/-- Fetch an instruction. A page fault leaves the program counter wherever the fetch stopped, a
decoding error leaves it behind the instruction. -/
def fetchInstruction (m : MMU) (cpu : VirtualCPU) : Except CPUError Instruction × VirtualCPU :=
  match (fetchEncoded m).run.run cpu with
  | (.error e, cpu') => (.error e, cpu')
  | (.ok encoded, cpu') => (decode encoded cpu'.pc, cpu')

/-! ## Execute -/

/-- Outcome of an execution: result, CPU and MMU. -/
structure Stepped where
  result : Except CPUError Unit
  cpu : VirtualCPU
  mmu : MMU

/-- Vector of the system call interrupt. -/
def syscallVector : UInt8 := 0x80

/-- A system call takes a copy of the registers; other vectors are ignored. -/
def handleSoftwareInterrupt (cpu : VirtualCPU) (vector : UInt8) : VirtualCPU :=
  if vector = syscallVector then { cpu with syscallRegs := cpu.registers, syscallPending := true }
  else cpu

/-- An arithmetic result with its flags. -/
def arith (cpu : VirtualCPU) (dst : Register) (src : Operand) (op : UInt64 → UInt64 → UInt64) :
    VirtualCPU :=
  let a := cpu.readRegister dst
  let b := cpu.readOperand src
  let result := op a b
  ({ cpu with flags := CPUFlags.fromResult result a b }).writeRegister dst result

/-- One instruction on registers, flags and memory. -/
def executeInstruction (cpu : VirtualCPU) (m : MMU) : Instruction → Stepped
  | .mov dst src => ⟨.ok (), cpu.writeRegister dst (cpu.readOperand src), m⟩
  | .add dst src => ⟨.ok (), cpu.arith dst src (· + ·), m⟩
  | .sub dst src => ⟨.ok (), cpu.arith dst src (· - ·), m⟩
  | .mul dst src => ⟨.ok (), cpu.arith dst src (· * ·), m⟩
  | .div dst src =>
    if cpu.readOperand src = 0 then ⟨.error (.divideByZero cpu.pc), cpu, m⟩
    else ⟨.ok (), cpu.arith dst src (· / ·), m⟩
  | .load dst addr =>
    match m.readU8 cpu.currentPid (cpu.readOperand addr) with
    | .error _ => ⟨.error (.pageFault (cpu.readOperand addr) .read), cpu, m⟩
    | .ok value => ⟨.ok (), cpu.writeRegister dst value.toUInt64, m⟩
  | .store src addr =>
    match m.writeU8 cpu.currentPid (cpu.readOperand addr) (cpu.readRegister src).toUInt8 with
    | .error _ => ⟨.error (.pageFault (cpu.readOperand addr) .write), cpu, m⟩
    | .ok m' => ⟨.ok (), cpu, m'⟩
  | .jmp addr => ⟨.ok (), cpu.setPc addr, m⟩
  | .cmp dst src =>
    let a := cpu.readRegister dst
    let b := cpu.readOperand src
    ⟨.ok (), { cpu with flags := CPUFlags.fromResult (a - b) a b }, m⟩
  | .jz addr => ⟨.ok (), if cpu.flags.zero then cpu.setPc addr else cpu, m⟩
  | .jnz addr => ⟨.ok (), if cpu.flags.zero then cpu else cpu.setPc addr, m⟩
  | .int vector => ⟨.ok (), cpu.handleSoftwareInterrupt vector, m⟩
  | .halt => ⟨.ok (), cpu.halt, m⟩

/-- A page fault puts the program counter back and waits for the kernel. -/
def faulted (cpu : VirtualCPU) (savedPc : UInt64) : VirtualCPU :=
  { cpu with pc := savedPc, pagefaultPending := true }

/-- One instruction. -/
def step (cpu : VirtualCPU) (m : MMU) : Stepped :=
  if cpu.halted then ⟨.error .halted, cpu, m⟩
  else if cpu.pagefaultPending then ⟨.ok (), cpu, m⟩
  else
    match fetchInstruction m cpu with
    | (.error (.pageFault _ _), cpu') => ⟨.ok (), cpu'.faulted cpu.pc, m⟩
    | (.error e, cpu') => ⟨.error e, cpu', m⟩
    | (.ok instr, cpu') =>
      match executeInstruction cpu' m instr with
      | ⟨.error (.pageFault _ _), cpu'', m'⟩ => ⟨.ok (), cpu''.faulted cpu.pc, m'⟩
      | ⟨.error e, cpu'', m'⟩ => ⟨.error e, cpu'', m'⟩
      | ⟨.ok (), cpu'', m'⟩ =>
        ⟨.ok (), { cpu'' with instructionCount := cpu''.instructionCount + 1 }, m'⟩

/-! ## What a step leaves alone -/

/-- Neither the owner of the CPU nor the page tables change. -/
structure Contained (cpu : VirtualCPU) (m : MMU) (r : Stepped) : Prop where
  pid_eq : r.cpu.currentPid = cpu.currentPid
  tables_eq : r.mmu.pageTables = m.pageTables
  pageSize_eq : r.mmu.pageSize = m.pageSize
  size_eq : r.mmu.memory.size = m.memory.size

@[simp] theorem writeRegister_pid (cpu : VirtualCPU) (reg : Register) (value : UInt64) :
    (cpu.writeRegister reg value).currentPid = cpu.currentPid := rfl

@[simp] theorem writeRegister_halted (cpu : VirtualCPU) (reg : Register) (value : UInt64) :
    (cpu.writeRegister reg value).halted = cpu.halted := rfl

@[simp] theorem setPc_pid (cpu : VirtualCPU) (pc : UInt64) :
    (cpu.setPc pc).currentPid = cpu.currentPid := rfl

theorem run_fetchByte (m : MMU) (cpu : VirtualCPU) : (fetchByte m).run.run cpu =
    match m.readU8 cpu.currentPid cpu.pc with
    | .error _ => (.error (.pageFault cpu.pc .read), cpu)
    | .ok value => (.ok value, cpu.setPc (cpu.pc + 1)) := by
  change ((match m.readU8 cpu.currentPid cpu.pc with
    | .error _ => throw (.pageFault cpu.pc .read)
    | .ok value => do
      set (cpu.setPc (cpu.pc + 1))
      return value : Fetch UInt8)).run.run cpu = _
  cases m.readU8 cpu.currentPid cpu.pc with
  | error e => rfl
  | ok value => rfl

theorem run_fetchQword (m : MMU) (cpu : VirtualCPU) : (fetchQword m).run.run cpu =
    match m.readU32 cpu.currentPid cpu.pc with
    | .error _ => (.error (.pageFault cpu.pc .read), cpu)
    | .ok value => (.ok value.toUInt64, cpu.setPc (cpu.pc + 4)) := by
  change ((match m.readU32 cpu.currentPid cpu.pc with
    | .error _ => throw (.pageFault cpu.pc .read)
    | .ok value => do
      set (cpu.setPc (cpu.pc + 4))
      return value.toUInt64 : Fetch UInt64)).run.run cpu = _
  cases m.readU32 cpu.currentPid cpu.pc with
  | error e => rfl
  | ok value => rfl

theorem run_bind {α β : Type} (x : Fetch α) (f : α → Fetch β) (cpu : VirtualCPU) :
    (x >>= f).run.run cpu =
      match x.run.run cpu with
      | (.error e, cpu') => (.error e, cpu')
      | (.ok a, cpu') => (f a).run.run cpu' := by
  change (match x.run.run cpu with
    | (result, cpu') => (ExceptT.bindCont f result).run cpu') = _
  cases x.run.run cpu with
  | mk result cpu' =>
    cases result with
    | error e => rfl
    | ok a => rfl

/-- Only the program counter moves, also when the code stops with an error. -/
def MovesPc {α : Type} (x : Fetch α) : Prop := ∀ cpu, ∃ pc, (x.run.run cpu).2 = cpu.setPc pc

theorem movesPc_fetchByte (m : MMU) : MovesPc (fetchByte m) := by
  intro cpu
  rw [run_fetchByte]
  split
  · exact ⟨cpu.pc, rfl⟩
  · exact ⟨cpu.pc + 1, rfl⟩

theorem movesPc_fetchQword (m : MMU) : MovesPc (fetchQword m) := by
  intro cpu
  rw [run_fetchQword]
  split
  · exact ⟨cpu.pc, rfl⟩
  · exact ⟨cpu.pc + 4, rfl⟩

theorem MovesPc.bind {α β : Type} {x : Fetch α} {f : α → Fetch β} (hx : MovesPc x)
    (hf : ∀ a, MovesPc (f a)) : MovesPc (x >>= f) := by
  intro cpu
  obtain ⟨pc, hpc⟩ := hx cpu
  rw [run_bind]
  split
  · next hrun =>
    rw [hrun] at hpc
    exact ⟨pc, hpc⟩
  · next a cpu' hrun =>
    rw [hrun] at hpc
    obtain ⟨pc', hpc'⟩ := hf a cpu'
    refine ⟨pc', hpc'.trans ?_⟩
    rw [show cpu' = cpu.setPc pc from hpc]
    rfl

/-- The bytes are fetched one after the other. -/
theorem movesPc_fetchEncoded (m : MMU) : MovesPc (fetchEncoded m) := by
  have hbyte := movesPc_fetchByte m
  refine hbyte.bind fun _ => hbyte.bind fun _ => hbyte.bind fun _ => hbyte.bind fun _ => ?_
  refine (movesPc_fetchQword m).bind fun _ => ?_
  intro cpu
  exact ⟨cpu.pc, rfl⟩

theorem fetchInstruction_cpu (m : MMU) (cpu : VirtualCPU) :
    ∃ pc, (fetchInstruction m cpu).2 = cpu.setPc pc := by
  obtain ⟨pc, hpc⟩ := movesPc_fetchEncoded m cpu
  refine ⟨pc, ?_⟩
  rw [fetchInstruction]
  split
  · next hrun =>
    rw [hrun] at hpc
    exact hpc
  · next hrun =>
    rw [hrun] at hpc
    exact hpc

theorem executeInstruction_contained (cpu : VirtualCPU) (m : MMU) (instr : Instruction) :
    Contained cpu m (executeInstruction cpu m instr) := by
  cases instr with
  | mov dst src => exact ⟨rfl, rfl, rfl, rfl⟩
  | add dst src => exact ⟨rfl, rfl, rfl, rfl⟩
  | sub dst src => exact ⟨rfl, rfl, rfl, rfl⟩
  | mul dst src => exact ⟨rfl, rfl, rfl, rfl⟩
  | div dst src =>
    simp only [executeInstruction]
    split
    · exact ⟨rfl, rfl, rfl, rfl⟩
    · exact ⟨rfl, rfl, rfl, rfl⟩
  | load dst addr =>
    simp only [executeInstruction]
    split
    · exact ⟨rfl, rfl, rfl, rfl⟩
    · exact ⟨rfl, rfl, rfl, rfl⟩
  | store src addr =>
    simp only [executeInstruction]
    split
    · exact ⟨rfl, rfl, rfl, rfl⟩
    · next m' hw =>
      -- only a store changes the memory, and it leaves the tables
      obtain ⟨paddr, -, -, rfl⟩ := MMU.writeU8_eq_ok hw
      exact ⟨rfl, rfl, rfl, rfl⟩
  | jmp addr => exact ⟨rfl, rfl, rfl, rfl⟩
  | cmp dst src => exact ⟨rfl, rfl, rfl, rfl⟩
  | jz addr =>
    simp only [executeInstruction]
    split
    · exact ⟨rfl, rfl, rfl, rfl⟩
    · exact ⟨rfl, rfl, rfl, rfl⟩
  | jnz addr =>
    simp only [executeInstruction]
    split
    · exact ⟨rfl, rfl, rfl, rfl⟩
    · exact ⟨rfl, rfl, rfl, rfl⟩
  | int vector =>
    simp only [executeInstruction, handleSoftwareInterrupt]
    split
    · exact ⟨rfl, rfl, rfl, rfl⟩
    · exact ⟨rfl, rfl, rfl, rfl⟩
  | halt => exact ⟨rfl, rfl, rfl, rfl⟩

theorem step_contained (cpu : VirtualCPU) (m : MMU) : Contained cpu m (cpu.step m) := by
  simp only [step]
  split
  · exact ⟨rfl, rfl, rfl, rfl⟩
  split
  · exact ⟨rfl, rfl, rfl, rfl⟩
  -- the fetch moves the counter only
  obtain ⟨pc, hpc⟩ := fetchInstruction_cpu m cpu
  split
  · next heq =>
    rw [heq] at hpc
    subst hpc
    exact ⟨rfl, rfl, rfl, rfl⟩
  · next heq =>
    rw [heq] at hpc
    subst hpc
    exact ⟨rfl, rfl, rfl, rfl⟩
  · next instr cpu' heq =>
    rw [heq] at hpc
    replace hpc : cpu' = cpu.setPc pc := hpc
    have hexec := executeInstruction_contained cpu' m instr
    rw [hpc] at hexec ⊢
    split
    · next h =>
      rw [h] at hexec
      exact ⟨hexec.pid_eq, hexec.tables_eq, hexec.pageSize_eq, hexec.size_eq⟩
    · next h =>
      rw [h] at hexec
      exact ⟨hexec.pid_eq, hexec.tables_eq, hexec.pageSize_eq, hexec.size_eq⟩
    · next h =>
      rw [h] at hexec
      exact ⟨hexec.pid_eq, hexec.tables_eq, hexec.pageSize_eq, hexec.size_eq⟩

/-! ## Page faults -/

/-- An execution that stops with an error has done nothing. -/
theorem executeInstruction_error {cpu : VirtualCPU} {m : MMU} {instr : Instruction} {e : CPUError}
    (h : (executeInstruction cpu m instr).result = .error e) :
    (executeInstruction cpu m instr).cpu = cpu ∧ (executeInstruction cpu m instr).mmu = m := by
  -- a division by zero or an access that faults
  cases instr with
  | div dst src =>
    simp only [executeInstruction] at h ⊢
    split at h
    · next hzero =>
      rw [if_pos hzero]
      exact ⟨rfl, rfl⟩
    · cases h
  | load dst addr =>
    simp only [executeInstruction] at h ⊢
    split at h
    · exact ⟨rfl, rfl⟩
    · cases h
  | store src addr =>
    simp only [executeInstruction] at h ⊢
    split at h
    · exact ⟨rfl, rfl⟩
    · cases h
  | mov dst src => cases h
  | add dst src => cases h
  | sub dst src => cases h
  | mul dst src => cases h
  | jmp addr => cases h
  | cmp dst src => cases h
  | jz addr => cases h
  | jnz addr => cases h
  | int vector => cases h
  | halt => cases h

/-- An execution marks no page fault by itself. -/
theorem executeInstruction_pending (cpu : VirtualCPU) (m : MMU) (instr : Instruction) :
    (executeInstruction cpu m instr).cpu.pagefaultPending = cpu.pagefaultPending := by
  cases instr with
  | div dst src =>
    simp only [executeInstruction]
    split
    · rfl
    · rfl
  | load dst addr =>
    simp only [executeInstruction]
    split
    · rfl
    · rfl
  | store src addr =>
    simp only [executeInstruction]
    split
    · rfl
    · rfl
  | jz addr =>
    simp only [executeInstruction]
    split
    · rfl
    · rfl
  | jnz addr =>
    simp only [executeInstruction]
    split
    · rfl
    · rfl
  | int vector =>
    simp only [executeInstruction, handleSoftwareInterrupt]
    split
    · rfl
    · rfl
  | mov dst src => rfl
  | add dst src => rfl
  | sub dst src => rfl
  | mul dst src => rfl
  | jmp addr => rfl
  | cmp dst src => rfl
  | halt => rfl

/-- A step of a running CPU either faults, and then nothing but the mark has changed, or leaves no
mark. -/
theorem step_fault_cases {cpu : VirtualCPU} (m : MMU) (hrunning : cpu.halted = false)
    (hready : cpu.pagefaultPending = false) :
    cpu.step m = ⟨.ok (), { cpu with pagefaultPending := true }, m⟩ ∨
      (cpu.step m).cpu.pagefaultPending = false := by
  obtain ⟨pc, hpc⟩ := fetchInstruction_cpu m cpu
  rw [step, if_neg (by rw [hrunning]; exact Bool.false_ne_true),
    if_neg (by rw [hready]; exact Bool.false_ne_true)]
  split
  · -- the fetch faults, with the program counter already on its way
    next hfetch =>
    rw [hfetch] at hpc
    subst hpc
    exact Or.inl rfl
  · next hfetch =>
    rw [hfetch] at hpc
    subst hpc
    exact Or.inr hready
  · next instr cpu' hfetch =>
    rw [hfetch] at hpc
    replace hpc : cpu' = cpu.setPc pc := hpc
    subst hpc
    have hkept := executeInstruction_pending (cpu.setPc pc) m instr
    split
    · -- a memory operand faults, before anything was changed
      next hexec =>
      have hsame := @executeInstruction_error (cpu.setPc pc) m instr _ (by rw [hexec])
      rw [hexec] at hsame
      obtain ⟨rfl, rfl⟩ := hsame
      exact Or.inl rfl
    · next hexec =>
      rw [hexec] at hkept
      exact Or.inr (hkept.trans hready)
    · next hexec =>
      rw [hexec] at hkept
      exact Or.inr (hkept.trans hready)

/-- Mapping requests, one after the other. -/
def mapPages (m : MMU) (requests : List (Pid × VirtAddr × PhysAddr × PageFlags)) : Except MMUError MMU :=
  requests.foldlM (fun m r => m.mapPage r.1 r.2.1 r.2.2.1 r.2.2.2) m

/-- A mapping request never fails. -/
theorem mapPages_ok (requests : List (Pid × VirtAddr × PhysAddr × PageFlags)) (m : MMU) :
    ∃ m', mapPages m requests = .ok m' := by
  induction requests generalizing m with
  | nil => exact ⟨m, rfl⟩
  | cons r requests ih =>
    obtain ⟨m₁, hm₁, -⟩ := m.mapPage_ok r.1 r.2.1 r.2.2.1 r.2.2.2
    obtain ⟨m', hm'⟩ := ih m₁
    refine ⟨m', ?_⟩
    rw [mapPages, List.foldlM_cons, hm₁]
    exact hm'

/-- A page fault can be taken again: the step that raises it leaves everything but the mark as it was,
and once pages are mapped and the mark is gone, the next step is the one that the CPU would have made
with those pages from the start. -/
theorem step_restartable {cpu : VirtualCPU} {m : MMU} (hrunning : cpu.halted = false)
    (hready : cpu.pagefaultPending = false) (hfault : (cpu.step m).cpu.pagefaultPending = true) :
    ((cpu.step m).cpu = { cpu with pagefaultPending := true } ∧ (cpu.step m).mmu = m) ∧
    ∀ requests, ∃ m', mapPages (cpu.step m).mmu requests = .ok m' ∧ mapPages m requests = .ok m' ∧
      ({ (cpu.step m).cpu with pagefaultPending := false } : VirtualCPU).step m' = cpu.step m' := by
  have hstep : cpu.step m = ⟨.ok (), { cpu with pagefaultPending := true }, m⟩ := by
    rcases step_fault_cases m hrunning hready with hfaulted | hunmarked
    · exact hfaulted
    · rw [hunmarked] at hfault
      cases hfault
  rw [hstep]
  refine ⟨⟨rfl, rfl⟩, ?_⟩
  intro requests
  obtain ⟨m', hm'⟩ := mapPages_ok requests m
  refine ⟨m', hm', hm', ?_⟩
  have hcleared : ({ ({ cpu with pagefaultPending := true } : VirtualCPU) with
      pagefaultPending := false } : VirtualCPU) = cpu := by
    rw [← hready]
  exact congrArg (fun c : VirtualCPU => c.step m') hcleared

/-- A store to page `0x1000`, with only the page of the code mapped. -/
theorem step_restartable_store :
    let m : MMU := ⟨AList.insert 1 (AList.insert 0 ⟨0, .presentWritable⟩ ∅) ∅,
      ⟨fun a => [0x07, 0, 1, 0, 0, 0x10, 0, 0].getD a 0, 8192⟩, PageSize.fourK⟩
    (((VirtualCPU.new 1).step m).cpu.pagefaultPending = true ∧ ((VirtualCPU.new 1).step m).mmu = m) := by
  intro m
  have hfault : ((VirtualCPU.new 1).step m).cpu.pagefaultPending = true := by decide +kernel
  exact ⟨hfault, (step_restartable rfl rfl hfault).1.2⟩

/-! ## Halting and system calls -/

/-- The next step of a running CPU executes the halt instruction. -/
def atHalt (cpu : VirtualCPU) (m : MMU) : Bool :=
  match (fetchInstruction m cpu).1 with
  | .ok .halt => !cpu.pagefaultPending
  | _ => false

/-- The halt instruction stops the CPU and does nothing else that the kernel looks at. -/
theorem step_atHalt {cpu : VirtualCPU} {m : MMU} (hrunning : cpu.halted = false)
    (h : cpu.atHalt m = true) :
    (cpu.step m).result = .ok () ∧ (cpu.step m).cpu.halted = true ∧
      (cpu.step m).cpu.syscallPending = cpu.syscallPending := by
  obtain ⟨pc, hpc⟩ := fetchInstruction_cpu m cpu
  rw [atHalt] at h
  split at h
  · next hinstr =>
    have hready : cpu.pagefaultPending = false := by simpa using h
    have hfetch : fetchInstruction m cpu = (.ok .halt, cpu.setPc pc) := Prod.ext hinstr hpc
    rw [step, if_neg (by rw [hrunning]; exact Bool.false_ne_true),
      if_neg (by rw [hready]; exact Bool.false_ne_true), hfetch]
    exact ⟨rfl, rfl, rfl⟩
  · cases h

/-- A step that ends in an error asks for no system call. -/
theorem step_error_pending {cpu : VirtualCPU} {m : MMU} {e : CPUError}
    (h : (cpu.step m).result = .error e) : (cpu.step m).cpu.syscallPending = cpu.syscallPending := by
  -- the fetch moves the counter only, and a failed execution does nothing
  obtain ⟨pc, hpc⟩ := fetchInstruction_cpu m cpu
  rw [step] at h ⊢
  split
  · rfl
  split
  · rfl
  next hrunning hready =>
  rw [if_neg hrunning, if_neg hready] at h
  split
  · next hfetch =>
    rw [hfetch] at h
    cases h
  · next hfetch =>
    rw [hfetch] at hpc
    subst hpc
    rfl
  · next instr cpu' hfetch =>
    rw [hfetch] at h hpc
    replace hpc : cpu' = cpu.setPc pc := hpc
    subst hpc
    split
    · next hexec =>
      simp only [hexec] at h
      cases h
    · next hexec =>
      have hsame := @executeInstruction_error (cpu.setPc pc) m instr _ (by rw [hexec])
      rw [hexec] at hsame
      obtain ⟨rfl, -⟩ := hsame
      rfl
    · next hexec =>
      simp only [hexec] at h
      cases h

end VirtualCPU

end GenshinOs.Hardware
