import GenshinOs.Process.Programs
import GenshinOs.Process.Syscall

/-!
# Inductive assertions

A program under the kernel is interrupted between any two instructions: its calls are served, its page
faults too, pages of its code go away and come back. `Runs` are the runs of a program under everything
that the kernel may do to it without breaking it. Assertions at the instructions of a program that every
instruction carries on, and that the kernel does not disturb, hold in all of them.
-/

set_option autoImplicit false

namespace GenshinOs.Process

open GenshinOs.Lib GenshinOs.Hardware

/-! ## Code in pages that come and go -/

/-- What can be read of an instruction at an address is right. -/
def CodeOrFault (s : Space) (pc : VirtAddr) (i : Instruction) : Prop :=
  ∀ j b, (encoded i)[j]? = some b →
    s.read (pc + UInt64.ofNat j) = none ∨ s.read (pc + UInt64.ofNat j) = some b

/-- Without one of its bytes an instruction is not fetched. -/
theorem encodedAt_eq_none {s : Space} {pc : VirtAddr} {j : Nat} (hj : j < 8)
    (hmissing : s.read (pc + UInt64.ofNat j) = none) : s.encodedAt pc = none := by
  have hfrom : ∀ i j n : UInt64, i + j = n → pc + i + j = pc + n := by
    rintro i j n rfl
    rw [UInt64.add_assoc]
  cases h : s.encodedAt pc with
  | none => rfl
  | some e =>
    -- a fetch reads all eight bytes
    simp only [Space.encodedAt, Space.word, Option.bind_eq_bind, Option.bind_eq_some_iff] at h
    obtain ⟨b₀, h₀, b₁, h₁, b₂, h₂, b₃, h₃, w, hw, -⟩ := h
    split at hw
    · simp only [Option.bind_eq_some_iff] at hw
      obtain ⟨b₄, h₄, b₅, h₅, b₆, h₆, b₇, h₇, -⟩ := hw
      rw [hfrom 4 1 5 rfl] at h₅
      rw [hfrom 4 2 6 rfl] at h₆
      rw [hfrom 4 3 7 rfl] at h₇
      have hread : ∀ (i : Nat) (b : UInt8), s.read (pc + UInt64.ofNat i) = some b → i ≠ j := by
        rintro i b hb rfl
        rw [hmissing] at hb
        cases hb
      have hfirst := hread 0 b₀ (by simpa using h₀)
      have hsecond := hread 1 b₁ h₁
      have hthird := hread 2 b₂ h₂
      have hfourth := hread 3 b₃ h₃
      have hfifth := hread 4 b₄ h₄
      have hsixth := hread 5 b₅ h₅
      have hseventh := hread 6 b₆ h₆
      have heighth := hread 7 b₇ h₇
      omega
    · cases hw

/-- A running CPU executes the instruction or faults on it. -/
theorem stepIn_of_codeOrFault {cpu : VirtualCPU} {s : Space} {i : Instruction}
    (hcode : CodeOrFault s cpu.pc i) (hfits : Fits i) (haligned : cpu.pc.toNat % 4 = 0)
    (hrunning : cpu.halted = false) (hready : cpu.pagefaultPending = false) :
    cpu.stepIn s = ⟨.ok (), cpu.markFault, s⟩ ∨ cpu.stepIn s = cpu.runIn s i := by
  by_cases hwhole : CodeAt s cpu.pc i
  · exact Or.inr (stepIn_of_code hwhole hfits haligned hrunning hready)
  · left
    rw [CodeAt] at hwhole
    push Not at hwhole
    obtain ⟨j, b, hb, hread⟩ := hwhole
    have hj : j < 8 := by
      rw [← length_encoded i]
      exact (List.getElem?_eq_some_iff.1 hb).1
    have hnone := encodedAt_eq_none hj ((hcode j b hb).resolve_right hread)
    rw [VirtualCPU.stepIn, hrunning, hready, if_neg Bool.false_ne_true, if_neg Bool.false_ne_true, hnone]

/-! ## Runs under the kernel -/

/-- What the kernel does to a CPU between two instructions. Registers change in a system call only. -/
structure Resumed (cpu cpu' : VirtualCPU) : Prop where
  pc_eq : cpu'.pc = cpu.pc
  flags_eq : cpu'.flags = cpu.flags
  registers_eq : cpu.syscallPending = false → cpu'.registers = cpu.registers
  pending : cpu'.syscallPending = true → cpu.syscallPending = true

/-- The system call that a CPU asks for. -/
def callOf (cpu : VirtualCPU) : List SystemCall :=
  if cpu.syscallPending then
    [SystemCall.decode (cpu.syscallRegs .r0) (cpu.syscallRegs .r1) (cpu.syscallRegs .r2)]
  else []

/-- A program runs, with the calls that it makes, on a CPU that is stepped when no call is pending,
and on a memory that the kernel changes between the steps as `keeps` allows. -/
inductive Runs (keeps : Space → Space → Prop) (x : VirtualCPU × Space) :
    List SystemCall → VirtualCPU × Space → Prop
  | start : Runs keeps x [] x
  | step {calls : List SystemCall} {cpu : VirtualCPU} {s : Space} (h : Runs keeps x calls (cpu, s))
      (hserved : cpu.syscallPending = false) :
      Runs keeps x (calls ++ callOf (cpu.stepIn s).cpu) ((cpu.stepIn s).cpu, (cpu.stepIn s).space)
  | kernel {calls : List SystemCall} {cpu cpu' : VirtualCPU} {s s' : Space}
      (h : Runs keeps x calls (cpu, s)) (hcpu : Resumed cpu cpu') (hspace : keeps s s') :
      Runs keeps x calls (cpu', s')

/-! ## Assertions -/

/-- The address of an instruction of a program that lies at the beginning of the memory. -/
def address (k : Nat) : VirtAddr := UInt64.ofNat (8 * k)

/-- Assertions at the instructions of a program that its instructions carry on and that the kernel does
not disturb. -/
structure Asserted (program : List Instruction) (keeps : Space → Space → Prop)
    (A : Nat → VirtualCPU → Space → List SystemCall → Prop) : Prop where
  code : ∀ {k cpu s calls}, A k cpu s calls →
    ∃ i, program[k]? = some i ∧ Fits i ∧ CodeOrFault s (address k) i
  fault : ∀ {k cpu s calls}, A k cpu s calls → cpu.syscallPending = false → A k cpu.markFault s calls
  instruction : ∀ {k cpu s calls i}, A k cpu s calls → program[k]? = some i → cpu.pc = address k →
    cpu.syscallPending = false → ∃ k', (cpu.runIn s i).cpu.pc = address k' ∧
      A k' (cpu.runIn s i).cpu (cpu.runIn s i).space (calls ++ callOf (cpu.runIn s i).cpu)
  kernel : ∀ {k cpu cpu' s s' calls}, A k cpu s calls → Resumed cpu cpu' → keeps s s' →
    A k cpu' s' calls

variable {program : List Instruction} {keeps : Space → Space → Prop}
  {A : Nat → VirtualCPU → Space → List SystemCall → Prop}

theorem callOf_eq_nil {cpu : VirtualCPU} (h : cpu.syscallPending = false) : callOf cpu = [] := by
  rw [callOf, h]
  rfl

theorem address_mod (k : Nat) : (address k).toNat % 4 = 0 := by
  rw [address, UInt64.toNat_ofNat']
  omega

/-- A step carries the assertion of one instruction to that of another. -/
theorem Asserted.step (h : Asserted program keeps A) {k : Nat} {cpu : VirtualCPU} {s : Space}
    {calls : List SystemCall} (hk : A k cpu s calls) (hpc : cpu.pc = address k)
    (hserved : cpu.syscallPending = false) :
    ∃ k', (cpu.stepIn s).cpu.pc = address k' ∧
      A k' (cpu.stepIn s).cpu (cpu.stepIn s).space (calls ++ callOf (cpu.stepIn s).cpu) := by
  cases hhalted : cpu.halted with
  | true =>
    rw [VirtualCPU.stepIn, hhalted, if_pos rfl, callOf_eq_nil hserved, List.append_nil]
    exact ⟨k, hpc, hk⟩
  | false =>
    cases hpending : cpu.pagefaultPending with
    | true =>
      rw [VirtualCPU.stepIn, hhalted, hpending, if_neg Bool.false_ne_true, if_pos rfl,
        callOf_eq_nil hserved, List.append_nil]
      exact ⟨k, hpc, hk⟩
    | false =>
      obtain ⟨i, hi, hfits, hcode⟩ := h.code hk
      rw [← hpc] at hcode
      have haligned : cpu.pc.toNat % 4 = 0 := by
        rw [hpc]
        exact address_mod k
      rcases stepIn_of_codeOrFault hcode hfits haligned hhalted hpending with hfault | hrun
      · rw [hfault]
        have hnone : callOf cpu.markFault = [] := callOf_eq_nil hserved
        simp only [hnone, List.append_nil]
        exact ⟨k, hpc, h.fault hk hserved⟩
      · rw [hrun]
        exact h.instruction hk hi hpc hserved

/-- The assertions hold along every run. -/
theorem Asserted.holds (h : Asserted program keeps A) {k : Nat} {x y : VirtualCPU × Space}
    {calls : List SystemCall} (hstart : A k x.1 x.2 []) (hpc : x.1.pc = address k)
    (hrun : Runs keeps x calls y) : ∃ k', y.1.pc = address k' ∧ A k' y.1 y.2 calls := by
  induction hrun with
  | start => exact ⟨k, hpc, hstart⟩
  | step _ hserved ih =>
    obtain ⟨k', hpc', hk'⟩ := ih
    exact h.step hk' hpc' hserved
  | kernel _ hcpu hspace ih =>
    obtain ⟨k', hpc', hk'⟩ := ih
    exact ⟨k', hcpu.pc_eq.trans hpc', h.kernel hk' hcpu hspace⟩

/-! ## Instructions at their addresses -/

section rules

variable {cpu : VirtualCPU} (s : Space) {k : Nat}

theorem address_succ (k : Nat) : address k + 8 = address (k + 1) := by
  rw [address, address, Nat.mul_succ, UInt64.ofNat_add]
  rfl

/-- The CPU behind an instruction. -/
def next (cpu : VirtualCPU) (k : Nat) : VirtualCPU := (cpu.setPc (address (k + 1))).count

variable (hpc : cpu.pc = address k)

include hpc

theorem runIn_mov (dst : Register) (src : Operand) : cpu.runIn s (.mov dst src) =
    ⟨.ok (), (next cpu k).writeRegister dst (cpu.readOperand src), s⟩ := by
  rw [VirtualCPU.runIn, hpc, address_succ]
  cases src <;> rfl

theorem runIn_arith {dst : Register} {src : Operand} {op : UInt64 → UInt64 → UInt64}
    {i : Instruction}
    (hi : ∀ c : VirtualCPU, c.executeIn s i = some ⟨.ok (), c.arith dst src op, s⟩) :
    cpu.runIn s i = ⟨.ok (), (next cpu k).arith dst src op, s⟩ := by
  rw [VirtualCPU.runIn, hpc, address_succ, hi]
  cases src <;> rfl

theorem runIn_cmp (dst : Register) (src : Operand) : cpu.runIn s (.cmp dst src) =
    ⟨.ok (), { next cpu k with
      flags := CPUFlags.fromResult (cpu.readRegister dst - cpu.readOperand src)
        (cpu.readRegister dst) (cpu.readOperand src) }, s⟩ := by
  rw [VirtualCPU.runIn, hpc, address_succ]
  cases src <;> rfl

theorem runIn_jmp (target : Nat) : cpu.runIn s (.jmp (address target)) =
    ⟨.ok (), (next cpu k).setPc (address target), s⟩ := by
  rw [VirtualCPU.runIn, hpc, address_succ]
  rfl

theorem runIn_jnz (target : Nat) : cpu.runIn s (.jnz (address target)) =
    ⟨.ok (), if cpu.flags.zero then next cpu k else (next cpu k).setPc (address target), s⟩ := by
  rw [VirtualCPU.runIn, hpc, address_succ]
  cases hzero : cpu.flags.zero with
  | true => simp only [VirtualCPU.executeIn, VirtualCPU.setPc, hzero, if_true, next]
  | false =>
    simp only [VirtualCPU.executeIn, VirtualCPU.setPc, hzero, Bool.false_eq_true, if_false, next,
      VirtualCPU.count]

theorem runIn_syscall : cpu.runIn s (.int VirtualCPU.syscallVector) =
    ⟨.ok (), { next cpu k with syscallRegs := cpu.registers, syscallPending := true }, s⟩ := by
  rw [VirtualCPU.runIn, hpc, address_succ]
  rfl

/-- A store into memory that can be written goes on with the memory written. -/
theorem runIn_store_of_write {src : Register} {addr : VirtAddr} {s' : Space}
    (hwrite : s.write addr (cpu.readRegister src).toUInt8 = some s') :
    cpu.runIn s (.store src (.imm addr)) = ⟨.ok (), next cpu k, s'⟩ := by
  have hvalue : (cpu.setPc (address (k + 1))).readRegister src = cpu.readRegister src := rfl
  rw [VirtualCPU.runIn, hpc, address_succ, VirtualCPU.executeIn, VirtualCPU.readOperand, hvalue, hwrite]
  rfl

end rules

end GenshinOs.Process
