import GenshinOs.Hardware.Isolation
import GenshinOs.Process.Assembler

/-!
# Programs

The meaning of a program as a list of instructions, and that it is kept by the assembler, the loader's
layout and the CPU: code that is stored somewhere in an address space runs there like its source, as
long as it does not overwrite itself. So a property of a program can be shown on its source.
-/

set_option autoImplicit false

namespace GenshinOs.Process

open GenshinOs.Lib GenshinOs.Hardware

/-! ## One instruction in memory -/

/-- The bytes of an instruction are at an address. -/
def CodeAt (s : Space) (pc : VirtAddr) (i : Instruction) : Prop :=
  ∀ j b, (encoded i)[j]? = some b → s.read (pc + UInt64.ofNat j) = some b

theorem CodeAt.encodedAt {s : Space} {pc : VirtAddr} {i : Instruction} (h : CodeAt s pc i)
    (hfits : Fits i) (haligned : pc.toNat % 4 = 0) :
    ∃ e, s.encodedAt pc = some e ∧ ∀ pc', VirtualCPU.decode e pc' = .ok i := by
  obtain ⟨opcode, dstReg, srcType, value, hencoded, hdecode⟩ := encoded_fields hfits
  rw [CodeAt, hencoded] at h
  have hfrom : ∀ i j n : UInt64, i + j = n → pc + i + j = pc + n := by
    rintro i j n rfl
    rw [UInt64.add_assoc]
  have h0 : s.read pc = some opcode := by
    simpa using h 0 opcode rfl
  have hfour : (pc + 4).toNat % 4 = 0 := by
    rw [UInt64.toNat_add, show (4 : UInt64).toNat = 4 from rfl]
    omega
  have hword : s.word (pc + 4) = some value.toUInt32.toUInt64 := by
    rw [Space.word, if_pos hfour, hfrom 4 1 5 rfl, hfrom 4 2 6 rfl, hfrom 4 3 7 rfl,
      show s.read (pc + 4) = _ from h 4 _ rfl, show s.read (pc + 5) = _ from h 5 _ rfl,
      show s.read (pc + 6) = _ from h 6 _ rfl, show s.read (pc + 7) = _ from h 7 _ rfl]
    simp only [Option.bind_eq_bind, Option.bind_some]
    rw [← MMU.toNat_or_bytes, ← wordOf, wordOf_bytes]
    apply congrArg some
    apply UInt64.toNat_inj.1
    rw [UInt64.toNat_ofNat', UInt32.toNat_toUInt64, Nat.mod_eq_of_lt]
    exact Nat.lt_trans value.toUInt32.toNat_lt (by decide)
  refine ⟨⟨opcode, dstReg, srcType, value.toUInt32.toUInt64⟩, ?_, hdecode⟩
  rw [Space.encodedAt, h0, show s.read (pc + 1) = _ from h 1 _ rfl,
    show s.read (pc + 2) = _ from h 2 _ rfl, show s.read (pc + 3) = _ from h 3 _ rfl, hword]
  rfl

/-- Where the bytes of an instruction are, the CPU runs it. -/
theorem stepIn_of_code {cpu : VirtualCPU} {s : Space} {i : Instruction} (hcode : CodeAt s cpu.pc i)
    (hfits : Fits i) (haligned : cpu.pc.toNat % 4 = 0) (hrunning : cpu.halted = false)
    (hready : cpu.pagefaultPending = false) : cpu.stepIn s = cpu.runIn s i := by
  obtain ⟨e, he, hdecode⟩ := hcode.encodedAt hfits haligned
  rw [VirtualCPU.stepIn, hrunning, hready, if_neg Bool.false_ne_true, if_neg Bool.false_ne_true, he]
  simp only [hdecode]

/-! ## The meaning of a program -/

/-- The instruction of a program at an address, when it lies from `base` on. -/
def instructionAt (program : List Instruction) (base pc : VirtAddr) : Option Instruction :=
  if (pc - base).toNat % 8 = 0 then program[(pc - base).toNat / 8]? else none

/-- The instruction stores into the program. -/
def overwrites (program : List Instruction) (base : VirtAddr) (cpu : VirtualCPU) (s : Space) :
    Instruction → Bool
  | .store _ addr => (List.range (8 * program.length)).any fun j =>
      s.shared (cpu.readOperand addr) (base + UInt64.ofNat j)
  | _ => false

/-- One step by the source of a program, wherever its bytes are. There is none outside of the program,
and none that stores into it. -/
def interpret (program : List Instruction) (base : VirtAddr) (cpu : VirtualCPU) (s : Space) :
    Option VirtualCPU.SteppedIn :=
  if cpu.halted then some ⟨.error .halted, cpu, s⟩
  else if cpu.pagefaultPending then some ⟨.ok (), cpu, s⟩
  else
    (instructionAt program base cpu.pc).bind fun i =>
      if overwrites program base cpu s i then none else some (cpu.runIn s i)

/-- Some steps by the source, with their results. -/
def interpretSteps (program : List Instruction) (base : VirtAddr) :
    Nat → VirtualCPU → Space → Option (List (Except CPUError Unit) × VirtualCPU × Space)
  | 0, cpu, s => some ([], cpu, s)
  | n + 1, cpu, s =>
    (interpret program base cpu s).bind fun out =>
      (interpretSteps program base n out.cpu out.space).map fun rest => (out.result :: rest.1, rest.2)

/-- The bytes of a program are in an address space, from `base` on. -/
def CodeIn (s : Space) (base : VirtAddr) (program : List Instruction) : Prop :=
  ∀ k i, program[k]? = some i → CodeAt s (base + UInt64.ofNat (8 * k)) i

theorem CodeIn.at_instruction {s : Space} {base : VirtAddr} {program : List Instruction}
    (h : CodeIn s base program) {pc : VirtAddr} {i : Instruction}
    (hi : instructionAt program base pc = some i) : CodeAt s pc i := by
  rw [instructionAt] at hi
  split at hi
  · next hmod =>
    have hpc : base + UInt64.ofNat (8 * ((pc - base).toNat / 8)) = pc := by
      rw [Nat.mul_div_cancel' (Nat.dvd_of_mod_eq_zero hmod), UInt64.ofNat_toNat, UInt64.add_comm,
        UInt64.sub_add_cancel]
    rw [← hpc]
    exact h _ i hi
  · cases hi

/-- An instruction changes the memory by a store only. -/
theorem runIn_space (cpu : VirtualCPU) (s : Space) (i : Instruction) :
    (cpu.runIn s i).space = s ∨ ∃ src addr, i = .store src addr ∧
      s.write (cpu.readOperand addr) (cpu.readRegister src).toUInt8 = some (cpu.runIn s i).space := by
  have hread : ∀ o, (cpu.setPc (cpu.pc + 8)).readOperand o = cpu.readOperand o := by
    intro o
    cases o <;> rfl
  cases i with
  | store src addr =>
    rw [VirtualCPU.runIn, VirtualCPU.executeIn, hread]
    have hvalue : (cpu.setPc (cpu.pc + 8)).readRegister src = cpu.readRegister src := rfl
    rw [hvalue]
    cases hwrite : s.write (cpu.readOperand addr) (cpu.readRegister src).toUInt8 with
    | none => exact Or.inl rfl
    | some s' => exact Or.inr ⟨src, addr, rfl, hwrite⟩
  | load dst addr =>
    rw [VirtualCPU.runIn, VirtualCPU.executeIn, hread]
    cases s.read (cpu.readOperand addr) with
    | none => exact Or.inl rfl
    | some b => exact Or.inl rfl
  | div dst src =>
    rw [VirtualCPU.runIn, VirtualCPU.executeIn, hread]
    split
    · exact Or.inl rfl
    · next hrun =>
      split at hrun
      · cases hrun
        exact Or.inl rfl
      · cases hrun
    · next hrun =>
      split at hrun
      · cases hrun
      · cases hrun
        exact Or.inl rfl
  | mov dst src => exact Or.inl rfl
  | add dst src => exact Or.inl rfl
  | sub dst src => exact Or.inl rfl
  | mul dst src => exact Or.inl rfl
  | jmp addr => exact Or.inl rfl
  | cmp dst src => exact Or.inl rfl
  | jz addr => exact Or.inl rfl
  | jnz addr => exact Or.inl rfl
  | int vector => exact Or.inl rfl
  | halt => exact Or.inl rfl

/-- A store beside the program leaves its bytes. -/
theorem CodeIn.kept {s : Space} {base : VirtAddr} {program : List Instruction}
    (h : CodeIn s base program) {cpu : VirtualCPU} {i : Instruction}
    (hbeside : overwrites program base cpu s i = false) :
    CodeIn (cpu.runIn s i).space base program := by
  rcases runIn_space cpu s i with hsame | ⟨src, addr, rfl, hwrite⟩
  · rw [hsame]
    exact h
  · intro k instr hinstr j b hb
    have hk := (List.getElem?_eq_some_iff.1 hinstr).1
    have hj : j < 8 := by
      rw [← length_encoded instr]
      exact (List.getElem?_eq_some_iff.1 hb).1
    have hplace : base + UInt64.ofNat (8 * k) + UInt64.ofNat j = base + UInt64.ofNat (8 * k + j) := by
      rw [UInt64.add_assoc, ← UInt64.ofNat_add]
    have hread := h k instr hinstr j b hb
    rw [Space.write] at hwrite
    split at hwrite
    · rw [overwrites, List.any_eq_false] at hbeside
      have hnot := hbeside (8 * k + j) (List.mem_range.2 (by omega))
      rw [← hplace] at hnot
      rw [← Option.some.inj hwrite]
      exact (if_neg hnot).trans hread
    · cases hwrite

/-- One step of the machine is one step by the source. -/
theorem stepIn_interpret {program : List Instruction} (hfits : ∀ i ∈ program, Fits i)
    {base : VirtAddr} (hbase : base.toNat % 4 = 0) {cpu : VirtualCPU} {s : Space}
    (hcode : CodeIn s base program) {out : VirtualCPU.SteppedIn}
    (hout : interpret program base cpu s = some out) :
    cpu.stepIn s = out ∧ CodeIn out.space base program := by
  rw [interpret] at hout
  cases hhalted : cpu.halted with
  | true =>
    rw [hhalted, if_pos rfl] at hout
    cases hout
    exact ⟨by rw [VirtualCPU.stepIn, hhalted, if_pos rfl], hcode⟩
  | false =>
    rw [hhalted, if_neg Bool.false_ne_true] at hout
    cases hpending : cpu.pagefaultPending with
    | true =>
      rw [hpending, if_pos rfl] at hout
      cases hout
      refine ⟨?_, hcode⟩
      rw [VirtualCPU.stepIn, hhalted, if_neg Bool.false_ne_true, hpending, if_pos rfl]
    | false =>
      rw [hpending, if_neg Bool.false_ne_true] at hout
      obtain ⟨i, hi, hrun⟩ := Option.bind_eq_some_iff.1 hout
      split at hrun
      · cases hrun
      · next hbeside =>
        cases hrun
        refine ⟨?_, hcode.kept (Bool.eq_false_iff.2 hbeside)⟩
        -- the address is base plus a multiple of eight
        have hmod : (cpu.pc - base).toNat % 8 = 0 ∧ program[(cpu.pc - base).toNat / 8]? = some i := by
          rw [instructionAt] at hi
          split at hi
          · next hmod => exact ⟨hmod, hi⟩
          · cases hi
        refine stepIn_of_code (hcode.at_instruction hi) (hfits i (List.mem_of_getElem? hmod.2)) ?_ hhalted
          hpending
        have hpc : cpu.pc.toNat = ((cpu.pc - base).toNat + base.toNat) % 2 ^ 64 := by
          rw [← UInt64.toNat_add, UInt64.sub_add_cancel]
        omega

theorem steps_interpret {program : List Instruction} (hfits : ∀ i ∈ program, Fits i)
    {base : VirtAddr} (hbase : base.toNat % 4 = 0) (n : Nat) {cpu cpu' : VirtualCPU} {s s' : Space}
    {results : List (Except CPUError Unit)} (hcode : CodeIn s base program)
    (hrun : interpretSteps program base n cpu s = some (results, cpu', s')) :
    alone VirtualCPU.turnIn n cpu s = (results, cpu', s') := by
  induction n generalizing cpu s results with
  | zero =>
    cases hrun
    rfl
  | succ n ih =>
    rw [interpretSteps] at hrun
    obtain ⟨out, hout, hmapped⟩ := Option.bind_eq_some_iff.1 hrun
    obtain ⟨⟨rest, cpu₁, s₁⟩, hrest, heq⟩ := Option.map_eq_some_iff.1 hmapped
    cases heq
    obtain ⟨hstep, hkept⟩ := stepIn_interpret hfits hbase hcode hout
    have htail := ih hkept hrest
    simp only [alone, VirtualCPU.turnIn, hstep]
    rw [htail]

/-- A list of bytes that is read from memory is the code that they encode. -/
theorem codeIn_of_bytes {s : Space} {base : VirtAddr} {program : List Instruction}
    (h : ∀ j b, (program.flatMap encoded)[j]? = some b → s.read (base + UInt64.ofNat j) = some b) :
    CodeIn s base program := by
  intro k i hi j b hb
  have hj : j < 8 := by
    rw [← length_encoded i]
    exact (List.getElem?_eq_some_iff.1 hb).1
  rw [UInt64.add_assoc, ← UInt64.ofNat_add]
  apply h
  rw [getElem?_flatMap_encoded hi hj]
  exact hb

/-- The assembler keeps the meaning of programs. Wherever the code of a program is loaded, in whatever
frames, the machine makes the steps of the source, with the same results, registers and memory, as far
as the source goes on without leaving the program and storing into it. -/
theorem assembled_runs_as_source (cm : CaseMap) {program : List Instruction} (hsome : program ≠ [])
    (hfits : ∀ i ∈ program, Fits i) :
    ∃ code, assemble cm (programText program) = .ok code ∧
      ∀ (memory : PhysicalMemory) (ps : PageSize) (ops : List TableOp) (base : VirtAddr)
        (cpu : VirtualCPU), 4 ≤ ps.bytes.toNat → base.toNat % 4 = 0 →
        (∀ j b, code[j]? = some b →
          (MMU.after memory ps ops).readU8 cpu.currentPid (base + UInt64.ofNat j) = .ok b) →
        ∀ n results cpu' s', interpretSteps program base n cpu
            ((MMU.after memory ps ops).space cpu.currentPid) = some (results, cpu', s') →
          (VirtualCPU.steps n cpu (MMU.after memory ps ops)).1 = results ∧
            (VirtualCPU.steps n cpu (MMU.after memory ps ops)).2.1 = cpu' ∧
            (VirtualCPU.steps n cpu (MMU.after memory ps ops)).2.2.space cpu.currentPid = s' := by
  refine ⟨_, assemble_programText cm hsome, ?_⟩
  intro memory ps ops base cpu hps hbase hloaded n results cpu' s' hrun
  have hcode : CodeIn ((MMU.after memory ps ops).space cpu.currentPid) base program := by
    apply codeIn_of_bytes
    intro j b hb
    exact ((MMU.after memory ps ops).space_read_eq_some cpu.currentPid _ b).2 (hloaded j b hb)
  have hsource := steps_interpret hfits hbase n hcode hrun
  rw [VirtualCPU.steps_refines (MMU.after_refines memory ps ops) hps n cpu] at hsource
  simpa only [Prod.mk.injEq] using hsource

/-- A move and a halt. -/
theorem assembled_runs_as_source_mov :
    let program : List Instruction := [.mov .r0 (.imm 42), .halt]
    let m := MMU.after ⟨fun a => (program.flatMap encoded).getD a 0, 0x1000⟩ PageSize.fourK
      [.mapPage 1 0 0 PageFlags.presentWritable]
    (VirtualCPU.steps 2 (VirtualCPU.new 1) m).1 = [.ok (), .ok ()] ∧
      (VirtualCPU.steps 2 (VirtualCPU.new 1) m).2.1.registers .r0 = 42 ∧
      (VirtualCPU.steps 2 (VirtualCPU.new 1) m).2.1.halted = true := by
  intro program m
  have hfits : ∀ i ∈ program, Fits i :=
    List.forall_mem_cons.2 ⟨show (42 : UInt64).toNat < 2 ^ 32 by decide,
      List.forall_mem_singleton.2 trivial⟩
  obtain ⟨code, hcode, hruns⟩ := assembled_runs_as_source .ascii (List.cons_ne_nil _ _) hfits
  rw [assemble_programText .ascii (List.cons_ne_nil _ _)] at hcode
  cases hcode
  have hmov : interpret program 0 (VirtualCPU.new 1) (m.space 1) =
      some ⟨.ok (), (((VirtualCPU.new 1).setPc 8).writeRegister .r0 42).count, m.space 1⟩ := rfl
  have hhalt : interpret program 0 (((VirtualCPU.new 1).setPc 8).writeRegister .r0 42).count (m.space 1) =
      some ⟨.ok (), ((((VirtualCPU.new 1).setPc 8).writeRegister .r0 42).count.setPc 16).halt.count,
        m.space 1⟩ := rfl
  have hsource : interpretSteps program 0 2 (VirtualCPU.new 1) (m.space 1) = some ([.ok (), .ok ()],
      ((((VirtualCPU.new 1).setPc 8).writeRegister .r0 42).count.setPc 16).halt.count, m.space 1) := by
    simp only [interpretSteps, hmov, hhalt, Option.bind_some, Option.map_some]
  obtain ⟨hresults, hcpu, -⟩ := hruns _ PageSize.fourK [.mapPage 1 0 0 PageFlags.presentWritable] 0
    (VirtualCPU.new 1) (by decide) rfl (by
      intro j b hb
      have hj : j < 16 := (List.getElem?_eq_some_iff.1 hb).1
      interval_cases j <;> (cases hb; decide +kernel)) 2 _ _ _ hsource
  refine ⟨hresults, ?_, ?_⟩
  · rw [hcpu]
    rfl
  · rw [hcpu]
    rfl

end GenshinOs.Process
