import GenshinOs.Lib.Hoare
import GenshinOs.Process.Following

/-!
# Programs of the repository

What the programs in `programs/` do when the CPU runs them, in whatever address space. The delay loop
that `syncdemo.asm` spins in takes three steps for each unit of its counter. The one of `memtest.asm` jumps
to a wrong address, and the program never ends.
-/

set_option autoImplicit false

namespace GenshinOs.Process

open GenshinOs.Lib GenshinOs.Hardware GenshinOs.Memory

open Machine

/-! ## The delay loop -/

/-- The CPU and the memory after a step. -/
def stepPair (x : VirtualCPU × Space) : VirtualCPU × Space :=
  ((x.1.stepIn x.2).cpu, (x.1.stepIn x.2).space)

/-- The delay loop on a register: `SUB R, #1`, `CMP R, #0` and `JNZ` back. -/
def delayLoop (r : Register) (pc : VirtAddr) : List Instruction :=
  [.sub r (.imm 1), .cmp r (.imm 0), .jnz pc]

section delay

variable (cpu : VirtualCPU) (s : Space) (r : Register) (n : Nat)

/-- A CPU that has left the loop with counter `k`, apart from program counter and flags. -/
def delayed (pc : VirtAddr) (flags : CPUFlags) (k steps : Nat) : VirtualCPU :=
  { cpu with
    pc := pc
    flags := flags
    registers := Function.update cpu.registers r (UInt64.ofNat k)
    instructionCount := cpu.instructionCount + UInt64.ofNat steps }

/-- Another instruction is counted. -/
theorem delayed_count (pc : VirtAddr) (flags : CPUFlags) (k steps : Nat) :
    (delayed cpu r pc flags k steps).count = delayed cpu r pc flags k (steps + 1) := by
  simp only [VirtualCPU.count, delayed, UInt64.ofNat_add, UInt64.add_assoc]
  rfl

/-- The counter goes one down, -/
theorem delayed_sub (pc : VirtAddr) (flags : CPUFlags) (k steps : Nat) :
    ∃ flags', (delayed cpu r pc flags (k + 1) steps).runIn s (.sub r (.imm 1)) =
      ⟨.ok (), delayed cpu r (pc + 8) flags' k (steps + 1), s⟩ := by
  have hless : UInt64.ofNat (k + 1) - 1 = UInt64.ofNat k := by
    rw [UInt64.ofNat_add]
    exact UInt64.add_sub_cancel _ _
  refine ⟨CPUFlags.fromResult (UInt64.ofNat k) (UInt64.ofNat (k + 1)) 1, ?_⟩
  rw [← delayed_count]
  simp only [VirtualCPU.runIn, VirtualCPU.executeIn, VirtualCPU.arith, VirtualCPU.readOperand,
    VirtualCPU.readRegister, VirtualCPU.writeRegister, VirtualCPU.setPc, delayed, Function.update_self,
    Function.update_idem, hless]

/-- the flag says whether it is zero, -/
theorem delayed_cmp (pc : VirtAddr) (flags : CPUFlags) (k steps : Nat) :
    ∃ flags', (flags'.zero = true ↔ UInt64.ofNat k = 0) ∧
      (delayed cpu r pc flags k steps).runIn s (.cmp r (.imm 0)) =
        ⟨.ok (), delayed cpu r (pc + 8) flags' k (steps + 1), s⟩ := by
  refine ⟨CPUFlags.fromResult (UInt64.ofNat k - 0) (UInt64.ofNat k) 0, by simp [CPUFlags.fromResult], ?_⟩
  rw [← delayed_count]
  simp only [VirtualCPU.runIn, VirtualCPU.executeIn, VirtualCPU.readOperand, VirtualCPU.readRegister,
    VirtualCPU.setPc, delayed, Function.update_self]

/-- and the loop goes on unless it is. -/
theorem delayed_jnz (pc target : VirtAddr) (flags : CPUFlags) (k steps : Nat) :
    (delayed cpu r pc flags k steps).runIn s (.jnz target) =
      ⟨.ok (), delayed cpu r (if flags.zero then pc + 8 else target) flags k (steps + 1), s⟩ := by
  rw [← delayed_count]
  cases hzero : flags.zero with
  | true =>
    simp only [VirtualCPU.runIn, VirtualCPU.executeIn, VirtualCPU.setPc, delayed, hzero, if_true]
  | false =>
    simp only [VirtualCPU.runIn, VirtualCPU.executeIn, VirtualCPU.setPc, delayed, hzero,
      Bool.false_eq_true, if_false]

/-- The states between the rounds of the loop, when `k` of `n` rounds are left. -/
def DelayState (n k : Nat) (x : VirtualCPU × Space) : Prop :=
  k ≤ n ∧ x.2 = s ∧ ∃ flags, (k = 0 → flags.zero = true) ∧
    x.1 = delayed cpu r (if k = 0 then cpu.pc + 24 else cpu.pc) flags k (3 * (n - k))

variable {cpu s r}

/-- The rule of an instruction of the loop. -/
theorem triple_delayed {i : Instruction} {pc : VirtAddr} (hat : CodeAt s pc i) (hfits : Fits i)
    (haligned : pc.toNat % 4 = 0) (hrunning : cpu.halted = false) (hready : cpu.pagefaultPending = false)
    {F : CPUFlags → Prop} {k steps : Nat} {Q : VirtualCPU × Space → Prop}
    (hpost : ∀ flags, F flags → Q (((delayed cpu r pc flags k steps).runIn s i).cpu,
      ((delayed cpu r pc flags k steps).runIn s i).space)) :
    Triple stepPair (fun x => ∃ flags, F flags ∧ x = (delayed cpu r pc flags k steps, s)) 1 Q := by
  apply Triple.one
  rintro x ⟨flags, hflags, rfl⟩
  have hstep : (delayed cpu r pc flags k steps).stepIn s = (delayed cpu r pc flags k steps).runIn s i :=
    stepIn_of_code hat hfits haligned hrunning hready
  rw [stepPair, hstep]
  exact hpost flags hflags

/-- Three steps are one round of the loop. -/
theorem triple_round (hcode : CodeIn s cpu.pc (delayLoop r cpu.pc)) (hlow : cpu.pc.toNat < 2 ^ 32)
    (haligned : cpu.pc.toNat % 4 = 0) (hrunning : cpu.halted = false)
    (hready : cpu.pagefaultPending = false) {n : Nat} (hn : n ≤ 2 ^ 64) (k : Nat) :
    Triple stepPair (DelayState cpu s r n (k + 1)) 3 (DelayState cpu s r n k) := by
  have hnext : ∀ i : UInt64, i.toNat % 4 = 0 → (cpu.pc + i).toNat % 4 = 0 := by
    intro i hi
    rw [UInt64.toNat_add]
    omega
  have hsub : CodeAt s cpu.pc (.sub r (.imm 1)) := by
    simpa using hcode 0 _ rfl
  have hcmp : CodeAt s (cpu.pc + 8) (.cmp r (.imm 0)) := hcode 1 _ rfl
  have hjnz : CodeAt s (cpu.pc + 8 + 8) (.jnz cpu.pc) := by
    rw [UInt64.add_assoc]
    exact hcode 2 _ rfl
  by_cases hk : k + 1 ≤ n
  · have hsteps : 3 * (n - (k + 1)) + 1 + 1 + 1 = 3 * (n - k) := by omega
    have hfirst : Triple stepPair (DelayState cpu s r n (k + 1)) 1 fun x => ∃ flags, True ∧
        x = (delayed cpu r (cpu.pc + 8) flags k (3 * (n - (k + 1)) + 1), s) := by
      have hrule : Triple stepPair (fun x => ∃ flags, True ∧
            x = (delayed cpu r cpu.pc flags (k + 1) (3 * (n - (k + 1))), s)) 1 fun x =>
          ∃ flags, True ∧ x = (delayed cpu r (cpu.pc + 8) flags k (3 * (n - (k + 1)) + 1), s) := by
        refine triple_delayed hsub (show (1 : UInt64).toNat < 2 ^ 32 by decide) haligned hrunning hready ?_
        intro flags _
        obtain ⟨flags', hrun⟩ := delayed_sub cpu s r cpu.pc flags k (3 * (n - (k + 1)))
        rw [hrun]
        exact ⟨flags', trivial, rfl⟩
      refine hrule.consequence ?_ fun x hx => hx
      rintro x ⟨-, hspace, flags, -, hcpu⟩
      exact ⟨flags, trivial, Prod.ext hcpu hspace⟩
    have hsecond : Triple stepPair (fun x => ∃ flags, True ∧
          x = (delayed cpu r (cpu.pc + 8) flags k (3 * (n - (k + 1)) + 1), s)) 1 fun x =>
        ∃ flags : CPUFlags, (flags.zero = true ↔ UInt64.ofNat k = 0) ∧
          x = (delayed cpu r (cpu.pc + 8 + 8) flags k (3 * (n - (k + 1)) + 1 + 1), s) := by
      refine triple_delayed hcmp (show (0 : UInt64).toNat < 2 ^ 32 by decide) (hnext 8 rfl) hrunning
        hready ?_
      intro flags _
      obtain ⟨flags', hzero, hrun⟩ :=
        delayed_cmp cpu s r (cpu.pc + 8) flags k (3 * (n - (k + 1)) + 1)
      rw [hrun]
      exact ⟨flags', hzero, rfl⟩
    have hthird : Triple stepPair (fun x =>
        ∃ flags : CPUFlags, (flags.zero = true ↔ UInt64.ofNat k = 0) ∧
          x = (delayed cpu r (cpu.pc + 8 + 8) flags k (3 * (n - (k + 1)) + 1 + 1), s)) 1
        (DelayState cpu s r n k) := by
      refine triple_delayed hjnz hlow ?_ hrunning hready ?_
      · rw [UInt64.add_assoc]
        exact hnext 16 rfl
      · intro flags hzero
        rw [delayed_jnz, hsteps]
        -- the counter is below the number of words, so it is zero as a number too
        have hcounter : flags.zero = true ↔ k = 0 := by
          rw [hzero, ← UInt64.toNat_inj, UInt64.toNat_ofNat', Nat.mod_eq_of_lt (by omega)]
          rfl
        refine ⟨by omega, rfl, flags, hcounter.2, ?_⟩
        by_cases hdone : k = 0
        · rw [if_pos (hcounter.2 hdone), if_pos hdone, UInt64.add_assoc, UInt64.add_assoc]
          rfl
        · rw [if_neg fun h => hdone (hcounter.1 h), if_neg hdone]
    exact (hfirst.seq hsecond).seq hthird
  · rintro x ⟨hle, -⟩
    exact absurd hle hk

end delay

/-- The rounds of the delay loop for a start value. The counter is tested after it was lowered, so zero
stands for all words. -/
def rounds (value : UInt64) : Nat := if value = 0 then 2 ^ 64 else value.toNat

/-- The delay loop takes three steps for each unit of its counter and changes nothing else: the counter
is zero behind it, and the other registers and the memory are as before. -/
theorem delay_loop_steps (memory : PhysicalMemory) (ps : PageSize) (hps : 4 ≤ ps.bytes.toNat)
    (ops : List TableOp) (cpu : VirtualCPU) (r : Register)
    (hcode : CodeIn ((MMU.after memory ps ops).space cpu.currentPid) cpu.pc (delayLoop r cpu.pc))
    (hlow : cpu.pc.toNat < 2 ^ 32) (haligned : cpu.pc.toNat % 4 = 0) (hrunning : cpu.halted = false)
    (hready : cpu.pagefaultPending = false) :
    ∃ flags : CPUFlags, flags.zero = true ∧
      (VirtualCPU.steps (3 * rounds (cpu.registers r)) cpu (MMU.after memory ps ops)).2.1 =
        { cpu with
          pc := cpu.pc + 24
          flags := flags
          registers := Function.update cpu.registers r 0
          instructionCount := cpu.instructionCount + UInt64.ofNat (3 * rounds (cpu.registers r)) } ∧
      (VirtualCPU.steps (3 * rounds (cpu.registers r)) cpu (MMU.after memory ps ops)).2.2.space
        cpu.currentPid = (MMU.after memory ps ops).space cpu.currentPid := by
  have hrounds : rounds (cpu.registers r) ≤ 2 ^ 64 ∧ rounds (cpu.registers r) ≠ 0 ∧
      UInt64.ofNat (rounds (cpu.registers r)) = cpu.registers r := by
    rw [rounds]
    split
    · next hzero =>
      rw [hzero]
      exact ⟨le_rfl, by decide, by decide⟩
    · next hpos =>
      refine ⟨(cpu.registers r).toNat_lt.le, fun h => hpos (UInt64.toNat_inj.1 h), UInt64.ofNat_toNat⟩
  obtain ⟨hmax, hpos, hvalue⟩ := hrounds
  have hstart : DelayState cpu ((MMU.after memory ps ops).space cpu.currentPid) r
      (rounds (cpu.registers r)) (rounds (cpu.registers r))
      (cpu, (MMU.after memory ps ops).space cpu.currentPid) := by
    refine ⟨le_rfl, rfl, cpu.flags, fun h => absurd h hpos, ?_⟩
    rw [if_neg hpos, delayed, hvalue, Nat.sub_self, Function.update_eq_self]
    simp
  have hloop := Triple.loop (triple_round hcode hlow haligned hrunning hready hmax)
    (rounds (cpu.registers r)) _ hstart
  obtain ⟨-, hspace, flags, hzero, hcpu⟩ := hloop
  have hsteps := VirtualCPU.steps_refines (MMU.after_refines memory ps ops) hps
    (3 * rounds (cpu.registers r)) cpu
  have hiterate := alone_iterate VirtualCPU.turnIn (3 * rounds (cpu.registers r)) cpu
    ((MMU.after memory ps ops).space cpu.currentPid)
  rw [hsteps] at hiterate
  replace hiterate : _ = stepPair^[3 * rounds (cpu.registers r)] _ := hiterate
  rw [← hiterate] at hspace hcpu
  exact ⟨flags, hzero rfl, hcpu, hspace⟩

/-- A loop on a register that begins with fifty. -/
theorem delay_loop_steps_fifty :
    let cpu := (VirtualCPU.new 1).writeRegister .r2 50
    let m := MMU.after ⟨fun a => ((delayLoop .r2 0).flatMap encoded).getD a 0, 0x1000⟩ PageSize.fourK
      [.mapPage 1 0 0 PageFlags.presentWritable]
    (VirtualCPU.steps 150 cpu m).2.1.pc = 24 := by
  intro cpu m
  obtain ⟨flags, -, hcpu, -⟩ := delay_loop_steps ⟨fun a => ((delayLoop .r2 0).flatMap encoded).getD a 0,
    0x1000⟩ PageSize.fourK (by decide) [.mapPage 1 0 0 PageFlags.presentWritable] cpu .r2 (by
      apply codeIn_of_bytes
      intro j b hb
      have hj : j < 24 := (List.getElem?_eq_some_iff.1 hb).1
      interval_cases j <;> (cases hb; decide +kernel)) (by decide) rfl rfl rfl
  have hrounds : 3 * rounds (cpu.registers .r2) = 150 := by decide
  rw [hrounds] at hcpu
  rw [hcpu]
  rfl

/-! ## The semaphore demo -/

/-- `programs/syncdemo.asm`. -/
def syncdemo : List Instruction :=
  [.mov .r1 (.imm 0), .mov .r0 (.imm 201), .int 0x80,
    .mov .r0 (.imm 1), .mov .r1 (.imm 0x5B), .int 0x80,
    .mov .r2 (.imm 50), .sub .r2 (.imm 1), .cmp .r2 (.imm 0), .jnz 0x38,
    .mov .r1 (.imm 0), .mov .r0 (.imm 202), .int 0x80,
    .mov .r0 (.imm 1), .mov .r1 (.imm 0x5D), .int 0x80,
    .jmp 0x00]

/-- The calls of the demo, from the first one on. -/
def syncdemoCall (n : Nat) : SystemCall :=
  match n % 4 with
  | 0 => .semWait 0
  | 1 => .printChar 0x5B
  | 2 => .semSignal 0
  | _ => .printChar 0x5D

/-- A list of calls is a beginning of those of the demo. -/
def FollowsDemo (calls : List SystemCall) : Prop :=
  ∀ n c, calls[n]? = some c → c = syncdemoCall n

/-- The next call is the one of the protocol. -/
theorem FollowsDemo.append {calls : List SystemCall} (h : FollowsDemo calls) {c : SystemCall}
    (hc : c = syncdemoCall calls.length) : FollowsDemo (calls ++ [c]) := by
  intro n c' hc'
  rcases Nat.lt_trichotomy n calls.length with hlt | rfl | hgt
  · rw [List.getElem?_append_left hlt] at hc'
    exact h n c' hc'
  · rw [List.getElem?_append_right le_rfl, Nat.sub_self] at hc'
    cases hc'
    exact hc
  · rw [List.getElem?_eq_none (by rw [List.length_append, List.length_singleton]; omega)] at hc'
    cases hc'

/-- How many calls of a round have been made at an instruction. -/
def syncdemoPhase (k : Nat) : Nat :=
  if k < 3 then 0 else if k < 6 then 1 else if k < 13 then 2 else if k < 16 then 3 else 0

/-- The registers that a call of the demo will find. -/
def SyncdemoRegisters (k : Nat) (cpu : VirtualCPU) : Prop :=
  match k with
  | 1 => cpu.syscallPending = false ∧ cpu.registers .r1 = 0
  | 2 => cpu.syscallPending = false ∧ cpu.registers .r0 = 201 ∧ cpu.registers .r1 = 0
  | 4 => cpu.syscallPending = false ∧ cpu.registers .r0 = 1
  | 5 => cpu.syscallPending = false ∧ cpu.registers .r0 = 1 ∧ cpu.registers .r1 = 0x5B
  | 11 => cpu.syscallPending = false ∧ cpu.registers .r1 = 0
  | 12 => cpu.syscallPending = false ∧ cpu.registers .r0 = 202 ∧ cpu.registers .r1 = 0
  | 14 => cpu.syscallPending = false ∧ cpu.registers .r0 = 1
  | 15 => cpu.syscallPending = false ∧ cpu.registers .r0 = 1 ∧ cpu.registers .r1 = 0x5D
  | _ => True

/-- The assertions of the demo. -/
structure SyncdemoAt (k : Nat) (cpu : VirtualCPU) (s : Space) (calls : List SystemCall) : Prop where
  inside : k < 17
  intact : Intact syncdemo s
  follows : FollowsDemo calls
  phase : calls.length % 4 = syncdemoPhase k
  registers : SyncdemoRegisters k cpu

/-- Every instruction of the demo fits into its eight bytes. -/
theorem syncdemo_fits : ∀ i ∈ syncdemo, Fits i := by
  simp only [syncdemo, List.forall_mem_cons, Fits, OperandFits]
  refine ⟨?_, ?_, ?_, ?_, ?_, ?_, ?_, ?_, ?_, ?_, ?_, ?_, ?_, ?_, ?_, ?_, ?_, ?_⟩
  all_goals first
    | trivial
    | decide
    | exact fun _ h => absurd h List.not_mem_nil

/-- The registers are as before when the kernel has done something else than a call. -/
theorem SyncdemoRegisters.resumed {k : Nat} {cpu cpu' : VirtualCPU} (h : SyncdemoRegisters k cpu)
    (hcpu : Resumed cpu cpu') : SyncdemoRegisters k cpu' := by
  have hkept : cpu.syscallPending = false →
      cpu'.syscallPending = false ∧ cpu'.registers = cpu.registers := by
    intro hserved
    refine ⟨?_, hcpu.registers_eq hserved⟩
    rw [Bool.eq_false_iff]
    intro hpending
    rw [hcpu.pending hpending] at hserved
    cases hserved
  unfold SyncdemoRegisters at h ⊢
  split at h
  all_goals first
    | trivial
    | (obtain ⟨hserved, hregisters⟩ := h
       obtain ⟨hserved', heq⟩ := hkept hserved
       rw [heq]
       exact ⟨hserved', hregisters⟩)

/-- An instruction that makes no call leads to the next address with its assertion. -/
theorem SyncdemoAt.quiet {k : Nat} {cpu : VirtualCPU} {s : Space} {calls : List SystemCall}
    (h : SyncdemoAt k cpu s calls) (k' : Nat) {out : VirtualCPU.SteppedIn} (hpc : out.cpu.pc = address k')
    (hspace : out.space = s) (hserved : out.cpu.syscallPending = false) (hinside : k' < 17)
    (hphase : syncdemoPhase k' = syncdemoPhase k) (hregisters : SyncdemoRegisters k' out.cpu) :
    ∃ k', out.cpu.pc = address k' ∧ SyncdemoAt k' out.cpu out.space (calls ++ callOf out.cpu) := by
  refine ⟨k', hpc, hinside, ?_, ?_, ?_, hregisters⟩
  · rw [hspace]
    exact h.intact
  · rw [callOf_eq_nil hserved, List.append_nil]
    exact h.follows
  · rw [callOf_eq_nil hserved, List.append_nil, h.phase, hphase]

/-- A call is the next one of the demo. -/
theorem SyncdemoAt.called {k : Nat} {cpu : VirtualCPU} {s : Space} {calls : List SystemCall}
    (h : SyncdemoAt k cpu s calls) (hpc : cpu.pc = address k) (hinside : k + 1 < 17)
    (hphase : syncdemoPhase (k + 1) = (syncdemoPhase k + 1) % 4)
    (hplain : ∀ c, SyncdemoRegisters (k + 1) c)
    (hcall : ∀ n, n % 4 = syncdemoPhase k →
      SystemCall.decode (cpu.registers .r0) (cpu.registers .r1) (cpu.registers .r2) = syncdemoCall n) :
    ∃ k', (cpu.runIn s (.int 0x80)).cpu.pc = address k' ∧
      SyncdemoAt k' (cpu.runIn s (.int 0x80)).cpu (cpu.runIn s (.int 0x80)).space
        (calls ++ callOf (cpu.runIn s (.int 0x80)).cpu) := by
  have hrun := runIn_syscall s hpc
  rw [VirtualCPU.syscallVector] at hrun
  rw [hrun]
  have hmade : callOf { next cpu k with syscallRegs := cpu.registers, syscallPending := true } =
      [SystemCall.decode (cpu.registers .r0) (cpu.registers .r1) (cpu.registers .r2)] := rfl
  refine ⟨k + 1, rfl, hinside, h.intact, ?_, ?_, hplain _⟩
  · rw [hmade]
    exact h.follows.append (hcall _ h.phase)
  · rw [hmade, List.length_append, List.length_singleton, hphase, Nat.add_mod, h.phase]

/-- Each assertion leads to the next one, instruction by instruction. -/
theorem syncdemo_asserted {keeps : Space → Space → Prop}
    (hkeeps : ∀ s s', Intact syncdemo s → keeps s s' → Intact syncdemo s') :
    Asserted syncdemo keeps SyncdemoAt where
  code := by
    intro k cpu s calls h
    obtain ⟨i, hi⟩ : ∃ i, syncdemo[k]? = some i := ⟨_, List.getElem?_eq_getElem h.inside⟩
    exact ⟨i, hi, syncdemo_fits i (List.mem_of_getElem? hi), h.intact k i hi⟩
  fault := by
    intro k cpu s calls h hserved
    refine ⟨h.inside, h.intact, h.follows, h.phase, ?_⟩
    exact h.registers.resumed ⟨rfl, rfl, fun _ => rfl, fun hpending => hpending⟩
  kernel := by
    intro k cpu cpu' s s' calls h hcpu hspace
    exact ⟨h.inside, hkeeps s s' h.intact hspace, h.follows, h.phase, h.registers.resumed hcpu⟩
  instruction := by
    intro k cpu s calls i h hi hpc hserved
    have hregisters := h.registers
    have hlt := h.inside
    interval_cases k
    · cases hi
      rw [runIn_mov s hpc]
      exact h.quiet 1 rfl rfl hserved (by decide) rfl ⟨hserved, rfl⟩
    · cases hi
      rw [runIn_mov s hpc]
      exact h.quiet 2 rfl rfl hserved (by decide) rfl ⟨hserved, rfl, hregisters.2⟩
    · -- the wait
      cases hi
      refine h.called hpc (by decide) rfl (fun _ => trivial) ?_
      intro n hn
      rw [syncdemoCall, hn, hregisters.2.1, hregisters.2.2]
      rfl
    · cases hi
      rw [runIn_mov s hpc]
      exact h.quiet 4 rfl rfl hserved (by decide) rfl ⟨hserved, rfl⟩
    · cases hi
      rw [runIn_mov s hpc]
      exact h.quiet 5 rfl rfl hserved (by decide) rfl ⟨hserved, hregisters.2, rfl⟩
    · -- the first print
      cases hi
      refine h.called hpc (by decide) rfl (fun _ => trivial) ?_
      intro n hn
      rw [syncdemoCall, hn, hregisters.2.1, hregisters.2.2]
      rfl
    · cases hi
      rw [runIn_mov s hpc]
      exact h.quiet 7 rfl rfl hserved (by decide) rfl trivial
    · cases hi
      rw [runIn_arith s hpc fun c => rfl]
      exact h.quiet 8 rfl rfl hserved (by decide) rfl trivial
    · cases hi
      rw [runIn_cmp s hpc]
      exact h.quiet 9 rfl rfl hserved (by decide) rfl trivial
    · -- the end of the delay loop, or another round
      cases hi
      rw [show (.jnz 0x38 : Instruction) = .jnz (address 7) from rfl, runIn_jnz s hpc]
      cases cpu.flags.zero with
      | true => exact h.quiet 10 rfl rfl hserved (by decide) rfl trivial
      | false => exact h.quiet 7 rfl rfl hserved (by decide) rfl trivial
    · cases hi
      rw [runIn_mov s hpc]
      exact h.quiet 11 rfl rfl hserved (by decide) rfl ⟨hserved, rfl⟩
    · cases hi
      rw [runIn_mov s hpc]
      exact h.quiet 12 rfl rfl hserved (by decide) rfl ⟨hserved, rfl, hregisters.2⟩
    · -- the signal
      cases hi
      refine h.called hpc (by decide) rfl (fun _ => trivial) ?_
      intro n hn
      rw [syncdemoCall, hn, hregisters.2.1, hregisters.2.2]
      rfl
    · cases hi
      rw [runIn_mov s hpc]
      exact h.quiet 14 rfl rfl hserved (by decide) rfl ⟨hserved, rfl⟩
    · cases hi
      rw [runIn_mov s hpc]
      exact h.quiet 15 rfl rfl hserved (by decide) rfl ⟨hserved, hregisters.2, rfl⟩
    · -- the second print
      cases hi
      refine h.called hpc (by decide) rfl (fun _ => trivial) ?_
      intro n hn
      rw [syncdemoCall, hn, hregisters.2.1, hregisters.2.2]
      rfl
    · -- back to the beginning
      cases hi
      rw [show (.jmp 0x00 : Instruction) = .jmp (address 0) from rfl, runIn_jmp s hpc]
      exact h.quiet 0 rfl rfl hserved (by decide) rfl trivial

/-- Whatever the kernel does, the calls of the demo follow one another as they should. -/
theorem syncdemo_follows {keeps : Space → Space → Prop}
    (hkeeps : ∀ s s', Intact syncdemo s → keeps s s' → Intact syncdemo s') {cpu : VirtualCPU}
    {s : Space} (hpc : cpu.pc = 0) (hloaded : Intact syncdemo s) {calls : List SystemCall}
    {y : VirtualCPU × Space} (hrun : Runs keeps (cpu, s) calls y) : FollowsDemo calls := by
  have hstart : SyncdemoAt 0 cpu s [] :=
    ⟨by decide, hloaded, (fun n c hc => by cases hc), rfl, trivial⟩
  obtain ⟨k, -, hk⟩ := (syncdemo_asserted hkeeps).holds hstart hpc hrun
  exact hk.follows

/-- The demo never calls exec. -/
theorem FollowsDemo.exec_not_mem {calls : List SystemCall} (h : FollowsDemo calls) :
    SystemCall.exec ∉ calls := by
  intro hmem
  obtain ⟨n, hn⟩ := List.mem_iff_getElem?.1 hmem
  have hcall := h n _ hn
  rw [syncdemoCall] at hcall
  split at hcall
  · cases hcall
  · cases hcall
  · cases hcall
  · cases hcall

/-- The semaphore demo keeps its protocol in every run of the service. From a state in which it is at its
beginning on, whatever the others do and however it is interrupted, as long as its code stays in place and
it is not woken in the middle of a call, it asks to wait, print, signal and print, over and over again, and
for nothing else: between two waits there is always a signal. -/
theorem syncdemo_protocol (w : World) (size : UInt64) (swapImage : Nat → UInt8)
    (before after : List Event) {pid : Pid} {cpu : VirtualCPU}
    (hget : (run w (bootMemory size swapImage) before).1.cpus.get pid = some cpu) (hpc : cpu.pc = 0)
    (hloaded : Intact syncdemo ((run w (bootMemory size swapImage) before).1.mmu.space pid))
    (hok : ∀ t ∈ (runTrace (handleEvent w) (run w (bootMemory size swapImage) before).1 after).2,
      Undisturbed w (KeepsIntact syncdemo) pid t) :
    ∀ n c, (callsOf pid
        (runTrace (handleEvent w) (run w (bootMemory size swapImage) before).1 after).2)[n]? = some c →
      c = syncdemoCall n := by
  have hfollows : ∀ calls y,
      Runs (KeepsIntact syncdemo) (cpu, (run w (bootMemory size swapImage) before).1.mmu.space pid) calls y →
        FollowsDemo calls :=
    fun calls y => syncdemo_follows (fun s s' hintact hkeeps => hkeeps hintact) hpc hloaded
  obtain ⟨⟨y, hrun⟩, -⟩ := followed_from w (fun space h => h) (run_touched w _ before).1
    (run_fits w _ before) hget (fun calls y hrun => (hfollows calls y hrun).exec_not_mem) after hok
  exact hfollows _ y hrun

/-- A machine whose first process has been given a program. -/
def loadedMachine (program : List Instruction) : Machine :=
  (run (World.calm (program.flatMap encoded)) (bootMemory 8192 fun _ => 0)
    [.envelope (.process (.execProcess 1 "program" [] none)) false]).1

/-- The demo makes its wait in the first tick. -/
theorem syncdemo_protocol_wait :
    callsOf 1 (runTrace (handleEvent (World.calm (syncdemo.flatMap encoded))) (loadedMachine syncdemo)
        [.timer]).2 = [.semWait 0] ∧
      ∀ n c, (callsOf 1 (runTrace (handleEvent (World.calm (syncdemo.flatMap encoded)))
        (loadedMachine syncdemo) [.timer]).2)[n]? = some c → c = syncdemoCall n := by
  obtain ⟨cpu, hget⟩ := Option.isSome_iff_exists.1
    (show ((loadedMachine syncdemo).cpus.get 1).isSome = true by decide +kernel)
  have hpc : ((loadedMachine syncdemo).cpus.get 1).map VirtualCPU.pc = some 0 := by decide +kernel
  rw [hget] at hpc
  have hshown : showsCode syncdemo 1 (loadedMachine syncdemo).mmu = true ∧
      ∀ t ∈ (runTrace (handleEvent (World.calm (syncdemo.flatMap encoded))) (loadedMachine syncdemo)
        [.timer]).2, showsCode syncdemo 1 t.post.mmu = true := by decide +kernel
  have hspared : ∀ t ∈ (runTrace (handleEvent (World.calm (syncdemo.flatMap encoded)))
      (loadedMachine syncdemo) [.timer]).2, t.act.loads 1 = false ∧
        t.act.woken (World.calm (syncdemo.flatMap encoded)) t.pre ≠ some 1 := by decide +kernel
  refine ⟨by decide +kernel, syncdemo_protocol _ 8192 (fun _ => 0) _ [.timer] hget (Option.some.inj hpc)
    (intact_of_showsCode hshown.1) ?_⟩
  intro t ht
  -- no message waits for the memory service, so nothing happens in the background
  exact ⟨hspared t ht, fun _ _ => intact_of_showsCode (hshown.2 t ht), fun _ h => h⟩

/-! ## The memory test -/

/-- `programs/memtest.asm`. The targets of its jumps are those of its comments, which are `0x40` below the
real addresses of the delay loop. -/
def memtest : List Instruction :=
  [.mov .r0 (.imm 99), .store .r0 (.imm 0x0000), .mov .r0 (.imm 100), .store .r0 (.imm 0x1000),
    .mov .r0 (.imm 200), .store .r0 (.imm 0x2000), .mov .r0 (.imm 300), .store .r0 (.imm 0x3000),
    .mov .r0 (.imm 400), .store .r0 (.imm 0x4000), .mov .r0 (.imm 500), .store .r0 (.imm 0x5000),
    .mov .r0 (.imm 600), .store .r0 (.imm 0x6000), .mov .r0 (.imm 700), .store .r0 (.imm 0x7000),
    .mov .r3 (.imm 100), .mov .r2 (.imm 50), .sub .r2 (.imm 1), .cmp .r2 (.imm 0), .jnz 0x50,
    .sub .r3 (.imm 1), .cmp .r3 (.imm 0), .jnz 0x48, .mov .r0 (.imm 0), .mov .r1 (.imm 42), .int 0x80]

/-- The addresses that the test writes to. -/
def memtestPages : List VirtAddr := [0x0000, 0x1000, 0x2000, 0x3000, 0x4000, 0x5000, 0x6000, 0x7000]

/-- The test is in memory from an instruction on, its pages are there, and they share no byte with the code
behind the first instruction. -/
structure MemtestLoaded (first : Nat) (s : Space) : Prop where
  code : ∀ k i, first ≤ k → memtest[k]? = some i → CodeAt s (address k) i
  mapped : ∀ addr ∈ memtestPages, s.writable addr = true
  beside : ∀ addr ∈ memtestPages, ∀ j, 8 ≤ j → j < 216 → s.shared addr (UInt64.ofNat j) = false

/-- A CPU that executes instructions: it has not stopped, and waits for nobody. -/
structure Executing (cpu : VirtualCPU) : Prop where
  running : cpu.halted = false
  ready : cpu.pagefaultPending = false
  served : cpu.syscallPending = false

/-- What holds at the instructions of the test that are reached. -/
def MemtestRegisters (k : Nat) (cpu : VirtualCPU) : Prop :=
  k ≤ 17 ∨ (k = 18 ∧ cpu.registers .r2 = 50) ∨ (k = 19 ∧ cpu.registers .r2 = 49) ∨
    (k = 20 ∧ cpu.flags.zero = false)

/-- No instruction behind the first jump is reached. -/
theorem MemtestRegisters.le {k : Nat} {cpu : VirtualCPU} (h : MemtestRegisters k cpu) : k ≤ 20 := by
  rcases h with hk | ⟨hk, -⟩ | ⟨hk, -⟩ | ⟨hk, -⟩
  · omega
  · omega
  · omega
  · omega

/-- The assertions of the test. The first store overwrites the first instruction. -/
structure MemtestAt (k : Nat) (cpu : VirtualCPU) (s : Space) : Prop where
  pc_eq : cpu.pc = address k
  executing : Executing cpu
  loaded : MemtestLoaded (if k = 0 then 0 else 1) s
  registers : MemtestRegisters k cpu

/-- What is in memory from an instruction on is there from a later one on. -/
theorem MemtestLoaded.later {s : Space} {first : Nat} (h : MemtestLoaded first s) (hle : first ≤ 1) :
    MemtestLoaded 1 s := by
  refine ⟨fun k i hk hi => ?_, h.mapped, h.beside⟩
  apply h.code k i _ hi
  omega

/-- A store of the test is made, and leaves its code, apart from the first instruction. -/
theorem MemtestLoaded.written {s : Space} (h : MemtestLoaded 1 s) {addr : VirtAddr}
    (haddr : addr ∈ memtestPages) (value : UInt8) :
    ∃ s', s.write addr value = some s' ∧ MemtestLoaded 1 s' := by
  refine ⟨_, if_pos (h.mapped addr haddr), fun k i hk hi j b hb => ?_, h.mapped, h.beside⟩
  have hlength := (List.getElem?_eq_some_iff.1 hi).1
  replace hlength : k < 27 := hlength
  have hj : j < 8 := by
    rw [← length_encoded i]
    exact (List.getElem?_eq_some_iff.1 hb).1
  have hplace : address k + UInt64.ofNat j = UInt64.ofNat (8 * k + j) := by
    rw [address, ← UInt64.ofNat_add]
  have hread := h.code k i hk hi j b hb
  have hbeside := h.beside addr haddr (8 * k + j) (by omega) (by omega)
  rw [hplace] at hread ⊢
  simp only [hbeside, Bool.false_eq_true, if_false]
  exact hread

/-- Every instruction of the test fits into its eight bytes. -/
theorem memtest_fits : ∀ i ∈ memtest, Fits i := by
  simp only [memtest, List.forall_mem_cons, Fits, OperandFits]
  refine ⟨?_, ?_, ?_, ?_, ?_, ?_, ?_, ?_, ?_, ?_, ?_, ?_, ?_, ?_, ?_, ?_, ?_, ?_, ?_, ?_, ?_, ?_, ?_, ?_, ?_,
    ?_, ?_, ?_⟩
  all_goals first
    | trivial
    | decide
    | exact fun _ h => absurd h List.not_mem_nil

/-- Up to the delay loop there are moves and stores. -/
theorem memtest_straight {k : Nat} (hk : k ≤ 17) :
    (∃ dst value, memtest[k]? = some (.mov dst (.imm value)) ∧
        (k = 17 → dst = Register.r2 ∧ value = 50)) ∨
      ∃ addr ∈ memtestPages, memtest[k]? = some (.store .r0 (.imm addr)) ∧ 0 < k ∧ k < 17 := by
  interval_cases k
  all_goals first
    | exact Or.inl ⟨_, _, rfl, by decide⟩
    | exact Or.inr ⟨_, by decide, rfl, by decide, by decide⟩

/-- An instruction of the test is fetched and run. -/
theorem MemtestAt.stepIn_eq {k : Nat} {cpu : VirtualCPU} {s : Space} (h : MemtestAt k cpu s)
    {i : Instruction} (hi : memtest[k]? = some i) : cpu.stepIn s = cpu.runIn s i := by
  have hcode : CodeAt s cpu.pc i := by
    rw [h.pc_eq]
    apply h.loaded.code k i _ hi
    split
    · omega
    · omega
  have haligned : cpu.pc.toNat % 4 = 0 := by
    rw [h.pc_eq]
    exact address_mod k
  exact stepIn_of_code hcode (memtest_fits i (List.mem_of_getElem? hi)) haligned h.executing.running
    h.executing.ready

/-- What a step of the test leads to. -/
def MemtestGoesOn (cpu : VirtualCPU) (out : VirtualCPU.SteppedIn) : Prop :=
  out.result = .ok () ∧ out.cpu.instructionCount = cpu.instructionCount + 1 ∧
    ∃ k, MemtestAt k out.cpu out.space

/-- Every step executes one of these instructions, without a fault. -/
theorem MemtestAt.step {k : Nat} {cpu : VirtualCPU} {s : Space} (h : MemtestAt k cpu s) :
    MemtestGoesOn cpu (cpu.stepIn s) := by
  have hlater : MemtestLoaded 1 s := h.loaded.later (by split <;> omega)
  have hpc := h.pc_eq
  obtain ⟨hrunning, hready, hserved⟩ := h.executing
  -- an instruction is counted, and what holds behind it is shown
  have hnext : ∀ {out : VirtualCPU.SteppedIn} (k' : Nat), out.result = .ok () →
      out.cpu.instructionCount = cpu.instructionCount + 1 → out.cpu.pc = address k' → 0 < k' →
      Executing out.cpu → MemtestLoaded 1 out.space → MemtestRegisters k' out.cpu →
      MemtestGoesOn cpu out := by
    intro out k' hresult hcount hpc' hpos hexecuting hloaded hregisters
    refine ⟨hresult, hcount, k', hpc', hexecuting, ?_, hregisters⟩
    rw [if_neg (by omega)]
    exact hloaded
  rcases h.registers with hk | ⟨rfl, hvalue⟩ | ⟨rfl, hvalue⟩ | ⟨rfl, hzero⟩
  · rcases memtest_straight hk with ⟨dst, value, hmov, hlast⟩ | ⟨addr, haddr, hstore, hpos, hlow⟩
    · rw [h.stepIn_eq hmov, runIn_mov s hpc]
      refine hnext (k + 1) rfl rfl rfl (by omega) ⟨hrunning, hready, hserved⟩ hlater ?_
      rcases Nat.lt_or_ge k 17 with hlow | hhigh
      · exact Or.inl hlow
      · obtain rfl : k = 17 := by omega
        obtain ⟨rfl, rfl⟩ := hlast rfl
        exact Or.inr (Or.inl ⟨rfl, rfl⟩)
    · rw [h.stepIn_eq hstore]
      obtain ⟨s', hwrite, hloaded⟩ := hlater.written haddr (cpu.readRegister .r0).toUInt8
      rw [runIn_store_of_write s hpc hwrite]
      exact hnext (k + 1) rfl rfl rfl (by omega) ⟨hrunning, hready, hserved⟩ hloaded (Or.inl hlow)
  · rw [h.stepIn_eq rfl, runIn_arith s hpc fun c => rfl]
    refine hnext 19 rfl rfl rfl (by decide) ⟨hrunning, hready, hserved⟩ hlater
      (Or.inr (Or.inr (Or.inl ⟨rfl, ?_⟩)))
    change cpu.registers .r2 - 1 = 49
    rw [hvalue]
    rfl
  · rw [h.stepIn_eq rfl, runIn_cmp s hpc]
    refine hnext 20 rfl rfl rfl (by decide) ⟨hrunning, hready, hserved⟩ hlater
      (Or.inr (Or.inr (Or.inr ⟨rfl, ?_⟩)))
    change (cpu.registers .r2 - 0 == 0) = false
    rw [hvalue]
    rfl
  · -- the jump goes back into the stores
    have hjump : memtest[20]? = some (.jnz (address 10)) := rfl
    rw [h.stepIn_eq hjump, runIn_jnz s hpc, hzero]
    exact hnext 10 rfl rfl rfl (by decide) ⟨hrunning, hready, hserved⟩ hlater (Or.inl (by decide))

/-- The steps of a run execute one instruction each. -/
theorem MemtestAt.steps {k : Nat} {cpu : VirtualCPU} {s : Space} (h : MemtestAt k cpu s) (n : Nat) :
    (alone VirtualCPU.turnIn n cpu s).1 = List.replicate n (.ok ()) ∧
      (alone VirtualCPU.turnIn n cpu s).2.1.instructionCount = cpu.instructionCount + UInt64.ofNat n ∧
      ∃ k', MemtestAt k' (alone VirtualCPU.turnIn n cpu s).2.1 (alone VirtualCPU.turnIn n cpu s).2.2 := by
  induction n generalizing k cpu s with
  | zero => exact ⟨rfl, (UInt64.add_zero _).symm, k, h⟩
  | succ n ih =>
    obtain ⟨hresult, hcount, k', hnext⟩ := h.step
    obtain ⟨hresults, hcounts, hend⟩ := ih hnext
    refine ⟨?_, ?_, hend⟩
    · rw [alone, List.replicate_succ]
      exact congrArg₂ _ hresult hresults
    · rw [alone]
      refine hcounts.trans ?_
      rw [hcount, UInt64.add_assoc, Nat.add_comm n 1, UInt64.ofNat_add]
      rfl

/-- The memory test never ends. Where its eight pages are mapped, beside its code, a CPU executes its
instructions one after the other for ever: there is no fault, no error, no halt and no system call, the exit
that its comments announce included. Its inner loop jumps back to the stores, where the counters are set
again, so that no instruction behind its first conditional jump is reached. -/
theorem memtest_never_ends (memory : PhysicalMemory) (ps : PageSize) (hps : 4 ≤ ps.bytes.toNat)
    (ops : List TableOp) (cpu : VirtualCPU) (hpc : cpu.pc = 0) (hexecuting : Executing cpu)
    (hloaded : MemtestLoaded 0 ((MMU.after memory ps ops).space cpu.currentPid)) (n : Nat) :
    (VirtualCPU.steps n cpu (MMU.after memory ps ops)).1 = List.replicate n (.ok ()) ∧
      (VirtualCPU.steps n cpu (MMU.after memory ps ops)).2.1.instructionCount =
        cpu.instructionCount + UInt64.ofNat n ∧
      Executing (VirtualCPU.steps n cpu (MMU.after memory ps ops)).2.1 ∧
      ∃ k ≤ 20, (VirtualCPU.steps n cpu (MMU.after memory ps ops)).2.1.pc = address k := by
  have hstart : MemtestAt 0 cpu ((MMU.after memory ps ops).space cpu.currentPid) :=
    ⟨hpc, hexecuting, hloaded, Or.inl (by decide)⟩
  have hsteps := VirtualCPU.steps_refines (MMU.after_refines memory ps ops) hps n cpu
  obtain ⟨hresults, hcounts, k, hend⟩ := hstart.steps n
  rw [hsteps] at hresults hcounts hend
  exact ⟨hresults, hcounts, hend.executing, k, hend.registers.le, hend.pc_eq⟩

/-- The test in the first of eight frames. -/
def memtestMMU : MMU :=
  MMU.after ⟨fun a => (memtest.flatMap encoded).getD a 0, 0x8000⟩ PageSize.fourK
    (memtestPages.map fun page => .mapPage 1 page page PageFlags.presentWritable)

/-- In hundred steps a CPU has gone round the loop several times. -/
theorem memtest_never_ends_hundred :
    (VirtualCPU.steps 100 (VirtualCPU.new 1) memtestMMU).1 = List.replicate 100 (.ok ()) ∧
      (VirtualCPU.steps 100 (VirtualCPU.new 1) memtestMMU).2.1.instructionCount = 100 := by
  have hcode : CodeIn (memtestMMU.space 1) 0 memtest := by
    apply codeIn_of_bytes
    have hbytes : ((memtest.flatMap encoded).zipIdx.all fun e =>
        (memtestMMU.space 1).read (UInt64.ofNat e.2) == some e.1) = true := by decide +kernel
    intro j b hb
    have hread := List.all_eq_true.1 hbytes (b, j) (List.mem_zipIdx_iff_getElem?.2 hb)
    rw [UInt64.zero_add]
    exact beq_iff_eq.1 hread
  have hmapped : (memtestPages.all fun addr => (memtestMMU.space 1).writable addr) = true := by
    decide +kernel
  have hbeside : (memtestPages.all fun addr => (List.range 216).all fun j =>
      decide (j < 8) || !(memtestMMU.space 1).shared addr (UInt64.ofNat j)) = true := by decide +kernel
  have hloaded : MemtestLoaded 0 (memtestMMU.space 1) := by
    refine ⟨fun k i _ hi => ?_, List.all_eq_true.1 hmapped, fun addr haddr j hlow hhigh => ?_⟩
    · have hat := hcode k i hi
      rwa [UInt64.zero_add] at hat
    · have hapart := List.all_eq_true.1 (List.all_eq_true.1 hbeside addr haddr) j (List.mem_range.2 hhigh)
      simpa [Nat.not_lt.2 hlow] using hapart
  rw [memtestMMU] at hloaded ⊢
  obtain ⟨hresults, hcount, -⟩ := memtest_never_ends _ PageSize.fourK (by decide) _ (VirtualCPU.new 1) rfl
    ⟨rfl, rfl, rfl⟩ hloaded 100
  have hzero : (VirtualCPU.new 1).instructionCount + UInt64.ofNat 100 = 100 := by decide
  rw [hzero] at hcount
  exact ⟨hresults, hcount⟩

end GenshinOs.Process
