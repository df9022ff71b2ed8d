import GenshinOs.Process.Loading
import GenshinOs.Process.Programs

/-!
# Mini debugger

The `gdb` command of the shell (`run_minigdb` in `src/ui/shell/mod.rs`) assembles a program into the first
page of a machine of its own and steps through it. There is no kernel under this CPU: nobody takes system
calls, and nobody serves page faults.

What the debugger shows is what the source of the program does (`minigdb_follows_source`), up to the first
page fault. From then on it makes no further step, and `continue` does not come back (`minigdb_stuck`).
-/

set_option autoImplicit false

namespace GenshinOs

open GenshinOs.Lib GenshinOs.Hardware GenshinOs.Process

/-! ## State of a CPU -/

/-- Virtual CPU state. -/
structure Hardware.CPUState where
  registers : Register → UInt64
  pc : UInt64
  sp : UInt64
  flags : CPUFlags
  halted : Bool
  currentPid : Pid
  instructionCount : UInt64
  pagefaultPending : Bool

/-- A copy of the CPU to look at. -/
def Hardware.VirtualCPU.saveState (cpu : VirtualCPU) : CPUState where
  registers := cpu.registers
  pc := cpu.pc
  sp := cpu.sp
  flags := cpu.flags
  halted := cpu.halted
  currentPid := cpu.currentPid
  instructionCount := cpu.instructionCount
  pagefaultPending := cpu.pagefaultPending

/-- The same, for the debugger. -/
def Hardware.VirtualCPU.dumpState (cpu : VirtualCPU) : CPUState := cpu.saveState

namespace Shell

/-! ## Model -/

/-- Commands of the debugger. -/
inductive GdbCommand where
  | step
  | regs
  | continue
  | quit
  | unknown (line : String)
  deriving DecidableEq, Repr

/-- The command of an input line. -/
def gdbCommand (line : String) : GdbCommand :=
  match String.ofList (trim line.toList) with
  | "s" | "step" | "" => .step
  | "r" | "regs" => .regs
  | "c" | "continue" => .continue
  | "q" | "quit" | "exit" => .quit
  | line => .unknown line

/-- What the debugger prints. -/
inductive GdbOutput where
  | stepped (number : Int32) (pcBefore : VirtAddr) (instBytes : List UInt8) (state : CPUState)
  | haltedAfter (number : Int32)
  | halted
  | error (e : CPUError)
  | regs (state : CPUState)
  | ranToHalt (total : Int32)
  | unknownCommand (line : String)

/-- The debugger, with the memory of its machine. Its counter wraps around. -/
structure MiniGdb (μ : Type*) where
  code : List UInt8
  cpu : VirtualCPU
  memory : μ
  instrCount : Int32

/-- How the debugger stands after a command. -/
inductive GdbTurn (μ : Type*) where
  | goesOn (d : MiniGdb μ)
  | ends
  | panics

/-- A step of the machine under the debugger, where it has one. -/
abbrev Stepper (μ : Type*) := VirtualCPU → μ → Option (Except CPUError Unit × VirtualCPU × μ)

namespace MiniGdb

variable {μ ν : Type*}

/-- The machine after a step. -/
def withMachine (d : MiniGdb μ) (cpu : VirtualCPU) (memory : μ) : MiniGdb μ :=
  { d with
    cpu := cpu
    memory := memory }

/-- One more instruction. -/
def counted (d : MiniGdb μ) : MiniGdb μ := { d with instrCount := d.instrCount + 1 }

section commands

variable (step : Stepper μ)

/-- The `step` command. It prints the bytes of the instruction, which is a slice of the code: beyond its
end the slice panics. -/
def stepCommand (d : MiniGdb μ) : Option (List GdbOutput × GdbTurn μ) :=
  if d.cpu.halted then some ([.halted], .ends)
  else
    (step d.cpu d.memory).map fun
      | (.error e, cpu, memory) => ([.error e], .goesOn (d.withMachine cpu memory))
      | (.ok (), cpu, memory) =>
        let d' := (d.withMachine cpu memory).counted
        if d.code.length < d.cpu.pc.toNat then ([], .panics)
        else
          (.stepped d'.instrCount d.cpu.pc ((d.code.drop d.cpu.pc.toNat).take 8) cpu.dumpState ::
            if cpu.halted then [.haltedAfter d'.instrCount] else [], .goesOn d')

/-- The loop of the `continue` command. `fuel` is the number of rounds that it may take. -/
def runToHalt : Nat → MiniGdb μ → Option (MiniGdb μ)
  | 0, _ => none
  | fuel + 1, d =>
    if d.cpu.halted then some d
    else
      (step d.cpu d.memory).bind fun
        | (.error _, cpu, memory) => some (d.withMachine cpu.halt memory)
        | (.ok (), cpu, memory) => runToHalt fuel (d.withMachine cpu memory).counted

/-- What a command prints, and whether the session goes on. -/
def perform (fuel : Nat) (d : MiniGdb μ) : GdbCommand → Option (List GdbOutput × GdbTurn μ)
  | .step => d.stepCommand step
  | .regs => some ([.regs d.cpu.dumpState], .goesOn d)
  | .continue => (runToHalt step fuel d).map fun d' => ([.ranToHalt d'.instrCount], .goesOn d')
  | .quit => some ([], .ends)
  | .unknown line => some ([.unknownCommand line], .goesOn d)

/-- The loop of the debugger over the input lines. -/
def session (fuel : Nat) : MiniGdb μ → List String → Option (List GdbOutput × GdbTurn μ)
  | d, [] => some ([], .goesOn d)
  | d, line :: lines =>
    (d.perform step fuel (gdbCommand line)).bind fun
      | (printed, .goesOn d') => (session fuel d' lines).map fun rest => (printed ++ rest.1, rest.2)
      | (printed, turn) => some (printed, turn)

end commands

/-- The machine of the debugger, with its first page mapped. -/
def bare : MMU :=
  MMU.after (PhysicalMemory.new (64 * 1024)) PageSize.fourK [.mapPage 0 0 0 ⟨true, true, true⟩]

/-- The code is written from address 0 on. What does not fit is lost. -/
def machine (code : List UInt8) : MMU := bare.writeBytes 0 0 code

/-- Assemble a text and put its code into a memory of its own. -/
def load (cm : CaseMap) (asmCode : String) : Except String (MiniGdb MMU) :=
  (assemble cm asmCode).map fun code =>
    { code := code
      cpu := ((VirtualCPU.new 0).setPc 0).setSp 0xFFFF
      memory := machine code
      instrCount := 0 }

/-- The CPU behind its MMU. -/
def onMachine : Stepper MMU := fun cpu m => some (VirtualCPU.turnOn cpu m)

/-- The source of a program, on the memory that its process sees. -/
def onSource (program : List Instruction) : Stepper Space := fun cpu s =>
  (interpret program 0 cpu s).map fun out => (out.result, out.cpu, out.space)

/-! ## The bound on the rounds does not matter -/

section rounds

variable {step : Stepper μ} {fuel fuel' : Nat} {d : MiniGdb μ}

theorem runToHalt_mono (hle : fuel ≤ fuel') {d' : MiniGdb μ}
    (h : runToHalt step fuel d = some d') : runToHalt step fuel' d = some d' := by
  induction fuel generalizing fuel' d with
  | zero => cases h
  | succ fuel ih =>
    obtain ⟨more, rfl⟩ := Nat.exists_eq_add_of_le' (Nat.le_trans (Nat.le_add_left 1 fuel) hle)
    rw [runToHalt] at h ⊢
    split at h
    · next hhalted =>
      rw [if_pos hhalted]
      exact h
    · next hrunning =>
      obtain ⟨⟨result, cpu, memory⟩, hstep, hrest⟩ := Option.bind_eq_some_iff.1 h
      rw [if_neg hrunning, hstep, Option.bind_some]
      cases result with
      | error e => exact hrest
      | ok => exact ih (Nat.le_of_succ_le_succ hle) hrest

theorem perform_mono (hle : fuel ≤ fuel') {command : GdbCommand} {printed : List GdbOutput}
    {turn : GdbTurn μ} (h : d.perform step fuel command = some (printed, turn)) :
    d.perform step fuel' command = some (printed, turn) := by
  cases command with
  | «continue» =>
    obtain ⟨d', hloop, heq⟩ := Option.map_eq_some_iff.1 h
    rw [perform, runToHalt_mono hle hloop]
    exact congrArg some heq
  | step => exact h
  | regs => exact h
  | quit => exact h
  | unknown line => exact h

/-- What a session prints and where it ends is the same under every bound under which it comes back. -/
theorem session_mono (hle : fuel ≤ fuel') {lines : List String} {printed : List GdbOutput}
    {turn : GdbTurn μ} (h : session step fuel d lines = some (printed, turn)) :
    session step fuel' d lines = some (printed, turn) := by
  induction lines generalizing d printed with
  | nil => exact h
  | cons line lines ih =>
    rw [session] at h
    obtain ⟨⟨first, middle⟩, hfirst, hrest⟩ := Option.bind_eq_some_iff.1 h
    rw [session, perform_mono hle hfirst, Option.bind_some]
    cases middle with
    | goesOn d₁ =>
      obtain ⟨⟨rest, last⟩, hlast, heq⟩ := Option.map_eq_some_iff.1 hrest
      cases heq
      show (session step fuel' d₁ lines).map (fun r => (first ++ r.1, r.2)) = _
      rw [ih hlast]
      rfl
    | ends => exact hrest
    | panics => exact hrest

end rounds

/-! ## Debuggers of machines that step alike -/

/-- Two machines with the same CPU. -/
structure Simulates (step : Stepper μ) (step' : Stepper ν) (R : VirtualCPU → μ → ν → Prop) : Prop where
  steps : ∀ {cpu m n result cpu' m'}, R cpu m n → step cpu m = some (result, cpu', m') →
    ∃ n', step' cpu n = some (result, cpu', n') ∧ R cpu' m' n'
  halts : ∀ {cpu m n}, R cpu m n → R cpu.halt m n

/-- The debugger on the other machine. -/
def onMemory (d : MiniGdb μ) (n : ν) : MiniGdb ν := ⟨d.code, d.cpu, n, d.instrCount⟩

/-- What follows from a command on two machines. -/
inductive Alike (R : VirtualCPU → μ → ν → Prop) : GdbTurn μ → GdbTurn ν → Prop
  | goesOn {d : MiniGdb μ} {n : ν} (h : R d.cpu d.memory n) : Alike R (.goesOn d) (.goesOn (d.onMemory n))
  | ends : Alike R .ends .ends
  | panics : Alike R .panics .panics

section simulation

variable {step : Stepper μ} {step' : Stepper ν} {R : VirtualCPU → μ → ν → Prop}

theorem Simulates.runToHalt (h : Simulates step step' R) (fuel : Nat) {d d' : MiniGdb μ} {n : ν}
    (hstart : R d.cpu d.memory n) (hrun : MiniGdb.runToHalt step fuel d = some d') :
    ∃ n', MiniGdb.runToHalt step' fuel (d.onMemory n) = some (d'.onMemory n') ∧ R d'.cpu d'.memory n' := by
  induction fuel generalizing d n with
  | zero => cases hrun
  | succ fuel ih =>
    have hcpu : (d.onMemory n).cpu = d.cpu := rfl
    have hmemory : (d.onMemory n).memory = n := rfl
    rw [MiniGdb.runToHalt] at hrun ⊢
    rw [hcpu, hmemory]
    cases hhalted : d.cpu.halted with
    | true =>
      rw [hhalted, if_pos rfl] at hrun
      cases hrun
      exact ⟨n, by rw [if_pos rfl], hstart⟩
    | false =>
      rw [hhalted, if_neg Bool.false_ne_true] at hrun
      obtain ⟨⟨result, cpu', m'⟩, hstep, hrest⟩ := Option.bind_eq_some_iff.1 hrun
      obtain ⟨n', hstep', hnext⟩ := h.steps hstart hstep
      rw [if_neg Bool.false_ne_true, hstep', Option.bind_some]
      cases result with
      | error e =>
        cases hrest
        exact ⟨n', rfl, h.halts hnext⟩
      | ok => exact ih hnext hrest

theorem Simulates.stepCommand (h : Simulates step step' R) {d : MiniGdb μ} {n : ν}
    (hstart : R d.cpu d.memory n) {printed : List GdbOutput} {turn : GdbTurn μ}
    (hrun : d.stepCommand step = some (printed, turn)) :
    ∃ turn', (d.onMemory n).stepCommand step' = some (printed, turn') ∧ Alike R turn turn' := by
  have hcpu : (d.onMemory n).cpu = d.cpu := rfl
  have hmemory : (d.onMemory n).memory = n := rfl
  have hcode : (d.onMemory n).code = d.code := rfl
  rw [MiniGdb.stepCommand] at hrun ⊢
  rw [hcpu, hmemory, hcode]
  cases hhalted : d.cpu.halted with
  | true =>
    rw [hhalted, if_pos rfl] at hrun
    cases hrun
    exact ⟨.ends, by rw [if_pos rfl], .ends⟩
  | false =>
    rw [hhalted, if_neg Bool.false_ne_true] at hrun
    obtain ⟨⟨result, cpu', m'⟩, hstep, hrest⟩ := Option.map_eq_some_iff.1 hrun
    obtain ⟨n', hstep', hnext⟩ := h.steps hstart hstep
    rw [if_neg Bool.false_ne_true, hstep', Option.map_some]
    cases result with
    | error e =>
      cases hrest
      exact ⟨_, rfl, Alike.goesOn (d := d.withMachine cpu' m') hnext⟩
    | ok =>
      dsimp only at hrest ⊢
      split at hrest
      · next hbeyond =>
        cases hrest
        exact ⟨.panics, by rw [if_pos hbeyond], .panics⟩
      · next hinside =>
        cases hrest
        exact ⟨_, by rw [if_neg hinside]; rfl,
          Alike.goesOn (d := (d.withMachine cpu' m').counted) hnext⟩

theorem Simulates.perform (h : Simulates step step' R) (fuel : Nat) {d : MiniGdb μ} {n : ν}
    (hstart : R d.cpu d.memory n) (command : GdbCommand) {printed : List GdbOutput} {turn : GdbTurn μ}
    (hrun : d.perform step fuel command = some (printed, turn)) :
    ∃ turn', (d.onMemory n).perform step' fuel command = some (printed, turn') ∧ Alike R turn turn' := by
  cases command with
  | step => exact h.stepCommand hstart hrun
  | regs =>
    cases hrun
    exact ⟨_, rfl, .goesOn hstart⟩
  | «continue» =>
    obtain ⟨d', hloop, heq⟩ := Option.map_eq_some_iff.1 hrun
    cases heq
    obtain ⟨n', hloop', hend⟩ := h.runToHalt fuel hstart hloop
    refine ⟨_, ?_, .goesOn hend⟩
    rw [MiniGdb.perform, hloop']
    rfl
  | quit =>
    cases hrun
    exact ⟨_, rfl, .ends⟩
  | unknown line =>
    cases hrun
    exact ⟨_, rfl, .goesOn hstart⟩

/-- On machines that step alike the debugger prints the same. -/
theorem Simulates.session (h : Simulates step step' R) (fuel : Nat) {d : MiniGdb μ} {n : ν}
    (hstart : R d.cpu d.memory n) (lines : List String) {printed : List GdbOutput} {turn : GdbTurn μ}
    (hrun : MiniGdb.session step fuel d lines = some (printed, turn)) :
    ∃ turn', MiniGdb.session step' fuel (d.onMemory n) lines = some (printed, turn') ∧
      Alike R turn turn' := by
  induction lines generalizing d n printed with
  | nil =>
    cases hrun
    exact ⟨_, rfl, .goesOn hstart⟩
  | cons line lines ih =>
    rw [MiniGdb.session] at hrun
    obtain ⟨⟨first, middle⟩, hfirst, hrest⟩ := Option.bind_eq_some_iff.1 hrun
    obtain ⟨middle', hfirst', halike⟩ := h.perform fuel hstart (gdbCommand line) hfirst
    rw [MiniGdb.session, hfirst', Option.bind_some]
    cases halike with
    | @goesOn d₁ n₁ hnext =>
      obtain ⟨⟨rest, last⟩, hlast, heq⟩ := Option.map_eq_some_iff.1 hrest
      cases heq
      obtain ⟨last', hlast', hend⟩ := ih hnext hlast
      refine ⟨last', ?_, hend⟩
      show (MiniGdb.session step' fuel (d₁.onMemory n₁) lines).map (fun r => (first ++ r.1, r.2)) = _
      rw [hlast']
      rfl
    | ends =>
      cases hrest
      exact ⟨_, rfl, .ends⟩
    | panics =>
      cases hrest
      exact ⟨_, rfl, .panics⟩

end simulation

/-! ## The machine follows the source -/

/-- What the process of the debugger sees holds the program. -/
structure Runs (program : List Instruction) (cpu : VirtualCPU) (s : Space) (m : MMU) : Prop where
  pid_eq : cpu.currentPid = 0
  refines : ∃ map, MMU.Refines PageSize.fourK m map
  space_eq : m.space 0 = s
  code : CodeIn s 0 program

theorem simulates_source {program : List Instruction} (hfits : ∀ i ∈ program, Fits i) :
    Simulates (onSource program) onMachine (Runs program) where
  steps := by
    intro cpu s m result cpu' s' h hstep
    obtain ⟨out, hout, heq⟩ := Option.map_eq_some_iff.1 hstep
    cases heq
    obtain ⟨hsource, hkept⟩ := stepIn_interpret hfits (by decide) h.code hout
    obtain ⟨map, hrefines⟩ := h.refines
    obtain ⟨hresult, hcpu, hspace⟩ := VirtualCPU.step_refines_stepIn hrefines (by decide) cpu
    rw [h.pid_eq, h.space_eq, hsource] at hresult hcpu hspace
    have hcontained := VirtualCPU.step_contained cpu m
    refine ⟨(cpu.step m).mmu, ?_, ?_⟩
    · simp only [onMachine, VirtualCPU.turnOn, hresult, hcpu]
    · refine ⟨?_, ⟨map, hrefines.congr hcontained.tables_eq hcontained.pageSize_eq⟩, hspace, hkept⟩
      rw [← hcpu]
      exact hcontained.pid_eq.trans h.pid_eq
  halts := fun h => ⟨h.pid_eq, h.refines, h.space_eq, h.code⟩

theorem span_bare : Span bare 0 0 1 := by
  have hnone : Span (MMU.new (PhysicalMemory.new (64 * 1024)) PageSize.fourK) 0 0 0 := by
    refine ⟨rfl, ?_⟩
    intro page _
    rw [Nat.zero_mul, if_neg (Nat.not_lt_zero _)]
    rfl
  exact hnone.map_next rfl (by decide)

/-- Code of at most one page is found where it was written. -/
theorem machine_code {code : List UInt8} (hpage : code.length ≤ 4096) {j : Nat} {b : UInt8}
    (hb : code[j]? = some b) : ((machine code).space 0).read (0 + UInt64.ofNat j) = some b := by
  have hj : j < code.length := (List.getElem?_eq_some_iff.1 hb).1
  have hsame : SameTables bare (machine code) := sameTables_writeBytes bare 0 0 code
  have hsize : bare.memory.size = 65536 := rfl
  have hsmall : 65536 < UInt64.size := by decide
  have hj64 : j < UInt64.size := by omega
  have hback : Backed 0 65536 1 j := by
    refine ⟨by omega, hj64, ?_⟩
    rw [UInt64.zero_add, UInt64.toNat_ofNat_of_lt' hj64]
    omega
  rw [MMU.space_read_eq_some, UInt64.zero_add,
    (span_bare.store hsame).readU8_eq hsmall (hsame.size_eq.trans hsize) hj64]
  refine ⟨hback, ?_⟩
  have hlength : 0 + code.length < UInt64.size := by omega
  have hcopy := span_bare.spanByte_writeBytes hsmall hsize 0 hlength hback
  rw [if_pos (Nat.zero_le j), Nat.sub_zero, hb] at hcopy
  exact hcopy

theorem runs_machine {program : List Instruction} (hpage : 8 * program.length ≤ 4096)
    {cpu : VirtualCPU} (hpid : cpu.currentPid = 0) :
    Runs program cpu ((machine (program.flatMap encoded)).space 0)
      (machine (program.flatMap encoded)) := by
  have hsame : SameTables bare (machine (program.flatMap encoded)) := sameTables_writeBytes bare 0 0 _
  have hrefines : MMU.Refines PageSize.fourK bare _ := MMU.after_refines _ _ _
  refine ⟨hpid, ⟨_, hrefines.congr hsame.pageTables_eq hsame.pageSize_eq⟩, rfl, ?_⟩
  apply codeIn_of_bytes
  intro j b hb
  exact machine_code (by rw [length_flatMap_encoded]; exact hpage) hb

/-- What the debugger prints over a program of at most one page is what the source does, through any
input, as far as the source goes on without leaving the program and storing into it. -/
theorem minigdb_follows_source (cm : CaseMap) {program : List Instruction} (hsome : program ≠ [])
    (hfits : ∀ i ∈ program, Fits i) (hpage : 8 * program.length ≤ 4096) :
    ∃ d, load cm (programText program) = .ok d ∧
      ∀ fuel lines printed turn,
        session (onSource program) fuel (d.onMemory (d.memory.space 0)) lines = some (printed, turn) →
          ∃ turn', session onMachine fuel d lines = some (printed, turn') ∧
            Alike (Runs program) turn turn' := by
  have hload : load cm (programText program) = .ok
      ⟨program.flatMap encoded, ((VirtualCPU.new 0).setPc 0).setSp 0xFFFF,
        machine (program.flatMap encoded), 0⟩ := by
    rw [load, assemble_programText cm hsome]
    rfl
  refine ⟨_, hload, ?_⟩
  intro fuel lines printed turn hrun
  exact (simulates_source hfits).session fuel (runs_machine hpage rfl) lines hrun

/-- A move and a halt, stepped once and run to the end. -/
theorem minigdb_follows_source_mov :
    ∃ d printed turn, load .ascii (programText [.mov .r0 (.imm 42), .halt]) = .ok d ∧
      session onMachine 2 d ["s", "c"] = some (printed, turn) ∧
      printed.getLast? = some (.ranToHalt 2) := by
  have hsome : ([.mov .r0 (.imm 42), .halt] : List Instruction) ≠ [] := List.cons_ne_nil _ _
  have hfits : ∀ i ∈ ([.mov .r0 (.imm 42), .halt] : List Instruction), Fits i :=
    List.forall_mem_cons.2 ⟨show (42 : UInt64).toNat < 2 ^ 32 by decide,
      List.forall_mem_singleton.2 trivial⟩
  obtain ⟨d, hload, hfollows⟩ := minigdb_follows_source .ascii hsome hfits (by decide)
  have hcode := hload
  rw [load, assemble_programText .ascii hsome] at hcode
  cases hcode
  obtain ⟨turn', hrun, -⟩ := hfollows 2 ["s", "c"] _ _ rfl
  exact ⟨_, _, turn', hload, hrun, rfl⟩

/-! ## After a page fault -/

/-- The output says that the program has come to its end. -/
def reportsHalt : GdbOutput → Bool
  | .haltedAfter _ | .halted | .ranToHalt _ => true
  | _ => false

/-- A command has not moved the machine, and has not reported an end. -/
structure Unmoved (d : MiniGdb MMU) (printed : List GdbOutput) (turn : GdbTurn MMU) : Prop where
  quiet : ∀ o ∈ printed, reportsHalt o = false
  same : ∀ d', turn = .goesOn d' → d'.cpu = d.cpu ∧ d'.memory = d.memory

section stuck

variable {d : MiniGdb MMU}

theorem Unmoved.goesOn {d' : MiniGdb MMU} {printed : List GdbOutput}
    (hquiet : ∀ o ∈ printed, reportsHalt o = false) (hcpu : d'.cpu = d.cpu)
    (hmemory : d'.memory = d.memory) : Unmoved d printed (.goesOn d') := by
  refine ⟨hquiet, ?_⟩
  intro d'' hturn
  cases hturn
  exact ⟨hcpu, hmemory⟩

/-- With a page fault pending a step does nothing, and succeeds. -/
theorem onMachine_stuck {cpu : VirtualCPU} (hrunning : cpu.halted = false)
    (hpending : cpu.pagefaultPending = true) (m : MMU) : onMachine cpu m = some (.ok (), cpu, m) := by
  have hstep : cpu.step m = ⟨.ok (), cpu, m⟩ := by
    rw [VirtualCPU.step, hrunning, if_neg Bool.false_ne_true, hpending, if_pos rfl]
  rw [onMachine, VirtualCPU.turnOn, hstep]

theorem runToHalt_stuck (fuel : Nat) (hrunning : d.cpu.halted = false)
    (hpending : d.cpu.pagefaultPending = true) : runToHalt onMachine fuel d = none := by
  induction fuel generalizing d with
  | zero => rfl
  | succ fuel ih =>
    rw [runToHalt, hrunning, if_neg Bool.false_ne_true, onMachine_stuck hrunning hpending]
    exact ih hrunning hpending

theorem perform_stuck (hrunning : d.cpu.halted = false) (hpending : d.cpu.pagefaultPending = true)
    {fuel : Nat} {command : GdbCommand} {printed : List GdbOutput} {turn : GdbTurn MMU}
    (hrun : d.perform onMachine fuel command = some (printed, turn)) : Unmoved d printed turn := by
  cases command with
  | step =>
    rw [perform, stepCommand, hrunning, if_neg Bool.false_ne_true, onMachine_stuck hrunning hpending,
      Option.map_some] at hrun
    dsimp only at hrun
    split at hrun
    · cases hrun
      exact ⟨by simp, by simp⟩
    · rw [hrunning, if_neg Bool.false_ne_true] at hrun
      cases hrun
      exact .goesOn (by simp [reportsHalt]) rfl rfl
  | regs =>
    cases hrun
    exact .goesOn (by simp [reportsHalt]) rfl rfl
  | «continue» =>
    rw [perform, runToHalt_stuck fuel hrunning hpending] at hrun
    cases hrun
  | quit =>
    cases hrun
    exact ⟨by simp, by simp⟩
  | unknown line =>
    cases hrun
    exact .goesOn (by simp [reportsHalt]) rfl rfl

theorem session_stuck (hrunning : d.cpu.halted = false) (hpending : d.cpu.pagefaultPending = true)
    {fuel : Nat} {lines : List String} {printed : List GdbOutput} {turn : GdbTurn MMU}
    (hrun : session onMachine fuel d lines = some (printed, turn)) : Unmoved d printed turn := by
  induction lines generalizing d printed with
  | nil =>
    cases hrun
    exact .goesOn (by simp) rfl rfl
  | cons line lines ih =>
    rw [session] at hrun
    obtain ⟨⟨first, middle⟩, hfirst, hrest⟩ := Option.bind_eq_some_iff.1 hrun
    have hone := perform_stuck hrunning hpending hfirst
    cases middle with
    | goesOn d₁ =>
      obtain ⟨hcpu, hmemory⟩ := hone.same d₁ rfl
      obtain ⟨⟨rest, last⟩, hlast, heq⟩ := Option.map_eq_some_iff.1 hrest
      cases heq
      have hlater := ih (by rw [hcpu, hrunning]) (by rw [hcpu, hpending]) hlast
      refine ⟨?_, ?_⟩
      · intro o ho
        rcases List.mem_append.1 ho with hmem | hmem
        · exact hone.quiet o hmem
        · exact hlater.quiet o hmem
      · intro d' hturn
        obtain ⟨hcpu', hmemory'⟩ := hlater.same d' hturn
        exact ⟨hcpu'.trans hcpu, hmemory'.trans hmemory⟩
    | ends =>
      cases hrest
      exact hone
    | panics =>
      cases hrest
      exact hone

/-- From the first page fault on, the debugger is stuck: `continue` comes back after no number of rounds,
and no input moves the machine or makes the debugger report an end of the program. -/
theorem minigdb_stuck (hrunning : d.cpu.halted = false) (hpending : d.cpu.pagefaultPending = true)
    (fuel : Nat) :
    d.perform onMachine fuel .continue = none ∧
      ∀ lines printed turn, session onMachine fuel d lines = some (printed, turn) →
        Unmoved d printed turn := by
  refine ⟨?_, fun lines printed turn hrun => session_stuck hrunning hpending hrun⟩
  rw [perform, runToHalt_stuck fuel hrunning hpending]
  rfl

/-- A load from the second page. -/
theorem minigdb_stuck_load :
    ∃ d d' printed, load .ascii (programText [.load .r0 (.imm 4096), .halt]) = .ok d ∧
      session onMachine 1 d ["s"] = some (printed, .goesOn d') ∧
      ∀ fuel, d'.perform onMachine fuel .continue = none := by
  have hload : load .ascii (programText [.load .r0 (.imm 4096), .halt]) = .ok
      ⟨[.load .r0 (.imm 4096), .halt].flatMap encoded, ((VirtualCPU.new 0).setPc 0).setSp 0xFFFF,
        machine ([.load .r0 (.imm 4096), .halt].flatMap encoded), 0⟩ := by
    rw [load, assemble_programText .ascii (List.cons_ne_nil _ _)]
    rfl
  refine ⟨_, _, _, hload, rfl, ?_⟩
  intro fuel
  exact (minigdb_stuck (by decide +kernel) (by decide +kernel) fuel).1

end stuck

end MiniGdb

end Shell

end GenshinOs
