import GenshinOs.Lib.Trace
import GenshinOs.Process.Syscall

/-!
# Process service

The main loop of the process service (`src/services/process/service.rs`): it takes timer interrupts
and envelopes, one at a time. A run is a list of such events in any order. Every event is broken up
into the transitions between which the service can be observed: the parts of a tick, the forks and
execs of a spawn, the handling of one request. `run` collects them, so that a statement about
all intermediate states of all runs is a statement about the transitions of `run`.
-/

set_option autoImplicit false

namespace GenshinOs.Process

open GenshinOs.Lib GenshinOs.Hardware GenshinOs.Memory

/-- What a transition is about. -/
inductive Act where
  | dispatch (cpuId : Fin 2)
  | step (cpuId : Fin 2) (pid : Pid)
  | syscall (cpuId : Fin 2) (pid : Pid) (call : SystemCall)
  | pageFault (cpuId : Fin 2) (pid : Pid)
  | settle (cpuId : Fin 2) (pid : Pid)
  | reap (cpuId : Fin 2)
  | fork (parent : Pid)
  | exec (pid : Pid) (executable : String) (args : List String)
  | sharedSemaphores
  | request (req : ProcessRequest) (channel : Option RequestId)
  | respond (channel : Option RequestId)
  | background
  deriving DecidableEq

/-- A transition of the process service. -/
abbrev Tr := Transition Machine Act

namespace Machine

/-! ## The timer -/

/-- Schedule a CPU. The CPU of a process that is ready or runs is started again. -/
def dispatch (s : Machine) (cpuId : Fin 2) (scheduledThisTick : List Pid) :
    SchedulingDecision × Machine :=
  let decided := s.toKernel.dispatch cpuId scheduledThisTick
  let s' := s.onKernel fun _ => decided.2
  match decided.1 with
  | .run pid _ =>
    if s'.stateOf pid = some .ready ∨ s'.stateOf pid = some .running then
      (decided.1, s'.updateCpu pid fun cpu => { cpu with halted := false })
    else (decided.1, s')
  | _ => (decided.1, s')

/-- One instruction. Tells whether the loop goes on: an error other than a page fault halts the
process, and process 1 is only interrupted. -/
def stepCpu (w : World) (s : Machine) (pid : Pid) (cpu : VirtualCPU) : Bool × Machine :=
  let s := s.background w
  let stepped := cpu.step s.mmu
  let s' := ({ s with cpus := s.cpus.insert stepped.cpu }).onMmu fun _ => stepped.mmu
  match stepped.result with
  | .ok () => (true, s')
  | .error (.pageFault _ _) => (decide (pid ≠ 1), s')
  | .error _ => (false, if pid = 1 then s' else s'.updateCpu pid VirtualCPU.halt)

/-- The process has no CPU, or its CPU is halted. -/
def isHalted (s : Machine) (pid : Pid) : Bool :=
  match s.cpus.get pid with
  | some cpu => cpu.halted
  | none => true

/-- Run a pending system call; a panic halts the process. -/
def runSyscall (w : World) (cpuId : Fin 2) (pid : Pid) (s : Machine) : Machine × List Tr :=
  match s.cpus.get pid with
  | none => (s, [])
  | some cpu =>
    if cpu.syscallPending = false then (s, [])
    else
      let call := SystemCall.decode (cpu.syscallRegs .r0) (cpu.syscallRegs .r1) (cpu.syscallRegs .r2)
      let cleared := s.updateCpu pid fun cpu => { cpu with syscallPending := false }
      let s' :=
        match cleared.handleFileSyscall w pid call with
        | some s' => s'
        | none => cleared.updateCpu pid VirtualCPU.halt
      (s', [⟨s, .syscall cpuId pid call, s'⟩])

/-- Forward a pending page fault. The address is the program counter. -/
def forwardFault (w : World) (cpuId : Fin 2) (pid : Pid) (s : Machine) : Machine × List Tr :=
  match s.cpus.get pid with
  | none => (s, [])
  | some cpu =>
    if cpu.pagefaultPending = false then (s, [])
    else
      let cleared := s.updateCpu pid fun cpu => { cpu with pagefaultPending := false }
      let s' := (cleared.requestMemory w (.pageFaultHandler pid cpu.pc .read)).2
      (s', [⟨s, .pageFault cpuId pid, s'⟩])

/-- At most `n` rounds of the loop over the instructions of a time slice. -/
def execute (w : World) (cpuId : Fin 2) (pid : Pid) : Nat → Machine → Machine × List Tr
  | 0, s => (s, [])
  | n + 1, s =>
    match s.cpus.get pid with
    | none => (s, [])
    | some cpu =>
      if cpu.halted then (s, [])
      else
        let stepped := s.stepCpu w pid cpu
        let trace := [⟨s, Act.step cpuId pid, stepped.2⟩]
        if stepped.1 = false then (stepped.2, trace)
        else
          let called := runSyscall w cpuId pid stepped.2
          if called.2.isEmpty = false ∧ called.1.isHalted pid then (called.1, trace ++ called.2)
          else
            let served := forwardFault w cpuId pid called.1
            let rest := execute w cpuId pid n served.1
            (rest.1, trace ++ called.2 ++ served.2 ++ rest.2)

/-- After the slice: a halted process that is ready is started again, else it becomes a zombie. -/
def settle (s : Machine) (pid : Pid) : Machine :=
  let blocked := (s.stateOf pid).any ProcessState.isBlocked
  let halted := (s.cpus.get pid).any VirtualCPU.halted
  if pid ≠ 1 ∧ blocked = false ∧ halted then
    if s.stateOf pid = some .ready then
      s.updateCpu pid fun cpu => { cpu with halted := false }
    else s.onKernel fun k => k.zombify pid
  else s

/-- Reap a zombie: its CPU and its table entry go. -/
def reapProcess (s : Machine) (pid : Pid) : Machine :=
  if pid = 1 then s
  else { (s.onKernel fun k => k.removeProcess pid) with cpus := s.cpus.erase pid }

/-- Look for one zombie and reap it. -/
def reap (w : World) (s : Machine) : Machine :=
  match s.toKernel.findZombie (w.order s.clock) with
  | some pid => (s.reapProcess pid).advance
  | none => s.advance

/-- The part of a tick that belongs to one CPU. -/
def turn (w : World) (cpuId : Fin 2) (scheduledThisTick : List Pid) (s : Machine) :
    Machine × List Tr × List Pid :=
  let decided := s.dispatch cpuId scheduledThisTick
  let first : List Tr := [⟨s, .dispatch cpuId, decided.2⟩]
  match decided.1 with
  | .run pid _ =>
    let executed := execute w cpuId pid 3 decided.2
    let settled := executed.1.settle pid
    let reaped := settled.reap w
    (reaped,
      first ++ executed.2 ++ [⟨executed.1, .settle cpuId pid, settled⟩, ⟨settled, .reap cpuId, reaped⟩],
      pid :: scheduledThisTick)
  | _ =>
    let reaped := decided.2.reap w
    (reaped, first ++ [⟨decided.2, .reap cpuId, reaped⟩], scheduledThisTick)

/-- A timer interrupt: both CPUs in turn. -/
def handleTimerInterrupt (w : World) (s : Machine) : Machine × List Tr :=
  let turn0 := turn w 0 [] s
  let turn1 := turn w 1 turn0.2.2 turn0.1
  (turn1.1, turn0.2.1 ++ turn1.2.1)

/-! ## Listings -/

/-- A text at the right of a column. -/
def padLeft (width : Nat) (text : String) : String :=
  String.ofList (List.replicate (width - text.length) ' ') ++ text

/-- A text at the left of a column. -/
def padRight (width : Nat) (text : String) : String :=
  text ++ String.ofList (List.replicate (width - text.length) ' ')

/-- The processes in order of their identifiers. -/
def sortedProcesses (w : World) (s : Machine) : List (Pid × PCB) :=
  (HashMap.iter (w.order s.clock) s.processTable).mergeSort fun a b => decide (a.1 ≤ b.1)

/-- The state column of the monitor. -/
def stateColumn (state : ProcessState) : String :=
  (((state.debug.replace "ProcessState::" "").replace "Zombie \x7b exit_code: " "Zombie(").replace
    " \x7d" ")").replace "Blocked(" "Blocked"

/-- One line for each process. -/
def statsLines (w : World) (s : Machine) : List String :=
  (s.sortedProcesses w).map fun p =>
    padLeft 4 (toString p.1) ++ " " ++ padLeft 12 (stateColumn p.2.state) ++ " " ++
      padRight 20 p.2.name ++ " " ++ padLeft 4 ((p.2.parentPid.map toString).getD "-")

/-- `0x..` with at least four upper-case digits. -/
def hexRange (addr : PhysAddr) : String :=
  let digits := (String.ofList (Nat.toDigits 16 addr.toNat)).toUpper
  "0x" ++ String.ofList (List.replicate (4 - digits.length) '0') ++ digits

/-- The pages of a process in order, if it has any. -/
def memoryMapLine (w : World) (s : Machine) (pid : Pid) : Option String :=
  let entries := (s.mmu.getPageEntries (w.order s.clock) pid).mergeSort
    fun a b => decide (a.1 ≤ b.1)
  if entries.isEmpty then none
  else
    let ranges := entries.map fun e => hexRange e.2.1 ++ "-" ++ hexRange (e.2.1 + 0xFFF)
    some ("PID " ++ padLeft 3 (toString pid) ++ ": " ++ String.intercalate ", " ranges ++ " (" ++
      padLeft 4 (toString (entries.length * 4)) ++ " KB)")

/-- The lines of the processes that have pages. -/
def memoryMapLines (w : World) (s : Machine) : List String :=
  (s.sortedProcesses w).filterMap fun p => s.memoryMapLine w p.1

/-- The lines of a process and its descendants. The depth bounds the recursion by the number of
processes, which is enough when no process is its own ancestor. -/
def formatTree (procs : List (Pid × PCB)) : Nat → Pid → String → Bool → String
  | 0, _, _, _ => ""
  | depth + 1, pid, indent, isLast =>
    match procs.find? (·.1 == pid) with
    | none => ""
    | some p =>
      let line := indent ++ (if isLast then "└── " else "├── ") ++ "PID " ++ toString pid ++ " [" ++
        p.2.state.debug ++ "] " ++ p.2.name ++ "\n"
      let children := (procs.filter fun q => q.2.parentPid == some pid).map Prod.fst
      let childIndent := indent ++ (if isLast then "    " else "│   ")
      children.zipIdx.foldl (fun text child =>
        text ++ formatTree procs depth child.1 childIndent (child.2 + 1 == children.length)) line

/-- The processes without a parent in the table, each with its descendants. -/
def processTree (w : World) (s : Machine) : String :=
  let procs := s.sortedProcesses w
  let roots := procs.filter fun p => (p.2.parentPid.all fun pp => !(procs.any (·.1 == pp)))
  let output := String.join (roots.map fun p => formatTree procs procs.length p.1 "" true)
  if output.isEmpty then "(empty)" else output

/-- The text for one process. -/
def processInfo (pid : Pid) (pcb : PCB) : String :=
  "PID: " ++ toString pid ++ ", Executable: " ++ pcb.name ++ ", State: " ++ pcb.state.debug ++
    ", Threads: 0"

end Machine

/-! ## Requests -/

/-- The requests that need the tables only, without a response channel. -/
def Kernel.handleProcessRequest (k : Kernel) : ProcessRequest → Kernel.Outcome
  | .schedule pid tid => (k.handleSchedule pid tid, .ok ())
  | .block pid tid reason => (k.handleBlock pid tid reason, .ok ())
  | .unblock pid tid => (k.handleUnblock pid tid, .ok ())
  | .queryState pid => k.handleQueryState pid
  | .contextSwitch fromPid toPid => (k.handleContextSwitch fromPid toPid, .ok ())
  | .sendMessage fromPid toPid msg => k.handleSendMessage fromPid toPid msg
  | .receiveMessage pid blocking => (k.handleReceiveMessage pid blocking, .ok ())
  | .peekMessage _ => (k, .ok ())
  | .createSharedMemory pid size prot => (k.handleCreateSharedMemory pid size prot, .ok ())
  | .attachSharedMemory pid shmid => k.handleAttachSharedMemory pid shmid
  | .detachSharedMemory pid shmid => k.handleDetachSharedMemory pid shmid
  | .createSemaphore pid initialValue => (k.handleCreateSemaphore pid initialValue, .ok ())
  | .waitSemaphore pid semid => k.handleWaitSemaphore pid semid
  | .signalSemaphore pid semid => (k.handleSignalSemaphore pid semid, .ok ())
  | .createLock pid => (k.handleCreateLock pid, .ok ())
  | .acquireLock pid lockId => (k.handleAcquireLock pid lockId, .ok ())
  | .releaseLock pid lockId => (k.handleReleaseLock pid lockId, .ok ())
  | .waitChild pid childPid => k.handleWaitChild pid childPid
  | .signal pid signal => k.handleSignal pid signal
  | .getProcessInfo pid => k.handleQueryState pid
  | .listProcesses => (k, .ok ())
  | .getStats => (k, .ok ())
  | .getMemoryMap => (k, .ok ())
  -- these three go through the forks and execs of `Machine.handleRequest`
  | .forkProcess _ => (k, .ok ())
  | .execProcess _ _ _ _ => (k, .ok ())
  | .spawn _ _ => (k, .ok ())

namespace Machine

/-- The answer of a handler that has ended: its data, or its error as text. -/
def answerOf {α : Type} (result : Except ServiceError α) (data : α → ResponseData) : Answer :=
  match result with
  | .ok a => .ok (data a)
  | .error e => .error (.other 1 e.display)

/-- Send an answer, if there is one and somebody waits for it. -/
def finish (s : Machine) (channel : Option RequestId) (answer : Option Answer) : Machine :=
  match channel, answer with
  | some id, some (.ok data) => s.onKernel fun k => k.respond id (.success id data)
  | some id, some (.error e) => s.onKernel fun k => k.respond id (.error id e)
  | _, _ => s

/-- A request that is one transition, with the answer that is still to be sent. -/
def handleSimpleRequest (w : World) (s : Machine) (req : ProcessRequest)
    (channel : Option RequestId) : Machine × Option Answer :=
  let plain := s.toKernel.handleProcessRequest req
  match channel, req with
  | some id, .waitChild pid childPid =>
    let waited := s.toKernel.handleWaitChildWithResponse pid childPid id
    (s.onKernel fun _ => waited.1,
      match waited.2 with
      | .ok () => none
      | .error e => some (.error (.other 1 e.display)))
  | some _, .getProcessInfo pid =>
    (s,
      match s.processTable.lookup pid with
      | some pcb => some (.ok (.string (processInfo pid pcb)))
      | none => some (.error (.notFound "Process" (toString pid))))
  | some _, .getStats => (s.advance, some (.ok (.stringList (s.statsLines w))))
  | some _, .getMemoryMap => (s.advance, some (.ok (.stringList (s.memoryMapLines w))))
  | some _, .listProcesses => (s.advance, some (.ok (.string (s.processTree w))))
  | _, _ => (s.onKernel fun _ => plain.1, some (answerOf plain.2 fun _ => .void))

/-- A fork on behalf of the service. -/
def forkTraced (w : World) (s : Machine) (parent : Pid) :
    Machine × List Tr × Except ServiceError Pid :=
  let forked := s.forkImpl w parent
  (forked.2, [⟨s, .fork parent, forked.2⟩], forked.1)

/-- An exec on behalf of the service. -/
def execTraced (w : World) (s : Machine) (pid : Pid) (executable : String) (args : List String) :
    Machine × List Tr × Except ServiceError Unit :=
  let execed := s.execImpl w pid executable args
  (execed.2, [⟨s, .exec pid executable args, execed.2⟩], execed.1)

/-- Fork and exec in one. -/
def createProcess (w : World) (s : Machine) (executable : String) (args : List String) :
    Machine × List Tr × Except ServiceError Pid :=
  match s.forkTraced w 0 with
  | (s', trace, .error e) => (s', trace, .error e)
  | (s', trace, .ok child) =>
    let execed := s'.execTraced w child executable args
    (execed.1, trace ++ execed.2.1, execed.2.2.map fun _ => child)

/-- Send the answer of a handler that has ended. -/
def respondTraced (s : Machine) (channel : Option RequestId) (answer : Option Answer) :
    Machine × List Tr :=
  let s' := s.finish channel answer
  (s', [⟨s, .respond channel, s'⟩])

/-- The program of a spawn request, and how many processes run it. -/
def spawnPlan (program : String) : String × Nat :=
  let name :=
    if program = "dual" then "busy"
    else if "dual:".toList.isPrefixOf program.toList then String.ofList (program.toList.drop 5)
    else program
  (name, if "dual".toList.isPrefixOf program.toList then 2 else 1)

/-- Spawn with a response channel: the first failure ends it. -/
def spawnStrict (w : World) (name : String) : Nat → Machine →
    Machine × List Tr × Except ServiceError Unit
  | 0, s => (s, [], .ok ())
  | n + 1, s =>
    match s.createProcess w name [] with
    | (s', trace, .error e) => (s', trace, .error e)
    | (s', trace, .ok _) =>
      let rest := spawnStrict w name n s'
      (rest.1, trace ++ rest.2.1, rest.2.2)

/-- Spawn without a response channel: failed execs are ignored. -/
def spawnLenient (w : World) (name : String) : Nat → Machine → Machine × List Tr × List Pid
  | 0, s => (s, [], [])
  | n + 1, s =>
    match s.forkTraced w 0 with
    | (s', trace, .error _) =>
      let rest := spawnLenient w name n s'
      (rest.1, trace ++ rest.2.1, rest.2.2)
    | (s', trace, .ok child) =>
      let execed := s'.execTraced w child name []
      let rest := spawnLenient w name n execed.1
      (rest.1, trace ++ execed.2.1 ++ rest.2.1, child :: rest.2.2)

/-- Map a shared frame into the memory of each process. -/
def mapShared (w : World) (frame : PhysAddr) (pids : List Pid) (s : Machine) : Machine :=
  pids.foldl (fun s pid =>
    (s.requestMemory w (.mapPage pid 0x10000 frame ⟨true, true, false⟩)).2) s

/-- The reader-writer demos get two semaphores and a shared frame. -/
def prepareShared (w : World) (s : Machine) (name : String) :
    Machine × List Tr × Option PhysAddr :=
  if name = "rwlock2" ∨ name = "rwlock3" then
    let created := s.onKernel fun k => (k.handleCreateSemaphore 0 1).handleCreateSemaphore 0 1
    let asked := created.requestMemory w (.allocFrame 1 0)
    let frame :=
      match asked.1 with
      | some (.ok (.physicalAddr addr)) => some addr
      | _ => none
    (asked.2, [⟨s, .sharedSemaphores, asked.2⟩], frame)
  else (s, [], none)

/-- Spawn without a response channel. -/
def handleSpawnMessage (w : World) (s : Machine) (program : String) : Machine × List Tr :=
  let plan := spawnPlan program
  let prepared := s.prepareShared w plan.1
  let spawned := spawnLenient w plan.1 plan.2 prepared.1
  match prepared.2.2 with
  | none => (spawned.1, prepared.2.1 ++ spawned.2.1)
  | some frame =>
    let shared := mapShared w frame spawned.2.2 spawned.1
    (shared, prepared.2.1 ++ spawned.2.1 ++ [⟨spawned.1, .background, shared⟩])

/-- A request to the process service. -/
def handleRequest (w : World) (s : Machine) (req : ProcessRequest) (channel : Option RequestId) :
    Machine × List Tr :=
  match req, channel with
  | .forkProcess parent, _ =>
    let forked := s.forkTraced w parent
    let responded := forked.1.respondTraced channel (some (answerOf forked.2.2 .pid))
    (responded.1, forked.2.1 ++ responded.2)
  | .execProcess pid executable args _, _ =>
    let execed := s.execTraced w pid executable args
    let responded := execed.1.respondTraced channel (some (answerOf execed.2.2 fun _ => .void))
    (responded.1, execed.2.1 ++ responded.2)
  | .spawn program _, some _ =>
    let plan := spawnPlan program
    let spawned := spawnStrict w plan.1 plan.2 s
    let responded := spawned.1.respondTraced channel (some (answerOf spawned.2.2 fun _ => .void))
    (responded.1, spawned.2.1 ++ responded.2)
  | .spawn program _, none => s.handleSpawnMessage w program
  | req, channel =>
    let handled := s.handleSimpleRequest w req channel
    let responded := handled.1.respondTraced channel handled.2
    (responded.1, ⟨s, .request req channel, handled.1⟩ :: responded.2)

/-- A system call message. Only the creation of a process does anything. -/
def handleSyscallMessage (w : World) (s : Machine) (syscall : Syscall)
    (channel : Option RequestId) : Machine × List Tr :=
  match syscall with
  | .createProcess executable args =>
    let created := s.createProcess w executable args
    let responded := created.1.respondTraced channel (some (answerOf created.2.2 .pid))
    (responded.1, created.2.1 ++ responded.2)
  | _ => s.respondTraced channel (some (.ok .void))

/-- An interrupt that comes as a message. -/
def handleInterrupt (w : World) (s : Machine) (interrupt : Interrupt) : Machine × List Tr :=
  match interrupt with
  | .timer => s.handleTimerInterrupt w
  | .pageFault addr accessType =>
    let s' := s.sendMemory (.pageFaultHandler 0 addr accessType)
    (s', [⟨s, .background, s'⟩])
  | _ => (s, [])

/-- A message, with the channel for its response if it expects one. -/
def handleMessage (w : World) (s : Machine) (msg : KernelMsg) (channel : Option RequestId) :
    Machine × List Tr :=
  match msg with
  | .process req => s.handleRequest w req channel
  | .syscall req => s.handleSyscallMessage w req channel
  | .interrupt int => s.handleInterrupt w int
  | _ => (s, [])

/-- An envelope. A request that expects a response has a fresh identifier, which names its channel. -/
def handleEnvelope (w : World) (s : Machine) (msg : KernelMsg) (expectsResponse : Bool) :
    Machine × List Tr :=
  if expectsResponse then
    let s' := { s with nextRequestId := s.nextRequestId + 1 }
    let handled := s'.handleMessage w msg (some s.nextRequestId)
    (handled.1, ⟨s, .background, s'⟩ :: handled.2)
  else s.handleMessage w msg none

end Machine

/-! ## Runs -/

/-- What the main loop takes from its channels. -/
inductive Event where
  | timer
  | envelope (msg : KernelMsg) (expectsResponse : Bool)
  deriving DecidableEq

namespace Machine

/-- An event of the service: a tick or an envelope. -/
def handleEvent (w : World) (s : Machine) : Event → Machine × List Tr
  | .timer => s.handleTimerInterrupt w
  | .envelope msg expectsResponse => s.handleEnvelope w msg expectsResponse

/-- The service before it runs. -/
def new (memory : MemoryService) : Machine :=
  { Kernel.new with
    cpus := CpuTable.empty
    memory := memory
    memoryQueue := []
    clock := 0
    nextRequestId := 1
    outbox := [] }

/-- The service when it enters its main loop: process 1 exists. -/
def boot (w : World) (memory : MemoryService) : Machine := ((new memory).forkImpl w 0).2

/-- A run: the last state and all transitions. -/
def run (w : World) (memory : MemoryService) (events : List Event) : Machine × List Tr :=
  runTrace (handleEvent w) (boot w memory) events

end Machine

end GenshinOs.Process
