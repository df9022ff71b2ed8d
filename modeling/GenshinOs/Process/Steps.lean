import GenshinOs.Process.Service

/-!
# Transitions of the process service

`Performed` says which operation of the service each transition of a run is, one constructor for each;
the tick, the request handlers and the runs are unfolded here and nowhere else. `run_traced` says that
the transitions of a run fit together and that each of them is such an operation. `Step` says what
the operations do to the tables and the CPUs.
-/

set_option autoImplicit false

namespace GenshinOs.Process

open GenshinOs.Lib GenshinOs.Hardware GenshinOs.Memory

open Machine

/-- Which operation a transition is. -/
inductive Performed (w : World) (s : Machine) : Act → Machine → Prop
  | dispatch (cpuId : Fin 2) (scheduledThisTick : List Pid) :
      Performed w s (.dispatch cpuId) (s.dispatch cpuId scheduledThisTick).2
  | step (cpuId : Fin 2) {pid : Pid} {cpu : VirtualCPU} (hget : s.cpus.get pid = some cpu)
      (hrun : cpu.halted = false) : Performed w s (.step cpuId pid) (s.stepCpu w pid cpu).2
  | syscall {s' : Machine} (cpuId : Fin 2) {pid : Pid} {call : SystemCall}
      (h : (s.updateCpu pid fun cpu => { cpu with syscallPending := false }).handleFileSyscall w pid
        call = some s') : Performed w s (.syscall cpuId pid call) s'
  | panic (cpuId : Fin 2) {pid : Pid} {call : SystemCall}
      (h : (s.updateCpu pid fun cpu => { cpu with syscallPending := false }).handleFileSyscall w pid
        call = none) :
      Performed w s (.syscall cpuId pid call)
        ((s.updateCpu pid fun cpu => { cpu with syscallPending := false }).updateCpu pid
          VirtualCPU.halt)
  | pageFault (cpuId : Fin 2) {pid : Pid} {cpu : VirtualCPU} (hget : s.cpus.get pid = some cpu)
      (hpending : cpu.pagefaultPending = true) :
      Performed w s (.pageFault cpuId pid)
        ((s.updateCpu pid fun cpu => { cpu with pagefaultPending := false }).requestMemory w
          (.pageFaultHandler pid cpu.pc .read)).2
  | settle (cpuId : Fin 2) (pid : Pid) : Performed w s (.settle cpuId pid) (s.settle pid)
  | reap (cpuId : Fin 2) : Performed w s (.reap cpuId) (s.reap w)
  | fork (parent : Pid) : Performed w s (.fork parent) (s.forkImpl w parent).2
  | exec (pid : Pid) (executable : String) (args : List String) :
      Performed w s (.exec pid executable args) (s.execImpl w pid executable args).2
  | sharedSemaphores :
      Performed w s .sharedSemaphores
        ((s.onKernel fun k => (k.handleCreateSemaphore 0 1).handleCreateSemaphore 0 1).requestMemory w
          (.allocFrame 1 0)).2
  | request (req : ProcessRequest) (channel : Option RequestId) :
      Performed w s (.request req channel) (s.handleSimpleRequest w req channel).1
  | respond (channel : Option RequestId) (answer : Option Answer) :
      Performed w s (.respond channel) (s.finish channel answer)
  | mapShared (frame : PhysAddr) (pids : List Pid) :
      Performed w s .background (mapShared w frame pids s)
  | faultMessage (addr : VirtAddr) (accessType : AccessType) :
      Performed w s .background (s.sendMemory (.pageFaultHandler 0 addr accessType))
  | takeRequestId : Performed w s .background { s with nextRequestId := s.nextRequestId + 1 }

/-- A trace of operations from one state to another. -/
structure Traced (w : World) (s : Machine) (trace : List Tr) (s' : Machine) : Prop where
  chain : Chain s trace s'
  performed : ∀ t ∈ trace, Performed w t.pre t.act t.post

/-- Nothing is done in no transition. -/
theorem Traced.nil (w : World) (s : Machine) : Traced w s [] s := ⟨Chain.nil s, by simp⟩

/-- One operation is a trace of one transition. -/
theorem Traced.single {w : World} {s s' : Machine} {act : Act} (h : Performed w s act s') :
    Traced w s [⟨s, act, s'⟩] s' := by
  refine ⟨Chain.single ⟨s, act, s'⟩, ?_⟩
  intro t ht
  rw [List.mem_singleton.1 ht]
  exact h

/-- Traces that meet are one trace. -/
theorem Traced.append {w : World} {s s' s'' : Machine} {trace trace' : List Tr}
    (h : Traced w s trace s') (h' : Traced w s' trace' s'') : Traced w s (trace ++ trace') s'' := by
  refine ⟨h.chain.append h'.chain, ?_⟩
  intro t ht
  rcases List.mem_append.1 ht with ht | ht
  · exact h.performed t ht
  · exact h'.performed t ht

/-- One operation before a trace. -/
theorem Traced.cons {w : World} {s s' s'' : Machine} {act : Act} {trace : List Tr}
    (h : Performed w s act s') (h' : Traced w s' trace s'') :
    Traced w s (⟨s, act, s'⟩ :: trace) s'' :=
  (Traced.single h).append h'

/-! ## The tick -/

/-- A pending system call is one operation, or the end of the CPU that asked too much. -/
theorem runSyscall_traced (w : World) (cpuId : Fin 2) (pid : Pid) (s : Machine) :
    Traced w s (runSyscall w cpuId pid s).2 (runSyscall w cpuId pid s).1 := by
  simp only [runSyscall]
  split
  · exact Traced.nil w s
  split
  · exact Traced.nil w s
  split
  · next heq => exact Traced.single (.syscall cpuId heq)
  · next heq => exact Traced.single (.panic cpuId heq)

/-- A pending fault is one request to the memory service. -/
theorem forwardFault_traced (w : World) (cpuId : Fin 2) (pid : Pid) (s : Machine) :
    Traced w s (forwardFault w cpuId pid s).2 (forwardFault w cpuId pid s).1 := by
  simp only [forwardFault]
  split
  · exact Traced.nil w s
  split
  · exact Traced.nil w s
  next cpu hget hpending =>
  exact Traced.single (.pageFault cpuId hget (by simpa using hpending))

/-- The steps of a time slice, by induction on their number. -/
theorem execute_traced (w : World) (cpuId : Fin 2) (pid : Pid) (n : Nat) (s : Machine) :
    Traced w s (execute w cpuId pid n s).2 (execute w cpuId pid n s).1 := by
  induction n generalizing s with
  | zero => exact Traced.nil w s
  | succ n ih =>
    simp only [execute]
    split
    · exact Traced.nil w s
    next cpu hget =>
    split
    · exact Traced.nil w s
    next hrun =>
    have hstep := Traced.single (Performed.step (w := w) cpuId hget (by simpa using hrun))
    split
    · exact hstep
    have hcalled := hstep.append (runSyscall_traced w cpuId pid (s.stepCpu w pid cpu).2)
    split
    · exact hcalled
    · exact (hcalled.append (forwardFault_traced w cpuId pid _)).append (ih _)

/-- A turn is a dispatch, the slice of the process that was chosen, and the reaping. -/
theorem turn_traced (w : World) (cpuId : Fin 2) (scheduledThisTick : List Pid) (s : Machine) :
    Traced w s (turn w cpuId scheduledThisTick s).2.1 (turn w cpuId scheduledThisTick s).1 := by
  have hfirst := Traced.single (Performed.dispatch (w := w) (s := s) cpuId scheduledThisTick)
  simp only [turn]
  split
  · next pid _ _ =>
    refine (hfirst.append (execute_traced w cpuId pid 3 _)).append ?_
    exact Traced.cons (.settle cpuId pid) (Traced.single (.reap cpuId))
  · exact hfirst.append (Traced.single (.reap cpuId))

/-- A tick is the turns of the two CPUs. -/
theorem handleTimerInterrupt_traced (w : World) (s : Machine) :
    Traced w s (s.handleTimerInterrupt w).2 (s.handleTimerInterrupt w).1 :=
  (turn_traced w 0 [] s).append (turn_traced w 1 _ _)

/-! ## Requests -/

/-- Acts of the service on its own behalf; the others belong to the time slice of a process. -/
def Act.isService : Act → Bool
  | .fork _ => true
  | .exec _ _ _ => true
  | .sharedSemaphores => true
  | .request _ _ => true
  | .respond _ => true
  | .background => true
  | _ => false

/-- A trace outside the time slices. -/
structure Served (w : World) (s : Machine) (trace : List Tr) (s' : Machine) : Prop
    extends Traced w s trace s' where
  service : ∀ t ∈ trace, t.act.isService = true

/-- Nothing is served in no transition. -/
theorem Served.nil (w : World) (s : Machine) : Served w s [] s := ⟨Traced.nil w s, by simp⟩

/-- One act of the service is a trace outside the time slices. -/
theorem Served.single {w : World} {s s' : Machine} {act : Act} (h : Performed w s act s')
    (hact : act.isService = true) : Served w s [⟨s, act, s'⟩] s' := by
  refine ⟨Traced.single h, ?_⟩
  intro t ht
  rw [List.mem_singleton.1 ht]
  exact hact

/-- Two traces outside the time slices are one. -/
theorem Served.append {w : World} {s s' s'' : Machine} {trace trace' : List Tr}
    (h : Served w s trace s') (h' : Served w s' trace' s'') : Served w s (trace ++ trace') s'' := by
  refine ⟨h.toTraced.append h'.toTraced, ?_⟩
  intro t ht
  rcases List.mem_append.1 ht with ht | ht
  · exact h.service t ht
  · exact h'.service t ht

/-- One act of the service before a trace outside the time slices. -/
theorem Served.cons {w : World} {s s' s'' : Machine} {act : Act} {trace : List Tr}
    (h : Performed w s act s') (hact : act.isService = true) (h' : Served w s' trace s'') :
    Served w s (⟨s, act, s'⟩ :: trace) s'' :=
  (Served.single h hact).append h'

/-- A fork is one act of the service. -/
theorem forkTraced_served (w : World) (s : Machine) (parent : Pid) :
    Served w s (s.forkTraced w parent).2.1 (s.forkTraced w parent).1 :=
  Served.single (.fork parent) rfl

/-- An exec is one act of the service. -/
theorem execTraced_served (w : World) (s : Machine) (pid : Pid) (executable : String)
    (args : List String) :
    Served w s (s.execTraced w pid executable args).2.1 (s.execTraced w pid executable args).1 :=
  Served.single (.exec pid executable args) rfl

/-- An answer is one act of the service. -/
theorem respondTraced_served (w : World) (s : Machine) (channel : Option RequestId) (answer : Option Answer) :
    Served w s (s.respondTraced channel answer).2 (s.respondTraced channel answer).1 :=
  Served.single (.respond channel answer) rfl

/-- A creation is a fork, and an exec in the child if there is one. -/
theorem createProcess_served (w : World) (s : Machine) (executable : String) (args : List String) :
    Served w s (s.createProcess w executable args).2.1 (s.createProcess w executable args).1 := by
  have hforked := forkTraced_served w s 0
  simp only [createProcess]
  split
  · next heq =>
    rw [heq] at hforked
    exact hforked
  · next s' trace child heq =>
    rw [heq] at hforked
    exact hforked.append (execTraced_served w s' child executable args)

/-- Creations up to the first that fails, by induction on their number. -/
theorem spawnStrict_served (w : World) (name : String) (n : Nat) (s : Machine) :
    Served w s (spawnStrict w name n s).2.1 (spawnStrict w name n s).1 := by
  induction n generalizing s with
  | zero => exact Served.nil w s
  | succ n ih =>
    have hcreated := createProcess_served w s name []
    simp only [spawnStrict]
    split
    · next heq =>
      rw [heq] at hcreated
      exact hcreated
    · next s' trace child heq =>
      rw [heq] at hcreated
      exact hcreated.append (ih s')

/-- Forks and execs of which each may fail, by induction on their number. -/
theorem spawnLenient_served (w : World) (name : String) (n : Nat) (s : Machine) :
    Served w s (spawnLenient w name n s).2.1 (spawnLenient w name n s).1 := by
  induction n generalizing s with
  | zero => exact Served.nil w s
  | succ n ih =>
    have hforked := forkTraced_served w s 0
    simp only [spawnLenient]
    split
    · next s' trace e heq =>
      rw [heq] at hforked
      exact hforked.append (ih s')
    · next s' trace child heq =>
      rw [heq] at hforked
      exact (hforked.append (execTraced_served w s' child name [])).append (ih _)

/-- The semaphores and the frame that the programs with shared memory ask for. -/
theorem prepareShared_served (w : World) (s : Machine) (name : String) :
    Served w s (s.prepareShared w name).2.1 (s.prepareShared w name).1 := by
  simp only [prepareShared]
  split
  · exact Served.single .sharedSemaphores rfl
  · exact Served.nil w s

/-- A spawn message prepares what the program shares, creates the processes and maps the frame. -/
theorem handleSpawnMessage_served (w : World) (s : Machine) (program : String) :
    Served w s (s.handleSpawnMessage w program).2 (s.handleSpawnMessage w program).1 := by
  have hspawned := (prepareShared_served w s (spawnPlan program).1).append
    (spawnLenient_served w (spawnPlan program).1 (spawnPlan program).2 _)
  simp only [handleSpawnMessage]
  split
  · exact hspawned
  · exact hspawned.append (Served.single (.mapShared _ _) rfl)

/-- Every request is acts of the service only. -/
theorem handleRequest_served (w : World) (s : Machine) (req : ProcessRequest)
    (channel : Option RequestId) :
    Served w s (s.handleRequest w req channel).2 (s.handleRequest w req channel).1 := by
  simp only [handleRequest]
  split
  · exact (forkTraced_served w s _).append (respondTraced_served w _ channel _)
  · exact (execTraced_served w s _ _ _).append (respondTraced_served w _ channel _)
  · exact (spawnStrict_served w _ _ s).append (respondTraced_served w _ _ _)
  · exact handleSpawnMessage_served w s _
  · exact Served.cons (.request _ _) rfl (respondTraced_served w _ _ _)

/-- So is every message of a system call. -/
theorem handleSyscallMessage_served (w : World) (s : Machine) (syscall : Syscall)
    (channel : Option RequestId) :
    Served w s (s.handleSyscallMessage w syscall channel).2
      (s.handleSyscallMessage w syscall channel).1 := by
  simp only [handleSyscallMessage]
  split
  · exact (createProcess_served w s _ _).append (respondTraced_served w _ channel _)
  · exact respondTraced_served w s channel _

/-- An interrupt is a tick, a fault that is passed on, or nothing. -/
theorem handleInterrupt_traced (w : World) (s : Machine) (interrupt : Interrupt) :
    Traced w s (s.handleInterrupt w interrupt).2 (s.handleInterrupt w interrupt).1 := by
  simp only [handleInterrupt]
  split
  · exact handleTimerInterrupt_traced w s
  · exact Traced.single (.faultMessage _ _)
  · exact Traced.nil w s

/-- Every message is operations of the service. -/
theorem handleMessage_traced (w : World) (s : Machine) (msg : KernelMsg)
    (channel : Option RequestId) :
    Traced w s (s.handleMessage w msg channel).2 (s.handleMessage w msg channel).1 := by
  simp only [Machine.handleMessage]
  split
  · exact (handleRequest_served w s _ channel).toTraced
  · exact (handleSyscallMessage_served w s _ channel).toTraced
  · exact handleInterrupt_traced w s _
  · exact Traced.nil w s

/-- The number of the request is taken before the message is handled. -/
theorem handleEnvelope_traced (w : World) (s : Machine) (msg : KernelMsg)
    (expectsResponse : Bool) :
    Traced w s (s.handleEnvelope w msg expectsResponse).2 (s.handleEnvelope w msg expectsResponse).1 := by
  simp only [Machine.handleEnvelope]
  split
  · exact Traced.cons .takeRequestId (handleMessage_traced w _ msg _)
  · exact handleMessage_traced w s msg none

/-- Every event is operations of the service. -/
theorem handleEvent_traced (w : World) (s : Machine) (event : Event) :
    Traced w s (s.handleEvent w event).2 (s.handleEvent w event).1 := by
  cases event with
  | timer => exact handleTimerInterrupt_traced w s
  | envelope msg expectsResponse => exact handleEnvelope_traced w s msg expectsResponse

/-- The transitions of a run fit together and are operations of the service. -/
theorem run_traced (w : World) (memory : MemoryService) (events : List Event) :
    Traced w (boot w memory) (run w memory events).2 (run w memory events).1 := by
  refine ⟨runTrace_chain (fun s e => (handleEvent_traced w s e).chain) _ events, ?_⟩
  exact runTrace_mem (fun s e => (handleEvent_traced w s e).performed) _ events

/-- A trace made of turns of the two CPUs and of what the service does between them. -/
inductive Rounds (w : World) : Machine → List Tr → Machine → Prop
  | served {s s' : Machine} {trace : List Tr} (h : Served w s trace s') : Rounds w s trace s'
  | turn (cpuId : Fin 2) (scheduledThisTick : List Pid) (s : Machine) :
      Rounds w s (turn w cpuId scheduledThisTick s).2.1 (turn w cpuId scheduledThisTick s).1
  | append {s s' s'' : Machine} {trace trace' : List Tr} (h : Rounds w s trace s')
      (h' : Rounds w s' trace' s'') : Rounds w s (trace ++ trace') s''

/-- A tick is a round of two turns. -/
theorem handleTimerInterrupt_rounds (w : World) (s : Machine) :
    Rounds w s (s.handleTimerInterrupt w).2 (s.handleTimerInterrupt w).1 :=
  (Rounds.turn 0 [] s).append (Rounds.turn 1 _ _)

/-- Every message is turns, or acts of the service between them. -/
theorem handleMessage_rounds (w : World) (s : Machine) (msg : KernelMsg)
    (channel : Option RequestId) :
    Rounds w s (s.handleMessage w msg channel).2 (s.handleMessage w msg channel).1 := by
  simp only [Machine.handleMessage]
  split
  · exact .served (handleRequest_served w s _ channel)
  · exact .served (handleSyscallMessage_served w s _ channel)
  · simp only [handleInterrupt]
    split
    · exact handleTimerInterrupt_rounds w s
    · exact .served (Served.single (.faultMessage _ _) rfl)
    · exact .served (Served.nil w s)
  · exact .served (Served.nil w s)

/-- Every event is turns, or acts of the service between them. -/
theorem handleEvent_rounds (w : World) (s : Machine) (event : Event) :
    Rounds w s (s.handleEvent w event).2 (s.handleEvent w event).1 := by
  cases event with
  | timer => exact handleTimerInterrupt_rounds w s
  | envelope msg expectsResponse =>
    simp only [handleEvent, Machine.handleEnvelope]
    split
    · exact (Rounds.served (Served.single .takeRequestId rfl)).append (handleMessage_rounds w _ msg _)
    · exact handleMessage_rounds w s msg none

/-- Every run is made of turns and of acts of the service between them. -/
theorem run_rounds (w : World) (memory : MemoryService) (events : List Event) :
    Rounds w (boot w memory) (run w memory events).2 (run w memory events).1 := by
  have hall : ∀ s, Rounds w s (runTrace (handleEvent w) s events).2
      (runTrace (handleEvent w) s events).1 := by
    induction events with
    | nil => exact fun s => .served (Served.nil w s)
    | cons event events ih => exact fun s => (handleEvent_rounds w s event).append (ih _)
  exact hall (boot w memory)

/-- A property of the state and a history variable that the service keeps transition by transition and
a turn keeps as a whole is kept by every round. -/
theorem Rounds.segment {γ : Type*} {w : World} {upd : γ → Tr → γ} {ok good : γ → Tr → Prop}
    {Inv : γ → Machine → Prop}
    (hserved : ∀ t, Performed w t.pre t.act t.post → t.act.isService = true → ∀ g, Inv g t.pre →
      ok g t → Inv (upd g t) t.post ∧ good g t)
    (hturn : ∀ cpuId scheduledThisTick s, Segment upd ok good (fun g => Inv g s)
      (Machine.turn w cpuId scheduledThisTick s).2.1
      fun g => Inv g (Machine.turn w cpuId scheduledThisTick s).1)
    {s s' : Machine} {trace : List Tr} (h : Rounds w s trace s') :
    Segment upd ok good (fun g => Inv g s) trace fun g => Inv g s' := by
  induction h with
  | turn cpuId scheduledThisTick s => exact hturn cpuId scheduledThisTick s
  | append h h' ih ih' => exact ih.append ih'
  | served h => exact h.chain.segment fun t ht => hserved t (h.performed t ht) (h.service t ht)

/-! ## What the operations do to tables and CPUs -/

/-- What a transition does. -/
inductive Step (s : Machine) : Act → Machine → Prop
  | dispatch (cpuId : Fin 2) (scheduledThisTick : List Pid) :
      Step s (.dispatch cpuId) (s.dispatch cpuId scheduledThisTick).2
  | step {s' : Machine} {pid : Pid} (cpuId : Fin 2) (hrun : s.isHalted pid = false)
      (hk : s'.toKernel = s.toKernel) (hcpus : ∀ q, q ≠ pid → s'.cpus.get q = s.cpus.get q) :
      Step s (.step cpuId pid) s'
  | syscall {s' : Machine} {pid : Pid} {call : SystemCall} (cpuId : Fin 2)
      (h : call.Effect (s.updateCpu pid fun cpu => { cpu with syscallPending := false }) pid s') :
      Step s (.syscall cpuId pid call) s'
  | panic {s' : Machine} {pid : Pid} {call : SystemCall} (cpuId : Fin 2)
      (hcall : call.isQuiet = true) (hk : s'.toKernel = s.toKernel) :
      Step s (.syscall cpuId pid call) s'
  | pageFault {s' : Machine} (cpuId : Fin 2) (pid : Pid) (h : Harmless s s') :
      Step s (.pageFault cpuId pid) s'
  | settle (cpuId : Fin 2) (pid : Pid) : Step s (.settle cpuId pid) (s.settle pid)
  | reap (cpuId : Fin 2) (w : World) : Step s (.reap cpuId) (s.reap w)
  | fork {parent : Pid} {r : Except ServiceError Pid} {s' : Machine} (h : Forked s parent (r, s')) :
      Step s (.fork parent) s'
  | exec {pid : Pid} {executable : String} {args : List String} {r : Except ServiceError Unit}
      {s' : Machine} (h : Execed s pid executable args (r, s')) :
      Step s (.exec pid executable args) s'
  | sharedSemaphores {s' : Machine} (hk : s'.toKernel =
        (s.toKernel.handleCreateSemaphore 0 1).handleCreateSemaphore 0 1) (hcpus : s'.cpus = s.cpus) :
      Step s .sharedSemaphores s'
  | request (req : ProcessRequest) (channel : Option RequestId) (w : World) :
      Step s (.request req channel) (s.handleSimpleRequest w req channel).1
  | respond (channel : Option RequestId) (answer : Option Answer) :
      Step s (.respond channel) (s.finish channel answer)
  | background {s' : Machine} (h : Quiet s s') : Step s .background s'

/-- An instruction changes the CPU of its own process only, and no table. -/
theorem stepCpu_step (w : World) {s : Machine} (cpuId : Fin 2) {pid : Pid} {cpu : VirtualCPU}
    (hget : s.cpus.get pid = some cpu) (hrun : cpu.halted = false) :
    Step s (.step cpuId pid) (s.stepCpu w pid cpu).2 := by
  have hhalt : s.isHalted pid = false := by rw [isHalted, hget]; exact hrun
  have howner : (cpu.step (s.background w).mmu).cpu.currentPid = pid :=
    (VirtualCPU.step_contained cpu _).pid_eq.trans (s.cpus.owned pid cpu hget)
  have hinsert : ∀ q, q ≠ pid →
      (s.cpus.insert (cpu.step (s.background w).mmu).cpu).get q = s.cpus.get q := by
    intro q hq
    rw [CpuTable.get_insert, howner, if_neg hq]
  simp only [stepCpu]
  split
  · exact .step cpuId hhalt rfl hinsert
  · exact .step cpuId hhalt rfl hinsert
  · split
    · exact .step cpuId hhalt rfl hinsert
    · refine .step cpuId hhalt rfl ?_
      intro q hq
      show ((s.cpus.insert _).update pid _).get q = _
      rw [CpuTable.get_update _ _ _ (by intro cpu; rfl), if_neg hq, hinsert q hq]

/-- The calls that end the thread of the CPU touch no table. -/
theorem handleFileSyscall_panic {w : World} {s : Machine} {pid : Pid} {call : SystemCall}
    (h : s.handleFileSyscall w pid call = none) : call.isQuiet = true := by
  cases call with
  | printStr vaddr len => rfl
  | write fd len => rfl
  | deviceWrite size => rfl
  | _ => cases h

/-- A change of a CPU that keeps owner and halt flag does no harm. -/
theorem harmless_updateCpu (s : Machine) (pid : Pid) {f : VirtualCPU → VirtualCPU}
    (howner : ∀ cpu, (f cpu).currentPid = cpu.currentPid) (hhalted : ∀ cpu, (f cpu).halted = cpu.halted) :
    Harmless s (s.updateCpu pid f) := by
  refine ⟨rfl, ?_⟩
  intro q
  show ((s.cpus.update pid f).get q).map VirtualCPU.halted = _
  rw [CpuTable.get_update _ _ _ howner]
  split
  · next heq =>
    rw [heq, Option.map_map]
    congr 1
    funext cpu
    exact hhalted cpu
  · rfl

/-- A fault that is passed on clears its mark and leaves the rest to the memory service. -/
theorem pageFault_step (w : World) (s : Machine) (cpuId : Fin 2) (pid : Pid) (pc : VirtAddr) :
    Step s (.pageFault cpuId pid)
      ((s.updateCpu pid fun cpu => { cpu with pagefaultPending := false }).requestMemory w
        (.pageFaultHandler pid pc .read)).2 := by
  have hclear := harmless_updateCpu s pid (f := fun cpu => { cpu with pagefaultPending := false })
    (fun _ => rfl) (fun _ => rfl)
  have hquiet := quiet_requestMemory w
    (s.updateCpu pid fun cpu => { cpu with pagefaultPending := false }) (.pageFaultHandler pid pc .read)
  refine .pageFault cpuId pid ⟨hquiet.toKernel.trans hclear.toKernel, ?_⟩
  rw [hquiet.cpus]
  exact hclear.halted

/-- What an operation does, read off from which one it is. -/
theorem Performed.step_of {w : World} {s s' : Machine} {act : Act} (h : Performed w s act s') :
    Step s act s' := by
  cases h with
  | dispatch cpuId scheduledThisTick => exact .dispatch cpuId scheduledThisTick
  | step cpuId hget hrun => exact stepCpu_step w cpuId hget hrun
  | syscall cpuId hcall => exact .syscall cpuId (handleFileSyscall_effect hcall)
  | panic cpuId hcall => exact .panic cpuId (handleFileSyscall_panic hcall) rfl
  | pageFault cpuId hget hpending => exact pageFault_step w s cpuId _ _
  | settle cpuId pid => exact .settle cpuId pid
  | reap cpuId => exact .reap cpuId w
  | fork parent => exact .fork (forkImpl_forked w s parent)
  | exec pid executable args => exact .exec (execImpl_execed w s pid executable args)
  | sharedSemaphores =>
    have hquiet := quiet_requestMemory w
      (s.onKernel fun k => (k.handleCreateSemaphore 0 1).handleCreateSemaphore 0 1) (.allocFrame 1 0)
    exact .sharedSemaphores hquiet.toKernel hquiet.cpus
  | request req channel => exact .request req channel w
  | respond channel answer => exact .respond channel answer
  | mapShared frame pids =>
    exact .background (Quiet.foldl (fun s _ => quiet_requestMemory w s _) _ _)
  | faultMessage addr accessType => exact .background (quiet_sendMemory s _)
  | takeRequestId => exact .background ⟨rfl, rfl⟩

end GenshinOs.Process
