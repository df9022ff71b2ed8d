import GenshinOs.Process.Ipc
import GenshinOs.Process.Scheduler
import GenshinOs.Process.Sync

/-!
# Tables of the process service

The state that the process service keeps about processes (`src/services/process/service.rs`): the
process table, the scheduler, the primitives of synchronisation and communication, the links
between parents and children, the parents that wait for a child, and the responses that were sent.
The handlers in this module need nothing but these tables; the virtual CPUs and the memory come in
with `GenshinOs.Process.Machine`.

The tables change through a few updates (`setState`, `onScheduler`, `onSync`, ..), each with its
lemmas for the observations that later modules use.
-/

set_option autoImplicit false

namespace GenshinOs.Process

open GenshinOs.Lib

/-- Process state. -/
inductive ProcessState where
  | creating
  | ready
  | running
  | blocked (reason : BlockReason)
  | terminated (exitCode : Int32)
  | zombie (exitCode : Int32)
  deriving DecidableEq

namespace ProcessState

/-- A process that waits. -/
def isBlocked : ProcessState → Bool
  | .blocked _ => true
  | _ => false

/-- A process that has ended, waited for or not. -/
def isTerminated : ProcessState → Bool
  | .terminated _ => true
  | .zombie _ => true
  | _ => false

/-- A process that has ended and is still in the table. -/
def isZombie : ProcessState → Bool
  | .zombie _ => true
  | _ => false

/-- The exit code that a waiting parent is told. -/
def exitCode : ProcessState → Int32
  | .zombie code => code
  | _ => 0

end ProcessState

/-- The reason as the derived `Debug` prints it. -/
def blockReasonDebug : BlockReason → String
  | .waitingForIo deviceId => "WaitingForIo \x7b device_id: " ++ toString deviceId ++ " \x7d"
  | .waitingForMemory => "WaitingForMemory"
  | .waitingForLock lockAddr => "WaitingForLock \x7b lock_addr: " ++ toString lockAddr ++ " \x7d"
  | .sleeping durationMs => "Sleeping \x7b duration_ms: " ++ toString durationMs ++ " \x7d"
  | .waitingForChild pid => "WaitingForChild \x7b pid: " ++ toString pid ++ " \x7d"

/-- The debug text of a state, which the process listings show. -/
def ProcessState.debug : ProcessState → String
  | .creating => "Creating"
  | .ready => "Ready"
  | .running => "Running"
  | .blocked reason => "Blocked(" ++ blockReasonDebug reason ++ ")"
  | .terminated code => "Terminated \x7b exit_code: " ++ toString code.toInt ++ " \x7d"
  | .zombie code => "Zombie \x7b exit_code: " ++ toString code.toInt ++ " \x7d"

/-- Process control block, with the fields that the service reads. -/
structure PCB where
  pid : Pid
  parentPid : Option Pid
  state : ProcessState
  priority : UInt8
  pendingSignals : List SignalType
  name : String
  args : List String

/-- A process that is being created, with the priority of every new process. -/
def PCB.new (pid : Pid) (name : String) (parentPid : Option Pid) : PCB :=
  ⟨pid, parentPid, .creating, 128, [], name, []⟩

/-- A parent that waits for a child on a response channel. -/
structure Waiter where
  child : Pid
  parent : Pid
  channel : RequestId
  deriving DecidableEq, Repr

/-- Tables of the process service. -/
structure Kernel where
  processTable : HashMap Pid PCB
  nextPid : Pid
  ipcManager : IPCManager
  syncManager : SyncManager
  scheduler : Scheduler 2
  parentChildren : HashMap Pid (List Pid)
  waitingParents : List Waiter
  lastRunning : Fin 2 → Option Pid
  responses : List (RequestId × Response)

/-- Exit code as the register gives it: the low 32 bits. -/
def exitCodeOf (raw : UInt64) : Int32 := raw.toUInt32.toInt32

/-- Exit code as a response carries it: sign-extended. -/
def exitCodeWord (code : Int32) : UInt64 := code.toInt64.toUInt64

namespace Kernel

/-- The tables before the first process: round robin with three ticks over two CPUs. -/
def new : Kernel where
  processTable := ∅
  nextPid := 1
  ipcManager := IPCManager.new
  syncManager := SyncManager.new
  scheduler := Scheduler.new (.roundRobin 3) 2
  parentChildren := ∅
  waitingParents := []
  lastRunning := fun _ => none
  responses := []

/-! ## Observations and updates -/

/-- State of a process in the table. -/
def stateOf (k : Kernel) (pid : Pid) : Option ProcessState :=
  (k.processTable.lookup pid).map PCB.state

/-- Write the state of a process that is in the table. -/
def setState (k : Kernel) (pid : Pid) (state : ProcessState) : Kernel :=
  { k with processTable := HashMap.adjust k.processTable pid fun pcb => { pcb with state := state } }

/-- Change the scheduler. -/
def onScheduler (k : Kernel) (f : Scheduler 2 → Scheduler 2) : Kernel :=
  { k with scheduler := f k.scheduler }

/-- Change the table of semaphores and locks. -/
def onSync (k : Kernel) (f : SyncManager → SyncManager) : Kernel :=
  { k with syncManager := f k.syncManager }

/-- Send a response on a channel. -/
def respond (k : Kernel) (channel : RequestId) (response : Response) : Kernel :=
  { k with responses := k.responses ++ [(channel, response)] }

/-- Enter a process in the table, in the place of one with the same identifier. -/
def insertProcess (k : Kernel) (pid : Pid) (pcb : PCB) : Kernel :=
  { k with processTable := k.processTable.insert pid pcb }

/-- Take a process from the table. -/
def removeProcess (k : Kernel) (pid : Pid) : Kernel :=
  { k with processTable := k.processTable.erase pid }

/-- Take a thread from the scheduler. -/
def blockThread (k : Kernel) (pid : Pid) (tid : Tid) : Kernel :=
  k.onScheduler fun s => (s.block pid tid).2

/-- Queue a thread. -/
def readyThread (k : Kernel) (pid : Pid) (tid : Tid) (priority : UInt8) : Kernel :=
  k.onScheduler fun s => s.ready pid tid priority

/-- Only the process that is named changes its state, and only when the table has it. -/
theorem setState_stateOf (k : Kernel) (pid q : Pid) (state : ProcessState) :
    (k.setState pid state).stateOf q =
      if q = pid then (k.stateOf pid).map fun _ => state else k.stateOf q := by
  simp only [stateOf, setState, HashMap.lookup_adjust]
  split
  · rw [Option.map_map, Option.map_map]
    rfl
  · rfl

/-- The new entry gives the state of its process, those of the others stay. -/
theorem insertProcess_stateOf (k : Kernel) (pid q : Pid) (pcb : PCB) :
    (k.insertProcess pid pcb).stateOf q = if q = pid then some pcb.state else k.stateOf q := by
  simp only [stateOf, insertProcess, HashMap.lookup_insert_eq]
  split <;> rfl

/-- A process that is removed has no state. -/
theorem removeProcess_stateOf (k : Kernel) (pid q : Pid) :
    (k.removeProcess pid).stateOf q = if q = pid then none else k.stateOf q := by
  simp only [stateOf, removeProcess, HashMap.lookup_erase_eq]
  split <;> rfl

section updates

variable (k : Kernel) (pid : Pid) (tid : Tid) (state : ProcessState)

@[simp] theorem setState_scheduler : (k.setState pid state).scheduler = k.scheduler := rfl
@[simp] theorem setState_syncManager : (k.setState pid state).syncManager = k.syncManager := rfl
@[simp] theorem setState_nextPid : (k.setState pid state).nextPid = k.nextPid := rfl
@[simp] theorem setState_lastRunning : (k.setState pid state).lastRunning = k.lastRunning := rfl
@[simp] theorem setState_waitingParents :
    (k.setState pid state).waitingParents = k.waitingParents := rfl
@[simp] theorem setState_responses : (k.setState pid state).responses = k.responses := rfl
@[simp] theorem setState_parentChildren :
    (k.setState pid state).parentChildren = k.parentChildren := rfl

variable (f : Scheduler 2 → Scheduler 2)

@[simp] theorem onScheduler_scheduler : (k.onScheduler f).scheduler = f k.scheduler := rfl
@[simp] theorem onScheduler_stateOf : (k.onScheduler f).stateOf = k.stateOf := rfl
@[simp] theorem onScheduler_processTable : (k.onScheduler f).processTable = k.processTable := rfl
@[simp] theorem onScheduler_syncManager : (k.onScheduler f).syncManager = k.syncManager := rfl
@[simp] theorem onScheduler_nextPid : (k.onScheduler f).nextPid = k.nextPid := rfl
@[simp] theorem onScheduler_lastRunning : (k.onScheduler f).lastRunning = k.lastRunning := rfl
@[simp] theorem onScheduler_waitingParents :
    (k.onScheduler f).waitingParents = k.waitingParents := rfl
@[simp] theorem onScheduler_responses : (k.onScheduler f).responses = k.responses := rfl
@[simp] theorem onScheduler_parentChildren :
    (k.onScheduler f).parentChildren = k.parentChildren := rfl

variable (g : SyncManager → SyncManager)

@[simp] theorem onSync_scheduler : (k.onSync g).scheduler = k.scheduler := rfl
@[simp] theorem onSync_stateOf : (k.onSync g).stateOf = k.stateOf := rfl
@[simp] theorem onSync_processTable : (k.onSync g).processTable = k.processTable := rfl
@[simp] theorem onSync_syncManager : (k.onSync g).syncManager = g k.syncManager := rfl
@[simp] theorem onSync_nextPid : (k.onSync g).nextPid = k.nextPid := rfl
@[simp] theorem onSync_lastRunning : (k.onSync g).lastRunning = k.lastRunning := rfl
@[simp] theorem onSync_waitingParents : (k.onSync g).waitingParents = k.waitingParents := rfl
@[simp] theorem onSync_responses : (k.onSync g).responses = k.responses := rfl
@[simp] theorem onSync_parentChildren : (k.onSync g).parentChildren = k.parentChildren := rfl

variable (channel : RequestId) (response : Response)

@[simp] theorem respond_scheduler : (k.respond channel response).scheduler = k.scheduler := rfl
@[simp] theorem respond_stateOf : (k.respond channel response).stateOf = k.stateOf := rfl
@[simp] theorem respond_syncManager :
    (k.respond channel response).syncManager = k.syncManager := rfl
@[simp] theorem respond_nextPid : (k.respond channel response).nextPid = k.nextPid := rfl
@[simp] theorem respond_lastRunning :
    (k.respond channel response).lastRunning = k.lastRunning := rfl
@[simp] theorem respond_waitingParents :
    (k.respond channel response).waitingParents = k.waitingParents := rfl
@[simp] theorem respond_parentChildren :
    (k.respond channel response).parentChildren = k.parentChildren := rfl

end updates

/-! ## Scheduling requests -/

/-- What a handler leaves: the tables and its result. -/
abbrev Outcome := Kernel × Except ServiceError Unit

/-- The error of a request for a process that is not in the table. -/
def processNotFound (pid : Pid) : ServiceError := .notFound "Process" (toString pid)

/-- Queue a thread with the priority of its process. -/
def handleSchedule (k : Kernel) (pid : Pid) (tid : Tid) : Kernel :=
  let priority := ((k.processTable.lookup pid).map PCB.priority).getD 128
  k.readyThread pid tid priority

/-- Block a thread. The reason is printed; the table always records an I/O wait. -/
def handleBlock (k : Kernel) (pid : Pid) (tid : Tid) (_reason : BlockReason) : Kernel :=
  (k.blockThread pid tid).setState pid (.blocked (.waitingForIo 0))

/-- A process is ready, and queued, whatever it waited for. -/
def handleUnblock (k : Kernel) (pid : Pid) (tid : Tid) : Kernel :=
  (k.setState pid .ready).handleSchedule pid tid

/-- The state is only logged. -/
def handleQueryState (k : Kernel) (pid : Pid) : Outcome :=
  (k, if (k.processTable.lookup pid).isSome then .ok () else .error (processNotFound pid))

/-- Context switch: only the scheduler hears of it. -/
def handleContextSwitch (k : Kernel) (fromPid toPid : Pid) : Kernel :=
  (k.blockThread fromPid 1).readyThread toPid 1 128

/-! ## Messages and shared memory -/

/-- Change queues and shared memory. -/
def onIpc (k : Kernel) (f : IPCManager → IPCManager) : Kernel :=
  { k with ipcManager := f k.ipcManager }

/-- Both processes are looked up before the message is put into the queue of the receiver. -/
def handleSendMessage (k : Kernel) (fromPid toPid : Pid) (msg : IPCMessage) : Outcome :=
  if (k.processTable.lookup fromPid).isNone then (k, .error (processNotFound fromPid))
  else if (k.processTable.lookup toPid).isNone then (k, .error (processNotFound toPid))
  else
    let ensured := k.ipcManager.ensureMessageQueue toPid
    match ensured.1.send fromPid 1 msg with
    | .error .full => (k.onIpc fun _ => ensured.2, .error (.other 10 "Queue error: Full"))
    | .ok queue => (k.onIpc fun _ => ensured.2.putMessageQueue toPid queue, .ok ())

/-- The first message is taken, and goes nowhere; a blocking receiver without one sleeps. -/
def handleReceiveMessage (k : Kernel) (pid : Pid) (blocking : Bool) : Kernel :=
  match (k.ipcManager.getMessageQueue pid).receive with
  | (some _, queue) => k.onIpc fun ipc => ipc.putMessageQueue pid queue
  | (none, _) => if blocking then k.handleBlock pid 1 (.waitingForIo 0) else k

/-- A segment at an address that depends on its creator only. -/
def handleCreateSharedMemory (k : Kernel) (pid : Pid) (size : Nat) (prot : MemProt) : Kernel :=
  let physicalAddr : PhysAddr := 0x1000 + UInt64.ofNat pid * 0x1000
  k.onIpc fun ipc => (ipc.createSharedMemory pid size physicalAddr prot).2

/-- Attach at an address that depends on the segment only. -/
def handleAttachSharedMemory (k : Kernel) (pid : Pid) (shmid : Nat) : Outcome :=
  let vaddr : VirtAddr := 0x5000 + UInt64.ofNat shmid * 0x1000
  match k.ipcManager.attachSharedMemory shmid pid vaddr with
  | .ok ipc => (k.onIpc fun _ => ipc, .ok ())
  | .error e => (k, .error (.other 11 ("IPC error: " ++ e.debug)))

/-- Detach a process from a segment. -/
def handleDetachSharedMemory (k : Kernel) (pid : Pid) (shmid : Nat) : Outcome :=
  match k.ipcManager.detachSharedMemory shmid pid with
  | .ok detached => (k.onIpc fun _ => detached.2, .ok ())
  | .error e => (k, .error (.other 12 ("IPC error: " ++ e.debug)))

/-! ## Synchronisation requests -/

/-- A semaphore with this value. -/
def handleCreateSemaphore (k : Kernel) (pid : Pid) (initialValue : UInt32) : Kernel :=
  k.onSync fun m => (m.createSemaphore pid initialValue).2

/-- Wait for a semaphore; the process sleeps when there is no token. -/
def handleWaitSemaphore (k : Kernel) (pid : Pid) (semid : SemaphoreId) : Outcome :=
  let waited := k.onSync fun m => (m.waitSemaphore semid).2
  match (k.syncManager.waitSemaphore semid).1 with
  | none => (waited, .error (.notFound "Semaphore" (toString semid)))
  | some .wouldBlock => (waited.handleBlock pid 1 (.waitingForLock semid), .ok ())
  | some _ => (waited, .ok ())

/-- Signal a semaphore. No waiter is looked for. -/
def handleSignalSemaphore (k : Kernel) (_pid : Pid) (semid : SemaphoreId) : Kernel :=
  k.onSync fun m => (m.signalSemaphore semid).2

/-- A lock that is not recursive. -/
def handleCreateLock (k : Kernel) (pid : Pid) : Kernel :=
  k.onSync fun m => (m.createMutex pid false).2

/-- Take a lock, or sleep for it. A lock that is not there is ignored. -/
def handleAcquireLock (k : Kernel) (pid : Pid) (lockId : LockId) : Kernel :=
  let tried := k.onSync fun m => (m.acquireMutex lockId pid).2
  match (k.syncManager.acquireMutex lockId pid).1 with
  | some .wouldBlock => tried.handleBlock pid 1 (.waitingForLock lockId)
  | _ => tried

/-- Release a mutex. No waiter is looked for. -/
def handleReleaseLock (k : Kernel) (pid : Pid) (lockId : LockId) : Kernel :=
  k.onSync fun m => (m.releaseMutex lockId pid).2

/-! ## Lifecycle requests -/

/-- Wait for a child without a response channel: the parent is blocked. -/
def handleWaitChild (k : Kernel) (pid : Pid) (childPid : Option Pid) : Outcome :=
  match childPid, k.parentChildren.lookup pid with
  | some child, some children =>
    if child ∈ children then (k.handleBlock pid 1 (.waitingForChild child), .ok ())
    else (k, .error (.permissionDenied "wait" "Not a child"))
  | none, some [] => (k, .error (.notFound "Child" "any"))
  | _, _ => (k.handleBlock pid 1 (.waitingForChild (childPid.getD 0)), .ok ())

/-- The child is one that the parent forked. -/
def isChild (k : Kernel) (pid child : Pid) : Bool :=
  match k.parentChildren.lookup pid with
  | some children => child ∈ children
  | none => false

/-- Wait for a child with a response channel: answer for a child that is gone or a zombie, else
remember the channel. -/
def handleWaitChildWithResponse (k : Kernel) (pid : Pid) (childPid : Option Pid)
    (channel : RequestId) : Outcome :=
  match childPid with
  | none => (k, .error (.invalidArguments "child_pid" "must specify child PID"))
  | some child =>
    if k.isChild pid child = false then
      (k.respond channel (.error channel (.permissionDenied "wait")), .ok ())
    else
      match k.stateOf child with
      | none => (k.respond channel (.success channel (.integer 0)), .ok ())
      | some state =>
        if state.isTerminated then
          (((k.blockThread child 1).removeProcess child).respond channel
            (.success channel (.integer (exitCodeWord state.exitCode))), .ok ())
        else ({ k with waitingParents := k.waitingParents ++ [⟨child, pid, channel⟩] }, .ok ())

/-- The clean-up when a process is killed or halts. -/
def releaseGlobals (k : Kernel) (pid : Pid) : Kernel :=
  k.onSync fun m => (m.releaseGlobalSemaphore).releaseGlobalMutex pid

/-- Deliver a signal. The scheduler is not told. -/
def handleSignal (k : Kernel) (pid : Pid) (signal : SignalType) : Outcome :=
  if (k.processTable.lookup pid).isNone then (k, .error (processNotFound pid))
  else
    match signal with
    | .terminate => ((k.releaseGlobals pid).setState pid (.zombie 0), .ok ())
    | .kill => ((k.releaseGlobals pid).setState pid (.zombie 0), .ok ())
    | .stop => (k.setState pid (.blocked (.waitingForIo 0)), .ok ())
    | .continue => (k.setState pid .ready, .ok ())
    | _ =>
      ({ k with
          processTable := HashMap.adjust k.processTable pid fun pcb =>
            { pcb with pendingSignals := pcb.pendingSignals ++ [signal] } }, .ok ())

/-! ## What system calls do to the tables -/

/-- `exit`: the process becomes a zombie, the global semaphore is freed. -/
def exit (k : Kernel) (pid : Pid) (code : Int32) : Kernel :=
  ((k.setState pid (.zombie code)).onSync SyncManager.releaseGlobalSemaphore).blockThread pid 1

/-- A thread goes to sleep on a semaphore or a mutex. -/
def sleepOn (k : Kernel) (pid : Pid) (lockAddr : Nat) : Kernel :=
  (k.setState pid (.blocked (.waitingForLock lockAddr))).blockThread pid 1

/-- `sem_wait`: tells whether the process must sleep. -/
def semWait (k : Kernel) (pid : Pid) (semId : SemaphoreId) : Bool × Kernel :=
  let waited := k.onSync fun m => (m.waitSemaphore semId).2
  match (k.syncManager.waitSemaphore semId).1 with
  | none => (false, waited)
  | some .acquired => (false, waited)
  | some _ => (true, waited.sleepOn pid semId)

/-- A process that sleeps on the given identifier, the first in hash order. -/
def findWaiter (k : Kernel) (ord : HashOrder) (lockAddr : Nat) : Option Pid :=
  HashMap.findKey ord k.processTable fun pcb => pcb.state = .blocked (.waitingForLock lockAddr)

/-- Make a sleeping process ready. -/
def wake (k : Kernel) (pid : Pid) : Kernel :=
  (k.setState pid .ready).readyThread pid 1 128

/-- `sem_signal`: hand the token to a sleeping process, else count it. -/
def semSignal (k : Kernel) (ord : HashOrder) (semId : SemaphoreId) : Kernel :=
  match k.findWaiter ord semId with
  | some waiter => k.wake waiter
  | none => k.onSync fun m => (m.signalSemaphore semId).2

/-- `lock_acquire`: tells whether the process must sleep. -/
def lockAcquire (k : Kernel) (pid : Pid) (lockId : LockId) : Bool × Kernel :=
  let tried := k.onSync fun m => (m.acquireMutex lockId pid).2
  match (k.syncManager.acquireMutex lockId pid).1 with
  | none => (false, tried)
  | some .acquired => (false, tried)
  | some _ => (true, tried.sleepOn pid lockId)

/-- `lock_release`: wake a sleeping process and release the mutex. -/
def lockRelease (k : Kernel) (ord : HashOrder) (pid : Pid) (lockId : LockId) :
    Option Pid × Kernel :=
  match k.findWaiter ord lockId with
  | some waiter => (some waiter, (k.wake waiter).onSync fun m => (m.releaseMutex lockId pid).2)
  | none => (none, k.onSync fun m => (m.releaseMutex lockId pid).2)

/-- Take the next process identifier. -/
def takePid (k : Kernel) : Kernel := { k with nextPid := k.nextPid + 1 }

/-- Link a child to its parent. -/
def linkChild (k : Kernel) (parent child : Pid) : Kernel :=
  { k with
    parentChildren := k.parentChildren.insert parent
      ((k.parentChildren.lookup parent).getD [] ++ [child]) }

/-! ## The timer -/

/-- The decision for a CPU; a process that already ran in this tick is put back once. -/
def pick (k : Kernel) (cpuId : Fin 2) (scheduledThisTick : List Pid) :
    SchedulingDecision × Kernel :=
  let first := k.scheduler.schedule cpuId
  match first.1 with
  | .run pid _ =>
    if pid ∈ scheduledThisTick then
      let second := first.2.yieldCurrent cpuId
      (second.1, k.onScheduler fun _ => second.2)
    else (first.1, k.onScheduler fun _ => first.2)
  | _ => (first.1, k.onScheduler fun _ => first.2)

/-- A preempted process that is not the last one of the other CPU goes back to ready. -/
def preempt (k : Kernel) (cpuId : Fin 2) (prev : Pid) : Kernel :=
  if ∃ i, i ≠ cpuId ∧ k.lastRunning i = some prev then k
  else if k.stateOf prev = some .running then k.setState prev .ready
  else k

/-- Note the process that a CPU runs. -/
def trackLast (k : Kernel) (cpuId : Fin 2) (decision : SchedulingDecision) : Kernel :=
  match decision with
  | .run pid _ =>
    if k.lastRunning cpuId = some pid then k
    else
      let preempted :=
        match k.lastRunning cpuId with
        | some prev => k.preempt cpuId prev
        | none => k
      { preempted with lastRunning := Function.update preempted.lastRunning cpuId (some pid) }
  | _ => { k with lastRunning := Function.update k.lastRunning cpuId none }

/-- A process that gets a CPU runs. -/
def markRunning (k : Kernel) (pid : Pid) : Kernel :=
  if k.stateOf pid = some .ready ∨ k.stateOf pid = some .creating then k.setState pid .running
  else k

/-- Schedule a CPU for the tick. -/
def dispatch (k : Kernel) (cpuId : Fin 2) (scheduledThisTick : List Pid) :
    SchedulingDecision × Kernel :=
  let picked := k.pick cpuId scheduledThisTick
  let tracked := picked.2.trackLast cpuId picked.1
  match picked.1 with
  | .run pid _ => (picked.1, tracked.markRunning pid)
  | _ => (picked.1, tracked)

/-- Tell the first parent that waits for a process its exit code. -/
def notifyParent (k : Kernel) (pid : Pid) (code : Int32) : Kernel :=
  match k.waitingParents.find? (·.child == pid) with
  | some waiter =>
    ({ k with waitingParents := k.waitingParents.eraseP (·.child == pid) }).respond waiter.channel
      (.success 0 (.integer (exitCodeWord code)))
  | none => k

/-- A halted process leaves the scheduler and becomes a zombie. -/
def zombify (k : Kernel) (pid : Pid) : Kernel :=
  let removed := k.onScheduler fun s => (s.remove pid 1).2
  match removed.stateOf pid with
  | none => removed
  | some state =>
    if state.isTerminated then removed
    else ((removed.setState pid (.zombie 0)).releaseGlobals pid).notifyParent pid 0

/-- A zombie, the first in hash order. -/
def findZombie (k : Kernel) (ord : HashOrder) : Option Pid :=
  HashMap.findKey ord k.processTable fun pcb => pcb.state.isZombie

end Kernel

end GenshinOs.Process
