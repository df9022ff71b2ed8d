import GenshinOs.Process.Service
import GenshinOs.Lib.Locks

/-!
# Locks of the process service

The mutexes that the handlers of the process service take (`src/services/process/service.rs`), as call
chains. Each chain follows its handler: the same cases, in the same states. A guard bound by `let` lives
to the end of its block or to its `drop`; the guard of a scrutinee lives as long as the `if let` or the
`match`, but not into an `else`; the guard of any other expression ends with its statement.

The table of CPUs is the one that matters: the timer keeps its guard for the whole time slice of a
process (`sliceLocks`), and the system calls of the process run under it.
-/

set_option autoImplicit false

namespace GenshinOs.Process

open GenshinOs.Lib GenshinOs.Hardware GenshinOs.Memory CallChain

/-- The mutexes that a handler may lock: the fields of the service, the control blocks, queues and
regions, and the ones inside the MMU, the physical memory and the bus. -/
inductive ProcessMutex where
  | processTable
  | pcb (pid : Pid)
  | nextPid
  | ipcManager
  | messageQueue (pid : Pid)
  | sharedRegion (shmid : Nat)
  | syncManager
  | scheduler
  | parentChildren
  | cpus
  | waitingParents
  | lastRunning
  | mmuTables
  | memoryData
  | bus
  deriving DecidableEq

/-! ## Requests that need the tables only -/

namespace Kernel

variable (k : Kernel) (pid : Pid)

/-- The table, and in it the control block of a process if there is one. -/
def entryLocks (scope : CallChain ProcessMutex) : CallChain ProcessMutex :=
  guard .processTable (if (k.processTable.lookup pid).isSome then guard (.pcb pid) scope else done)

/-- `handle_schedule`: the guard of the table lives to the end. -/
def scheduleLocks : CallChain ProcessMutex :=
  guard .processTable
    ((if (k.processTable.lookup pid).isSome then touch (.pcb pid) else done) ++ touch .scheduler)

/-- `handle_block`: the guard of the scheduler lives to the end. -/
def blockLocks : CallChain ProcessMutex := guard .scheduler (k.entryLocks pid done)

/-- `handle_unblock`: the table is dropped before the process is scheduled. -/
def unblockLocks : CallChain ProcessMutex :=
  k.entryLocks pid done ++ (k.setState pid .ready).scheduleLocks pid

/-- Both processes are looked up, then the queue is locked under the manager. -/
def sendMessageLocks (fromPid toPid : Pid) : CallChain ProcessMutex :=
  touch .processTable ++
    if (k.processTable.lookup fromPid).isSome ∧ (k.processTable.lookup toPid).isSome then
      guard .ipcManager (touch (.messageQueue toPid))
    else done

/-- The manager is locked, then the queue. -/
def queueLocks : CallChain ProcessMutex := guard .ipcManager (touch (.messageQueue pid))

/-- `handle_receive_message`: the manager is dropped before the process is blocked, the queue is not. -/
def receiveMessageLocks (blocking : Bool) : CallChain ProcessMutex :=
  match (k.ipcManager.getMessageQueue pid).receive with
  | (some _, _) => queueLocks pid
  | (none, _) =>
    if blocking then exchange .ipcManager (.messageQueue pid) (k.blockLocks pid) else queueLocks pid

/-- The manager, and in it a shared region if there is one. -/
def regionLocks (shmid : Nat) : CallChain ProcessMutex :=
  guard .ipcManager
    (if (k.ipcManager.sharedMemory.lookup shmid).isSome then touch (.sharedRegion shmid) else done)

/-- A wait on a semaphore or a lock: the manager is dropped before the process is blocked. -/
def waitSemaphoreLocks (semid : SemaphoreId) : CallChain ProcessMutex :=
  touch .syncManager ++
    match (k.syncManager.waitSemaphore semid).1 with
    | some .wouldBlock => k.blockLocks pid
    | _ => done

/-- A process that has to wait is put to sleep. -/
def acquireLockLocks (lockId : LockId) : CallChain ProcessMutex :=
  touch .syncManager ++
    match (k.syncManager.acquireMutex lockId pid).1 with
    | some .wouldBlock => k.blockLocks pid
    | _ => done

/-- A process with a living child is put to sleep. -/
def waitChildLocks (childPid : Option Pid) : CallChain ProcessMutex :=
  touch .parentChildren ++
    match (k.handleWaitChild pid childPid).2 with
    | .ok () => k.blockLocks pid
    | .error _ => done

/-- The same with a channel, for one child only. -/
def waitChildWithResponseLocks (childPid : Option Pid) : CallChain ProcessMutex :=
  match childPid with
  | none => done
  | some child =>
    touch .parentChildren ++
      if k.isChild pid child = false then done
      else
        -- the table is asked twice: is the child there, and is it a zombie
        touch .processTable ++
          match k.stateOf child with
          | none => done
          | some state =>
            k.entryLocks child done ++
              if state.isTerminated then touch .scheduler ++ guard .processTable (touch (.pcb child))
              else touch .waitingParents

/-- `handle_signal`: a deadly signal cleans up under the guard of the control block. -/
def signalLocks (signal : SignalType) : CallChain ProcessMutex :=
  k.entryLocks pid
    (match signal with
    | .terminate => touch .syncManager
    | .kill => touch .syncManager
    | _ => done)

/-- The requests of `Kernel.handleProcessRequest`. -/
def processRequestLocks : ProcessRequest → CallChain ProcessMutex
  | .schedule pid _ => k.scheduleLocks pid
  | .block pid _ _ => k.blockLocks pid
  | .unblock pid _ => k.unblockLocks pid
  | .queryState pid => k.entryLocks pid done
  | .contextSwitch _ _ => touch .scheduler
  | .sendMessage fromPid toPid _ => k.sendMessageLocks fromPid toPid
  | .receiveMessage pid blocking => k.receiveMessageLocks pid blocking
  | .peekMessage pid => queueLocks pid
  | .createSharedMemory _ _ _ => touch .ipcManager
  -- the manager is dropped and locked again
  | .attachSharedMemory _ shmid => touch .ipcManager ++ k.regionLocks shmid
  | .detachSharedMemory _ shmid => k.regionLocks shmid
  | .createSemaphore _ _ => touch .syncManager
  | .waitSemaphore pid semid => k.waitSemaphoreLocks pid semid
  | .signalSemaphore _ _ => touch .syncManager
  | .createLock _ => touch .syncManager
  | .acquireLock pid lockId => k.acquireLockLocks pid lockId
  | .releaseLock _ _ => touch .syncManager
  | .waitChild pid childPid => k.waitChildLocks pid childPid
  | .signal pid signal => k.signalLocks pid signal
  | .getProcessInfo pid => k.entryLocks pid done
  | .listProcesses => done
  | .getStats => done
  | .getMemoryMap => done
  -- these three go through `Machine.requestLocks`
  | .forkProcess _ => done
  | .execProcess _ _ _ _ => done
  | .spawn _ _ => done

/-- The search for a sleeping process: control blocks in hash order, up to the one that is found. -/
def findWaiterLocks (ord : HashOrder) (lockAddr : Nat) : CallChain ProcessMutex :=
  guard .processTable
    (scan (fun entry => decide (entry.2.state = .blocked (.waitingForLock lockAddr)))
      (fun entry => touch (.pcb entry.1)) (HashMap.iter ord k.processTable))

/-- The search for a zombie. -/
def findZombieLocks (ord : HashOrder) : CallChain ProcessMutex :=
  guard .processTable
    (scan (fun entry => entry.2.state.isZombie) (fun entry => touch (.pcb entry.1))
      (HashMap.iter ord k.processTable))

/-- The process that a CPU ran before goes back to ready, under the guard of `last_running`. -/
def trackLastLocks (cpuId : Fin 2) (decision : SchedulingDecision) : CallChain ProcessMutex :=
  guard .lastRunning
    (match decision with
    | .run pid _ =>
      if k.lastRunning cpuId = some pid then done
      else
        match k.lastRunning cpuId with
        | none => done
        | some prev =>
          if ∃ i, i ≠ cpuId ∧ k.lastRunning i = some prev then done else k.entryLocks prev done
    | _ => done)

end Kernel

namespace Machine

variable (w : World) (s : Machine) (pid : Pid)

/-! ## Fork and exec -/

/-- Accesses through the MMU: the tables for the translation, then the bytes. A failed translation ends
the access, which only leaves out the second lock. -/
def mmuAccesses (count : Nat) : CallChain ProcessMutex :=
  each (fun _ => touch .mmuTables ++ touch .memoryData) (List.range count)

/-- The copies of the pages of a parent: two messages for each page, and a read and a write for each of
its bytes. -/
def clonePagesLocks (parent child : Pid) :
    List (VirtAddr × PhysAddr × PageFlags) → Machine → CallChain ProcessMutex
  | [], _ => done
  | (vaddr, _, flags) :: rest, s =>
    touch .bus ++
      match s.requestMemory w (.allocFrame 1 child) with
      | (none, _) => done
      | (some (.ok (.physicalAddr newFrame)), s) =>
        let mapped := s.requestMemory w
          (.mapPage child vaddr newFrame ⟨true, true, !flags.writable⟩)
        touch .bus ++ mmuAccesses 8192 ++
          clonePagesLocks parent child rest (mapped.2.onMmu fun m => copyPage m parent child vaddr)
      | (some _, s) => clonePagesLocks parent child rest s

/-- A child with a parent comes into being: the CPU of the parent is read, that of the child stored, then
its control block, the link to its parent and the message that clones its descriptors. -/
def adoptLocks : CallChain ProcessMutex :=
  each touch [.cpus, .cpus, .processTable, .parentChildren, .bus]

/-- `fork_impl` for a parent that is in the table. -/
def forkChildLocks (parent : Pid) : CallChain ProcessMutex :=
  let entries := s.mmu.getPageEntries (w.order s.clock) parent
  touch .nextPid ++ touch .mmuTables ++ clonePagesLocks w parent s.nextPid entries s.advance ++
    match clonePages w parent s.nextPid entries s.advance with
    | (.error _, _) => done
    | (.ok (), _) => adoptLocks

/-- `fork_impl`. -/
def forkLocks (parent : Pid) : CallChain ProcessMutex :=
  if parent = 0 then each touch [.nextPid, .cpus, .processTable]
  else
    touch .processTable ++
      if (s.processTable.lookup parent).isNone then done else s.forkChildLocks w parent

/-- `exec_impl`. -/
def execLocks (executable : String) (args : List String) : CallChain ProcessMutex :=
  touch .processTable ++
    if (s.processTable.lookup pid).isNone then done
    else
      match programImage w s executable args with
      | none => done
      | some code =>
        let entries := s.mmu.getPageEntries (w.order s.clock) pid
        let unmapped := entries.foldl (fun s entry => s.sendMemory (.unmapPage pid entry.1)) s.advance
        touch .mmuTables ++ each (fun _ => touch .bus) entries ++ touch .bus ++
          match allocFrames w unmapped ((code.length + 4095) / 4096) pid with
          | (.error _, _) => done
          | (.ok frames, _) =>
            let written := (args.take 2).map fun arg => (textBytes arg).length
            each (fun _ => touch .bus) frames ++ mmuAccesses (code.length + written.sum) ++
              touch .cpus ++ s.entryLocks pid done ++ s.scheduleLocks pid

/-! ## Requests -/

/-- The requests of `handleSimpleRequest`. The listings go through the table under its guard. -/
def simpleRequestLocks (req : ProcessRequest) (channel : Option RequestId) :
    CallChain ProcessMutex :=
  match channel, req with
  | some _, .waitChild pid childPid => s.waitChildWithResponseLocks pid childPid
  | some _, .getProcessInfo pid => s.entryLocks pid done
  | some _, .getStats =>
    guard .processTable (each (fun entry => touch (.pcb entry.1)) (s.sortedProcesses w))
  | some _, .getMemoryMap =>
    guard .processTable (each (fun _ => touch .mmuTables) (s.sortedProcesses w))
  | some _, .listProcesses =>
    guard .processTable (guard .parentChildren
      (each (fun entry => touch (.pcb entry.1)) (HashMap.iter (w.order s.clock) s.processTable)))
  | _, _ => s.processRequestLocks req

/-- Fork and exec in one. -/
def createProcessLocks (executable : String) (args : List String) : CallChain ProcessMutex :=
  s.forkLocks w 0 ++
    match s.forkTraced w 0 with
    | (_, _, .error _) => done
    | (s', _, .ok child) => s'.execLocks w child executable args

/-- Creations up to the first that fails. -/
def spawnStrictLocks (name : String) : Nat → Machine → CallChain ProcessMutex
  | 0, _ => done
  | n + 1, s =>
    s.createProcessLocks w name [] ++
      match s.createProcess w name [] with
      | (_, _, .error _) => done
      | (s', _, .ok _) => spawnStrictLocks name n s'

/-- Forks and execs of which each may fail. -/
def spawnLenientLocks (name : String) : Nat → Machine → CallChain ProcessMutex
  | 0, _ => done
  | n + 1, s =>
    s.forkLocks w 0 ++
      match s.forkTraced w 0 with
      | (s', _, .error _) => spawnLenientLocks name n s'
      | (s', _, .ok child) =>
        s'.execLocks w child name [] ++ spawnLenientLocks name n (s'.execTraced w child name []).1

/-- Spawn without a response channel. The semaphores are made under one guard. -/
def spawnMessageLocks (program : String) : CallChain ProcessMutex :=
  let plan := spawnPlan program
  let prepared := s.prepareShared w plan.1
  let spawned := spawnLenient w plan.1 plan.2 prepared.1
  (if plan.1 = "rwlock2" ∨ plan.1 = "rwlock3" then touch .syncManager ++ touch .bus else done) ++
    spawnLenientLocks w plan.1 plan.2 prepared.1 ++
    match prepared.2.2 with
    | none => done
    | some _ => each (fun _ => touch .bus) spawned.2.2

/-- A request to the process service. -/
def requestLocks (req : ProcessRequest) (channel : Option RequestId) : CallChain ProcessMutex :=
  match req, channel with
  | .forkProcess parent, _ => s.forkLocks w parent
  | .execProcess pid executable args _, _ => s.execLocks w pid executable args
  | .spawn program _, some _ => spawnStrictLocks w (spawnPlan program).1 (spawnPlan program).2 s
  | .spawn program _, none => s.spawnMessageLocks w program
  | req, channel => s.simpleRequestLocks w req channel

/-- A message of a system call. -/
def syscallMessageLocks (syscall : Syscall) : CallChain ProcessMutex :=
  match syscall with
  | .createProcess executable args => s.createProcessLocks w executable args
  | _ => done

/-! ## System calls -/

/-- A call that puts its process to sleep, after the manager is dropped. -/
def sleepLocks (asleep : Bool) : CallChain ProcessMutex :=
  touch .syncManager ++ if asleep then s.entryLocks pid done ++ touch .scheduler else done

/-- `syscall_sem_signal`: the table of CPUs is only tried. -/
def semSignalLocks (semId : UInt64) : CallChain ProcessMutex :=
  s.findWaiterLocks (w.order s.clock) semId.toNat ++
    match s.toKernel.findWaiter (w.order s.clock) semId.toNat with
    | some waiter => s.entryLocks waiter done ++ touch .scheduler ++ attempt .cpus
    | none => touch .syncManager

/-- `syscall_lock_release`: the table of CPUs is locked to rewind the waiter. -/
def lockReleaseLocks (lockId : UInt64) : CallChain ProcessMutex :=
  s.findWaiterLocks (w.order s.clock) lockId.toNat ++
    match s.toKernel.findWaiter (w.order s.clock) lockId.toNat with
    | some waiter => s.entryLocks waiter done ++ each touch [.scheduler, .cpus, .syncManager]
    | none => touch .syncManager

/-- Requests to the file service for the lines of a tree: each one is in the outbox afterwards. -/
def buildTreeLocks (path : String) : CallChain ProcessMutex :=
  let tree := buildTreeRecursive w w.treeDepth s path "" [path]
  each (fun _ => touch .bus) (List.range (tree.1.outbox.length - s.outbox.length))

/-- The bytes that a call writes for its process. -/
def deliverLocks (data : List UInt8) : CallChain ProcessMutex := mmuAccesses (min data.length 4096)

/-- The path at `0x100`. -/
def pathLocks : CallChain ProcessMutex := mmuAccesses 256

/-- The locks of `handle_file_syscall`. A call that panics does so before its first lock. -/
def callLocks : SystemCall → CallChain ProcessMutex
  | .exit _ =>
    if pid = 1 then done
    else
      -- two messages for each page of the process, with a lock of the bus for each
      touch .mmuTables ++
        each (fun _ => touch .bus ++ touch .bus) (s.mmu.getPageEntries (w.order s.clock) pid) ++
        s.entryLocks pid done ++ touch .syncManager ++ touch .scheduler
  | .printChar _ => done
  | .printStr _ len => if bufferTooLarge len then done else mmuAccesses len.toNat
  | .open _ => pathLocks ++ touch .bus
  | .close _ => touch .bus
  | .read fd len =>
    touch .bus ++
      match s.requestFile w (.read fd.toUInt32 0 0 (min len.toNat 4096)) with
      | (some (.bytes data), _) => deliverLocks data
      | _ => done
  | .write _ len => if bufferTooLarge len then done else mmuAccesses len.toNat ++ touch .bus
  | .mkdir => pathLocks ++ touch .bus
  | .unlink => pathLocks ++ touch .bus
  | .stat => pathLocks ++ touch .bus
  | .listdir =>
    pathLocks ++ touch .bus ++
      match s.requestFile w (.listDir (s.getSyscallPath pid)) with
      | (some (.stringList entries), _) => deliverLocks (textBytes (String.intercalate "\n" entries))
      | _ => done
  | .fork => s.forkLocks w pid
  | .exec => pathLocks ++ s.execLocks w pid (s.readStringVirt pid 0x100) []
  | .tree =>
    -- the tree is read twice, for its locks and for its text
    let path := s.readStringVirt pid 0x100
    let tree := buildTreeRecursive w w.treeDepth s path "" [path]
    pathLocks ++ s.buildTreeLocks w path ++ deliverLocks (textBytes (String.intercalate "\n" tree.2))
  | .semCreate => touch .syncManager
  | .semWait semId => s.sleepLocks pid (s.toKernel.semWait pid semId.toNat).1
  | .semSignal semId => s.semSignalLocks w semId
  | .lockCreate => touch .syncManager
  | .lockAcquire lockId => s.sleepLocks pid (s.toKernel.lockAcquire pid lockId.toNat).1
  | .lockRelease lockId => s.lockReleaseLocks w lockId
  | .deviceOpen => done
  | .deviceClose => done
  | .deviceRead maxSize =>
    touch .bus ++
      match s.requestDevice w (.clipboardGet maxSize.toNat) with
      | (some (.bytes data), _) => mmuAccesses data.length
      | _ => done
  | .deviceWrite size => if bufferTooLarge size then done else mmuAccesses size.toNat ++ touch .bus
  | .unknown => done

/-! ## The timer -/

/-- The state in which a pending system call is dispatched. -/
def dispatching : Machine := s.updateCpu pid fun cpu => { cpu with syscallPending := false }

/-- A pending system call. -/
def runSyscallLocks : CallChain ProcessMutex :=
  match s.cpus.get pid with
  | none => done
  | some cpu =>
    if cpu.syscallPending = false then done
    else
      (s.dispatching pid).callLocks w pid
        (SystemCall.decode (cpu.syscallRegs .r0) (cpu.syscallRegs .r1) (cpu.syscallRegs .r2))

/-- A pending page fault. -/
def forwardFaultLocks : CallChain ProcessMutex :=
  match s.cpus.get pid with
  | none => done
  | some cpu => if cpu.pagefaultPending = false then done else touch .bus

/-- One instruction: five reads to fetch it, at most one access of its own and one message. -/
def stepLocks : CallChain ProcessMutex := mmuAccesses 6 ++ touch .bus

/-- The loop over the instructions of a time slice. -/
def executeLocks (cpuId : Fin 2) (pid : Pid) : Nat → Machine → CallChain ProcessMutex
  | 0, _ => done
  | n + 1, s =>
    match s.cpus.get pid with
    | none => done
    | some cpu =>
      if cpu.halted then done
      else
        let stepped := s.stepCpu w pid cpu
        stepLocks ++
          if stepped.1 = false then done
          else
            let called := runSyscall w cpuId pid stepped.2
            stepped.2.runSyscallLocks w pid ++
              if called.2.isEmpty = false ∧ called.1.isHalted pid then done
              else
                called.1.forwardFaultLocks pid ++
                  executeLocks cpuId pid n (forwardFault w cpuId pid called.1).1

/-- After the slice: two looks at the state of the process, and the end of a process that halted. -/
def settleLocks : CallChain ProcessMutex :=
  let blocked := (s.stateOf pid).any ProcessState.isBlocked
  let halted := (s.cpus.get pid).any VirtualCPU.halted
  s.entryLocks pid done ++ s.entryLocks pid done ++
    if pid ≠ 1 ∧ blocked = false ∧ halted then
      if s.stateOf pid = some .ready then done
      else
        touch .scheduler ++ s.entryLocks pid
          (if (s.stateOf pid).any ProcessState.isTerminated then done
          else touch .syncManager ++ touch .waitingParents)
    else done

/-- What runs under the guard of the table of CPUs: from the state before the CPU is started again. -/
def sliceLocks (cpuId : Fin 2) (dispatched : Machine) : CallChain ProcessMutex :=
  let executed := execute w cpuId pid 3 dispatched
  (if (s.cpus.get pid).any VirtualCPU.halted then dispatched.entryLocks pid done else done) ++
    executeLocks w cpuId pid 3 dispatched ++
    -- the name of the process is looked up for the trace line
    (if dispatched.isHalted pid then done else executed.1.entryLocks pid done) ++
    executed.1.settleLocks pid

/-- The look for a zombie, and its end. -/
def reapLocks : CallChain ProcessMutex :=
  s.findZombieLocks (w.order s.clock) ++
    match s.toKernel.findZombie (w.order s.clock) with
    | none => done
    | some pid => if pid = 1 then done else each touch [.cpus, .cpus, .processTable]

/-- The choice of a process for a CPU. -/
def dispatchLocks (cpuId : Fin 2) (scheduledThisTick : List Pid) : CallChain ProcessMutex :=
  let picked := s.toKernel.pick cpuId scheduledThisTick
  touch .scheduler ++ picked.2.trackLastLocks cpuId picked.1 ++
    match picked.1 with
    | .run pid _ => (picked.2.trackLast cpuId picked.1).entryLocks pid done
    | _ => done

/-- The part of a tick that belongs to one CPU. -/
def turnLocks (cpuId : Fin 2) (scheduledThisTick : List Pid) : CallChain ProcessMutex :=
  let decided := s.dispatch cpuId scheduledThisTick
  s.dispatchLocks cpuId scheduledThisTick ++
    match decided.1 with
    | .run pid _ =>
      guard .cpus (s.sliceLocks w pid cpuId decided.2) ++
        (((execute w cpuId pid 3 decided.2).1).settle pid).reapLocks w
    | _ => decided.2.reapLocks w

/-- A timer interrupt: both CPUs in turn. -/
def timerLocks : CallChain ProcessMutex :=
  let turn0 := turn w ⟨0, Nat.zero_lt_two⟩ [] s
  s.turnLocks w ⟨0, Nat.zero_lt_two⟩ [] ++ turn0.1.turnLocks w ⟨1, Nat.one_lt_two⟩ turn0.2.2

/-! ## Events -/

/-- An interrupt is a tick, a fault that is passed on, or nothing. -/
def interruptLocks (interrupt : Interrupt) : CallChain ProcessMutex :=
  match interrupt with
  | .timer => s.timerLocks w
  | .pageFault _ _ => touch .bus
  | _ => done

/-- A message of the bus. -/
def messageLocks (msg : KernelMsg) (channel : Option RequestId) : CallChain ProcessMutex :=
  match msg with
  | .process req => s.requestLocks w req channel
  | .syscall req => s.syscallMessageLocks w req
  | .interrupt int => s.interruptLocks w int
  | _ => done

/-- An envelope; the responses need no lock. -/
def envelopeLocks (msg : KernelMsg) (expectsResponse : Bool) : CallChain ProcessMutex :=
  if expectsResponse then
    ({ s with nextRequestId := s.nextRequestId + 1 }).messageLocks w msg (some s.nextRequestId)
  else s.messageLocks w msg none

/-- The locks of the thread of the process service while it handles one event. -/
def eventLocks (event : Event) : CallChain ProcessMutex :=
  match event with
  | .timer => s.timerLocks w
  | .envelope msg expectsResponse => s.envelopeLocks w msg expectsResponse

end Machine

end GenshinOs.Process
