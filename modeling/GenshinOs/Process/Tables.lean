import GenshinOs.Process.Steps

/-!
# Transitions of the tables

What a transition of the process service does to its tables, by cases. `TableStep` splits the acts of
`Step` further: a wait that sleeps and one that passes, a signal that wakes a process and one that
is counted, a halted process that becomes a zombie and one that is left alone. The invariants of
the tables are proved from these cases.
-/

set_option autoImplicit false

namespace GenshinOs.Process

open GenshinOs.Lib GenshinOs.Hardware GenshinOs.Memory

/-- The tables agree in everything but messages, names and pending signals. -/
structure Kernel.Alike (k k' : Kernel) : Prop where
  stateOf : k'.stateOf = k.stateOf
  scheduler : k'.scheduler = k.scheduler
  syncManager : k'.syncManager = k.syncManager
  nextPid : k'.nextPid = k.nextPid
  lastRunning : k'.lastRunning = k.lastRunning
  waitingParents : k'.waitingParents = k.waitingParents
  parentChildren : k'.parentChildren = k.parentChildren
  responses : k'.responses = k.responses

theorem Kernel.Alike.refl (k : Kernel) : Kernel.Alike k k := ⟨rfl, rfl, rfl, rfl, rfl, rfl, rfl, rfl⟩

theorem Kernel.alike_onIpc (k : Kernel) (f : IPCManager → IPCManager) :
    Kernel.Alike k (k.onIpc f) := ⟨rfl, rfl, rfl, rfl, rfl, rfl, rfl, rfl⟩

/-! ## Requests -/

/-- Requests that change no state of a process, no primitive and no queue of the scheduler. -/
def ProcessRequest.isInert : ProcessRequest → Bool
  | .queryState _ => true
  | .sendMessage _ _ _ => true
  | .peekMessage _ => true
  | .createSharedMemory _ _ _ => true
  | .attachSharedMemory _ _ => true
  | .detachSharedMemory _ _ => true
  | .getProcessInfo _ => true
  | .listProcesses => true
  | .getStats => true
  | .getMemoryMap => true
  | .forkProcess _ => true
  | .execProcess _ _ _ _ => true
  | .spawn _ _ => true
  | _ => false

/-- Signals that end a process. -/
def SignalType.isFatal : SignalType → Bool
  | .terminate => true
  | .kill => true
  | _ => false

open Kernel in
/-- What a request without a response channel does to the tables. -/
inductive RequestEffect (k : Kernel) : ProcessRequest → Kernel → Prop
  | inert {req : ProcessRequest} {k' : Kernel} (hreq : ProcessRequest.isInert req = true)
      (h : Alike k k') : RequestEffect k req k'
  | schedule (pid : Pid) (tid : Tid) :
      RequestEffect k (.schedule pid tid) (k.handleSchedule pid tid)
  | block (pid : Pid) (tid : Tid) (reason : BlockReason) :
      RequestEffect k (.block pid tid reason) (k.handleBlock pid tid reason)
  | unblock (pid : Pid) (tid : Tid) :
      RequestEffect k (.unblock pid tid) (k.handleUnblock pid tid)
  | contextSwitch (fromPid toPid : Pid) :
      RequestEffect k (.contextSwitch fromPid toPid) (k.handleContextSwitch fromPid toPid)
  | received (pid : Pid) (blocking : Bool) {k' : Kernel} (h : Alike k k') :
      RequestEffect k (.receiveMessage pid blocking) k'
  | receiveBlocked (pid : Pid) :
      RequestEffect k (.receiveMessage pid true) (k.handleBlock pid 1 (.waitingForIo 0))
  | createSemaphore (pid : Pid) (initialValue : UInt32) :
      RequestEffect k (.createSemaphore pid initialValue) (k.handleCreateSemaphore pid initialValue)
  | waitBlocked (pid : Pid) (semid : SemaphoreId)
      (h : (k.syncManager.waitSemaphore semid).1 = some .wouldBlock) :
      RequestEffect k (.waitSemaphore pid semid)
        ((k.onSync fun m => (m.waitSemaphore semid).2).handleBlock pid 1 (.waitingForLock semid))
  | waitPassed (pid : Pid) (semid : SemaphoreId)
      (h : (k.syncManager.waitSemaphore semid).1 ≠ some .wouldBlock) :
      RequestEffect k (.waitSemaphore pid semid) (k.onSync fun m => (m.waitSemaphore semid).2)
  | signalSemaphore (pid : Pid) (semid : SemaphoreId) :
      RequestEffect k (.signalSemaphore pid semid) (k.onSync fun m => (m.signalSemaphore semid).2)
  | createLock (pid : Pid) : RequestEffect k (.createLock pid) (k.handleCreateLock pid)
  | acquireBlocked (pid : Pid) (lockId : LockId)
      (h : (k.syncManager.acquireMutex lockId pid).1 = some .wouldBlock) :
      RequestEffect k (.acquireLock pid lockId)
        ((k.onSync fun m => (m.acquireMutex lockId pid).2).handleBlock pid 1 (.waitingForLock lockId))
  | acquirePassed (pid : Pid) (lockId : LockId)
      (h : (k.syncManager.acquireMutex lockId pid).1 ≠ some .wouldBlock) :
      RequestEffect k (.acquireLock pid lockId) (k.onSync fun m => (m.acquireMutex lockId pid).2)
  | releaseLock (pid : Pid) (lockId : LockId) :
      RequestEffect k (.releaseLock pid lockId) (k.onSync fun m => (m.releaseMutex lockId pid).2)
  | waitRefused (pid : Pid) (childPid : Option Pid) : RequestEffect k (.waitChild pid childPid) k
  | waitChild (pid : Pid) (childPid : Option Pid) (reason : BlockReason) :
      RequestEffect k (.waitChild pid childPid) (k.handleBlock pid 1 reason)
  | kill (pid : Pid) (signal : SignalType) (hsig : SignalType.isFatal signal = true)
      (hpid : (k.stateOf pid).isSome) :
      RequestEffect k (.signal pid signal) ((k.releaseGlobals pid).setState pid (.zombie 0))
  | stop (pid : Pid) (hpid : (k.stateOf pid).isSome) :
      RequestEffect k (.signal pid .stop) (k.setState pid (.blocked (.waitingForIo 0)))
  | continued (pid : Pid) (hpid : (k.stateOf pid).isSome) :
      RequestEffect k (.signal pid .continue) (k.setState pid .ready)
  | signalQueued (pid : Pid) (signal : SignalType) {k' : Kernel} (h : Alike k k') :
      RequestEffect k (.signal pid signal) k'

namespace Kernel

theorem isSome_stateOf {k : Kernel} {pid : Pid} (h : ¬(k.processTable.lookup pid).isNone = true) :
    (k.stateOf pid).isSome = true := by
  rw [stateOf, Option.isSome_map]
  cases hlook : k.processTable.lookup pid with
  | none => simp [hlook] at h
  | some pcb => rfl

theorem handleSendMessage_alike (k : Kernel) (fromPid toPid : Pid) (msg : IPCMessage) :
    Alike k (k.handleSendMessage fromPid toPid msg).1 := by
  simp only [handleSendMessage]
  split
  · exact Alike.refl k
  split
  · exact Alike.refl k
  split
  · exact ⟨rfl, rfl, rfl, rfl, rfl, rfl, rfl, rfl⟩
  · exact ⟨rfl, rfl, rfl, rfl, rfl, rfl, rfl, rfl⟩

/-- A signal that is neither fatal nor one of stop and continue is only noted. -/
theorem alike_pendingSignal (k : Kernel) (pid : Pid) (signal : SignalType) :
    Alike k { k with
      processTable := HashMap.adjust k.processTable pid fun pcb =>
        { pcb with pendingSignals := pcb.pendingSignals ++ [signal] } } := by
  refine ⟨?_, rfl, rfl, rfl, rfl, rfl, rfl, rfl⟩
  funext q
  simp only [stateOf, HashMap.lookup_adjust]
  split
  · next heq =>
    rw [heq, Option.map_map]
    rfl
  · rfl

theorem handleSignal_effect (k : Kernel) (pid : Pid) (signal : SignalType) :
    RequestEffect k (.signal pid signal) (k.handleSignal pid signal).1 := by
  simp only [handleSignal]
  split
  · exact .signalQueued pid signal (Alike.refl k)
  next hsome =>
  have hpid := isSome_stateOf hsome
  cases signal with
  | terminate => exact .kill pid .terminate rfl hpid
  | kill => exact .kill pid .kill rfl hpid
  | stop => exact .stop pid hpid
  | «continue» => exact .continued pid hpid
  | user1 => exact .signalQueued pid _ (alike_pendingSignal k pid .user1)
  | user2 => exact .signalQueued pid _ (alike_pendingSignal k pid .user2)
  | alarm => exact .signalQueued pid _ (alike_pendingSignal k pid .alarm)
  | child => exact .signalQueued pid _ (alike_pendingSignal k pid .child)
  | segmentationFault => exact .signalQueued pid _ (alike_pendingSignal k pid .segmentationFault)
  | illegalInstruction => exact .signalQueued pid _ (alike_pendingSignal k pid .illegalInstruction)
  | floatingPointException =>
    exact .signalQueued pid _ (alike_pendingSignal k pid .floatingPointException)

theorem handleReceiveMessage_effect (k : Kernel) (pid : Pid) (blocking : Bool) :
    RequestEffect k (.receiveMessage pid blocking) (k.handleReceiveMessage pid blocking) := by
  simp only [handleReceiveMessage]
  split
  · exact .received pid blocking (alike_onIpc k _)
  · cases blocking with
    | false => exact .received pid false (Alike.refl k)
    | true => exact .receiveBlocked pid

theorem handleWaitChild_effect (k : Kernel) (pid : Pid) (childPid : Option Pid) :
    RequestEffect k (.waitChild pid childPid) (k.handleWaitChild pid childPid).1 := by
  cases hchildren : k.parentChildren.lookup pid with
  | none =>
    simp only [handleWaitChild, hchildren]
    exact .waitChild pid childPid (.waitingForChild (childPid.getD 0))
  | some children =>
    cases childPid with
    | some child =>
      simp only [handleWaitChild, hchildren]
      split
      · exact .waitChild pid (some child) (.waitingForChild child)
      · exact .waitRefused pid (some child)
    | none =>
      cases children with
      | nil =>
        simp only [handleWaitChild, hchildren]
        exact .waitRefused pid none
      | cons child rest =>
        simp only [handleWaitChild, hchildren]
        exact .waitChild pid none (.waitingForChild 0)

theorem handleWaitSemaphore_effect (k : Kernel) (pid : Pid) (semid : SemaphoreId) :
    RequestEffect k (.waitSemaphore pid semid) (k.handleWaitSemaphore pid semid).1 := by
  simp only [handleWaitSemaphore]
  split
  · next h => exact .waitPassed pid semid (by rw [h]; simp)
  · next h => exact .waitBlocked pid semid h
  · next hne h => exact .waitPassed pid semid (by rw [h]; simpa using hne)

theorem handleAcquireLock_effect (k : Kernel) (pid : Pid) (lockId : LockId) :
    RequestEffect k (.acquireLock pid lockId) (k.handleAcquireLock pid lockId) := by
  simp only [handleAcquireLock]
  split
  · next h => exact .acquireBlocked pid lockId h
  · next hne => exact .acquirePassed pid lockId hne

/-- Every request without a response channel has its effect. -/
theorem handleProcessRequest_effect (k : Kernel) (req : ProcessRequest) :
    RequestEffect k req (k.handleProcessRequest req).1 := by
  -- requests about shared memory and queries leave the tables alone
  cases req with
  | schedule pid tid => exact .schedule pid tid
  | block pid tid reason => exact .block pid tid reason
  | unblock pid tid => exact .unblock pid tid
  | queryState pid => exact .inert rfl (Alike.refl k)
  | contextSwitch fromPid toPid => exact .contextSwitch fromPid toPid
  | sendMessage fromPid toPid msg => exact .inert rfl (handleSendMessage_alike k fromPid toPid msg)
  | receiveMessage pid blocking => exact handleReceiveMessage_effect k pid blocking
  | peekMessage pid => exact .inert rfl (Alike.refl k)
  | createSharedMemory pid size prot =>
    exact .inert rfl ⟨rfl, rfl, rfl, rfl, rfl, rfl, rfl, rfl⟩
  | attachSharedMemory pid shmid =>
    refine .inert rfl ?_
    simp only [handleProcessRequest, handleAttachSharedMemory]
    split
    · exact ⟨rfl, rfl, rfl, rfl, rfl, rfl, rfl, rfl⟩
    · exact Alike.refl k
  | detachSharedMemory pid shmid =>
    refine .inert rfl ?_
    simp only [handleProcessRequest, handleDetachSharedMemory]
    split
    · exact ⟨rfl, rfl, rfl, rfl, rfl, rfl, rfl, rfl⟩
    · exact Alike.refl k
  | createSemaphore pid initialValue => exact .createSemaphore pid initialValue
  | waitSemaphore pid semid => exact handleWaitSemaphore_effect k pid semid
  | signalSemaphore pid semid => exact .signalSemaphore pid semid
  | createLock pid => exact .createLock pid
  | acquireLock pid lockId => exact handleAcquireLock_effect k pid lockId
  | releaseLock pid lockId => exact .releaseLock pid lockId
  | forkProcess parentPid => exact .inert rfl (Alike.refl k)
  | execProcess pid executable args path => exact .inert rfl (Alike.refl k)
  | waitChild pid childPid => exact handleWaitChild_effect k pid childPid
  | signal pid signal => exact handleSignal_effect k pid signal
  | getProcessInfo pid => exact .inert rfl (Alike.refl k)
  | spawn program params => exact .inert rfl (Alike.refl k)
  | listProcesses => exact .inert rfl (Alike.refl k)
  | getStats => exact .inert rfl (Alike.refl k)
  | getMemoryMap => exact .inert rfl (Alike.refl k)

end Kernel

/-! ## All transitions -/

/-- Acts that never touch the tables. -/
def Act.isIdle : Act → Bool
  | .step _ _ => true
  | .pageFault _ _ => true
  | .background => true
  | .syscall _ _ call => call.isQuiet
  | _ => false

/-- What a fork does to the tables. -/
inductive ForkStep (k : Kernel) (parent : Pid) : Kernel → Prop
  | refused : ForkStep k parent k
  | aborted : ForkStep k parent k.takePid
  | fresh (h : parent = 0) : ForkStep k parent k.forkFresh
  | child (h : (k.stateOf parent).isSome) : ForkStep k parent (k.forkChild parent)

/-- What an exec does to the tables. -/
inductive ExecStep (k : Kernel) (pid : Pid) : Kernel → Prop
  | failed : ExecStep k pid k
  | started (executable : String) (args : List String) (h : (k.stateOf pid).isSome) :
      ExecStep k pid (k.exec pid executable args)

/-- What a transition does to the tables. -/
inductive TableStep (k : Kernel) : Act → Kernel → Prop
  | idle {act : Act} (hact : act.isIdle = true) : TableStep k act k
  | dispatch (cpuId : Fin 2) (scheduledThisTick : List Pid) :
      TableStep k (.dispatch cpuId) (k.dispatch cpuId scheduledThisTick).2
  | initExit (cpuId : Fin 2) (code : UInt64) : TableStep k (.syscall cpuId 1 (.exit code)) k
  | exit (cpuId : Fin 2) (pid : Pid) (code : UInt64) (hpid : pid ≠ 1) :
      TableStep k (.syscall cpuId pid (.exit code)) (k.exit pid (exitCodeOf code))
  | forkCall (cpuId : Fin 2) (pid : Pid) {k' : Kernel} (h : ForkStep k pid k') :
      TableStep k (.syscall cpuId pid .fork) k'
  | execCall (cpuId : Fin 2) (pid : Pid) {k' : Kernel} (h : ExecStep k pid k') :
      TableStep k (.syscall cpuId pid .exec) k'
  | semCreate (cpuId : Fin 2) (pid : Pid) :
      TableStep k (.syscall cpuId pid .semCreate) (k.handleCreateSemaphore pid 1)
  | semWaitPassed (cpuId : Fin 2) (pid : Pid) (semId : UInt64)
      (h : (k.syncManager.waitSemaphore semId.toNat).1 = none ∨
        (k.syncManager.waitSemaphore semId.toNat).1 = some .acquired) :
      TableStep k (.syscall cpuId pid (.semWait semId))
        (k.onSync fun m => (m.waitSemaphore semId.toNat).2)
  | semWaitSlept (cpuId : Fin 2) (pid : Pid) (semId : UInt64) {r : SemaphoreResult}
      (h : (k.syncManager.waitSemaphore semId.toNat).1 = some r) (hr : r ≠ .acquired) :
      TableStep k (.syscall cpuId pid (.semWait semId))
        ((k.onSync fun m => (m.waitSemaphore semId.toNat).2).sleepOn pid semId.toNat)
  | semSignalWoke (cpuId : Fin 2) (pid : Pid) (semId : UInt64) (waiter : Pid)
      (h : k.stateOf waiter = some (.blocked (.waitingForLock semId.toNat))) :
      TableStep k (.syscall cpuId pid (.semSignal semId)) (k.wake waiter)
  | semSignalCounted (cpuId : Fin 2) (pid : Pid) (semId : UInt64)
      (h : ∀ q, k.stateOf q ≠ some (.blocked (.waitingForLock semId.toNat))) :
      TableStep k (.syscall cpuId pid (.semSignal semId))
        (k.onSync fun m => (m.signalSemaphore semId.toNat).2)
  | lockCreate (cpuId : Fin 2) (pid : Pid) :
      TableStep k (.syscall cpuId pid .lockCreate) (k.handleCreateLock pid)
  | lockAcquirePassed (cpuId : Fin 2) (pid : Pid) (lockId : UInt64)
      (h : (k.syncManager.acquireMutex lockId.toNat pid).1 = none ∨
        (k.syncManager.acquireMutex lockId.toNat pid).1 = some .acquired) :
      TableStep k (.syscall cpuId pid (.lockAcquire lockId))
        (k.onSync fun m => (m.acquireMutex lockId.toNat pid).2)
  | lockAcquireSlept (cpuId : Fin 2) (pid : Pid) (lockId : UInt64) {r : MutexResult}
      (h : (k.syncManager.acquireMutex lockId.toNat pid).1 = some r) (hr : r ≠ .acquired) :
      TableStep k (.syscall cpuId pid (.lockAcquire lockId))
        ((k.onSync fun m => (m.acquireMutex lockId.toNat pid).2).sleepOn pid lockId.toNat)
  | lockReleaseWoke (cpuId : Fin 2) (pid : Pid) (lockId : UInt64) (waiter : Pid)
      (h : k.stateOf waiter = some (.blocked (.waitingForLock lockId.toNat))) :
      TableStep k (.syscall cpuId pid (.lockRelease lockId))
        ((k.wake waiter).onSync fun m => (m.releaseMutex lockId.toNat pid).2)
  | lockReleaseNone (cpuId : Fin 2) (pid : Pid) (lockId : UInt64)
      (h : ∀ q, k.stateOf q ≠ some (.blocked (.waitingForLock lockId.toNat))) :
      TableStep k (.syscall cpuId pid (.lockRelease lockId))
        (k.onSync fun m => (m.releaseMutex lockId.toNat pid).2)
  | settled (cpuId : Fin 2) (pid : Pid) : TableStep k (.settle cpuId pid) k
  | zombified (cpuId : Fin 2) (pid : Pid) (hpid : pid ≠ 1)
      (hblocked : (k.stateOf pid).any ProcessState.isBlocked = false)
      (hready : k.stateOf pid ≠ some .ready) :
      TableStep k (.settle cpuId pid) (k.zombify pid)
  | reapedNone (cpuId : Fin 2) : TableStep k (.reap cpuId) k
  | reaped (cpuId : Fin 2) (pid : Pid) (code : Int32) (hpid : pid ≠ 1)
      (h : k.stateOf pid = some (.zombie code)) : TableStep k (.reap cpuId) (k.removeProcess pid)
  | fork {parent : Pid} {k' : Kernel} (h : ForkStep k parent k') : TableStep k (.fork parent) k'
  | exec {pid : Pid} {executable : String} {args : List String} {k' : Kernel}
      (h : ExecStep k pid k') : TableStep k (.exec pid executable args) k'
  | sharedSemaphores : TableStep k .sharedSemaphores
      ((k.handleCreateSemaphore 0 1).handleCreateSemaphore 0 1)
  | request {req : ProcessRequest} (channel : Option RequestId) {k' : Kernel}
      (h : RequestEffect k req k') : TableStep k (.request req channel) k'
  | waitChild (pid : Pid) (childPid : Option Pid) (channel : RequestId) :
      TableStep k (.request (.waitChild pid childPid) (some channel))
        (k.handleWaitChildWithResponse pid childPid channel).1
  | responded (channel : RequestId) (response : Response) :
      TableStep k (.respond (some channel)) (k.respond channel response)
  | silent (channel : Option RequestId) : TableStep k (.respond channel) k

namespace Kernel

theorem findWaiter_some {k : Kernel} {ord : HashOrder} {lockAddr : Nat} {waiter : Pid}
    (h : k.findWaiter ord lockAddr = some waiter) :
    k.stateOf waiter = some (.blocked (.waitingForLock lockAddr)) := by
  obtain ⟨pcb, hlook, hstate⟩ := HashMap.findKey_eq_some h
  rw [stateOf, hlook, Option.map_some]
  exact congrArg some (of_decide_eq_true hstate)

theorem findWaiter_none {k : Kernel} {ord : HashOrder} {lockAddr : Nat}
    (h : k.findWaiter ord lockAddr = none) (q : Pid) :
    k.stateOf q ≠ some (.blocked (.waitingForLock lockAddr)) := by
  intro hstate
  obtain ⟨pcb, hlook, hpcb⟩ := Option.map_eq_some_iff.1 hstate
  have hfalse := HashMap.findKey_eq_none_iff.1 h q pcb hlook
  rw [hpcb] at hfalse
  simp at hfalse

theorem findZombie_some {k : Kernel} {ord : HashOrder} {pid : Pid}
    (h : k.findZombie ord = some pid) : ∃ code, k.stateOf pid = some (.zombie code) := by
  obtain ⟨pcb, hlook, hzombie⟩ := HashMap.findKey_eq_some h
  rw [stateOf, hlook, Option.map_some]
  cases hstate : pcb.state with
  | zombie code => exact ⟨code, rfl⟩
  | _ => simp [hstate, ProcessState.isZombie] at hzombie

theorem semWait_step (k : Kernel) (cpuId : Fin 2) (pid : Pid) (semId : UInt64) :
    TableStep k (.syscall cpuId pid (.semWait semId)) (k.semWait pid semId.toNat).2 := by
  simp only [semWait]
  split
  · next h => exact .semWaitPassed cpuId pid semId (Or.inl h)
  · next h => exact .semWaitPassed cpuId pid semId (Or.inr h)
  · next hne h => exact .semWaitSlept cpuId pid semId h (by simpa using hne)

theorem lockAcquire_step (k : Kernel) (cpuId : Fin 2) (pid : Pid) (lockId : UInt64) :
    TableStep k (.syscall cpuId pid (.lockAcquire lockId)) (k.lockAcquire pid lockId.toNat).2 := by
  simp only [lockAcquire]
  split
  · next h => exact .lockAcquirePassed cpuId pid lockId (Or.inl h)
  · next h => exact .lockAcquirePassed cpuId pid lockId (Or.inr h)
  · next hne h => exact .lockAcquireSlept cpuId pid lockId h (by simpa using hne)

theorem semSignal_step (k : Kernel) (ord : HashOrder) (cpuId : Fin 2) (pid : Pid)
    (semId : UInt64) :
    TableStep k (.syscall cpuId pid (.semSignal semId)) (k.semSignal ord semId.toNat) := by
  simp only [semSignal]
  split
  · next waiter h => exact .semSignalWoke cpuId pid semId waiter (findWaiter_some h)
  · next h => exact .semSignalCounted cpuId pid semId (findWaiter_none h)

theorem lockRelease_step (k : Kernel) (ord : HashOrder) (cpuId : Fin 2) (pid : Pid)
    (lockId : UInt64) :
    TableStep k (.syscall cpuId pid (.lockRelease lockId))
      (k.lockRelease ord pid lockId.toNat).2 := by
  simp only [lockRelease]
  split
  · next waiter h => exact .lockReleaseWoke cpuId pid lockId waiter (findWaiter_some h)
  · next h => exact .lockReleaseNone cpuId pid lockId (findWaiter_none h)

end Kernel

theorem Machine.Forked.table {s s' : Machine} {parent : Pid} {r : Except ServiceError Pid}
    (h : Forked s parent (r, s')) : ForkStep s.toKernel parent s'.toKernel := by
  cases h with
  | fresh hparent hk => rw [hk]; exact .fresh hparent
  | orphan hk => rw [hk]; exact .refused
  | aborted hk => rw [hk]; exact .aborted
  | child hparent hk => rw [hk]; exact .child hparent

theorem Machine.Execed.table {s s' : Machine} {pid : Pid} {executable : String}
    {args : List String} {r : Except ServiceError Unit} (h : Execed s pid executable args (r, s')) :
    ExecStep s.toKernel pid s'.toKernel := by
  cases h with
  | failed hk => rw [hk]; exact .failed
  | started hpid hk => rw [hk]; exact .started executable args hpid

theorem SystemCall.Effect.table {s s' : Machine} {pid : Pid} {call : SystemCall}
    (h : call.Effect s pid s') (cpuId : Fin 2) :
    TableStep s.toKernel (.syscall cpuId pid call) s'.toKernel := by
  cases h with
  | quiet hcall h => rw [h.toKernel]; exact .idle hcall
  | initExit hpid => rw [hpid]; exact .initExit cpuId _
  | exit hpid hk => rw [hk]; exact .exit cpuId pid _ hpid
  | fork h h' => rw [h'.toKernel]; exact .forkCall cpuId pid h.table
  | exec h => exact .execCall cpuId pid h.table
  | semCreate hk => rw [hk]; exact .semCreate cpuId pid
  | semWait hk => rw [hk]; exact Kernel.semWait_step _ cpuId pid _
  | semSignal ord hk => rw [hk]; exact Kernel.semSignal_step _ ord cpuId pid _
  | lockCreate hk => rw [hk]; exact .lockCreate cpuId pid
  | lockAcquire hk => rw [hk]; exact Kernel.lockAcquire_step _ cpuId pid _
  | lockRelease ord hk => rw [hk]; exact Kernel.lockRelease_step _ ord cpuId pid _

theorem Machine.dispatch_toKernel (s : Machine) (cpuId : Fin 2) (scheduledThisTick : List Pid) :
    (s.dispatch cpuId scheduledThisTick).2.toKernel =
      (s.toKernel.dispatch cpuId scheduledThisTick).2 := by
  simp only [Machine.dispatch]
  split
  · split <;> rfl
  · rfl

theorem Machine.settle_table (s : Machine) (cpuId : Fin 2) (pid : Pid) :
    TableStep s.toKernel (.settle cpuId pid) (s.settle pid).toKernel := by
  simp only [Machine.settle]
  split
  · next h =>
    split
    · exact .settled cpuId pid
    · next hready => exact .zombified cpuId pid h.1 h.2.1 hready
  · exact .settled cpuId pid

/-- The timer ends a process that has halted in its turn. -/
def Machine.CleansUp (s : Machine) (pid : Pid) : Prop :=
  pid ≠ 1 ∧ (s.cpus.get pid).any VirtualCPU.halted = true ∧
    (s.stateOf pid = some .running ∨ s.stateOf pid = some .creating)

instance (s : Machine) (pid : Pid) : Decidable (s.CleansUp pid) :=
  inferInstanceAs (Decidable (_ ∧ _))

/-- After the slice the tables stay, the process is ended, or one that has ended before leaves the
scheduler. -/
theorem Machine.settle_cases (s : Machine) (pid : Pid) :
    (s.settle pid).toKernel = s.toKernel ∨
      s.CleansUp pid ∧ (s.settle pid).toKernel = s.toKernel.zombify pid ∨
      (∀ st, s.stateOf pid = some st → st.isTerminated = true) ∧
        (s.settle pid).toKernel = s.toKernel.zombify pid := by
  simp only [Machine.settle]
  split
  · next hcond =>
    split
    · exact Or.inl rfl
    · next hready =>
      refine Or.inr ?_
      cases hst : s.stateOf pid with
      | none => exact Or.inr ⟨by rintro _ ⟨⟩, rfl⟩
      | some st =>
        cases st with
        | creating => exact Or.inl ⟨⟨hcond.1, hcond.2.2, Or.inr hst⟩, rfl⟩
        | running => exact Or.inl ⟨⟨hcond.1, hcond.2.2, Or.inl hst⟩, rfl⟩
        | ready => exact absurd hst hready
        | blocked reason =>
          have hawake := hcond.2.1
          rw [hst] at hawake
          cases hawake
        | terminated code => exact Or.inr ⟨by rintro _ ⟨⟩; rfl, rfl⟩
        | zombie code => exact Or.inr ⟨by rintro _ ⟨⟩; rfl, rfl⟩
  · exact Or.inl rfl

theorem Machine.reap_table (s : Machine) (cpuId : Fin 2) (w : World) :
    TableStep s.toKernel (.reap cpuId) (s.reap w).toKernel := by
  simp only [Machine.reap]
  split
  · next pid h =>
    obtain ⟨code, hcode⟩ := Kernel.findZombie_some h
    simp only [Machine.reapProcess]
    split
    · exact .reapedNone cpuId
    · next hpid => exact .reaped cpuId pid code hpid hcode
  · exact .reapedNone cpuId

theorem Machine.handleSimpleRequest_table (w : World) (s : Machine) (req : ProcessRequest)
    (channel : Option RequestId) :
    TableStep s.toKernel (.request req channel) (s.handleSimpleRequest w req channel).1.toKernel := by
  have hplain := s.toKernel.handleProcessRequest_effect req
  simp only [Machine.handleSimpleRequest]
  split
  · exact .waitChild _ _ _
  · exact .request _ (.inert rfl (Kernel.Alike.refl _))
  · exact .request _ (.inert rfl (Kernel.Alike.refl _))
  · exact .request _ (.inert rfl (Kernel.Alike.refl _))
  · exact .request _ (.inert rfl (Kernel.Alike.refl _))
  · exact .request _ hplain

theorem Machine.finish_table (s : Machine) (channel : Option RequestId) (answer : Option Answer) :
    TableStep s.toKernel (.respond channel) (s.finish channel answer).toKernel := by
  simp only [Machine.finish]
  split
  · exact .responded _ _
  · exact .responded _ _
  · exact .silent _

/-- What a transition does, seen from the tables. -/
theorem Step.table {s s' : Machine} {act : Act} (h : Step s act s') :
    TableStep s.toKernel act s'.toKernel := by
  cases h with
  | dispatch cpuId scheduled =>
    rw [Machine.dispatch_toKernel]
    exact .dispatch cpuId scheduled
  | step cpuId hrun hk => rw [hk]; exact .idle rfl
  | syscall cpuId h => exact h.table cpuId
  | panic cpuId hcall hk => rw [hk]; exact .idle hcall
  | pageFault cpuId pid h => rw [h.toKernel]; exact .idle rfl
  | settle cpuId pid => exact s.settle_table cpuId pid
  | reap cpuId w => exact s.reap_table cpuId w
  | fork h => exact .fork h.table
  | exec h => exact .exec h.table
  | sharedSemaphores hk => rw [hk]; exact .sharedSemaphores
  | request req channel w => exact Machine.handleSimpleRequest_table w s req channel
  | respond channel answer => exact s.finish_table channel answer
  | background h => rw [h.toKernel]; exact .idle rfl

/-! ## Runs -/

/-- A transition of the tables. -/
abbrev TableTr := Transition Kernel Act

/-- The tables after a run. -/
def Machine.finalTables (w : World) (memory : MemoryService) (events : List Event) : Kernel :=
  (run w memory events).1.toKernel

/-- The transitions of a run, seen from the tables. -/
def Machine.tableTrace (w : World) (memory : MemoryService) (events : List Event) : List TableTr :=
  (run w memory events).2.map (Transition.map Machine.toKernel)

theorem tableTrace_chain (w : World) (memory : MemoryService) (events : List Event) :
    Chain (Machine.boot w memory).toKernel (Machine.tableTrace w memory events)
      (Machine.finalTables w memory events) :=
  (run_traced w memory events).chain.map Machine.toKernel

/-- Every transition of a run does to the tables what its act says. -/
theorem tableTrace_step {w : World} {memory : MemoryService} {events : List Event} {t : TableTr}
    (h : t ∈ Machine.tableTrace w memory events) : TableStep t.pre t.act t.post := by
  obtain ⟨u, hu, rfl⟩ := List.mem_map.1 h
  exact ((run_traced w memory events).performed u hu).step_of.table

/-- The tables at the start of a run: process 1 has been forked from nothing. -/
theorem boot_tables (w : World) (memory : MemoryService) :
    ForkStep Kernel.new 0 (Machine.boot w memory).toKernel :=
  (Machine.forkImpl_forked w (Machine.new memory) 0).table

end GenshinOs.Process
