import GenshinOs.Process.Tables

/-!
# What the handlers do to the observations

For each operation on the tables: what becomes of the states of the processes, of the primitives and
of the scheduler. The states fall into active ones (creating, ready, running) and the others; the
timer moves processes between active states only, and everything that is asleep or dead stays so.
-/

set_option autoImplicit false

namespace GenshinOs.Process

open GenshinOs.Lib GenshinOs.Hardware GenshinOs.Memory

/-- States in which a process can be given a CPU. -/
def ProcessState.isActive : ProcessState → Bool
  | .creating => true
  | .ready => true
  | .running => true
  | _ => false

namespace Kernel

/-! ## States -/

/-- Processes only move between active states. -/
def Shuffled (k k' : Kernel) : Prop :=
  ∀ q, k'.stateOf q = k.stateOf q ∨
    ∃ a b, k.stateOf q = some a ∧ k'.stateOf q = some b ∧ a.isActive = true ∧ b.isActive = true

/-- Nothing changes. -/
theorem Shuffled.refl (k : Kernel) : Shuffled k k := fun _ => Or.inl rfl

/-- The states stay as they are. -/
theorem Shuffled.of_eq {k k' : Kernel} (h : k'.stateOf = k.stateOf) : Shuffled k k' :=
  fun q => Or.inl (congrFun h q)

/-- Two such changes. -/
theorem Shuffled.trans {k k' k'' : Kernel} (h : Shuffled k k') (h' : Shuffled k' k'') :
    Shuffled k k'' := by
  intro q
  rcases h q with heq | ⟨a, b, ha, hb, hact, hact'⟩
  · rcases h' q with heq' | ⟨a', b', ha', hb', hrest⟩
    · exact Or.inl (heq'.trans heq)
    · exact Or.inr ⟨a', b', heq ▸ ha', hb', hrest⟩
  · rcases h' q with heq' | ⟨a', b', ha', hb', hact1, hact2⟩
    · exact Or.inr ⟨a, b, ha, heq'.trans hb, hact, hact'⟩
    · exact Or.inr ⟨a, b', ha, hb', hact, hact2⟩

/-- A state that is not active is kept. -/
theorem Shuffled.kept {k k' : Kernel} (h : Shuffled k k') {q : Pid} {st : ProcessState}
    (hst : st.isActive = false) : k'.stateOf q = some st ↔ k.stateOf q = some st := by
  rcases h q with heq | ⟨a, b, ha, hb, hact, hact'⟩
  · rw [heq]
  · constructor
    · intro hq
      rw [hb] at hq
      cases hq
      rw [hst] at hact'
      cases hact'
    · intro hq
      rw [ha] at hq
      cases hq
      rw [hst] at hact
      cases hact

/-- No process comes or goes. -/
theorem Shuffled.none_iff {k k' : Kernel} (h : Shuffled k k') (q : Pid) :
    k'.stateOf q = none ↔ k.stateOf q = none := by
  rcases h q with heq | ⟨a, b, ha, hb, -, -⟩
  · rw [heq]
  · rw [ha, hb]
    exact iff_of_false (by simp) (by simp)

/-- Writing an active state over an active one. -/
theorem shuffled_setState {k : Kernel} {pid : Pid} {st st' : ProcessState}
    (h : k.stateOf pid = some st) (hst : st.isActive = true) (hst' : st'.isActive = true) :
    Shuffled k (k.setState pid st') := by
  intro q
  rw [setState_stateOf]
  split
  · next heq =>
    rw [heq, h]
    exact Or.inr ⟨st, st', rfl, rfl, hst, hst'⟩
  · exact Or.inl rfl

/-- The process that is taken off its CPU becomes ready. -/
theorem shuffled_preempt (k : Kernel) (cpuId : Fin 2) (prev : Pid) :
    Shuffled k (k.preempt cpuId prev) := by
  simp only [preempt]
  split
  · exact Shuffled.refl k
  split
  · next hrun => exact shuffled_setState hrun rfl rfl
  · exact Shuffled.refl k

/-- To note the choice for a CPU shuffles states. -/
theorem shuffled_trackLast (k : Kernel) (cpuId : Fin 2) (decision : SchedulingDecision) :
    Shuffled k (k.trackLast cpuId decision) := by
  simp only [trackLast]
  split
  · split
    · exact Shuffled.refl k
    · split
      · exact (shuffled_preempt k cpuId _).trans (Shuffled.of_eq rfl)
      · exact Shuffled.of_eq rfl
  · exact Shuffled.of_eq rfl

/-- The chosen process runs, if it was ready or being created. -/
theorem shuffled_markRunning (k : Kernel) (pid : Pid) : Shuffled k (k.markRunning pid) := by
  simp only [markRunning]
  split
  · next h =>
    rcases h with h | h
    · exact shuffled_setState h rfl rfl
    · exact shuffled_setState h rfl rfl
  · exact Shuffled.refl k

/-- A choice leaves the states. -/
theorem pick_stateOf (k : Kernel) (cpuId : Fin 2) (scheduledThisTick : List Pid) :
    (k.pick cpuId scheduledThisTick).2.stateOf = k.stateOf := by
  simp only [pick]
  split
  · split <;> rfl
  · rfl

/-- A dispatch shuffles the active states. -/
theorem shuffled_dispatch (k : Kernel) (cpuId : Fin 2) (scheduledThisTick : List Pid) :
    Shuffled k (k.dispatch cpuId scheduledThisTick).2 := by
  have htracked := (Shuffled.of_eq (k.pick_stateOf cpuId scheduledThisTick)).trans
    (shuffled_trackLast _ cpuId (k.pick cpuId scheduledThisTick).1)
  simp only [dispatch]
  split
  · exact htracked.trans (shuffled_markRunning _ _)
  · exact htracked

section states

variable (k : Kernel) (pid q : Pid)

@[simp] theorem readyThread_stateOf (tid : Tid) (priority : UInt8) :
    (k.readyThread pid tid priority).stateOf = k.stateOf := rfl

@[simp] theorem blockThread_stateOf (tid : Tid) :
    (k.blockThread pid tid).stateOf = k.stateOf := rfl

@[simp] theorem handleSchedule_stateOf (tid : Tid) :
    (k.handleSchedule pid tid).stateOf = k.stateOf := rfl

@[simp] theorem takePid_stateOf : k.takePid.stateOf = k.stateOf := rfl

@[simp] theorem linkChild_stateOf (parent child : Pid) :
    (k.linkChild parent child).stateOf = k.stateOf := rfl

@[simp] theorem releaseGlobals_stateOf : (k.releaseGlobals pid).stateOf = k.stateOf := rfl

/-- Whatever the reason that is given, the process waits for device 0. -/
theorem handleBlock_stateOf (tid : Tid) (reason : BlockReason) :
    (k.handleBlock pid tid reason).stateOf q =
      if q = pid then (k.stateOf pid).map fun _ => .blocked (.waitingForIo 0) else k.stateOf q := by
  rw [handleBlock, setState_stateOf, blockThread_stateOf]

/-- A process that is unblocked is ready. -/
theorem handleUnblock_stateOf (tid : Tid) :
    (k.handleUnblock pid tid).stateOf q =
      if q = pid then (k.stateOf pid).map fun _ => .ready else k.stateOf q := by
  rw [handleUnblock, handleSchedule_stateOf, setState_stateOf]

/-- A process that sleeps waits for the lock or the semaphore. -/
theorem sleepOn_stateOf (lockAddr : Nat) :
    (k.sleepOn pid lockAddr).stateOf q =
      if q = pid then (k.stateOf pid).map fun _ => .blocked (.waitingForLock lockAddr)
      else k.stateOf q := by
  rw [sleepOn, blockThread_stateOf, setState_stateOf]

/-- A process that is woken is ready. -/
theorem wake_stateOf : (k.wake pid).stateOf q =
    if q = pid then (k.stateOf pid).map fun _ => .ready else k.stateOf q := by
  rw [wake, readyThread_stateOf, setState_stateOf]

/-- A process that exits is a zombie with its code. -/
theorem exit_stateOf (code : Int32) :
    (k.exit pid code).stateOf q =
      if q = pid then (k.stateOf pid).map fun _ => .zombie code else k.stateOf q := by
  rw [exit, blockThread_stateOf, onSync_stateOf, setState_stateOf]

/-- After an exec the process is ready. -/
theorem exec_stateOf (executable : String) (args : List String) :
    (k.exec pid executable args).stateOf q =
      if q = pid then (k.stateOf pid).map fun _ => .ready else k.stateOf q := by
  rw [exec, handleSchedule_stateOf]
  simp only [stateOf, HashMap.lookup_adjust]
  split
  · rw [Option.map_map, Option.map_map]
    rfl
  · rfl

/-- A process without a parent is being created. -/
theorem forkFresh_stateOf :
    k.forkFresh.stateOf q = if q = k.nextPid then some .creating else k.stateOf q := by
  rw [forkFresh, insertProcess_stateOf]
  rfl

/-- A child is ready at once. -/
theorem forkChild_stateOf (parent : Pid) :
    (k.forkChild parent).stateOf q = if q = k.nextPid then some .ready else k.stateOf q := by
  rw [forkChild, linkChild_stateOf, insertProcess_stateOf]
  rfl

@[simp] theorem notifyParent_stateOf (code : Int32) :
    (k.notifyParent pid code).stateOf = k.stateOf := by
  simp only [notifyParent]
  split <;> rfl

/-- The clean-up of a halted process that is still alive. -/
theorem zombify_of_alive {st : ProcessState} (h : k.stateOf pid = some st)
    (hst : st.isTerminated = false) :
    k.zombify pid = (((k.onScheduler fun s => (s.remove pid 1).2).setState pid
      (.zombie 0)).releaseGlobals pid).notifyParent pid 0 := by
  simp only [zombify, onScheduler_stateOf, h]
  rw [if_neg (by rw [hst]; decide)]

/-- A process that is gone or dead only leaves the scheduler. -/
theorem zombify_of_dead (h : ∀ st, k.stateOf pid = some st → st.isTerminated = true) :
    k.zombify pid = k.onScheduler fun s => (s.remove pid 1).2 := by
  simp only [zombify, onScheduler_stateOf]
  split
  · rfl
  · next st hst => rw [if_pos (h st hst)]

/-- A process whose CPU has halted is a zombie with code 0, unless it had ended before. -/
theorem zombify_stateOf :
    (k.zombify pid).stateOf q =
      if q = pid ∧ (k.stateOf pid).any (fun st => !st.isTerminated) then some (.zombie 0)
      else k.stateOf q := by
  cases hst : k.stateOf pid with
  | none =>
    rw [zombify_of_dead k pid (by rw [hst]; simp), onScheduler_stateOf]
    simp
  | some st =>
    cases hterm : st.isTerminated with
    | true =>
      rw [zombify_of_dead k pid (by rw [hst]; rintro _ ⟨⟩; exact hterm), onScheduler_stateOf]
      simp [hterm]
    | false =>
      rw [zombify_of_alive k pid hst hterm, notifyParent_stateOf, releaseGlobals_stateOf,
        setState_stateOf, onScheduler_stateOf]
      simp [hst, hterm]

end states

/-! ## What the timer leaves alone -/

/-- The table after writing states, one after the other. -/
def writeStates (table : HashMap Pid PCB) (updates : List (Pid × ProcessState)) : HashMap Pid PCB :=
  updates.foldl (fun table update =>
    HashMap.adjust table update.1 fun pcb => { pcb with state := update.2 }) table

/-- Writes of states one after the other. -/
theorem writeStates_append (table : HashMap Pid PCB) (updates updates' : List (Pid × ProcessState)) :
    writeStates table (updates ++ updates') = writeStates (writeStates table updates) updates' :=
  List.foldl_append

section frames

variable (k : Kernel)

/-- A dispatch writes states, the scheduler and the last processes of the CPUs. -/
theorem dispatch_frame (cpuId : Fin 2) (scheduledThisTick : List Pid) :
    ∃ updates scheduler lastRunning, (k.dispatch cpuId scheduledThisTick).2 =
      { k with
        processTable := writeStates k.processTable updates
        scheduler := scheduler
        lastRunning := lastRunning } := by
  have hpick : ∃ scheduler, (k.pick cpuId scheduledThisTick).2 = { k with scheduler := scheduler } := by
    simp only [pick]
    split
    · split
      · exact ⟨_, rfl⟩
      · exact ⟨_, rfl⟩
    · exact ⟨_, rfl⟩
  have hpreempt : ∀ (k : Kernel) prev, ∃ updates,
      k.preempt cpuId prev = { k with processTable := writeStates k.processTable updates } := by
    intro k prev
    rw [preempt]
    split
    · exact ⟨[], rfl⟩
    · split
      · exact ⟨[(prev, .ready)], rfl⟩
      · exact ⟨[], rfl⟩
  have htrack : ∀ (k : Kernel) decision, ∃ updates lastRunning, k.trackLast cpuId decision =
      { k with processTable := writeStates k.processTable updates, lastRunning := lastRunning } := by
    intro k decision
    simp only [trackLast]
    split
    · split
      · exact ⟨[], k.lastRunning, rfl⟩
      · split
        -- the process that ran before on this CPU is put back
        · next prev _ =>
          obtain ⟨updates, hprev⟩ := hpreempt k prev
          rw [hprev]
          exact ⟨updates, _, rfl⟩
        · exact ⟨[], _, rfl⟩
    · exact ⟨[], _, rfl⟩
  have hmark : ∀ (k : Kernel) pid, ∃ updates,
      k.markRunning pid = { k with processTable := writeStates k.processTable updates } := by
    intro k pid
    rw [markRunning]
    split
    · exact ⟨[(pid, .running)], rfl⟩
    · exact ⟨[], rfl⟩
  obtain ⟨scheduler, hscheduler⟩ := hpick
  obtain ⟨updates, lastRunning, htracked⟩ :=
    htrack (k.pick cpuId scheduledThisTick).2 (k.pick cpuId scheduledThisTick).1
  rw [hscheduler] at htracked
  simp only [dispatch]
  split
  · next pid _ _ =>
    obtain ⟨marked, hmarked⟩ := hmark ((k.pick cpuId scheduledThisTick).2.trackLast cpuId
      (k.pick cpuId scheduledThisTick).1) pid
    refine ⟨updates ++ marked, scheduler, lastRunning, ?_⟩
    rw [hmarked, hscheduler, htracked, writeStates_append]
  · rw [hscheduler, htracked]
    exact ⟨updates, scheduler, lastRunning, rfl⟩

/-- To tell a parent changes the waiting parents and the responses only. -/
theorem notifyParent_frame (pid : Pid) (code : Int32) :
    ∃ waiting responses, k.notifyParent pid code =
      { k with waitingParents := waiting, responses := responses } := by
  simp only [notifyParent]
  split
  · exact ⟨_, _, rfl⟩
  · exact ⟨k.waitingParents, k.responses, rfl⟩

/-- The clean-up of a process leaves the numbers, the queues and the family links alone. -/
theorem zombify_frame (pid : Pid) :
    ∃ updates scheduler sync waiting responses, k.zombify pid =
      { k with
        processTable := writeStates k.processTable updates
        scheduler := scheduler
        syncManager := sync
        waitingParents := waiting
        responses := responses } := by
  simp only [zombify]
  split
  · exact ⟨[], _, _, _, _, rfl⟩
  · split
    · exact ⟨[], _, _, _, _, rfl⟩
    · obtain ⟨waiting, responses, hframe⟩ := notifyParent_frame
        (((k.onScheduler fun s => (s.remove pid 1).2).setState pid (.zombie 0)).releaseGlobals pid) pid 0
      rw [hframe]
      exact ⟨[(pid, .zombie 0)], _, _, waiting, responses, rfl⟩

end frames

/-! ## Primitives -/

section primitives

variable (k : Kernel) (pid : Pid)

@[simp] theorem dispatch_syncManager (cpuId : Fin 2) (scheduledThisTick : List Pid) :
    (k.dispatch cpuId scheduledThisTick).2.syncManager = k.syncManager := by
  obtain ⟨updates, scheduler, lastRunning, hframe⟩ := k.dispatch_frame cpuId scheduledThisTick
  rw [hframe]

@[simp] theorem notifyParent_syncManager (code : Int32) :
    (k.notifyParent pid code).syncManager = k.syncManager := by
  obtain ⟨waiting, responses, hframe⟩ := k.notifyParent_frame pid code
  rw [hframe]

@[simp] theorem handleBlock_syncManager (tid : Tid) (reason : BlockReason) :
    (k.handleBlock pid tid reason).syncManager = k.syncManager := rfl

@[simp] theorem handleUnblock_syncManager (tid : Tid) :
    (k.handleUnblock pid tid).syncManager = k.syncManager := rfl

@[simp] theorem handleContextSwitch_syncManager (toPid : Pid) :
    (k.handleContextSwitch pid toPid).syncManager = k.syncManager := rfl

@[simp] theorem handleSchedule_syncManager (tid : Tid) :
    (k.handleSchedule pid tid).syncManager = k.syncManager := rfl

@[simp] theorem sleepOn_syncManager (lockAddr : Nat) :
    (k.sleepOn pid lockAddr).syncManager = k.syncManager := rfl

@[simp] theorem wake_syncManager : (k.wake pid).syncManager = k.syncManager := rfl

@[simp] theorem exec_syncManager (executable : String) (args : List String) :
    (k.exec pid executable args).syncManager = k.syncManager := rfl

@[simp] theorem forkFresh_syncManager : k.forkFresh.syncManager = k.syncManager := rfl

@[simp] theorem forkChild_syncManager (parent : Pid) :
    (k.forkChild parent).syncManager = k.syncManager := rfl

@[simp] theorem removeProcess_syncManager : (k.removeProcess pid).syncManager = k.syncManager := rfl

@[simp] theorem exit_syncManager (code : Int32) :
    (k.exit pid code).syncManager = k.syncManager.releaseGlobalSemaphore := rfl

@[simp] theorem releaseGlobals_syncManager :
    (k.releaseGlobals pid).syncManager =
      k.syncManager.releaseGlobalSemaphore.releaseGlobalMutex pid := rfl

/-- A halted process that is alive gives the global primitives back. -/
theorem zombify_syncManager :
    (k.zombify pid).syncManager =
      if (k.stateOf pid).any (fun st => !st.isTerminated)
      then k.syncManager.releaseGlobalSemaphore.releaseGlobalMutex pid else k.syncManager := by
  cases hst : k.stateOf pid with
  | none =>
    rw [zombify_of_dead k pid (by rw [hst]; simp)]
    simp
  | some st =>
    cases hterm : st.isTerminated with
    | true =>
      rw [zombify_of_dead k pid (by rw [hst]; rintro _ ⟨⟩; exact hterm)]
      simp [hterm]
    | false =>
      rw [zombify_of_alive k pid hst hterm]
      simp [hterm]

@[simp] theorem handleWaitChildWithResponse_syncManager (childPid : Option Pid)
    (channel : RequestId) :
    (k.handleWaitChildWithResponse pid childPid channel).1.syncManager = k.syncManager := by
  simp only [handleWaitChildWithResponse]
  split
  · rfl
  split
  · rfl
  split
  · rfl
  split <;> rfl

end primitives

end Kernel

/-! ## Sleeping processes -/

/-- The process sleeps on a semaphore or mutex with the given identifier. -/
def Kernel.SleepsOn (k : Kernel) (q : Pid) (lockAddr : Nat) : Prop :=
  k.stateOf q = some (.blocked (.waitingForLock lockAddr))

/-- The act puts a process to sleep: its wait or its acquire does not pass. -/
inductive FallsAsleep (k : Kernel) (q : Pid) (lockAddr : Nat) : Act → Prop
  | semWait (cpuId : Fin 2) (semId : UInt64) (r : SemaphoreResult) (hid : semId.toNat = lockAddr)
      (h : (k.syncManager.waitSemaphore lockAddr).1 = some r) (hr : r ≠ .acquired) :
      FallsAsleep k q lockAddr (.syscall cpuId q (.semWait semId))
  | lockAcquire (cpuId : Fin 2) (lockId : UInt64) (r : MutexResult) (hid : lockId.toNat = lockAddr)
      (h : (k.syncManager.acquireMutex lockAddr q).1 = some r) (hr : r ≠ .acquired) :
      FallsAsleep k q lockAddr (.syscall cpuId q (.lockAcquire lockId))

/-- A state that was written is the state. -/
theorem eq_of_map_const {o : Option ProcessState} {st st' : ProcessState}
    (h : (o.map fun _ => st) = some st') : st = st' := by
  cases o with
  | none => cases h
  | some _ => cases h; rfl

/-- A state written over a process is the one that is read, unless it is another process. -/
theorem of_written {k : Kernel} {pid q : Pid} {st st' : ProcessState}
    (h : (if q = pid then (k.stateOf pid).map fun _ => st else k.stateOf q) = some st')
    (hne : st ≠ st') : k.stateOf q = some st' := by
  split at h
  · exact absurd (eq_of_map_const h) hne
  · exact h

/-- Nobody falls asleep in a fork, -/
theorem ForkStep.sleepsOn {k k' : Kernel} {parent q : Pid} {lockAddr : Nat}
    (h : ForkStep k parent k') (hs : k'.SleepsOn q lockAddr) : k.SleepsOn q lockAddr := by
  cases h with
  | refused => exact hs
  | aborted => exact hs
  | fresh h =>
    simp only [Kernel.SleepsOn, Kernel.forkFresh_stateOf] at hs
    split at hs
    · cases hs
    · exact hs
  | child h =>
    simp only [Kernel.SleepsOn, Kernel.forkChild_stateOf] at hs
    split at hs
    · cases hs
    · exact hs

/-- in an exec, -/
theorem ExecStep.sleepsOn {k k' : Kernel} {pid q : Pid} {lockAddr : Nat}
    (h : ExecStep k pid k') (hs : k'.SleepsOn q lockAddr) : k.SleepsOn q lockAddr := by
  cases h with
  | failed => exact hs
  | started executable args h =>
    rw [Kernel.SleepsOn, Kernel.exec_stateOf] at hs
    exact of_written hs (by simp)

/-- in a request of the tables, -/
theorem RequestEffect.sleepsOn {k k' : Kernel} {req : ProcessRequest} {q : Pid} {lockAddr : Nat}
    (h : RequestEffect k req k') (hs : k'.SleepsOn q lockAddr) : k.SleepsOn q lockAddr := by
  -- a block for another reason makes nobody sleep on the lock
  have hblock : ∀ (k : Kernel) (pid : Pid) (tid : Tid) (reason : BlockReason),
      (k.handleBlock pid tid reason).SleepsOn q lockAddr → k.SleepsOn q lockAddr := by
    intro k pid tid reason hs
    rw [Kernel.SleepsOn, Kernel.handleBlock_stateOf] at hs
    exact of_written hs (by simp)
  have hset : ∀ (k : Kernel) (pid : Pid) (st : ProcessState),
      st ≠ .blocked (.waitingForLock lockAddr) →
      (k.setState pid st).SleepsOn q lockAddr → k.SleepsOn q lockAddr := by
    intro k pid st hne hs
    rw [Kernel.SleepsOn, Kernel.setState_stateOf] at hs
    exact of_written hs hne
  cases h with
  | inert hreq h => rwa [Kernel.SleepsOn, h.stateOf] at hs
  | schedule pid tid => exact hs
  | block pid tid reason => exact hblock k pid tid reason hs
  | unblock pid tid =>
    rw [Kernel.SleepsOn, Kernel.handleUnblock_stateOf] at hs
    exact of_written hs (by simp)
  | contextSwitch fromPid toPid => exact hs
  | received pid blocking h => rwa [Kernel.SleepsOn, h.stateOf] at hs
  | receiveBlocked pid => exact hblock k pid 1 _ hs
  | createSemaphore pid initialValue => exact hs
  | waitBlocked pid semid h => exact hblock (k.onSync _) pid 1 _ hs
  | waitPassed pid semid h => exact hs
  | signalSemaphore pid semid => exact hs
  | createLock pid => exact hs
  | acquireBlocked pid lockId h => exact hblock (k.onSync _) pid 1 _ hs
  | acquirePassed pid lockId h => exact hs
  | releaseLock pid lockId => exact hs
  | waitRefused pid childPid => exact hs
  | waitChild pid childPid reason => exact hblock k pid 1 reason hs
  | kill pid signal hsig hpid => exact hset (k.releaseGlobals pid) pid _ (by simp) hs
  | stop pid hpid => exact hset k pid _ (by simp) hs
  | continued pid hpid => exact hset k pid _ (by simp) hs
  | signalQueued pid signal h => rwa [Kernel.SleepsOn, h.stateOf] at hs

/-- or in the wait for a child with a channel. -/
theorem Kernel.waitChildWithResponse_sleepsOn {k : Kernel} {pid q : Pid} {childPid : Option Pid}
    {channel : RequestId} {lockAddr : Nat}
    (hs : (k.handleWaitChildWithResponse pid childPid channel).1.SleepsOn q lockAddr) :
    k.SleepsOn q lockAddr := by
  simp only [Kernel.handleWaitChildWithResponse] at hs
  split at hs
  · exact hs
  split at hs
  · exact hs
  split at hs
  · exact hs
  split at hs
  · rw [Kernel.SleepsOn, Kernel.respond_stateOf, Kernel.removeProcess_stateOf] at hs
    split at hs
    · cases hs
    · exact hs
  · exact hs

/-- A process that sleeps has slept before, unless this is the call that puts it to sleep. -/
theorem TableStep.sleepsOn {k k' : Kernel} {act : Act} {q : Pid} {lockAddr : Nat}
    (h : TableStep k act k') (hs : k'.SleepsOn q lockAddr) :
    k.SleepsOn q lockAddr ∨ FallsAsleep k q lockAddr act := by
  cases h with
  | idle hact => exact Or.inl hs
  | dispatch cpuId scheduled => exact Or.inl (((k.shuffled_dispatch cpuId scheduled).kept rfl).1 hs)
  | initExit cpuId code => exact Or.inl hs
  | exit cpuId pid code hpid =>
    rw [Kernel.SleepsOn, Kernel.exit_stateOf] at hs
    exact Or.inl (of_written hs (by simp))
  | forkCall cpuId pid h => exact Or.inl (h.sleepsOn hs)
  | execCall cpuId pid h => exact Or.inl (h.sleepsOn hs)
  | semCreate cpuId pid => exact Or.inl hs
  | semWaitPassed cpuId pid semId h => exact Or.inl hs
  -- the process itself goes to sleep, on the primitive whose number is the address
  | semWaitSlept cpuId pid semId h hr =>
    rw [Kernel.SleepsOn, Kernel.sleepOn_stateOf] at hs
    split at hs
    · next heq =>
      have hid : semId.toNat = lockAddr := by simpa using eq_of_map_const hs
      subst heq
      exact Or.inr (.semWait cpuId semId _ hid (hid ▸ h) hr)
    · exact Or.inl hs
  | semSignalWoke cpuId pid semId waiter h =>
    rw [Kernel.SleepsOn, Kernel.wake_stateOf] at hs
    exact Or.inl (of_written hs (by simp))
  | semSignalCounted cpuId pid semId h => exact Or.inl hs
  | lockCreate cpuId pid => exact Or.inl hs
  | lockAcquirePassed cpuId pid lockId h => exact Or.inl hs
  | lockAcquireSlept cpuId pid lockId h hr =>
    rw [Kernel.SleepsOn, Kernel.sleepOn_stateOf] at hs
    split at hs
    · next heq =>
      have hid : lockId.toNat = lockAddr := by simpa using eq_of_map_const hs
      subst heq
      exact Or.inr (.lockAcquire cpuId lockId _ hid (hid ▸ h) hr)
    · exact Or.inl hs
  | lockReleaseWoke cpuId pid lockId waiter h =>
    rw [Kernel.SleepsOn, Kernel.onSync_stateOf, Kernel.wake_stateOf] at hs
    exact Or.inl (of_written hs (by simp))
  | lockReleaseNone cpuId pid lockId h => exact Or.inl hs
  | settled cpuId pid => exact Or.inl hs
  | zombified cpuId pid hpid hblocked hready =>
    rw [Kernel.SleepsOn, Kernel.zombify_stateOf] at hs
    split at hs
    · cases hs
    · exact Or.inl hs
  | reapedNone cpuId => exact Or.inl hs
  | reaped cpuId pid code hpid h =>
    rw [Kernel.SleepsOn, Kernel.removeProcess_stateOf] at hs
    split at hs
    · cases hs
    · exact Or.inl hs
  | fork h => exact Or.inl (h.sleepsOn hs)
  | exec h => exact Or.inl (h.sleepsOn hs)
  | sharedSemaphores => exact Or.inl hs
  | request channel h => exact Or.inl (h.sleepsOn hs)
  | waitChild pid childPid channel => exact Or.inl (Kernel.waitChildWithResponse_sleepsOn hs)
  | responded channel response => exact Or.inl hs
  | silent channel => exact Or.inl hs

/-! ## The primitives stay sound -/

/-- A fork leaves semaphores and locks, -/
theorem ForkStep.syncManager_eq {k k' : Kernel} {parent : Pid} (h : ForkStep k parent k') :
    k'.syncManager = k.syncManager := by
  cases h with
  | refused => rfl
  | aborted => rfl
  | fresh h => rfl
  | child h => rfl

/-- and so does an exec. -/
theorem ExecStep.syncManager_eq {k k' : Kernel} {pid : Pid} (h : ExecStep k pid k') :
    k'.syncManager = k.syncManager := by
  cases h with
  | failed => rfl
  | started executable args h => rfl

/-- The numbers of semaphores and locks stay sound in a request, -/
theorem RequestEffect.sound {k k' : Kernel} {req : ProcessRequest} (h : RequestEffect k req k')
    (hs : k.syncManager.Sound) : k'.syncManager.Sound := by
  cases h with
  | inert hreq h => rwa [h.syncManager]
  | schedule pid tid => exact hs
  | block pid tid reason => exact hs
  | unblock pid tid => exact hs
  | contextSwitch fromPid toPid => exact hs
  | received pid blocking h => rwa [h.syncManager]
  | receiveBlocked pid => exact hs
  | createSemaphore pid initialValue => exact hs.createSemaphore pid initialValue
  | waitBlocked pid semid h => exact hs.waitSemaphore semid
  | waitPassed pid semid h => exact hs.waitSemaphore semid
  | signalSemaphore pid semid => exact hs.signalSemaphore semid
  | createLock pid => exact hs.createMutex pid
  | acquireBlocked pid lockId h => exact hs.acquireMutex lockId pid
  | acquirePassed pid lockId h => exact hs.acquireMutex lockId pid
  | releaseLock pid lockId => exact hs.releaseMutex lockId pid
  | waitRefused pid childPid => exact hs
  | waitChild pid childPid reason => exact hs
  | kill pid signal hsig hpid => exact hs.releaseGlobalSemaphore.releaseGlobalMutex pid
  | stop pid hpid => exact hs
  | continued pid hpid => exact hs
  | signalQueued pid signal h => rwa [h.syncManager]

/-- and in every step. -/
theorem TableStep.sound {k k' : Kernel} {act : Act} (h : TableStep k act k')
    (hs : k.syncManager.Sound) : k'.syncManager.Sound := by
  -- each operation of the primitives keeps them sound
  cases h with
  | idle hact => exact hs
  | dispatch cpuId scheduled => rwa [Kernel.dispatch_syncManager]
  | initExit cpuId code => exact hs
  | exit cpuId pid code hpid => exact hs.releaseGlobalSemaphore
  | forkCall cpuId pid h => rwa [h.syncManager_eq]
  | execCall cpuId pid h => rwa [h.syncManager_eq]
  | semCreate cpuId pid => exact hs.createSemaphore pid 1
  | semWaitPassed cpuId pid semId h => exact hs.waitSemaphore semId.toNat
  | semWaitSlept cpuId pid semId h hr => exact hs.waitSemaphore semId.toNat
  | semSignalWoke cpuId pid semId waiter h => exact hs
  | semSignalCounted cpuId pid semId h => exact hs.signalSemaphore semId.toNat
  | lockCreate cpuId pid => exact hs.createMutex pid
  | lockAcquirePassed cpuId pid lockId h => exact hs.acquireMutex lockId.toNat pid
  | lockAcquireSlept cpuId pid lockId h hr => exact hs.acquireMutex lockId.toNat pid
  | lockReleaseWoke cpuId pid lockId waiter h => exact hs.releaseMutex lockId.toNat pid
  | lockReleaseNone cpuId pid lockId h => exact hs.releaseMutex lockId.toNat pid
  | settled cpuId pid => exact hs
  | zombified cpuId pid hpid hblocked hready =>
    rw [Kernel.zombify_syncManager]
    split
    · exact hs.releaseGlobalSemaphore.releaseGlobalMutex pid
    · exact hs
  | reapedNone cpuId => exact hs
  | reaped cpuId pid code hpid h => exact hs
  | fork h => rwa [h.syncManager_eq]
  | exec h => rwa [h.syncManager_eq]
  | sharedSemaphores => exact (hs.createSemaphore 0 1).createSemaphore 0 1
  | request channel h => exact h.sound hs
  | waitChild pid childPid channel => rwa [Kernel.handleWaitChildWithResponse_syncManager]
  | responded channel response => exact hs
  | silent channel => exact hs

end GenshinOs.Process
