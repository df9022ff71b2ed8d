import GenshinOs.Process.Halting
import GenshinOs.Process.Queueing

/-!
# One tick

A timer interrupt gives each CPU a turn, and a process must not be stepped in both. The scheduler of
the service is driven by the scheduler's own operations only (`TableStep.driven`), so no process is
current on two CPUs. A process that had its turn on the first CPU is therefore still current there,
and the second CPU cannot take it, or it left the CPU in its turn: it sleeps, it has ended, or it
was cleaned up. Then its CPU is halted and its state is not an active one, and the second CPU, which
may well take it from the queue, does not start it again.
-/

set_option autoImplicit false

namespace GenshinOs.Process

open GenshinOs.Lib GenshinOs.Hardware GenshinOs.Memory

/-! ## The scheduler of the service -/

/-- The second scheduler comes from the first by operations of the scheduler. -/
def Scheduler.Driven (s s' : Scheduler 2) : Prop := ∃ ops, s' = s.performAll ops

namespace Scheduler.Driven

/-- Nothing is done. -/
theorem refl (s : Scheduler 2) : Driven s s := ⟨[], rfl⟩

/-- The scheduler stays as it is. -/
theorem of_eq {s s' : Scheduler 2} (h : s' = s) : Driven s s' := ⟨[], h⟩

/-- Operations one after the other. -/
theorem trans {s s' s'' : Scheduler 2} (h : Driven s s') (h' : Driven s' s'') : Driven s s'' := by
  obtain ⟨ops, rfl⟩ := h
  obtain ⟨ops', rfl⟩ := h'
  exact ⟨ops ++ ops', (List.foldl_append ..).symm⟩

/-- A thread is queued, -/
theorem ready (s : Scheduler 2) (pid : Pid) (tid : Tid) (priority : UInt8) :
    Driven s (s.ready pid tid priority) := ⟨[.ready pid tid priority], rfl⟩

/-- removed, -/
theorem remove (s : Scheduler 2) (pid : Pid) (tid : Tid) : Driven s (s.remove pid tid).2 :=
  ⟨[.remove pid tid], rfl⟩

/-- or blocked; -/
theorem block (s : Scheduler 2) (pid : Pid) (tid : Tid) : Driven s (s.block pid tid).2 :=
  ⟨[.block pid tid], rfl⟩

/-- a CPU is dispatched, -/
theorem schedule (s : Scheduler 2) (cpuId : Fin 2) : Driven s (s.schedule cpuId).2 := by
  refine ⟨[.schedule cpuId.val], ?_⟩
  simp only [performAll, List.foldl_cons, List.foldl_nil, perform, dif_pos cpuId.isLt]

/-- or given up. -/
theorem yieldCurrent (s : Scheduler 2) (cpuId : Fin 2) : Driven s (s.yieldCurrent cpuId).2 := by
  refine ⟨[.yieldCurrent cpuId.val], ?_⟩
  simp only [performAll, List.foldl_cons, List.foldl_nil, perform, dif_pos cpuId.isLt]

end Scheduler.Driven

open Scheduler (Driven)

namespace Kernel

variable (k : Kernel) (pid : Pid)

/-- The table hears of the process that is taken off, not the scheduler. -/
theorem preempt_scheduler (cpuId : Fin 2) : (k.preempt cpuId pid).scheduler = k.scheduler := by
  simp only [preempt]
  split
  · rfl
  · split <;> rfl

/-- What is noted of the CPUs does not concern the scheduler, -/
theorem trackLast_scheduler (cpuId : Fin 2) (decision : SchedulingDecision) :
    (k.trackLast cpuId decision).scheduler = k.scheduler := by
  simp only [trackLast]
  split
  · split
    · rfl
    · split
      · exact k.preempt_scheduler _ cpuId
      · rfl
  · rfl

/-- nor does the state of the chosen process. -/
theorem markRunning_scheduler : (k.markRunning pid).scheduler = k.scheduler := by
  simp only [markRunning]
  split <;> rfl

/-- A dispatch does to the scheduler what the choice does, -/
theorem dispatch_scheduler (cpuId : Fin 2) (scheduledThisTick : List Pid) :
    (k.dispatch cpuId scheduledThisTick).2.scheduler =
      (k.pick cpuId scheduledThisTick).2.scheduler := by
  simp only [dispatch]
  split
  · rw [markRunning_scheduler, trackLast_scheduler]
  · rw [trackLast_scheduler]

/-- and has its decision. -/
theorem dispatch_decision (cpuId : Fin 2) (scheduledThisTick : List Pid) :
    (k.dispatch cpuId scheduledThisTick).1 = (k.pick cpuId scheduledThisTick).1 := by
  simp only [dispatch]
  split <;> rfl

/-- To tell a parent does not concern the scheduler. -/
theorem notifyParent_scheduler (code : Int32) :
    (k.notifyParent pid code).scheduler = k.scheduler := by
  simp only [notifyParent]
  split <;> rfl

/-- A halted process leaves the scheduler, whatever its state is. -/
theorem zombify_scheduler : (k.zombify pid).scheduler = (k.scheduler.remove pid 1).2 := by
  simp only [zombify]
  split
  · rfl
  · split
    · rfl
    · exact notifyParent_scheduler ..

/-- A choice is one or two dispatches. -/
theorem pick_driven (cpuId : Fin 2) (scheduledThisTick : List Pid) :
    Driven k.scheduler (k.pick cpuId scheduledThisTick).2.scheduler := by
  have hfirst := Driven.schedule k.scheduler cpuId
  simp only [pick]
  split
  · split
    · exact hfirst.trans (Driven.yieldCurrent _ cpuId)
    · exact hfirst
  · exact hfirst

/-- A process that falls asleep is removed, -/
theorem handleBlock_driven (tid : Tid) (reason : BlockReason) :
    Driven k.scheduler (k.handleBlock pid tid reason).scheduler :=
  Driven.block k.scheduler pid tid

/-- one that is to run is queued, -/
theorem handleSchedule_driven (tid : Tid) :
    Driven k.scheduler (k.handleSchedule pid tid).scheduler :=
  Driven.ready k.scheduler pid tid _

/-- and one that waits for a child is removed. -/
theorem handleWaitChildWithResponse_driven (childPid : Option Pid) (channel : RequestId) :
    Driven k.scheduler (k.handleWaitChildWithResponse pid childPid channel).1.scheduler := by
  simp only [handleWaitChildWithResponse]
  split
  · exact Driven.refl _
  · split
    · exact Driven.refl _
    · split
      · exact Driven.refl _
      · split
        · exact Driven.block ..
        · exact Driven.refl _

end Kernel

/-- A fork queues the child, -/
theorem ForkStep.driven {k k' : Kernel} {parent : Pid} (h : ForkStep k parent k') :
    Driven k.scheduler k'.scheduler := by
  cases h with
  | refused => exact Driven.refl _
  | aborted => exact Driven.refl _
  | fresh => exact Driven.refl _
  | child => exact Driven.refl _

/-- an exec queues its process, -/
theorem ExecStep.driven {k k' : Kernel} {pid : Pid} (h : ExecStep k pid k') :
    Driven k.scheduler k'.scheduler := by
  cases h with
  | failed => exact Driven.refl _
  | started => exact Driven.ready ..

/-- and a request operates on the scheduler as its handler does. -/
theorem RequestEffect.driven {k k' : Kernel} {req : ProcessRequest} (h : RequestEffect k req k') :
    Driven k.scheduler k'.scheduler := by
  cases h with
  | inert _ h => exact Driven.of_eq h.scheduler
  | schedule pid tid => exact k.handleSchedule_driven pid tid
  | block pid tid reason => exact k.handleBlock_driven pid tid reason
  | unblock pid tid => exact (k.setState pid .ready).handleSchedule_driven pid tid
  | contextSwitch fromPid toPid =>
    exact (Driven.block k.scheduler fromPid 1).trans (Driven.ready _ toPid 1 128)
  | received _ _ h => exact Driven.of_eq h.scheduler
  | receiveBlocked pid => exact k.handleBlock_driven pid 1 _
  | createSemaphore => exact Driven.refl _
  | waitBlocked pid semid => exact Kernel.handleBlock_driven (k.onSync _) pid 1 _
  | waitPassed => exact Driven.refl _
  | signalSemaphore => exact Driven.refl _
  | createLock => exact Driven.refl _
  | acquireBlocked pid lockId => exact Kernel.handleBlock_driven (k.onSync _) pid 1 _
  | acquirePassed => exact Driven.refl _
  | releaseLock => exact Driven.refl _
  | waitRefused => exact Driven.refl _
  | waitChild pid childPid reason => exact k.handleBlock_driven pid 1 reason
  | kill => exact Driven.refl _
  | stop => exact Driven.refl _
  | continued => exact Driven.refl _
  | signalQueued _ _ h => exact Driven.of_eq h.scheduler

/-- The service changes its scheduler by operations of the scheduler only. -/
theorem TableStep.driven {k k' : Kernel} {act : Act} (h : TableStep k act k') :
    Driven k.scheduler k'.scheduler := by
  -- sleepers are blocked, woken processes made ready, zombies removed
  cases h with
  | idle => exact Driven.refl _
  | dispatch cpuId scheduled =>
    rw [Kernel.dispatch_scheduler]
    exact k.pick_driven cpuId scheduled
  | initExit => exact Driven.refl _
  | exit => exact Driven.block ..
  | forkCall _ _ h => exact h.driven
  | execCall _ _ h => exact h.driven
  | semCreate => exact Driven.refl _
  | semWaitPassed => exact Driven.refl _
  | semWaitSlept => exact Driven.block ..
  | semSignalWoke => exact Driven.ready ..
  | semSignalCounted => exact Driven.refl _
  | lockCreate => exact Driven.refl _
  | lockAcquirePassed => exact Driven.refl _
  | lockAcquireSlept => exact Driven.block ..
  | lockReleaseWoke => exact Driven.ready ..
  | lockReleaseNone => exact Driven.refl _
  | settled => exact Driven.refl _
  | zombified =>
    rw [Kernel.zombify_scheduler]
    exact Driven.remove ..
  | reapedNone => exact Driven.refl _
  | reaped => exact Driven.refl _
  | fork h => exact h.driven
  | exec h => exact h.driven
  | sharedSemaphores => exact Driven.refl _
  | request _ h => exact h.driven
  | waitChild => exact Kernel.handleWaitChildWithResponse_driven ..
  | responded => exact Driven.refl _
  | silent => exact Driven.refl _

/-- No operation puts one process on two CPUs, -/
theorem Scheduler.perform_distinct {s : Scheduler 2} (h : Distinct s.cpuCurrent) (op : Op) :
    Distinct (s.perform op).cpuCurrent := by
  cases op with
  | ready pid tid priority =>
    rw [perform, ready_cpuCurrent]
    exact h
  | remove pid tid => exact remove_distinct h pid tid
  | block pid tid => exact remove_distinct h pid tid
  | schedule cpuId =>
    rw [perform]
    split
    · exact schedule_distinct h _
    · exact h
  | yieldCurrent cpuId =>
    rw [perform]
    split
    · exact yieldCurrent_distinct h _
    · exact h

/-- and so no list of them. -/
theorem Scheduler.Driven.distinct {s s' : Scheduler 2} (h : Driven s s')
    (hs : Distinct s.cpuCurrent) : Distinct s'.cpuCurrent := by
  obtain ⟨ops, rfl⟩ := h
  induction ops generalizing s with
  | nil => exact hs
  | cons op ops ih => exact ih (perform_distinct hs op)

/-- In every state of a run a process is current on one CPU at most. -/
theorem run_distinct (w : World) (memory : MemoryService) (events : List Event) :
    Scheduler.Distinct (Machine.run w memory events).1.scheduler.cpuCurrent := by
  have htraced := run_traced w memory events
  refine (htraced.chain.invariant (I := fun s => Scheduler.Distinct s.scheduler.cpuCurrent) ?_ ?_).1
  · intro i j p t t' hi
    cases hi
  · intro t ht hpre
    exact (htraced.performed t ht).step_of.table.driven.distinct hpre

/-! ## A process in its turn -/

namespace Machine

/-- The process is current on the CPU. -/
def OnCpu (s : Machine) (cpuId : Fin 2) (pid : Pid) : Prop :=
  ∃ tid, s.scheduler.cpuCurrent cpuId = some (pid, tid)

/-- The CPU of the process is halted, and its state does not let the timer start it again. -/
structure Parked (s : Machine) (pid : Pid) : Prop where
  halted : s.isHalted pid = true
  inactive : ∀ st, s.stateOf pid = some st → st.isActive = false

/-- A process in its turn is on its CPU or has been parked. -/
def InTurn (s : Machine) (cpuId : Fin 2) (pid : Pid) : Prop := s.OnCpu cpuId pid ∨ s.Parked pid

/-- Only the threads on the CPUs matter, -/
theorem OnCpu.of_current {s s' : Machine} {cpuId : Fin 2} {pid : Pid} (h : s.OnCpu cpuId pid)
    (hcur : s'.scheduler.cpuCurrent = s.scheduler.cpuCurrent) : s'.OnCpu cpuId pid := by
  rw [OnCpu, hcur]
  exact h

/-- and so nothing outside of the tables. -/
theorem OnCpu.of_toKernel {s s' : Machine} {cpuId : Fin 2} {pid : Pid} (h : s.OnCpu cpuId pid)
    (hk : s'.toKernel = s.toKernel) : s'.OnCpu cpuId pid :=
  h.of_current (by rw [hk])

/-- A CPU that was halted has halted. -/
theorem isHalted_of_halt {s s' : Machine} {pid : Pid}
    (h : s'.cpus = s.cpus.update pid VirtualCPU.halt) : s'.isHalted pid = true := by
  have hget := s.cpus.get_update pid pid (f := VirtualCPU.halt) fun _ => rfl
  rw [← h, if_pos rfl] at hget
  rw [isHalted, hget]
  cases s.cpus.get pid with
  | none => rfl
  | some cpu => rfl

/-- A process that is halted and gets an inactive state is parked. -/
theorem parked_of_written {s s' : Machine} {pid : Pid} (k : Kernel) (st : ProcessState)
    (hcpus : s'.cpus = s.cpus.update pid VirtualCPU.halt)
    (hk : s'.stateOf pid = (k.stateOf pid).map fun _ => st) (hst : st.isActive = false) :
    s'.Parked pid := by
  refine ⟨isHalted_of_halt hcpus, ?_⟩
  intro st' hst'
  rw [hk, Option.map_eq_some_iff] at hst'
  obtain ⟨_, -, rfl⟩ := hst'
  exact hst

/-- A call that puts its process to sleep, or only tries a primitive. -/
theorem inTurn_of_sleepIf {s s' : Machine} {cpuId : Fin 2} {pid : Pid} {lockAddr : Nat}
    {call : Bool × Kernel} (hcall : (∃ f, call = (false, s.toKernel.onSync f)) ∨
      ∃ f, call = (true, (s.toKernel.onSync f).sleepOn pid lockAddr))
    (hk : s'.toKernel = call.2)
    (hcpus : s'.cpus = if call.1 then s.cpus.update pid VirtualCPU.halt else s.cpus)
    (hcpu : s.OnCpu cpuId pid) : s'.InTurn cpuId pid := by
  rcases hcall with ⟨f, rfl⟩ | ⟨f, rfl⟩
  · exact Or.inl (hcpu.of_current (by rw [hk]; rfl))
  · refine Or.inr (parked_of_written s.toKernel (.blocked (.waitingForLock lockAddr)) hcpus ?_ rfl)
    rw [hk, Kernel.sleepOn_stateOf, if_pos rfl]
    rfl

end Machine

open Machine

/-- A wait passes, or its process falls asleep. -/
theorem Kernel.semWait_cases (k : Kernel) (pid : Pid) (semId : SemaphoreId) :
    (∃ f, k.semWait pid semId = (false, k.onSync f)) ∨
      ∃ f, k.semWait pid semId = (true, (k.onSync f).sleepOn pid semId) := by
  simp only [semWait]
  split
  · exact Or.inl ⟨_, rfl⟩
  · exact Or.inl ⟨_, rfl⟩
  · exact Or.inr ⟨_, rfl⟩

/-- So does the attempt to take a lock. -/
theorem Kernel.lockAcquire_cases (k : Kernel) (pid : Pid) (lockId : LockId) :
    (∃ f, k.lockAcquire pid lockId = (false, k.onSync f)) ∨
      ∃ f, k.lockAcquire pid lockId = (true, (k.onSync f).sleepOn pid lockId) := by
  simp only [lockAcquire]
  split
  · exact Or.inl ⟨_, rfl⟩
  · exact Or.inl ⟨_, rfl⟩
  · exact Or.inr ⟨_, rfl⟩

/-- A system call leaves its process on its CPU or parks it. -/
theorem SystemCall.Effect.inTurn {s s' : Machine} {cpuId : Fin 2} {pid : Pid} {call : SystemCall}
    (h : call.Effect s pid s') (hcpu : s.OnCpu cpuId pid) : s'.InTurn cpuId pid := by
  cases h with
  | quiet _ h => exact Or.inl (hcpu.of_toKernel h.toKernel)
  | initExit => exact Or.inl hcpu
  | @exit code _ _ hk hcpus =>
    -- the caller is a zombie now
    refine Or.inr (parked_of_written s.toKernel (.zombie (exitCodeOf code)) hcpus ?_ rfl)
    rw [hk, Kernel.exit_stateOf, if_pos rfl]
  | fork h h' =>
    refine Or.inl (hcpu.of_current ?_)
    rw [h'.toKernel]
    cases h with
    | fresh _ hk => rw [hk]; rfl
    | orphan hk => rw [hk]
    | aborted hk => rw [hk]; rfl
    | child _ hk => rw [hk]; rfl
  | exec h =>
    refine Or.inl (hcpu.of_current ?_)
    cases h with
    | failed hk => rw [hk]
    | started _ hk =>
      rw [hk]
      exact Scheduler.ready_cpuCurrent ..
  | semCreate hk => exact Or.inl (hcpu.of_current (by rw [hk]; rfl))
  | semWait hk hcpus => exact inTurn_of_sleepIf (s.semWait_cases pid _) hk hcpus hcpu
  | semSignal ord hk =>
    refine Or.inl (hcpu.of_current ?_)
    rw [hk, Kernel.semSignal]
    split
    · exact Scheduler.ready_cpuCurrent ..
    · rfl
  | lockCreate hk => exact Or.inl (hcpu.of_current (by rw [hk]; rfl))
  | lockAcquire hk hcpus => exact inTurn_of_sleepIf (s.lockAcquire_cases pid _) hk hcpus hcpu
  | lockRelease ord hk =>
    refine Or.inl (hcpu.of_current ?_)
    rw [hk, Kernel.lockRelease]
    split
    · exact Scheduler.ready_cpuCurrent ..
    · rfl

/-! ## A time slice -/

/-- The processes that a CPU steps, in order and with repetitions. -/
def steppedBy (cpuId : Fin 2) (trace : List Tr) : List Pid :=
  trace.filterMap fun t =>
    match t.act with
    | .step c pid => if c = cpuId then some pid else none
    | _ => none

/-- The steps of two traces. -/
theorem steppedBy_append (cpuId : Fin 2) (trace trace' : List Tr) :
    steppedBy cpuId (trace ++ trace') = steppedBy cpuId trace ++ steppedBy cpuId trace' :=
  List.filterMap_append

/-- Without steps nobody is stepped. -/
theorem steppedBy_eq_nil {trace : List Tr} (h : ∀ t ∈ trace, ∀ c pid, t.act ≠ .step c pid)
    (cpuId : Fin 2) : steppedBy cpuId trace = [] := by
  rw [steppedBy, List.filterMap_eq_nil_iff]
  intro t ht
  split
  · next c pid hact => exact absurd hact (h t ht c pid)
  · rfl

/-- The first CPU steps the process a number of times, the other CPU does nothing. -/
def StepsOnly (cpuId : Fin 2) (pid : Pid) (m : Nat) (trace : List Tr) : Prop :=
  ∀ c, steppedBy c trace = if c = cpuId then List.replicate m pid else []

namespace StepsOnly

variable {cpuId : Fin 2} {pid : Pid} {m m' : Nat} {trace trace' : List Tr}

/-- Only this process steps in either trace. -/
theorem append (h : StepsOnly cpuId pid m trace) (h' : StepsOnly cpuId pid m' trace') :
    StepsOnly cpuId pid (m + m') (trace ++ trace') := by
  intro c
  rw [steppedBy_append, h c, h' c]
  split
  · exact List.replicate_append_replicate
  · rfl

/-- Nobody steps. -/
theorem nil (cpuId : Fin 2) (pid : Pid) : StepsOnly cpuId pid 0 [] := by
  intro c
  split <;> rfl

/-- A trace without steps. -/
theorem of_none (h : ∀ t ∈ trace, ∀ c pid, t.act ≠ .step c pid) : StepsOnly cpuId pid 0 trace := by
  intro c
  rw [steppedBy_eq_nil h]
  split <;> rfl

/-- One step. -/
theorem step (s s' : Machine) (cpuId : Fin 2) (pid : Pid) :
    StepsOnly cpuId pid 1 [⟨s, .step cpuId pid, s'⟩] := by
  intro c
  simp only [steppedBy, List.filterMap_cons, List.filterMap_nil]
  rcases eq_or_ne c cpuId with rfl | hne
  · simp
  · simp [hne, Ne.symm hne]

end StepsOnly

/-- A system call is no step, -/
theorem runSyscall_stepsOnly (w : World) (cpuId : Fin 2) (pid : Pid) (s : Machine) :
    StepsOnly cpuId pid 0 (runSyscall w cpuId pid s).2 := by
  apply StepsOnly.of_none
  simp only [runSyscall]
  split
  · simp
  · split
    · simp
    · simp

/-- nor is a fault that is passed on. -/
theorem forwardFault_stepsOnly (w : World) (cpuId : Fin 2) (pid : Pid) (s : Machine) :
    StepsOnly cpuId pid 0 (forwardFault w cpuId pid s).2 := by
  apply StepsOnly.of_none
  simp only [forwardFault]
  split
  · simp
  · split
    · simp
    · simp

/-- A slice of `n` rounds is at most `n` steps of its process. -/
theorem execute_stepsOnly (w : World) (cpuId : Fin 2) (pid : Pid) (n : Nat) (s : Machine) :
    ∃ m ≤ n, StepsOnly cpuId pid m (execute w cpuId pid n s).2 := by
  induction n generalizing s with
  | zero => exact ⟨0, Nat.le_refl 0, StepsOnly.nil cpuId pid⟩
  | succ n ih =>
    simp only [execute]
    split
    · exact ⟨0, Nat.zero_le _, StepsOnly.nil cpuId pid⟩
    next cpu _ =>
    split
    · exact ⟨0, Nat.zero_le _, StepsOnly.nil cpuId pid⟩
    have hstep := StepsOnly.step s (s.stepCpu w pid cpu).2 cpuId pid
    split
    · exact ⟨1, by omega, hstep⟩
    have hcalled := hstep.append (runSyscall_stepsOnly w cpuId pid (s.stepCpu w pid cpu).2)
    split
    · exact ⟨1, by omega, hcalled⟩
    · obtain ⟨m, hm, hrest⟩ := ih (forwardFault w cpuId pid
        (runSyscall w cpuId pid (s.stepCpu w pid cpu).2).1).1
      refine ⟨1 + m, by omega, ?_⟩
      exact (hcalled.append (forwardFault_stepsOnly w cpuId pid _)).append hrest

/-- After a system call the process is on its CPU, or has gone to sleep or come to an end. -/
theorem runSyscall_inTurn (w : World) {cpuId : Fin 2} {pid : Pid} {s : Machine}
    (hcpu : s.OnCpu cpuId pid) :
    (runSyscall w cpuId pid s).1.OnCpu cpuId pid ∨
      (runSyscall w cpuId pid s).2.isEmpty = false ∧ (runSyscall w cpuId pid s).1.Parked pid := by
  simp only [runSyscall]
  split
  · exact Or.inl hcpu
  split
  · exact Or.inl hcpu
  split
  · next s' heq =>
    have hturn : s'.InTurn cpuId pid := (handleFileSyscall_effect heq).inTurn (hcpu.of_toKernel rfl)
    exact hturn.imp_right fun hparked => ⟨rfl, hparked⟩
  · exact Or.inl hcpu

/-- A fault leaves it on its CPU. -/
theorem forwardFault_onCpu (w : World) {cpuId : Fin 2} {pid : Pid} {s : Machine}
    (hcpu : s.OnCpu cpuId pid) : (forwardFault w cpuId pid s).1.OnCpu cpuId pid := by
  simp only [forwardFault]
  split
  · exact hcpu
  split
  · exact hcpu
  · exact hcpu.of_toKernel (quiet_requestMemory w _ _).toKernel

/-- After its slice a process is on its CPU or parked. -/
theorem execute_inTurn (w : World) {cpuId : Fin 2} {pid : Pid} (n : Nat) {s : Machine}
    (hcpu : s.OnCpu cpuId pid) : (execute w cpuId pid n s).1.InTurn cpuId pid := by
  induction n generalizing s with
  | zero => exact Or.inl hcpu
  | succ n ih =>
    simp only [execute]
    split
    · exact Or.inl hcpu
    next cpu hget =>
    split
    · exact Or.inl hcpu
    next hrun =>
    have hstepped : (s.stepCpu w pid cpu).2.OnCpu cpuId pid := by
      cases stepCpu_step w cpuId hget (by simpa using hrun) with
      | step _ _ hk => exact hcpu.of_toKernel hk
    split
    · exact Or.inl hstepped
    have hcalled := runSyscall_inTurn w hstepped
    split
    · exact hcalled.imp_right And.right
    · next hgoes =>
      -- the loop goes on, so the call has not halted the process
      rcases hcalled with hon | ⟨hcall, hparked⟩
      · exact ih (forwardFault_onCpu w hon)
      · exact absurd ⟨hcall, hparked.halted⟩ hgoes

/-! ## The end of a turn -/

/-- Cleaned up, a process that is neither blocked nor ready has no active state. -/
theorem zombify_inactive {k : Kernel} {pid : Pid} {st : ProcessState}
    (h : (k.zombify pid).stateOf pid = some st) : st.isActive = false := by
  rw [Kernel.zombify_stateOf] at h
  split at h
  · cases h
    rfl
  · next hnot =>
    rw [h] at hnot
    cases st with
    | terminated code => rfl
    | zombie code => rfl
    | _ => exact absurd ⟨rfl, rfl⟩ hnot

/-- So does the end of a slice. -/
theorem settle_inTurn {s : Machine} {cpuId : Fin 2} {pid : Pid} (h : s.InTurn cpuId pid) :
    (s.settle pid).InTurn cpuId pid := by
  simp only [settle]
  split
  · next hhalt =>
    split
    · next hready =>
      rcases h with hon | hparked
      · exact Or.inl (hon.of_toKernel rfl)
      · cases hparked.inactive _ hready
    · -- the process is cleaned up, and its CPU is halted
      refine Or.inr ⟨?_, fun st hst => zombify_inactive hst⟩
      obtain ⟨-, -, hhalted⟩ := hhalt
      show s.isHalted pid = true
      rw [isHalted]
      cases hget : s.cpus.get pid with
      | none => rfl
      | some cpu =>
        rw [hget] at hhalted
        exact hhalted
  · exact h

/-- To reap leaves the scheduler, and removes processes from the table only. -/
theorem reap_tables (w : World) (s : Machine) :
    (s.reap w).scheduler = s.scheduler ∧
      ∀ q, (s.reap w).stateOf q = s.stateOf q ∨ (s.reap w).stateOf q = none := by
  simp only [reap]
  split
  · next pid _ =>
    simp only [reapProcess]
    split
    · exact ⟨rfl, fun q => Or.inl rfl⟩
    · refine ⟨rfl, fun q => ?_⟩
      have hremoved := s.toKernel.removeProcess_stateOf pid q
      split at hremoved
      · exact Or.inr hremoved
      · exact Or.inl hremoved
  · exact ⟨rfl, fun q => Or.inl rfl⟩

/-- A process in its turn stays so when others are reaped. -/
theorem reap_inTurn (w : World) {s : Machine} {cpuId : Fin 2} {pid : Pid} (h : s.InTurn cpuId pid) :
    (s.reap w).InTurn cpuId pid := by
  obtain ⟨hsched, hstate⟩ := reap_tables w s
  rcases h with hon | hparked
  · exact Or.inl (hon.of_current (by rw [hsched]))
  · refine Or.inr ⟨reap_isHalted hparked.halted, fun st hst => ?_⟩
    rcases hstate pid with hsame | hnone
    · exact hparked.inactive st (hsame.symm.trans hst)
    · rw [hnone] at hst
      cases hst

/-! ## Turns -/

/-- The decision for a CPU is what is current there afterwards, and the other CPU keeps its process. -/
theorem pick_current (k : Kernel) (cpuId : Fin 2) (scheduledThisTick : List Pid) :
    (k.pick cpuId scheduledThisTick).2.scheduler.cpuCurrent =
      Function.update k.scheduler.cpuCurrent cpuId
        (Scheduler.decided (k.pick cpuId scheduledThisTick).1) := by
  have hfirst := k.scheduler.schedule_decided cpuId
  simp only [Kernel.pick]
  split
  · next pid tid hrun =>
    split
    · rw [Kernel.onScheduler_scheduler, Scheduler.yieldCurrent_decided, hfirst, Function.update_idem]
    · exact hfirst
  · exact hfirst

/-- After a dispatch the choice is on its CPU, and the others are as they were. -/
theorem dispatch_current (s : Machine) (cpuId : Fin 2) (scheduledThisTick : List Pid) :
    (s.dispatch cpuId scheduledThisTick).2.scheduler.cpuCurrent =
      Function.update s.scheduler.cpuCurrent cpuId
        (Scheduler.decided (s.dispatch cpuId scheduledThisTick).1) := by
  have hdecision : (s.dispatch cpuId scheduledThisTick).1 =
      (s.toKernel.dispatch cpuId scheduledThisTick).1 := by
    simp only [Machine.dispatch]
    split
    · split <;> rfl
    · rfl
  rw [s.dispatch_toKernel, hdecision, Kernel.dispatch_scheduler, Kernel.dispatch_decision,
    pick_current]

/-- A parked process stays parked when a CPU is scheduled, even its own. -/
theorem dispatch_parked {s : Machine} {pid : Pid} (h : s.Parked pid) (cpuId : Fin 2)
    (scheduledThisTick : List Pid) : (s.dispatch cpuId scheduledThisTick).2.Parked pid := by
  have hshuffled := s.toKernel.shuffled_dispatch cpuId scheduledThisTick
  have hinactive : ∀ st, (s.toKernel.dispatch cpuId scheduledThisTick).2.stateOf pid = some st →
      st.isActive = false := by
    intro st hst
    rcases hshuffled pid with hsame | ⟨a, b, ha, -, hact, -⟩
    · exact h.inactive st (hsame.symm.trans hst)
    · rw [h.inactive a ha] at hact
      cases hact
  refine ⟨(dispatch_isHalted hinactive).trans h.halted, ?_⟩
  rw [s.dispatch_toKernel]
  exact hinactive

/-- After its turn the process of a CPU is current there or parked. -/
theorem turn_inTurn (w : World) {cpuId : Fin 2} {scheduledThisTick : List Pid} {s : Machine}
    {pid : Pid} {tid : Tid} (h : (s.dispatch cpuId scheduledThisTick).1 = .run pid tid) :
    (turn w cpuId scheduledThisTick s).1.InTurn cpuId pid := by
  have hon : (s.dispatch cpuId scheduledThisTick).2.OnCpu cpuId pid := by
    refine ⟨tid, ?_⟩
    rw [dispatch_current, h, Function.update_self]
    rfl
  simp only [turn, h]
  exact reap_inTurn w (settle_inTurn (execute_inTurn w 3 hon))

/-- A turn of a CPU steps one process at most three times; it is the one that the CPU decides for, and
was not parked. -/
theorem turn_stepsOnly (w : World) (cpuId : Fin 2) (scheduledThisTick : List Pid) (s : Machine) :
    ∃ pid, ∃ m ≤ 3, StepsOnly cpuId pid m (turn w cpuId scheduledThisTick s).2.1 ∧
      (0 < m → ¬s.Parked pid ∧ ∃ tid, (s.dispatch cpuId scheduledThisTick).1 = .run pid tid) := by
  cases hdecision : (s.dispatch cpuId scheduledThisTick).1 with
  | run pid tid =>
    simp only [turn, hdecision]
    by_cases hparked : s.Parked pid
    · -- the process is not started again, so its slice is empty
      rw [execute_halted w cpuId 3 (dispatch_parked hparked cpuId scheduledThisTick).halted]
      exact ⟨pid, 0, by omega, StepsOnly.of_none (by simp), by omega⟩
    · obtain ⟨m, hm, hslice⟩ :=
        execute_stepsOnly w cpuId pid 3 (s.dispatch cpuId scheduledThisTick).2
      refine ⟨pid, 0 + m + 0, by omega, ?_, fun _ => ⟨hparked, tid, rfl⟩⟩
      exact ((StepsOnly.of_none (by simp)).append hslice).append (StepsOnly.of_none (by simp))
  | idle =>
    simp only [turn, hdecision]
    exact ⟨0, 0, by omega, StepsOnly.of_none (by simp), by omega⟩
  | halt =>
    simp only [turn, hdecision]
    exact ⟨0, 0, by omega, StepsOnly.of_none (by simp), by omega⟩

/-- No process has a step on both of two CPUs, and none has more than three. -/
def SteppedOnce (c c' : Fin 2) (trace : List Tr) : Prop :=
  List.Disjoint (steppedBy c trace) (steppedBy c' trace) ∧
    ∀ pid, (steppedBy c trace).count pid + (steppedBy c' trace).count pid ≤ 3

/-- In a trace without steps nobody steps twice. -/
theorem SteppedOnce.of_none {c c' : Fin 2} {trace : List Tr}
    (h : ∀ t ∈ trace, ∀ c pid, t.act ≠ .step c pid) : SteppedOnce c c' trace := by
  rw [SteppedOnce, steppedBy_eq_nil h, steppedBy_eq_nil h]
  exact ⟨List.disjoint_nil_left _, fun pid => by simp⟩

/-- Another transition that is no step. -/
theorem SteppedOnce.cons {c c' : Fin 2} {trace : List Tr} {t : Tr} (h : SteppedOnce c c' trace)
    (ht : ∀ c pid, t.act ≠ .step c pid) : SteppedOnce c c' (t :: trace) := by
  have hsame : ∀ c, steppedBy c (t :: trace) = steppedBy c trace := by
    intro c
    have hnil : steppedBy c [t] = [] := steppedBy_eq_nil (by simpa using ht) c
    exact (steppedBy_append c [t] trace).trans (by rw [hnil, List.nil_append])
  rw [SteppedOnce, hsame, hsame]
  exact h

/-- Two turns of different processes. -/
theorem SteppedOnce.of_turns {p q : Pid} {m n : Nat} {first second : List Tr}
    (hfirst : StepsOnly 0 p m first) (hsecond : StepsOnly 1 q n second) (hm : m ≤ 3) (hn : n ≤ 3)
    (hne : 0 < m → 0 < n → p ≠ q) : SteppedOnce 0 1 (first ++ second) := by
  have h0 : steppedBy 0 (first ++ second) = List.replicate m p := by
    rw [steppedBy_append, hfirst 0, hsecond 0, if_pos rfl, if_neg (by decide), List.append_nil]
  have h1 : steppedBy 1 (first ++ second) = List.replicate n q := by
    rw [steppedBy_append, hfirst 1, hsecond 1, if_neg (by decide), if_pos rfl, List.nil_append]
  rw [SteppedOnce, h0, h1]
  constructor
  · intro pid hp hq
    rw [List.mem_replicate] at hp hq
    exact hne (Nat.pos_of_ne_zero hp.1) (Nat.pos_of_ne_zero hq.1) (hp.2.symm.trans hq.2)
  · intro pid
    rw [List.count_replicate, List.count_replicate]
    simp only [beq_iff_eq]
    split <;> split
    · next hp hq =>
      -- the same process on both CPUs: one of the turns is empty
      by_contra hmore
      exact hne (by omega) (by omega) (hp.trans hq.symm)
    · omega
    · omega
    · omega

/-- The second CPU does not decide for the process of the first turn, unless this is parked. -/
theorem second_turn_differs {s : Machine} (hs : Scheduler.Distinct s.scheduler.cpuCurrent) {p q : Pid}
    {tid : Tid} {scheduledThisTick : List Pid} (hp : s.InTurn 0 p) (hq : ¬s.Parked q)
    (hdecision : (s.dispatch 1 scheduledThisTick).1 = .run q tid) : p ≠ q := by
  rintro rfl
  obtain ⟨tid0, h0⟩ := hp.resolve_right hq
  have hcurrent := dispatch_current s 1 scheduledThisTick
  have hafter : Scheduler.Distinct (s.dispatch 1 scheduledThisTick).2.scheduler.cpuCurrent :=
    (Performed.dispatch (w := World.calm []) 1 scheduledThisTick).step_of.table.driven.distinct hs
  rw [hcurrent, hdecision] at hafter
  have hsame : (0 : Fin 2) = 1 := by
    apply hafter 0 1 p tid0 tid
    · rw [Function.update_of_ne (by decide)]
      exact h0
    · rw [Function.update_self]
      rfl
  cases hsame

/-- The two turns of a tick step different processes. -/
theorem tick_steppedOnce (w : World) {s : Machine} (hs : Scheduler.Distinct s.scheduler.cpuCurrent) :
    SteppedOnce 0 1 (s.handleTimerInterrupt w).2 := by
  simp only [handleTimerInterrupt]
  have hafter : Scheduler.Distinct (turn w 0 [] s).1.scheduler.cpuCurrent := by
    have htraced := turn_traced w 0 [] s
    refine (htraced.chain.invariant (I := fun s => Scheduler.Distinct s.scheduler.cpuCurrent) hs ?_).1
    exact fun t ht hpre => (htraced.performed t ht).step_of.table.driven.distinct hpre
  obtain ⟨p, m, hm, hfirst, hp⟩ := turn_stepsOnly w 0 [] s
  obtain ⟨q, n, hn, hsecond, hq⟩ := turn_stepsOnly w 1 (turn w 0 [] s).2.2 (turn w 0 [] s).1
  refine SteppedOnce.of_turns hfirst hsecond hm hn fun hm0 hn0 => ?_
  obtain ⟨-, tid, hdecision⟩ := hp hm0
  obtain ⟨hparked, tid', hdecision'⟩ := hq hn0
  exact second_turn_differs hafter (turn_inTurn w hdecision) hparked hdecision'

/-! ## Runs -/

/-- What the service does on its own behalf is no step. -/
theorem Served.no_step {w : World} {s s' : Machine} {trace : List Tr} (h : Served w s trace s') :
    ∀ t ∈ trace, ∀ c pid, t.act ≠ .step c pid := by
  intro t ht c pid hact
  have hservice := h.service t ht
  rw [hact] at hservice
  cases hservice

/-- A message steps each process once at most, -/
theorem handleMessage_steppedOnce (w : World) {s : Machine}
    (hs : Scheduler.Distinct s.scheduler.cpuCurrent) (msg : KernelMsg) (channel : Option RequestId) :
    SteppedOnce 0 1 (s.handleMessage w msg channel).2 := by
  simp only [Machine.handleMessage]
  split
  · exact SteppedOnce.of_none (handleRequest_served w s _ channel).no_step
  · exact SteppedOnce.of_none (handleSyscallMessage_served w s _ channel).no_step
  · simp only [handleInterrupt]
    split
    · exact tick_steppedOnce w hs
    · exact SteppedOnce.of_none (by simp)
    · exact SteppedOnce.of_none (by simp)
  · exact SteppedOnce.of_none (by simp)

/-- and so does an event. -/
theorem handleEvent_steppedOnce (w : World) {s : Machine}
    (hs : Scheduler.Distinct s.scheduler.cpuCurrent) (event : Event) :
    SteppedOnce 0 1 (s.handleEvent w event).2 := by
  cases event with
  | timer => exact tick_steppedOnce w hs
  | envelope msg expectsResponse =>
    simp only [handleEvent, Machine.handleEnvelope]
    split
    · refine SteppedOnce.cons ?_ fun c pid => by simp
      exact handleMessage_steppedOnce w (s := { s with nextRequestId := s.nextRequestId + 1 }) hs msg _
    · exact handleMessage_steppedOnce w hs msg none

/-- In every state that a run reaches, a timer interrupt, taken from the timer or as a message, does
not step a process on both CPUs and steps none more than three times. -/
theorem tick_steps_each_process_once (w : World) (memory : MemoryService) (events : List Event)
    (event : Event) :
    List.Disjoint (steppedBy 0 ((run w memory events).1.handleEvent w event).2)
        (steppedBy 1 ((run w memory events).1.handleEvent w event).2) ∧
      ∀ pid, (steppedBy 0 ((run w memory events).1.handleEvent w event).2).count pid +
        (steppedBy 1 ((run w memory events).1.handleEvent w event).2).count pid ≤ 3 :=
  handleEvent_steppedOnce w (run_distinct w memory events) event

end GenshinOs.Process
