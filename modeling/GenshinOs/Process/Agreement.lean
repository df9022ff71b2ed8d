import GenshinOs.Process.Tick

/-!
# Scheduler and process table

The scheduler and the process table are written by different handlers. `Kernel.Agree` is what one of
them promises about the other: who is current or queued is in the table and neither sleeps nor has
ended, and who runs according to the table is current on one CPU.

The requests of the service do not look at the other side, so they keep the agreement only under
conditions, which `Machine.InStep` collects: a process is queued only when it is alive, it is put to
sleep or ended only by the thread under which the scheduler knows it, and signals that stop or end a
process reach processes outside the scheduler only.

A preempted process is made ready by way of `lastRunning`. This works because the CPUs take turns: when
a CPU is about to be scheduled, the process on it is not the last one of the other CPU.
-/

set_option autoImplicit false

namespace GenshinOs.Process

open GenshinOs.Lib GenshinOs.Hardware GenshinOs.Memory

open Scheduler (Driven)

/-! ## Who is in the scheduler -/

namespace Scheduler

variable {n : Nat}

/-- The process is current on a CPU or queued. -/
def Scheduled (s : Scheduler n) (pid : Pid) : Prop := ∃ x ∈ s.entries, x.1 = pid

instance (s : Scheduler n) (pid : Pid) : Decidable (s.Scheduled pid) :=
  Multiset.decidableExistsMultiset

/-- The scheduler knows the process by this thread only, and has queued it once at most. -/
def Sole (s : Scheduler n) (pid : Pid) (tid : Tid) : Prop :=
  (∀ x ∈ s.entries, x.1 = pid → x.2 = tid) ∧
    s.readyQueue.countP (ReadyQueueEntry.isOf · pid tid) ≤ 1

instance (s : Scheduler n) (pid : Pid) (tid : Tid) : Decidable (s.Sole pid tid) :=
  inferInstanceAs (Decidable ((∀ x ∈ s.entries, x.1 = pid → x.2 = tid) ∧ _))

/-- A removal puts nothing on a CPU, -/
theorem remove_current_sub {s : Scheduler n} {pid : Pid} {tid : Tid} {c : Fin n} {x : Pid × Tid}
    (h : (s.remove pid tid).2.cpuCurrent c = some x) : s.cpuCurrent c = some x := by
  simp only [remove] at h
  split at h
  · cases h
  · exact h

/-- takes only the thread that is removed off its CPU, -/
theorem remove_current_of_ne {s : Scheduler n} {pid : Pid} {tid : Tid} {c : Fin n} {x : Pid × Tid}
    (h : s.cpuCurrent c = some x) (hne : x ≠ (pid, tid)) :
    (s.remove pid tid).2.cpuCurrent c = some x := by
  have hother : s.cpuCurrent c ≠ some (pid, tid) := by
    rw [h]
    exact fun heq => hne (Option.some.inj heq)
  simpa [remove, hother] using h

/-- and puts nothing into the queues. -/
theorem mem_entries_of_remove {s : Scheduler n} {pid : Pid} {tid : Tid} {x : Pid × Tid}
    (h : x ∈ (s.remove pid tid).2.entries) : x ∈ s.entries := by
  rw [mem_entries] at h ⊢
  rcases h with ⟨c, hc⟩ | ⟨e, he, hkey⟩ | hprio
  · exact Or.inl ⟨c, remove_current_sub hc⟩
  · exact Or.inr (Or.inl ⟨e, List.mem_of_mem_eraseP he, hkey⟩)
  · exact Or.inr (Or.inr hprio)

/-- The removal of its only thread takes a process out of the scheduler. -/
theorem Sole.not_scheduled {s : Scheduler n} {pid : Pid} {tid : Tid} (h : s.Sole pid tid)
    (hprio : s.priorityQueue = []) : ¬(s.remove pid tid).2.Scheduled pid := by
  rintro ⟨⟨p, t⟩, hx, rfl⟩
  have htid : t = tid := h.1 (p, t) (mem_entries_of_remove hx) rfl
  subst htid
  rw [mem_entries] at hx
  rcases hx with ⟨c, hc⟩ | ⟨e, he, hkey⟩ | ⟨e, he, -⟩
  · exact remove_current_ne c hc
  · have hin : InQueue (s.remove p t).2.readyQueue p t := ⟨e, he, (isOf_iff e p t).2 hkey⟩
    have htwo := (s.inQueue_remove_iff p t).1 hin
    have hone : s.readyQueue.countP (ReadyQueueEntry.isOf · p t) ≤ 1 := h.2
    omega
  · have hnil : (s.remove p t).2.priorityQueue = [] := hprio
    rw [hnil] at he
    cases he

/-- The two schedulers differ in one process only. -/
structure SameBut (pid : Pid) (s s' : Scheduler n) : Prop where
  scheduled : ∀ q, q ≠ pid → s'.Scheduled q → s.Scheduled q
  current : ∀ q, q ≠ pid → ∀ c tid, s.cpuCurrent c = some (q, tid) → s'.cpuCurrent c = some (q, tid)

/-- Nothing is done. -/
theorem SameBut.refl (pid : Pid) (s : Scheduler n) : SameBut pid s s :=
  ⟨fun _ _ h => h, fun _ _ _ _ h => h⟩

/-- To queue a thread changes only the entries of its process. -/
theorem SameBut.ready (s : Scheduler n) (pid : Pid) (tid : Tid) (priority : UInt8) :
    SameBut pid s (s.ready pid tid priority) := by
  refine ⟨?_, ?_⟩
  · rintro q hq ⟨x, hx, rfl⟩
    rw [entries_ready, Multiset.mem_cons] at hx
    rcases hx with rfl | hx
    · exact absurd rfl hq
    · exact ⟨x, hx, rfl⟩
  · intro q _ c t hc
    rw [ready_cpuCurrent]
    exact hc

/-- So does to remove it. -/
theorem SameBut.remove (s : Scheduler n) (pid : Pid) (tid : Tid) :
    SameBut pid s (s.remove pid tid).2 := by
  refine ⟨?_, ?_⟩
  · rintro q _ ⟨x, hx, rfl⟩
    exact ⟨x, mem_entries_of_remove hx, rfl⟩
  · intro q hq c t hc
    exact remove_current_of_ne hc fun heq => hq (Prod.ext_iff.1 heq).1

/-- What the scheduler of the service is in every state: no process is current twice, and every queued
process is in the ready queue. -/
structure Plain (s : Scheduler n) : Prop where
  distinct : Distinct s.cpuCurrent
  unranked : SchedulingPolicy.ranked s.policy = false
  sided : s.Sided

/-- Without priorities the queue for them is empty. -/
theorem Plain.priorityQueue {s : Scheduler n} (h : s.Plain) : s.priorityQueue = [] :=
  h.sided.unranked h.unranked

/-- Its operations keep the policy of a scheduler. -/
theorem Driven.plain {s s' : Scheduler 2} (h : Driven s s') (hs : s.Plain) : s'.Plain := by
  have hdistinct := h.distinct hs.distinct
  obtain ⟨ops, rfl⟩ := h
  have hkept : (s.performAll ops).policy = s.policy ∧ (s.performAll ops).Sided := by
    clear hdistinct
    induction ops generalizing s with
    | nil => exact ⟨rfl, hs.sided⟩
    | cons op ops ih =>
      have hnext : (s.perform op).Plain :=
        ⟨perform_distinct hs.distinct op, by rw [perform_policy]; exact hs.unranked,
          hs.sided.perform op⟩
      obtain ⟨hpolicy, hsided⟩ := ih hnext
      exact ⟨hpolicy.trans (perform_policy s op), hsided⟩
  exact ⟨hdistinct, by rw [hkept.1]; exact hs.unranked, hkept.2⟩

/-- A CPU that has a process finds one to run: its own can be taken again. -/
theorem Plain.next_runs {s : Scheduler 2} (h : s.Plain) {c : Fin 2} {pid : Pid} {tid : Tid}
    (hcur : s.cpuCurrent c = some (pid, tid)) :
    ∃ p t, ((s.vacate c).dequeueNext c).1 = .run p t := by
  rcases (s.vacate c).dequeueNext_cases c with ⟨e, -, -, hdec, -⟩ | ⟨-, hidle, -⟩
  · exact ⟨e.pid, e.tid, hdec⟩
  · exfalso
    have hfree : (s.vacate c).cpuCurrent c = none := by
      rw [vacate_cpuCurrent, Function.update_self]
    have hprio : (s.vacate c).priorityQueue = [] :=
      (h.sided.vacate c).unranked (by rw [vacate_policy]; exact h.unranked)
    have hin : (pid, tid) ∈ (s.vacate c).entries := by
      rw [entries_vacate]
      exact mem_entries.2 (Or.inl ⟨c, hcur⟩)
    obtain ⟨i, hi, t, hbusy⟩ := elsewhere_of_vacate (dequeueNext_idle hfree hprio hidle hin)
    exact hi (h.distinct i c pid t tid hbusy hcur)

/-- A CPU with a thread has one after the dispatch as well, -/
theorem Plain.schedule_runs {s : Scheduler 2} (h : s.Plain) {c : Fin 2} {pid : Pid} {tid : Tid}
    (hcur : s.cpuCurrent c = some (pid, tid)) : ∃ p t, (s.schedule c).1 = .run p t := by
  rcases s.schedule_cases c with ⟨p, t, -, -, heq⟩ | heq
  · exact ⟨p, t, by rw [heq]⟩
  · rw [heq]
    exact h.next_runs hcur

/-- and after the thread has given it up. -/
theorem Plain.yieldCurrent_runs {s : Scheduler 2} (h : s.Plain) {c : Fin 2} {pid : Pid} {tid : Tid}
    (hcur : s.cpuCurrent c = some (pid, tid)) : ∃ p t, (s.yieldCurrent c).1 = .run p t := by
  rw [yieldCurrent_eq]
  exact h.next_runs hcur

end Scheduler

/-! ## The two sides -/

namespace Kernel

/-- The process is in the table, does not sleep and has not ended. -/
def Live (k : Kernel) (pid : Pid) : Prop := (k.stateOf pid).any ProcessState.isActive = true

instance (k : Kernel) (pid : Pid) : Decidable (k.Live pid) :=
  inferInstanceAs (Decidable (_ = true))

/-- A process is live when it has an active state. -/
theorem live_iff {k : Kernel} {pid : Pid} :
    k.Live pid ↔ ∃ st, k.stateOf pid = some st ∧ st.isActive = true := by
  rw [Live, Option.any_eq_true]

/-- Scheduler and table agree. -/
structure Agree (k : Kernel) : Prop where
  scheduled : ∀ pid, k.scheduler.Scheduled pid →
    ∃ st, k.stateOf pid = some st ∧ st.isBlocked = false ∧ st.isZombie = false
  running : ∀ pid, k.stateOf pid = some .running →
    ∃! c, ∃ tid, k.scheduler.cpuCurrent c = some (pid, tid)

/-- Who is in the scheduler is alive, and who runs is current. -/
structure Coherent (k : Kernel) : Prop where
  live : ∀ pid, k.scheduler.Scheduled pid → k.Live pid
  running : ∀ pid, k.stateOf pid = some .running →
    ∃ c tid, k.scheduler.cpuCurrent c = some (pid, tid)

/-- Scheduler and table that are coherent agree, when no process is on two CPUs. -/
theorem Coherent.agree {k : Kernel} (h : k.Coherent)
    (hdistinct : Scheduler.Distinct k.scheduler.cpuCurrent) : k.Agree := by
  constructor
  · intro pid hpid
    obtain ⟨st, hst, hactive⟩ := live_iff.1 (h.live pid hpid)
    refine ⟨st, hst, ?_⟩
    cases st with
    | creating => exact ⟨rfl, rfl⟩
    | ready => exact ⟨rfl, rfl⟩
    | running => exact ⟨rfl, rfl⟩
    | _ => cases hactive
  · intro pid hpid
    obtain ⟨c, tid, hcur⟩ := h.running pid hpid
    exact ⟨c, ⟨tid, hcur⟩, fun i ⟨t, hi⟩ => hdistinct i c pid t tid hi hcur⟩

/-- Only states and scheduler matter. -/
theorem Coherent.of_same {k k' : Kernel} (h : k.Coherent) (hstates : k'.stateOf = k.stateOf)
    (hscheduler : k'.scheduler = k.scheduler) : k'.Coherent := by
  constructor
  · intro pid hpid
    rw [hscheduler] at hpid
    rw [Live, hstates]
    exact h.live pid hpid
  · intro pid hpid
    rw [hstates] at hpid
    rw [hscheduler]
    exact h.running pid hpid

section update

variable {k k' : Kernel} {pid : Pid}

/-- Both sides are written for one process: only this one has to be looked at. -/
theorem Coherent.update (h : k.Coherent) (hsame : Scheduler.SameBut pid k.scheduler k'.scheduler)
    (hstates : ∀ q, q ≠ pid → k'.stateOf q = k.stateOf q)
    (hlive : k'.scheduler.Scheduled pid → k'.Live pid)
    (hrun : k'.stateOf pid = some .running → ∃ c tid, k'.scheduler.cpuCurrent c = some (pid, tid)) :
    k'.Coherent := by
  constructor
  · intro q hq
    rcases eq_or_ne q pid with rfl | hne
    · exact hlive hq
    · rw [Live, hstates q hne]
      exact h.live q (hsame.scheduled q hne hq)
  · intro q hq
    rcases eq_or_ne q pid with rfl | hne
    · exact hrun hq
    · rw [hstates q hne] at hq
      obtain ⟨c, tid, hcur⟩ := h.running q hq
      exact ⟨c, tid, hsame.current q hne c tid hcur⟩

variable {st : ProcessState}

/-- The process gets a state other than running. It is alive then, or it is not scheduled. -/
theorem Coherent.write (h : k.Coherent) (hsame : Scheduler.SameBut pid k.scheduler k'.scheduler)
    (hwritten : ∀ q, k'.stateOf q = if q = pid then (k.stateOf pid).map fun _ => st else k.stateOf q)
    (hst : st ≠ .running)
    (hlive : (st.isActive = true ∧ (k.stateOf pid).isSome = true) ∨ ¬k'.scheduler.Scheduled pid) :
    k'.Coherent := by
  have hpid : k'.stateOf pid = (k.stateOf pid).map fun _ => st := by rw [hwritten, if_pos rfl]
  refine h.update hsame (fun q hne => by rw [hwritten, if_neg hne]) ?_ ?_
  · intro hscheduled
    rcases hlive with ⟨hactive, hsome⟩ | hnot
    · obtain ⟨old, hold⟩ := Option.isSome_iff_exists.1 hsome
      rw [hold, Option.map_some] at hpid
      exact live_iff.2 ⟨st, hpid, hactive⟩
    · exact absurd hscheduled hnot
  · intro hrunning
    rw [hpid] at hrunning
    exact absurd (eq_of_map_const hrunning) hst

/-- The process leaves the scheduler by its only thread, whatever state it gets. -/
theorem Coherent.retire (h : k.Coherent) (hplain : k.scheduler.Plain) {tid : Tid}
    (hscheduler : k'.scheduler = (k.scheduler.remove pid tid).2)
    (hwritten : ∀ q, k'.stateOf q = if q = pid then (k.stateOf pid).map fun _ => st else k.stateOf q)
    (hst : st ≠ .running) (hsole : k.scheduler.Sole pid tid) : k'.Coherent := by
  refine h.write ?_ hwritten hst (Or.inr ?_)
  · rw [hscheduler]
    exact Scheduler.SameBut.remove ..
  · rw [hscheduler]
    exact hsole.not_scheduled hplain.priorityQueue

/-- A process of the table is made ready and queued. -/
theorem Coherent.queue (h : k.Coherent) {tid : Tid} {priority : UInt8}
    (hscheduler : k'.scheduler = k.scheduler.ready pid tid priority)
    (hwritten : ∀ q,
      k'.stateOf q = if q = pid then (k.stateOf pid).map fun _ => .ready else k.stateOf q)
    (hpid : (k.stateOf pid).isSome = true) : k'.Coherent := by
  refine h.write ?_ hwritten (by decide) (Or.inl ⟨rfl, hpid⟩)
  rw [hscheduler]
  exact Scheduler.SameBut.ready ..

/-- A process that is not alive goes from the table. It is not scheduled. -/
theorem Coherent.drop (h : k.Coherent) (hsame : Scheduler.SameBut pid k.scheduler k'.scheduler)
    (hsub : k'.scheduler.Scheduled pid → k.scheduler.Scheduled pid)
    (hstates : ∀ q, k'.stateOf q = if q = pid then none else k.stateOf q) (hdead : ¬k.Live pid) :
    k'.Coherent := by
  refine h.update hsame (fun q hne => by rw [hstates, if_neg hne]) ?_ ?_
  · intro hscheduled
    exact absurd (h.live pid (hsub hscheduled)) hdead
  · intro hrunning
    rw [hstates, if_pos rfl] at hrunning
    cases hrunning

/-- A new process is alive, but does not run. -/
theorem Coherent.enter (h : k.Coherent) (hscheduler : k'.scheduler = k.scheduler)
    (hstates : ∀ q, k'.stateOf q = if q = pid then some st else k.stateOf q)
    (hst : st.isActive = true) (hne : st ≠ .running) : k'.Coherent := by
  have hpid : k'.stateOf pid = some st := by rw [hstates, if_pos rfl]
  refine h.update ?_ (fun q hq => by rw [hstates, if_neg hq]) ?_ ?_
  · rw [hscheduler]
    exact Scheduler.SameBut.refl pid _
  · exact fun _ => live_iff.2 ⟨st, hpid, hst⟩
  · intro hrunning
    rw [hpid] at hrunning
    exact absurd (Option.some.inj hrunning) hne

end update

/-- A process with another state is not live. -/
theorem not_live {k : Kernel} {pid : Pid} {st : ProcessState} (h : k.stateOf pid = some st)
    (hst : st.isActive = false) : ¬k.Live pid := by
  rw [Live, h, Option.any_some, hst]
  exact Bool.false_ne_true

end Kernel

/-! ## Requests -/

/-- The signal ends or stops a process. -/
def SignalType.isHalting : SignalType → Bool
  | .terminate => true
  | .kill => true
  | .stop => true
  | _ => false

namespace Kernel

/-- A wait for a child that is not one of the parent's, or for any child of a parent that lost them. -/
def refusesWait (k : Kernel) (pid : Pid) (childPid : Option Pid) : Bool :=
  match childPid, k.parentChildren.lookup pid with
  | some child, some children => decide (child ∉ children)
  | none, some [] => true
  | _, _ => false

/-- The state of the two sides under which a request keeps them in agreement. -/
def RequestInStep (k : Kernel) : ProcessRequest → Prop
  -- queued without a look at the state
  | .schedule pid _ => k.Live pid
  -- made ready, if it is there at all, and queued anyway
  | .unblock pid _ => (k.stateOf pid).isSome = true
  -- taken from the scheduler, but not from the table
  | .contextSwitch fromPid toPid =>
    (k.stateOf fromPid = some .running → ∀ c, k.scheduler.cpuCurrent c ≠ some (fromPid, 1)) ∧
      k.Live toPid
  -- put to sleep as one thread
  | .block pid tid _ => k.scheduler.Sole pid tid
  | .receiveMessage pid blocking =>
    blocking = true → (k.ipcManager.getMessageQueue pid).receive.1.isNone = true →
      k.scheduler.Sole pid 1
  | .waitSemaphore pid semid =>
    (k.syncManager.waitSemaphore semid).1 = some .wouldBlock → k.scheduler.Sole pid 1
  | .acquireLock pid lockId =>
    (k.syncManager.acquireMutex lockId pid).1 = some .wouldBlock → k.scheduler.Sole pid 1
  | .waitChild pid childPid => k.refusesWait pid childPid = false → k.scheduler.Sole pid 1
  -- ended or stopped, but not taken from the scheduler
  | .signal pid signal => SignalType.isHalting signal = true → ¬k.scheduler.Scheduled pid
  | _ => True

instance (k : Kernel) (req : ProcessRequest) : Decidable (k.RequestInStep req) := by
  induction req using ProcessRequest.casesOn <;> dsimp only [RequestInStep] <;> infer_instance

section requests

variable {k : Kernel} (h : k.Coherent) (hplain : k.scheduler.Plain)

include h

/-- A live process is queued. -/
theorem Coherent.handleSchedule {pid : Pid} (tid : Tid) (hpid : k.Live pid) :
    (k.handleSchedule pid tid).Coherent := by
  refine h.update (Scheduler.SameBut.ready ..) (fun _ _ => rfl) (fun _ => hpid) ?_
  intro hrunning
  obtain ⟨c, t, hcur⟩ := h.running pid hrunning
  exact ⟨c, t, (Scheduler.ready_cpuCurrent ..).symm ▸ hcur⟩

/-- A process in the table is made ready, and queued. -/
theorem Coherent.handleUnblock {pid : Pid} (tid : Tid) (hpid : (k.stateOf pid).isSome = true) :
    (k.handleUnblock pid tid).Coherent :=
  h.queue rfl (fun q => k.handleUnblock_stateOf pid q tid) hpid

/-- The scheduler is told of a switch between live processes. -/
theorem Coherent.handleContextSwitch {fromPid toPid : Pid}
    (hfrom : k.stateOf fromPid = some .running → ∀ c, k.scheduler.cpuCurrent c ≠ some (fromPid, 1))
    (hto : k.Live toPid) : (k.handleContextSwitch fromPid toPid).Coherent := by
  have hleft : (k.blockThread fromPid 1).Coherent := by
    refine h.update (Scheduler.SameBut.remove ..) (fun _ _ => rfl) ?_ ?_
    · rintro ⟨x, hx, hpid⟩
      exact h.live fromPid ⟨x, Scheduler.mem_entries_of_remove hx, hpid⟩
    · intro hrunning
      obtain ⟨c, t, hcur⟩ := h.running fromPid hrunning
      refine ⟨c, t, Scheduler.remove_current_of_ne hcur ?_⟩
      intro heq
      exact hfrom hrunning c (by rw [hcur, heq])
  refine hleft.update (Scheduler.SameBut.ready ..) (fun _ _ => rfl) (fun _ => hto) ?_
  intro hrunning
  obtain ⟨c, t, hcur⟩ := hleft.running toPid hrunning
  exact ⟨c, t, (Scheduler.ready_cpuCurrent ..).symm ▸ hcur⟩

/-- A signal that is in step. -/
theorem Coherent.handleSignal {pid : Pid} {signal : SignalType}
    (hok : k.RequestInStep (.signal pid signal)) : (k.handleSignal pid signal).1.Coherent := by
  have heffect := k.handleSignal_effect pid signal
  generalize (k.handleSignal pid signal).1 = k' at heffect ⊢
  cases heffect with
  | inert hreq => cases hreq
  | kill _ _ hsig =>
    have hhalting : SignalType.isHalting signal = true := by
      cases signal with
      | terminate => rfl
      | kill => rfl
      | _ => cases hsig
    exact h.write (Scheduler.SameBut.refl pid _)
      (fun q => (k.releaseGlobals pid).setState_stateOf pid q (.zombie 0)) (by decide)
      (Or.inr (hok hhalting))
  | stop =>
    exact h.write (Scheduler.SameBut.refl pid _) (fun q => k.setState_stateOf pid q _) (by decide)
      (Or.inr (hok rfl))
  | continued _ hpid =>
    exact h.write (Scheduler.SameBut.refl pid _) (fun q => k.setState_stateOf pid q _) (by decide)
      (Or.inl ⟨rfl, hpid⟩)
  | signalQueued _ _ halike => exact h.of_same halike.stateOf halike.scheduler

include hplain

/-- A process whose only thread this is falls asleep, -/
theorem Coherent.handleBlock {pid : Pid} {tid : Tid} (reason : BlockReason)
    (hsole : k.scheduler.Sole pid tid) : (k.handleBlock pid tid reason).Coherent :=
  h.retire hplain rfl (fun q => k.handleBlock_stateOf pid q tid reason) (by decide) hsole

/-- perhaps for a message, -/
theorem Coherent.handleReceiveMessage {pid : Pid} {blocking : Bool}
    (hok : k.RequestInStep (.receiveMessage pid blocking)) :
    (k.handleReceiveMessage pid blocking).Coherent := by
  simp only [Kernel.handleReceiveMessage]
  split
  · exact h.of_same rfl rfl
  · next hnone =>
    split
    · next hblocking =>
      exact h.handleBlock hplain _ (hok hblocking (by rw [hnone]; rfl))
    · exact h

/-- or for a child. -/
theorem Coherent.handleWaitChild {pid : Pid} {childPid : Option Pid}
    (hok : k.RequestInStep (.waitChild pid childPid)) :
    (k.handleWaitChild pid childPid).1.Coherent := by
  simp only [RequestInStep, refusesWait] at hok
  simp only [Kernel.handleWaitChild]
  split
  · next child _ hchildren =>
    split
    · next hmem =>
      refine h.handleBlock hplain (.waitingForChild child) (hok ?_)
      simp only [hchildren]
      exact decide_eq_false (not_not.2 hmem)
    · exact h
  · exact h
  · next waited _ hsome hnone =>
    refine h.handleBlock hplain (.waitingForChild (waited.getD 0)) (hok ?_)
    split
    · next hchildren => exact absurd hchildren (hsome _ _ rfl)
    · next hchildren => exact absurd hchildren (hnone rfl)
    · rfl

/-- A request keeps the agreement in the states in which it is in step. -/
theorem Coherent.handleProcessRequest {req : ProcessRequest} (hok : k.RequestInStep req) :
    (k.handleProcessRequest req).1.Coherent := by
  -- requests that leave both sides alone
  have hinert : ProcessRequest.isInert req = true → (k.handleProcessRequest req).1.Coherent := by
    intro hreq
    have heffect := k.handleProcessRequest_effect req
    generalize (k.handleProcessRequest req).1 = k' at heffect ⊢
    cases heffect with
    | inert _ halike => exact h.of_same halike.stateOf halike.scheduler
    | _ => cases hreq
  cases req with
  | schedule pid tid => exact h.handleSchedule tid hok
  | block pid tid reason => exact h.handleBlock hplain reason hok
  | unblock pid tid => exact h.handleUnblock tid hok
  | contextSwitch fromPid toPid => exact h.handleContextSwitch hok.1 hok.2
  | receiveMessage pid blocking => exact h.handleReceiveMessage hplain hok
  | createSemaphore pid initialValue => exact h.of_same rfl rfl
  | waitSemaphore pid semid =>
    simp only [Kernel.handleProcessRequest, handleWaitSemaphore]
    split
    · exact h.of_same rfl rfl
    · next hblocks =>
      have hwaited : (k.onSync fun m => (m.waitSemaphore semid).2).Coherent := h.of_same rfl rfl
      exact hwaited.handleBlock hplain (.waitingForLock semid) (hok hblocks)
    · exact h.of_same rfl rfl
  | signalSemaphore pid semid => exact h.of_same rfl rfl
  | createLock pid => exact h.of_same rfl rfl
  | acquireLock pid lockId =>
    simp only [Kernel.handleProcessRequest, handleAcquireLock]
    split
    · next hblocks =>
      have htried : (k.onSync fun m => (m.acquireMutex lockId pid).2).Coherent := h.of_same rfl rfl
      exact htried.handleBlock hplain (.waitingForLock lockId) (hok hblocks)
    · exact h.of_same rfl rfl
  | releaseLock pid lockId => exact h.of_same rfl rfl
  | waitChild pid childPid => exact h.handleWaitChild hplain hok
  | signal pid signal => exact h.handleSignal hok
  | _ => exact hinert rfl

omit hplain in
/-- A parent that waits with a channel takes only an ended child out of the table. -/
theorem Coherent.handleWaitChildWithResponse (pid : Pid) (childPid : Option Pid)
    (channel : RequestId) : (k.handleWaitChildWithResponse pid childPid channel).1.Coherent := by
  cases childPid with
  | none => exact h
  | some child =>
    simp only [Kernel.handleWaitChildWithResponse]
    split
    · exact h.of_same rfl rfl
    split
    · exact h.of_same rfl rfl
    next st hst =>
    split
    · next hended =>
      have hdead : ¬k.Live child := by
        apply not_live hst
        cases st with
        | terminated code => rfl
        | zombie code => rfl
        | _ => cases hended
      refine h.drop (Scheduler.SameBut.remove k.scheduler child 1) ?_ ?_ hdead
      · rintro ⟨x, hx, hpid⟩
        exact ⟨x, Scheduler.mem_entries_of_remove hx, hpid⟩
      · exact fun q => (k.blockThread child 1).removeProcess_stateOf child q
    · exact h.of_same rfl rfl

end requests

end Kernel

/-! ## Transitions -/

/-- The state under which a transition keeps the two sides in agreement. -/
def Machine.InStep (s : Machine) : Act → Prop
  | .request (.waitChild _ _) (some _) => True
  | .request req _ => s.toKernel.RequestInStep req
  | .syscall _ pid (.exit _) => pid ≠ 1 → s.scheduler.Sole pid 1
  | .syscall _ pid (.semWait semId) =>
    (s.syncManager.waitSemaphore semId.toNat).1.any (fun r => decide (r ≠ .acquired)) = true →
      s.scheduler.Sole pid 1
  | .syscall _ pid (.lockAcquire lockId) =>
    (s.syncManager.acquireMutex lockId.toNat pid).1.any (fun r => decide (r ≠ .acquired)) = true →
      s.scheduler.Sole pid 1
  -- the clean-up of a process that has halted in its turn
  | .settle _ pid =>
    pid ≠ 1 → (s.cpus.get pid).any VirtualCPU.halted = true →
      s.stateOf pid = some .running ∨ s.stateOf pid = some .creating → s.scheduler.Sole pid 1
  | _ => True

instance (s : Machine) (act : Act) : Decidable (s.InStep act) := by
  induction act using Act.casesOn with
  | syscall cpuId pid call =>
    induction call using SystemCall.casesOn <;> dsimp only [Machine.InStep] <;> infer_instance
  | request req channel =>
    induction req using ProcessRequest.casesOn <;> induction channel using Option.casesOn <;>
      dsimp only [Machine.InStep] <;> infer_instance
  | _ => dsimp only [Machine.InStep]; infer_instance

/-- The child is new, and is queued with its state. -/
theorem ForkStep.coherent {k k' : Kernel} {parent : Pid} (h : ForkStep k parent k')
    (hk : k.Coherent) : k'.Coherent := by
  cases h with
  | refused => exact hk
  | aborted => exact hk.of_same rfl rfl
  | fresh => exact hk.enter rfl (fun q => k.forkFresh_stateOf q) rfl (by decide)
  | child => exact hk.enter rfl (fun q => k.forkChild_stateOf q parent) rfl (by decide)

/-- An exec makes its process ready, which is live. -/
theorem ExecStep.coherent {k k' : Kernel} {pid : Pid} (h : ExecStep k pid k') (hk : k.Coherent) :
    k'.Coherent := by
  cases h with
  | failed => exact hk
  | started executable args hpid =>
    exact hk.queue rfl (fun q => k.exec_stateOf pid q executable args) hpid

/-- A process sleeps on a lock or a semaphore, -/
theorem Kernel.Coherent.sleepOn {k k' : Kernel} (h : k.Coherent) (hplain : k.scheduler.Plain) {pid : Pid}
    {lockAddr : Nat} (hstates : k'.stateOf = k.stateOf) (hscheduler : k'.scheduler = k.scheduler)
    (hsole : k.scheduler.Sole pid 1) : (k'.sleepOn pid lockAddr).Coherent := by
  have hk' : k'.Coherent := h.of_same hstates hscheduler
  rw [← hscheduler] at hplain hsole
  exact hk'.retire hplain rfl (fun q => k'.sleepOn_stateOf pid q lockAddr) (by simp) hsole

/-- and is woken. -/
theorem Kernel.Coherent.wake {k : Kernel} (h : k.Coherent) {waiter : Pid} {reason : BlockReason}
    (hwaiter : k.stateOf waiter = some (.blocked reason)) : (k.wake waiter).Coherent :=
  h.queue rfl (fun q => k.wake_stateOf waiter q) (by rw [hwaiter]; rfl)

/-- A halted process that has ended, or is gone, only leaves the scheduler. -/
theorem Kernel.Coherent.zombify_dead {k : Kernel} (h : k.Coherent) {pid : Pid}
    (hdead : ∀ st, k.stateOf pid = some st → st.isTerminated = true) : (k.zombify pid).Coherent := by
  rw [k.zombify_of_dead pid hdead]
  refine h.update (Scheduler.SameBut.remove ..) (fun _ _ => rfl) ?_ ?_
  · rintro ⟨x, hx, hpid⟩
    exact h.live pid ⟨x, Scheduler.mem_entries_of_remove hx, hpid⟩
  · intro hrunning
    cases hdead .running hrunning

/-- A living process becomes a zombie. -/
theorem Kernel.Coherent.zombify_alive {k : Kernel} (h : k.Coherent) (hplain : k.scheduler.Plain)
    {pid : Pid} {st : ProcessState} (hst : k.stateOf pid = some st) (hlive : st.isTerminated = false)
    (hsole : k.scheduler.Sole pid 1) : (k.zombify pid).Coherent := by
  have hwritten : ∀ q, (k.zombify pid).stateOf q =
      if q = pid then (k.stateOf pid).map fun _ => .zombie 0 else k.stateOf q := by
    intro q
    rw [k.zombify_stateOf, hst]
    simp [hlive]
  exact h.retire hplain (k.zombify_scheduler pid) hwritten (by decide) hsole

/-- A halted process is started again, cleaned up or left alone. -/
theorem Machine.settle_coherent {s : Machine} {cpuId : Fin 2} {pid : Pid} (h : s.toKernel.Coherent)
    (hplain : s.scheduler.Plain) (hok : s.InStep (.settle cpuId pid)) :
    (s.settle pid).toKernel.Coherent := by
  rcases s.settle_cases pid with heq | ⟨⟨hpid, hhalted, hst⟩, heq⟩ | ⟨hdead, heq⟩
  · rw [heq]
    exact h
  · rw [heq]
    have hsole := hok hpid hhalted hst
    rcases hst with hst | hst
    · exact h.zombify_alive hplain hst rfl hsole
    · exact h.zombify_alive hplain hst rfl hsole
  · rw [heq]
    exact h.zombify_dead hdead

/-- A transition of the tables that is neither a request nor a clean-up. -/
theorem TableStep.coherent {s : Machine} {k' : Kernel} {act : Act} (h : TableStep s.toKernel act k')
    (hk : s.toKernel.Coherent) (hplain : s.scheduler.Plain) (hok : s.InStep act)
    (hdispatch : ∀ c, act ≠ .dispatch c) (hsettle : ∀ c pid, act ≠ .settle c pid)
    (hrequest : ∀ req channel, act ≠ .request req channel) : k'.Coherent := by
  -- a sleeper leaves the queue of its CPU, a waiter joins one, the others leave the scheduler alone
  cases h with
  | idle => exact hk
  | dispatch cpuId => exact absurd rfl (hdispatch cpuId)
  | initExit => exact hk
  | exit cpuId pid code hpid =>
    exact hk.retire hplain rfl (fun q => s.toKernel.exit_stateOf pid q _) (by simp) (hok hpid)
  | forkCall _ _ h => exact h.coherent hk
  | execCall _ _ h => exact h.coherent hk
  | semCreate => exact hk.of_same rfl rfl
  | semWaitPassed => exact hk.of_same rfl rfl
  | semWaitSlept cpuId pid semId hresult hr =>
    refine hk.sleepOn hplain rfl rfl (hok ?_)
    rw [hresult, Option.any_some]
    exact decide_eq_true hr
  | semSignalWoke _ _ _ waiter hwaiter => exact hk.wake hwaiter
  | semSignalCounted => exact hk.of_same rfl rfl
  | lockCreate => exact hk.of_same rfl rfl
  | lockAcquirePassed => exact hk.of_same rfl rfl
  | lockAcquireSlept cpuId pid lockId hresult hr =>
    refine hk.sleepOn hplain rfl rfl (hok ?_)
    rw [hresult, Option.any_some]
    exact decide_eq_true hr
  | lockReleaseWoke _ _ _ waiter hwaiter => exact (hk.wake hwaiter).of_same rfl rfl
  | lockReleaseNone => exact hk.of_same rfl rfl
  | settled cpuId pid => exact hk
  | zombified cpuId pid => exact absurd rfl (hsettle cpuId pid)
  | reapedNone => exact hk
  | reaped cpuId pid code hpid hst =>
    exact hk.drop (Scheduler.SameBut.refl pid _) (fun hin => hin)
      (fun q => s.toKernel.removeProcess_stateOf pid q) (Kernel.not_live hst rfl)
  | fork h => exact h.coherent hk
  | exec h => exact h.coherent hk
  | sharedSemaphores => exact hk.of_same rfl rfl
  | request channel h => exact absurd rfl (hrequest _ channel)
  | waitChild pid childPid channel => exact absurd rfl (hrequest _ _)
  | responded => exact hk.of_same rfl rfl
  | silent => exact hk

/-- Requests that are in step keep scheduler and table coherent. -/
theorem Machine.handleSimpleRequest_coherent (w : World) {s : Machine} {req : ProcessRequest}
    {channel : Option RequestId} (h : s.toKernel.Coherent) (hplain : s.scheduler.Plain)
    (hok : s.InStep (.request req channel)) :
    (s.handleSimpleRequest w req channel).1.toKernel.Coherent := by
  simp only [Machine.handleSimpleRequest]
  split
  · exact h.handleWaitChildWithResponse ..
  · exact h
  · exact h
  · exact h
  · exact h
  · next hwait _ _ _ _ =>
    refine h.handleProcessRequest hplain ?_
    cases channel with
    | none => cases req <;> exact hok
    | some id =>
      cases req with
      | waitChild pid childPid => exact absurd rfl (hwait id pid childPid rfl)
      | _ => exact hok

/-- A transition other than a dispatch keeps the two sides coherent. -/
theorem Performed.coherent {w : World} {s s' : Machine} {act : Act} (h : Performed w s act s')
    (hk : s.toKernel.Coherent) (hplain : s.scheduler.Plain) (hok : s.InStep act)
    (hdispatch : ∀ c, act ≠ .dispatch c) : s'.toKernel.Coherent := by
  by_cases hsettle : ∃ c pid, act = .settle c pid
  · obtain ⟨c, pid, rfl⟩ := hsettle
    cases h
    exact Machine.settle_coherent hk hplain hok
  by_cases hrequest : ∃ req channel, act = .request req channel
  · obtain ⟨req, channel, rfl⟩ := hrequest
    cases h
    exact Machine.handleSimpleRequest_coherent w hk hplain hok
  · push Not at hsettle hrequest
    exact h.step_of.table.coherent hk hplain hok hdispatch hsettle hrequest

/-! ## What the CPUs ran last -/

/-- The transition schedules no CPU. -/
structure Kernel.Undispatched (k k' : Kernel) : Prop where
  last : k'.lastRunning = k.lastRunning
  current : ∀ c x, k'.scheduler.cpuCurrent c = some x → k.scheduler.cpuCurrent c = some x

namespace Kernel.Undispatched

variable {k k' : Kernel}

/-- Nothing is dispatched where the scheduler stays as it is, -/
theorem of_eq (hlast : k'.lastRunning = k.lastRunning) (hscheduler : k'.scheduler = k.scheduler) :
    Undispatched k k' :=
  ⟨hlast, fun _ _ h => hscheduler ▸ h⟩

/-- where a thread is queued, -/
theorem ready {pid : Pid} {tid : Tid} {priority : UInt8} (hlast : k'.lastRunning = k.lastRunning)
    (hscheduler : k'.scheduler = k.scheduler.ready pid tid priority) : Undispatched k k' := by
  refine ⟨hlast, fun c x h => ?_⟩
  rw [hscheduler, Scheduler.ready_cpuCurrent] at h
  exact h

/-- where one is removed, -/
theorem remove {pid : Pid} {tid : Tid} (hlast : k'.lastRunning = k.lastRunning)
    (hscheduler : k'.scheduler = (k.scheduler.remove pid tid).2) : Undispatched k k' := by
  refine ⟨hlast, fun c x h => ?_⟩
  rw [hscheduler] at h
  exact Scheduler.remove_current_sub h

/-- and in two such steps. -/
theorem trans {k'' : Kernel} (h : Undispatched k k') (h' : Undispatched k' k'') :
    Undispatched k k'' :=
  ⟨h'.last.trans h.last, fun c x hx => h.current c x (h'.current c x hx)⟩

end Kernel.Undispatched

open Kernel (Undispatched)

/-- A fork dispatches nothing, -/
theorem ForkStep.undispatched {k k' : Kernel} {parent : Pid} (h : ForkStep k parent k') :
    Undispatched k k' := by
  cases h with
  | refused => exact .of_eq rfl rfl
  | aborted => exact .of_eq rfl rfl
  | fresh => exact .of_eq rfl rfl
  | child => exact .of_eq rfl rfl

/-- nor does an exec, -/
theorem ExecStep.undispatched {k k' : Kernel} {pid : Pid} (h : ExecStep k pid k') :
    Undispatched k k' := by
  cases h with
  | failed => exact .of_eq rfl rfl
  | started => exact .ready rfl rfl

/-- a request, -/
theorem RequestEffect.undispatched {k k' : Kernel} {req : ProcessRequest}
    (h : RequestEffect k req k') : Undispatched k k' := by
  cases h with
  | inert _ h => exact .of_eq h.lastRunning h.scheduler
  | schedule => exact .ready rfl rfl
  | block => exact .remove rfl rfl
  | unblock => exact .ready rfl rfl
  | contextSwitch fromPid toPid =>
    have hleft : Undispatched k (k.blockThread fromPid 1) := .remove rfl rfl
    exact hleft.trans (.ready rfl rfl)
  | received _ _ h => exact .of_eq h.lastRunning h.scheduler
  | receiveBlocked => exact .remove rfl rfl
  | createSemaphore => exact .of_eq rfl rfl
  | waitBlocked => exact .remove rfl rfl
  | waitPassed => exact .of_eq rfl rfl
  | signalSemaphore => exact .of_eq rfl rfl
  | createLock => exact .of_eq rfl rfl
  | acquireBlocked => exact .remove rfl rfl
  | acquirePassed => exact .of_eq rfl rfl
  | releaseLock => exact .of_eq rfl rfl
  | waitRefused => exact .of_eq rfl rfl
  | waitChild => exact .remove rfl rfl
  | kill => exact .of_eq rfl rfl
  | stop => exact .of_eq rfl rfl
  | continued => exact .of_eq rfl rfl
  | signalQueued _ _ h => exact .of_eq h.lastRunning h.scheduler

/-- or the wait for a child with a channel. -/
theorem Kernel.handleWaitChildWithResponse_undispatched (k : Kernel) (pid : Pid)
    (childPid : Option Pid) (channel : RequestId) :
    Undispatched k (k.handleWaitChildWithResponse pid childPid channel).1 := by
  simp only [handleWaitChildWithResponse]
  split
  · exact .of_eq rfl rfl
  split
  · exact .of_eq rfl rfl
  split
  · exact .of_eq rfl rfl
  split
  · exact .remove rfl rfl
  · exact .of_eq rfl rfl

/-- The end of a process leaves what is noted of the CPUs. -/
theorem Kernel.zombify_lastRunning (k : Kernel) (pid : Pid) :
    (k.zombify pid).lastRunning = k.lastRunning := by
  simp only [zombify, notifyParent]
  split
  · rfl
  split
  · rfl
  split <;> rfl

/-- No step other than a dispatch dispatches. -/
theorem TableStep.undispatched {k k' : Kernel} {act : Act} (h : TableStep k act k')
    (hdispatch : ∀ c, act ≠ .dispatch c) : Undispatched k k' := by
  cases h with
  | idle => exact .of_eq rfl rfl
  | dispatch cpuId => exact absurd rfl (hdispatch cpuId)
  | initExit => exact .of_eq rfl rfl
  | exit => exact .remove rfl rfl
  | forkCall _ _ h => exact h.undispatched
  | execCall _ _ h => exact h.undispatched
  | semCreate => exact .of_eq rfl rfl
  | semWaitPassed => exact .of_eq rfl rfl
  | semWaitSlept => exact .remove rfl rfl
  | semSignalWoke => exact .ready rfl rfl
  | semSignalCounted => exact .of_eq rfl rfl
  | lockCreate => exact .of_eq rfl rfl
  | lockAcquirePassed => exact .of_eq rfl rfl
  | lockAcquireSlept => exact .remove rfl rfl
  | lockReleaseWoke => exact .ready rfl rfl
  | lockReleaseNone => exact .of_eq rfl rfl
  | settled => exact .of_eq rfl rfl
  | zombified cpuId pid => exact .remove (k.zombify_lastRunning pid) (k.zombify_scheduler pid)
  | reapedNone => exact .of_eq rfl rfl
  | reaped => exact .of_eq rfl rfl
  | fork h => exact h.undispatched
  | exec h => exact h.undispatched
  | sharedSemaphores => exact .of_eq rfl rfl
  | request _ h => exact h.undispatched
  | waitChild => exact k.handleWaitChildWithResponse_undispatched ..
  | responded => exact .of_eq rfl rfl
  | silent => exact .of_eq rfl rfl

/-- Both sides agree, each CPU notes its process, and the process of the CPU that is scheduled next is
not the last one of the other. -/
structure Kernel.InTune (next : Fin 2) (k : Kernel) : Prop where
  plain : k.scheduler.Plain
  coherent : k.Coherent
  noted : ∀ c pid tid, k.scheduler.cpuCurrent c = some (pid, tid) → k.lastRunning c = some pid
  ahead : ∀ pid tid, k.scheduler.cpuCurrent next = some (pid, tid) →
    ∀ c, c ≠ next → k.lastRunning c ≠ some pid

/-- What is in tune agrees. -/
theorem Kernel.InTune.agree {next : Fin 2} {k : Kernel} (h : k.InTune next) : k.Agree :=
  h.coherent.agree h.plain.distinct

/-- Every operation that is in step and no dispatch keeps the service in tune. -/
theorem Performed.inTune {w : World} {s s' : Machine} {act : Act} (h : Performed w s act s')
    {next : Fin 2} (hs : s.toKernel.InTune next) (hok : s.InStep act)
    (hdispatch : ∀ c, act ≠ .dispatch c) : s'.toKernel.InTune next := by
  have htable := h.step_of.table
  have hkept := htable.undispatched hdispatch
  refine ⟨htable.driven.plain hs.plain, h.coherent hs.coherent hs.plain hok hdispatch, ?_, ?_⟩
  · intro c pid tid hcur
    rw [hkept.last]
    exact hs.noted c pid tid (hkept.current c _ hcur)
  · intro pid tid hcur
    rw [hkept.last]
    exact hs.ahead pid tid (hkept.current next _ hcur)

/-! ## A CPU is scheduled -/

namespace Kernel

variable (k : Kernel) (c : Fin 2) (scheduledThisTick : List Pid)

/-- A choice that is discarded leaves the queues, -/
theorem pick_entries : (k.pick c scheduledThisTick).2.scheduler.entries = k.scheduler.entries := by
  have hfirst := k.scheduler.entries_schedule c
  simp only [pick]
  split
  · split
    · rw [onScheduler_scheduler, Scheduler.entries_yieldCurrent]
      exact hfirst
    · exact hfirst
  · exact hfirst

/-- and what is noted of the CPUs. -/
theorem pick_lastRunning : (k.pick c scheduledThisTick).2.lastRunning = k.lastRunning := by
  simp only [pick]
  split
  · split <;> rfl
  · rfl

variable {k c} in
/-- A CPU that finds nothing to run had nothing before. -/
theorem pick_runs (hplain : k.scheduler.Plain) {pid : Pid} {tid : Tid}
    (hcur : k.scheduler.cpuCurrent c = some (pid, tid)) :
    ∃ p t, (k.pick c scheduledThisTick).1 = .run p t := by
  obtain ⟨p, t, hrun⟩ := hplain.schedule_runs hcur
  simp only [pick, hrun]
  split
  · -- the process that ran already is current now, so a second decision finds something as well
    have hafter : (k.scheduler.schedule c).2.cpuCurrent c = some (p, t) := by
      rw [Scheduler.schedule_decided, hrun, Function.update_self]
      rfl
    exact ((Driven.schedule k.scheduler c).plain hplain).yieldCurrent_runs hafter
  · exact ⟨p, t, rfl⟩

/-- The process that a decision is for. -/
def chosen : SchedulingDecision → Option Pid
  | .run pid _ => some pid
  | _ => none

/-- The process that was chosen is noted for its CPU. -/
theorem trackLast_lastRunning (decision : SchedulingDecision) :
    (k.trackLast c decision).lastRunning = Function.update k.lastRunning c (chosen decision) := by
  simp only [trackLast]
  split
  · next pid _ =>
    split
    · next hsame =>
      rw [chosen, ← hsame, Function.update_eq_self]
    · have hpreempted : ∀ prev, (k.preempt c prev).lastRunning = k.lastRunning := by
        intro prev
        simp only [preempt]
        split
        · rfl
        · split <;> rfl
      split
      · next prev _ => rw [hpreempted prev]; rfl
      · rfl
  · next hnot =>
    cases decision with
    | run pid tid => exact absurd rfl (hnot pid tid)
    | idle => rfl
    | halt => rfl

/-- After a dispatch the choice is noted for its CPU, and nothing else changes there. -/
theorem dispatch_lastRunning :
    (k.dispatch c scheduledThisTick).2.lastRunning =
      Function.update k.lastRunning c (chosen (k.pick c scheduledThisTick).1) := by
  have htracked := trackLast_lastRunning (k.pick c scheduledThisTick).2 c
    (k.pick c scheduledThisTick).1
  rw [pick_lastRunning] at htracked
  simp only [dispatch]
  split
  · simp only [markRunning]
    split
    · exact htracked
    · exact htracked
  · exact htracked

/-- Only the chosen process starts to run. -/
theorem markRunning_running {pid q : Pid} (h : (k.markRunning pid).stateOf q = some .running) :
    q = pid ∨ k.stateOf q = some .running := by
  simp only [markRunning] at h
  split at h
  · rw [setState_stateOf] at h
    split at h
    · exact Or.inl ‹_›
    · exact Or.inr h
  · exact Or.inr h

variable {k c} in
/-- Who still runs after another process got the CPU was not preempted: it was not the last process of
this CPU, or it is the last one of another. -/
theorem trackLast_running {pid q : Pid} {tid : Tid} (hne : q ≠ pid)
    (h : (k.trackLast c (.run pid tid)).stateOf q = some .running) :
    k.stateOf q = some .running ∧
      (k.lastRunning c = some q → ∃ i, i ≠ c ∧ k.lastRunning i = some q) := by
  simp only [trackLast] at h
  split at h
  · next hsame =>
    refine ⟨h, fun hlast => ?_⟩
    rw [hsame] at hlast
    exact absurd (Option.some.inj hlast).symm hne
  · split at h
    · next prev hprev =>
      have hq : (k.preempt c prev).stateOf q = some .running := h
      simp only [preempt] at hq
      split at hq
      -- the last process is also the last one of another CPU, and is left running
      · next hother =>
        refine ⟨hq, fun hlast => ?_⟩
        rw [hprev] at hlast
        rw [← Option.some.inj hlast]
        exact hother
      · split at hq
        · rw [setState_stateOf] at hq
          split at hq
          · cases eq_of_map_const hq
          · next hother =>
            refine ⟨hq, fun hlast => ?_⟩
            rw [hprev] at hlast
            exact absurd (Option.some.inj hlast).symm hother
        -- the last process was not running any more
        · next hnot =>
          refine ⟨hq, fun hlast => ?_⟩
          rw [hprev] at hlast
          rw [Option.some.inj hlast] at hnot
          exact absurd hq hnot
    · next hnone =>
      refine ⟨h, fun hlast => ?_⟩
      cases hnone.symm.trans hlast

/-- States are shuffled among the active ones. -/
theorem Shuffled.live {k k' : Kernel} (h : Shuffled k k') {pid : Pid} (hpid : k.Live pid) :
    k'.Live pid := by
  rcases h pid with heq | ⟨a, b, -, hb, -, hactive⟩
  · rw [Live, heq]
    exact hpid
  · exact live_iff.2 ⟨b, hb, hactive⟩

/-- After a dispatch the choice is on its CPU, and the others are as they were. -/
theorem dispatch_cpuCurrent :
    (k.dispatch c scheduledThisTick).2.scheduler.cpuCurrent =
      Function.update k.scheduler.cpuCurrent c
        (Scheduler.decided (k.pick c scheduledThisTick).1) := by
  rw [dispatch_scheduler, pick_current]

/-- A process is chosen by a decision to run it. -/
theorem chosen_eq_some {decision : SchedulingDecision} {pid : Pid} (h : chosen decision = some pid) :
    ∃ tid, decision = .run pid tid := by
  cases decision with
  | run p tid =>
    cases h
    exact ⟨tid, rfl⟩
  | idle => cases h
  | halt => cases h

/-- So is a thread. -/
theorem decided_eq_some {decision : SchedulingDecision} {pid : Pid} {tid : Tid}
    (h : Scheduler.decided decision = some (pid, tid)) : decision = .run pid tid := by
  cases decision with
  | run p t =>
    cases h
    rfl
  | idle => cases h
  | halt => cases h

section dispatch

variable {k c}

/-- Who runs after a CPU was scheduled got it, or runs on another CPU as before. -/
theorem InTune.dispatch_running (h : k.InTune c) {q : Pid}
    (hq : (k.dispatch c scheduledThisTick).2.stateOf q = some .running) :
    (∃ tid, (k.pick c scheduledThisTick).1 = .run q tid) ∨
      ∃ i tid, i ≠ c ∧ k.scheduler.cpuCurrent i = some (q, tid) := by
  have hstates := k.pick_stateOf c scheduledThisTick
  have hlast := k.pick_lastRunning c scheduledThisTick
  -- a CPU without a decision had no process, so nobody is preempted
  have hstays : (∀ p t, (k.pick c scheduledThisTick).1 ≠ .run p t) → k.stateOf q = some .running →
      ∃ i tid, i ≠ c ∧ k.scheduler.cpuCurrent i = some (q, tid) := by
    intro hnot hrunning
    obtain ⟨i, tid, hcur⟩ := h.coherent.running q hrunning
    refine ⟨i, tid, ?_, hcur⟩
    rintro rfl
    obtain ⟨p, t, hruns⟩ := pick_runs scheduledThisTick h.plain hcur
    exact hnot p t hruns
  cases hdecision : (k.pick c scheduledThisTick).1 with
  | run p t =>
    simp only [Kernel.dispatch, hdecision] at hq
    rcases markRunning_running _ hq with rfl | htracked
    · exact Or.inl ⟨t, rfl⟩
    rcases eq_or_ne q p with rfl | hne
    · exact Or.inl ⟨t, rfl⟩
    · obtain ⟨hrunning, hpreempted⟩ := trackLast_running hne htracked
      rw [hstates] at hrunning
      rw [hlast] at hpreempted
      obtain ⟨i, tid, hcur⟩ := h.coherent.running q hrunning
      refine Or.inr ⟨i, tid, ?_, hcur⟩
      -- on this CPU it would have been preempted
      rintro rfl
      obtain ⟨j, hj, hother⟩ := hpreempted (h.noted i q tid hcur)
      exact h.ahead q tid hcur j hj hother
  | idle =>
    simp only [Kernel.dispatch, hdecision] at hq
    exact Or.inr (hstays (by simp [hdecision]) (hstates ▸ hq))
  | halt =>
    simp only [Kernel.dispatch, hdecision] at hq
    exact Or.inr (hstays (by simp [hdecision]) (hstates ▸ hq))

/-- A dispatch by the CPU whose turn it is keeps scheduler and table coherent. -/
theorem InTune.dispatch_coherent (h : k.InTune c) :
    (k.dispatch c scheduledThisTick).2.Coherent := by
  constructor
  · rintro q ⟨x, hx, rfl⟩
    rw [dispatch_scheduler, pick_entries] at hx
    exact (k.shuffled_dispatch c scheduledThisTick).live (h.coherent.live x.1 ⟨x, hx, rfl⟩)
  · intro q hq
    rw [dispatch_cpuCurrent]
    rcases h.dispatch_running scheduledThisTick hq with ⟨tid, hdecision⟩ | ⟨i, tid, hi, hcur⟩
    · exact ⟨c, tid, by rw [Function.update_self, hdecision]; rfl⟩
    · exact ⟨i, tid, by rw [Function.update_of_ne hi]; exact hcur⟩

/-- When a CPU has been scheduled, the other one is ready for its turn. -/
theorem InTune.dispatch (h : k.InTune c) {next : Fin 2} (hnext : next ≠ c) :
    (k.dispatch c scheduledThisTick).2.InTune next := by
  have hplain : (k.dispatch c scheduledThisTick).2.scheduler.Plain := by
    rw [dispatch_scheduler]
    exact (k.pick_driven c scheduledThisTick).plain h.plain
  have hcurrent := k.dispatch_cpuCurrent c scheduledThisTick
  have hlast := k.dispatch_lastRunning c scheduledThisTick
  refine ⟨hplain, h.dispatch_coherent scheduledThisTick, ?_, ?_⟩
  · intro i pid tid hcur
    rw [hcurrent] at hcur
    rw [hlast]
    rcases eq_or_ne i c with rfl | hi
    · rw [Function.update_self] at hcur
      rw [Function.update_self, decided_eq_some hcur]
      rfl
    · rw [Function.update_of_ne hi] at hcur
      rw [Function.update_of_ne hi]
      exact h.noted i pid tid hcur
  · intro pid tid hcur i hi hother
    have hic : i = c := by omega
    rw [hlast, hic, Function.update_self] at hother
    obtain ⟨t, hdecision⟩ := chosen_eq_some hother
    -- the last process of this CPU is current here, so it is not current on the other
    have hhere : (k.dispatch c scheduledThisTick).2.scheduler.cpuCurrent c = some (pid, t) := by
      rw [hcurrent, Function.update_self, hdecision]
      rfl
    exact hnext (hplain.distinct next c pid tid t hcur hhere)

end dispatch

end Kernel

/-! ## Runs -/

open Machine

/-- A time slice dispatches nothing. -/
theorem execute_not_dispatch (w : World) (cpuId : Fin 2) (pid : Pid) (n : Nat) (s : Machine) :
    ∀ t ∈ (execute w cpuId pid n s).2, ∀ c, t.act ≠ .dispatch c := by
  have hcall : ∀ s, ∀ t ∈ (runSyscall w cpuId pid s).2, ∀ c, t.act ≠ .dispatch c := by
    intro s
    simp only [runSyscall]
    split
    · simp
    · split
      · simp
      · simp
  have hfault : ∀ s, ∀ t ∈ (forwardFault w cpuId pid s).2, ∀ c, t.act ≠ .dispatch c := by
    intro s
    simp only [forwardFault]
    split
    · simp
    · split
      · simp
      · simp
  -- on the number of instructions
  induction n generalizing s with
  | zero => simp [execute]
  | succ n ih =>
    simp only [execute]
    split
    · simp
    split
    · simp
    split
    · simp
    split
    · simp only [List.forall_mem_append]
      exact ⟨by simp, hcall _⟩
    · simp only [List.forall_mem_append]
      exact ⟨⟨⟨by simp, hcall _⟩, hfault _⟩, ih _⟩

/-- Transitions that schedule no CPU. -/
theorem Traced.inTune {w : World} {s s' : Machine} {trace : List Tr} (h : Traced w s trace s')
    (hdispatch : ∀ t ∈ trace, ∀ c, t.act ≠ .dispatch c) {next : Fin 2}
    (hs : s.toKernel.InTune next) (hok : ∀ t ∈ trace, t.pre.InStep t.act) :
    s'.toKernel.InTune next ∧ ∀ t ∈ trace, t.pre.Agree ∧ t.post.Agree := by
  obtain ⟨hend, hall⟩ := h.chain.invariant (I := fun s => s.toKernel.InTune next) hs
    fun t ht hpre => (h.performed t ht).inTune hpre (hok t ht) (hdispatch t ht)
  exact ⟨hend, fun t ht => ⟨(hall t ht).1.agree, (hall t ht).2.agree⟩⟩

/-- A turn is the decision for its CPU and transitions that schedule none. -/
theorem turn_rest (w : World) (cpuId : Fin 2) (scheduledThisTick : List Pid) (s : Machine) :
    ∃ rest, (turn w cpuId scheduledThisTick s).2.1 =
        ⟨s, .dispatch cpuId, (s.dispatch cpuId scheduledThisTick).2⟩ :: rest ∧
      Traced w (s.dispatch cpuId scheduledThisTick).2 rest (turn w cpuId scheduledThisTick s).1 ∧
      ∀ t ∈ rest, ∀ c, t.act ≠ .dispatch c := by
  simp only [turn]
  split
  · next pid tid _ =>
    refine ⟨_, (List.append_assoc ..).trans List.singleton_append, ?_, ?_⟩
    · exact (execute_traced w cpuId pid 3 _).append
        (Traced.cons (.settle cpuId pid) (Traced.single (.reap cpuId)))
    · exact List.forall_mem_append.2 ⟨execute_not_dispatch w cpuId pid 3 _, by simp⟩
  · exact ⟨_, rfl, Traced.single (.reap cpuId), by simp⟩

/-- A turn that is in step leaves the service in tune for the other CPU. -/
theorem turn_inTune (w : World) {cpuId next : Fin 2} (hnext : next ≠ cpuId)
    (scheduledThisTick : List Pid) {s : Machine} (hs : s.toKernel.InTune cpuId)
    (hok : ∀ t ∈ (turn w cpuId scheduledThisTick s).2.1, t.pre.InStep t.act) :
    (turn w cpuId scheduledThisTick s).1.toKernel.InTune next ∧
      ∀ t ∈ (turn w cpuId scheduledThisTick s).2.1, t.pre.Agree ∧ t.post.Agree := by
  have hdispatched : (s.dispatch cpuId scheduledThisTick).2.toKernel.InTune next := by
    rw [s.dispatch_toKernel]
    exact hs.dispatch scheduledThisTick hnext
  obtain ⟨rest, htrace, hrest, hdispatch⟩ := turn_rest w cpuId scheduledThisTick s
  rw [htrace, List.forall_mem_cons] at hok
  obtain ⟨hend, hall⟩ := hrest.inTune hdispatch hdispatched hok.2
  rw [htrace, List.forall_mem_cons]
  exact ⟨hend, ⟨hs.agree, hdispatched.agree⟩, hall⟩

/-- Between two ticks the first CPU is the next one. -/
theorem handleTimerInterrupt_inTune (w : World) {s : Machine} (hs : s.toKernel.InTune 0)
    (hok : ∀ t ∈ (s.handleTimerInterrupt w).2, t.pre.InStep t.act) :
    (s.handleTimerInterrupt w).1.toKernel.InTune 0 ∧
      ∀ t ∈ (s.handleTimerInterrupt w).2, t.pre.Agree ∧ t.post.Agree := by
  simp only [handleTimerInterrupt, List.forall_mem_append] at hok ⊢
  obtain ⟨hmid, hfirst⟩ := turn_inTune w (by decide : (1 : Fin 2) ≠ 0) [] hs hok.1
  obtain ⟨hend, hsecond⟩ := turn_inTune w (by decide : (0 : Fin 2) ≠ 1) _ hmid hok.2
  exact ⟨hend, hfirst, hsecond⟩

/-- What the service does between the turns keeps it in tune. -/
theorem Served.inTune {w : World} {s s' : Machine} {trace : List Tr} (h : Served w s trace s')
    {next : Fin 2} (hs : s.toKernel.InTune next) (hok : ∀ t ∈ trace, t.pre.InStep t.act) :
    s'.toKernel.InTune next ∧ ∀ t ∈ trace, t.pre.Agree ∧ t.post.Agree := by
  refine h.toTraced.inTune ?_ hs hok
  intro t ht c hact
  have hservice := h.service t ht
  rw [hact] at hservice
  cases hservice

/-- Every message that is in step, -/
theorem handleMessage_inTune (w : World) {s : Machine} (msg : KernelMsg) (channel : Option RequestId)
    (hs : s.toKernel.InTune 0) (hok : ∀ t ∈ (s.handleMessage w msg channel).2, t.pre.InStep t.act) :
    (s.handleMessage w msg channel).1.toKernel.InTune 0 ∧
      ∀ t ∈ (s.handleMessage w msg channel).2, t.pre.Agree ∧ t.post.Agree := by
  cases msg with
  | process req => exact (handleRequest_served w s req channel).inTune hs hok
  | syscall call => exact (handleSyscallMessage_served w s call channel).inTune hs hok
  | interrupt interrupt =>
    cases interrupt with
    | timer => exact handleTimerInterrupt_inTune w hs hok
    | pageFault addr accessType =>
      have hsent : Performed w s .background (s.sendMemory (.pageFaultHandler 0 addr accessType)) :=
        .faultMessage addr accessType
      exact (Served.single hsent rfl).inTune hs hok
    | _ => exact (Served.nil w s).inTune hs hok
  | _ => exact (Served.nil w s).inTune hs hok

/-- and every event. -/
theorem handleEvent_inTune (w : World) (s : Machine) (event : Event) (hs : s.toKernel.InTune 0)
    (hok : ∀ t ∈ (s.handleEvent w event).2, t.pre.InStep t.act) :
    (s.handleEvent w event).1.toKernel.InTune 0 ∧
      ∀ t ∈ (s.handleEvent w event).2, t.pre.Agree ∧ t.post.Agree := by
  cases event with
  | timer => exact handleTimerInterrupt_inTune w hs hok
  | envelope msg expectsResponse =>
    simp only [handleEvent, Machine.handleEnvelope] at hok ⊢
    split at hok
    · next hexpects =>
      rw [if_pos hexpects]
      rw [List.forall_mem_cons] at hok ⊢
      -- the number of the request is no part of the tables
      have hs' : ({ s with nextRequestId := s.nextRequestId + 1 } : Machine).toKernel.InTune 0 := hs
      obtain ⟨hend, hall⟩ := handleMessage_inTune w msg (some s.nextRequestId) hs' hok.2
      exact ⟨hend, ⟨hs.agree, hs'.agree⟩, hall⟩
    · next hexpects =>
      rw [if_neg hexpects]
      exact handleMessage_inTune w msg none hs hok

/-- The service starts in tune. -/
theorem boot_inTune (w : World) (memory : MemoryService) : (boot w memory).toKernel.InTune 0 := by
  have hnone : ∀ c, (boot w memory).scheduler.cpuCurrent c = none := fun _ => rfl
  have hnew : Kernel.new.Coherent := by
    refine ⟨?_, fun pid hpid => by cases hpid⟩
    rintro pid ⟨x, hx, -⟩
    cases hx
  refine ⟨⟨?_, rfl, Scheduler.Sided.new _ 2⟩, ?_, ?_, ?_⟩
  · intro i j p t t' hi
    cases hi
  · exact hnew.enter rfl (fun q => Kernel.new.forkFresh_stateOf q) rfl (by decide)
  · intro c pid tid hcur
    cases (hnone c).symm.trans hcur
  · intro pid tid hcur
    cases (hnone 0).symm.trans hcur

/-- In a run whose transitions are in step, scheduler and table agree in every state. -/
theorem scheduler_table_agree (w : World) (memory : MemoryService) (events : List Event)
    (h : ∀ t ∈ (run w memory events).2, t.pre.InStep t.act) :
    (run w memory events).1.Agree ∧
      ∀ t ∈ (run w memory events).2, t.pre.Agree ∧ t.post.Agree := by
  obtain ⟨hend, hall⟩ := runTrace_guarded (handleEvent_inTune w) (boot_inTune w memory) events h
  exact ⟨hend.agree, hall⟩

/-- Process 1 is queued, runs, sleeps and is queued again. -/
def restedEvents : List Event :=
  [.envelope (.process (.schedule 1 1)) false, .timer,
    .envelope (.process (.block 1 1 .waitingForMemory)) false,
    .envelope (.process (.unblock 1 1)) false, .timer]

theorem rested_agrees :
    (∀ t ∈ (run (World.calm []) (bootMemory 8192 fun _ => 0) restedEvents).2, t.pre.InStep t.act) ∧
      (run (World.calm []) (bootMemory 8192 fun _ => 0) restedEvents).1.Agree := by
  have hok : ∀ t ∈ (run (World.calm []) (bootMemory 8192 fun _ => 0) restedEvents).2,
      t.pre.InStep t.act := by decide +kernel
  exact ⟨hok, (scheduler_table_agree _ _ _ hok).1⟩

/-- Process 1 is stopped while it is queued. -/
def stoppedEvents : List Event :=
  [.envelope (.process (.schedule 1 1)) false, .envelope (.process (.signal 1 .stop)) false]

theorem stopped_process_queued :
    ¬(run (World.calm []) (bootMemory 8192 fun _ => 0) stoppedEvents).1.Agree := by
  intro h
  have hqueued : (run (World.calm []) (bootMemory 8192 fun _ => 0)
      stoppedEvents).1.scheduler.Scheduled 1 := by decide +kernel
  obtain ⟨st, hst, hawake, -⟩ := h.scheduled 1 hqueued
  have hstopped : (run (World.calm []) (bootMemory 8192 fun _ => 0) stoppedEvents).1.stateOf 1 =
      some (.blocked (.waitingForIo 0)) := by decide +kernel
  rw [hstopped] at hst
  cases hst
  cases hawake

end GenshinOs.Process
