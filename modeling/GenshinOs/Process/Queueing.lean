import GenshinOs.Process.Scheduler
import Mathlib.Algebra.Order.Group.Multiset

/-!
# What the scheduler keeps

Three properties of the scheduler for all policies. `schedule` and `yieldCurrent` move entries
between the CPUs and the queues and never lose or double one: both vacate the CPU, if they do not
keep its current process, and then dequeue, and each of the two steps conserves the entries.

`remove` clears every CPU but only the first entry of the ready queue, and it reports only that
queue. The process is therefore gone for good, and reported as it should be, exactly when it had at
most one entry there and was nowhere else alone.

The priority queue is filled and never read, so the two policies that use it leave every CPU idle.
The others are work-conserving.
-/

set_option autoImplicit false

namespace GenshinOs.Process

namespace Scheduler

variable {n : Nat}

/-- The thread an entry of a queue is for. -/
def key (e : ReadyQueueEntry) : Pid × Tid := (e.pid, e.tid)

/-- The threads current on the CPUs. -/
def currents (s : Scheduler n) : List (Pid × Tid) := (List.finRange n).filterMap s.cpuCurrent

/-- The threads in a queue. -/
def queued (queue : List ReadyQueueEntry) : Multiset (Pid × Tid) := Multiset.ofList (queue.map key)

/-- All entries of the scheduler: the current ones and those of both queues. -/
def entries (s : Scheduler n) : Multiset (Pid × Tid) :=
  Multiset.ofList s.currents + queued s.readyQueue + queued s.priorityQueue

/-- The decision is what the CPU has afterwards. -/
def Reports (current : Option (Pid × Tid)) : SchedulingDecision → Prop
  | .run pid tid => current = some (pid, tid)
  | .idle => current = none
  | .halt => False

/-! ## The two steps of a decision -/

/-- The CPU gives its current process back. -/
def vacate (s : Scheduler n) (c : Fin n) : Scheduler n :=
  match s.cpuCurrent c with
  | some (pid, tid) => s.requeue c pid tid
  | none => s

/-- One more tick on a CPU. -/
def tick (s : Scheduler n) (c : Fin n) : Scheduler n :=
  { s with cpuTicks := Function.update s.cpuTicks c (s.cpuTicks c + 1) }

/-- The tick that is counted does not matter to a thread that is queued again. -/
theorem tick_requeue (s : Scheduler n) (c : Fin n) (pid : Pid) (tid : Tid) :
    (s.tick c).requeue c pid tid = s.requeue c pid tid := by
  obtain ⟨policy, _, _, _, _, _, _, _⟩ := s
  cases policy <;> simp [tick, requeue, ready]

/-- To yield is to leave the CPU and to choose the next thread. -/
theorem yieldCurrent_eq (s : Scheduler n) (c : Fin n) :
    s.yieldCurrent c = (s.vacate c).dequeueNext c := by
  cases hcur : s.cpuCurrent c with
  | none => simp only [yieldCurrent, vacate, hcur]
  | some cur => simp only [yieldCurrent, vacate, hcur]

/-- A CPU keeps its process while the slice lasts. -/
theorem schedule_keep {s : Scheduler n} {c : Fin n} {pid : Pid} {tid : Tid}
    (hcur : s.cpuCurrent c = some (pid, tid)) (hslice : s.cpuTicks c + 1 < s.timeSlice) :
    s.schedule c = (.run pid tid, s.tick c) := by
  simp [schedule, hcur, hslice, tick]

/-- Otherwise it gives the process back, if there is one, and dequeues. -/
theorem schedule_next {s : Scheduler n} {c : Fin n}
    (hslice : (s.cpuCurrent c).isSome → s.timeSlice ≤ s.cpuTicks c + 1) :
    s.schedule c = (s.vacate c).dequeueNext c := by
  cases hcur : s.cpuCurrent c with
  | none => simp [schedule, vacate, hcur]
  | some cur =>
    obtain ⟨pid, tid⟩ := cur
    have hexp : ¬ s.cpuTicks c + 1 < s.timeSlice := by
      have := hslice (by rw [hcur]; rfl)
      omega
    have hreq := s.tick_requeue c pid tid
    simp only [tick] at hreq
    simp [schedule, vacate, hcur, hexp, hreq]

/-- The two ways a decision is made. -/
theorem schedule_cases (s : Scheduler n) (c : Fin n) :
    (∃ pid tid, s.cpuCurrent c = some (pid, tid) ∧ s.cpuTicks c + 1 < s.timeSlice ∧
      s.schedule c = (.run pid tid, s.tick c)) ∨
    s.schedule c = (s.vacate c).dequeueNext c := by
  cases hcur : s.cpuCurrent c with
  | none => exact Or.inr (schedule_next (by simp [hcur]))
  | some cur =>
    obtain ⟨pid, tid⟩ := cur
    rcases Nat.lt_or_ge (s.cpuTicks c + 1) s.timeSlice with hlt | hge
    · exact Or.inl ⟨pid, tid, rfl, hlt, schedule_keep hcur hlt⟩
    · exact Or.inr (schedule_next fun _ => hge)

@[simp] theorem vacate_cpuCurrent (s : Scheduler n) (c : Fin n) :
    (s.vacate c).cpuCurrent = Function.update s.cpuCurrent c none := by
  cases hcur : s.cpuCurrent c with
  | none =>
    rw [← hcur, Function.update_eq_self]
    simp [vacate, hcur]
  | some cur =>
    obtain ⟨pid, tid⟩ := cur
    simp [vacate, hcur, requeue_cpuCurrent]

@[simp] theorem vacate_policy (s : Scheduler n) (c : Fin n) : (s.vacate c).policy = s.policy := by
  simp only [vacate]
  split
  · simp [requeue]
  · rfl

@[simp] theorem dequeueNext_policy (s : Scheduler n) (c : Fin n) :
    (s.dequeueNext c).2.policy = s.policy := by
  simp only [dequeueNext]
  split <;> rfl

@[simp] theorem dequeueNext_priorityQueue (s : Scheduler n) (c : Fin n) :
    (s.dequeueNext c).2.priorityQueue = s.priorityQueue := by
  simp only [dequeueNext]
  split <;> rfl

/-! ## Conservation -/

/-- An entry put on a CPU that has none is one more entry. -/
theorem filterMap_update_some {f : Fin n → Option (Pid × Tid)} {c : Fin n} (hc : f c = none)
    (x : Pid × Tid) :
    ((List.finRange n).filterMap (Function.update f c (some x))).Perm
      (x :: (List.finRange n).filterMap f) := by
  have hsplit : (List.finRange n).Perm (c :: (List.finRange n).erase c) :=
    List.perm_cons_erase (List.mem_finRange c)
  have hrest : ((List.finRange n).erase c).filterMap (Function.update f c (some x)) =
      ((List.finRange n).erase c).filterMap f := by
    apply List.filterMap_congr
    intro i hi
    have hne : i ≠ c := ((List.nodup_finRange n).mem_erase_iff.1 hi).1
    rw [Function.update_of_ne hne]
  have hleft := hsplit.filterMap (Function.update f c (some x))
  have hright := hsplit.filterMap f
  rw [List.filterMap_cons_some (Function.update_self c (some x) f), hrest] at hleft
  rw [List.filterMap_cons_none hc] at hright
  exact hleft.trans (hright.symm.cons x)

/-- The queue by priority has one entry more. -/
theorem insertByPriority_perm (entry : ReadyQueueEntry) (queue : List ReadyQueueEntry) :
    (insertByPriority entry queue).Perm (entry :: queue) := by
  induction queue with
  | nil => exact List.Perm.refl [entry]
  | cons e queue ih =>
    simp only [insertByPriority]
    split
    · exact List.Perm.refl _
    · exact (ih.cons e).trans (List.Perm.swap entry e queue)

/-- The order of a queue does not matter to what is queued. -/
theorem queued_perm {queue queue' : List ReadyQueueEntry} (h : queue.Perm queue') :
    queued queue = queued queue' := Multiset.coe_eq_coe.2 (h.map key)

@[simp] theorem queued_cons (e : ReadyQueueEntry) (queue : List ReadyQueueEntry) :
    queued (e :: queue) = key e ::ₘ queued queue := rfl

/-- An entry at the end is one thread more. -/
theorem queued_concat (queue : List ReadyQueueEntry) (e : ReadyQueueEntry) :
    queued (queue ++ [e]) = key e ::ₘ queued queue := queued_perm List.perm_append_comm

/-- To queue a thread is one entry more, -/
theorem entries_ready (s : Scheduler n) (pid : Pid) (tid : Tid) (priority : UInt8) :
    (s.ready pid tid priority).entries = (pid, tid) ::ₘ s.entries := by
  have hcurrents : (s.ready pid tid priority).currents = s.currents := by
    rw [currents, ready_cpuCurrent]
    rfl
  have hinsert := queued_perm (insertByPriority_perm ⟨pid, tid, priority⟩ s.priorityQueue)
  simp only [entries, hcurrents]
  cases hpolicy : s.policy <;>
    simp [ready, hpolicy, hinsert, queued_concat, key, Multiset.add_cons, Multiset.cons_add]

/-- to leave a CPU puts its thread back, -/
theorem entries_vacate (s : Scheduler n) (c : Fin n) : (s.vacate c).entries = s.entries := by
  cases hcur : s.cpuCurrent c with
  | none => simp [vacate, hcur]
  | some cur =>
    obtain ⟨pid, tid⟩ := cur
    -- the entry leaves the CPU and joins a queue
    have hoff : Multiset.ofList s.currents = (pid, tid) ::ₘ Multiset.ofList (s.vacate c).currents := by
      have hperm := filterMap_update_some (Function.update_self c none s.cpuCurrent) (pid, tid)
      rw [Function.update_idem, ← hcur, Function.update_eq_self] at hperm
      rw [currents, currents, vacate_cpuCurrent]
      exact Multiset.coe_eq_coe.2 hperm
    have hqueues : (s.vacate c).readyQueue = (s.ready pid tid 128).readyQueue ∧
        (s.vacate c).priorityQueue = (s.ready pid tid 128).priorityQueue := by
      simp [vacate, hcur, requeue]
    have hready := s.entries_ready pid tid 128
    simp only [entries, currents, ready_cpuCurrent] at hready
    have hsum : (pid, tid) ::ₘ (s.vacate c).entries = (pid, tid) ::ₘ s.entries := by
      simp only [entries, ← Multiset.cons_add, ← hoff, hqueues.1, hqueues.2]
      exact hready
    exact (Multiset.cons_inj_right _).1 hsum

/-- a free CPU takes one over, -/
theorem entries_dequeueNext {s : Scheduler n} {c : Fin n} (hcur : s.cpuCurrent c = none) :
    (s.dequeueNext c).2.entries = s.entries := by
  rcases s.dequeueNext_cases c with ⟨e, -, -, -, hcpu, hqueue⟩ | ⟨-, -, hcpu, hqueue⟩
  · have hon : Multiset.ofList (s.dequeueNext c).2.currents =
        key e ::ₘ Multiset.ofList s.currents := by
      rw [currents, hcpu]
      exact Multiset.coe_eq_coe.2 (filterMap_update_some hcur (key e))
    have hoff := queued_perm hqueue.symm
    simp only [entries, hon, hoff, queued_cons, dequeueNext_priorityQueue, Multiset.cons_add,
      Multiset.add_cons]
  · have hsame : (s.dequeueNext c).2.currents = s.currents := by
      rw [currents, hcpu, ← hcur, Function.update_eq_self]
      rfl
    simp only [entries, hsame, queued_perm hqueue, dequeueNext_priorityQueue]

/-- and the two together lose none. -/
theorem entries_next (s : Scheduler n) (c : Fin n) :
    ((s.vacate c).dequeueNext c).2.entries = s.entries := by
  rw [entries_dequeueNext (by simp), entries_vacate]

/-- No entry is lost in a dispatch, -/
theorem entries_schedule (s : Scheduler n) (c : Fin n) : (s.schedule c).2.entries = s.entries := by
  rcases s.schedule_cases c with ⟨pid, tid, -, -, heq⟩ | heq
  · rw [heq]
    rfl
  · rw [heq]
    exact s.entries_next c

/-- nor when a thread yields. -/
theorem entries_yieldCurrent (s : Scheduler n) (c : Fin n) :
    (s.yieldCurrent c).2.entries = s.entries := by
  rw [yieldCurrent_eq]
  exact s.entries_next c

/-- The decision names the thread that is on the CPU afterwards. -/
theorem dequeueNext_reports (s : Scheduler n) (c : Fin n) :
    Reports ((s.dequeueNext c).2.cpuCurrent c) (s.dequeueNext c).1 := by
  rcases s.dequeueNext_cases c with ⟨e, -, -, hdec, hcpu, -⟩ | ⟨-, hdec, hcpu, -⟩
  · rw [hdec, hcpu]
    exact Function.update_self ..
  · rw [hdec, hcpu]
    exact Function.update_self ..

/-- A decision conserves the entries of the scheduler and names what its CPU has afterwards. -/
theorem entries_conserved (s : Scheduler n) (c : Fin n) :
    ((s.schedule c).2.entries = s.entries ∧
      Reports ((s.schedule c).2.cpuCurrent c) (s.schedule c).1) ∧
    ((s.yieldCurrent c).2.entries = s.entries ∧
      Reports ((s.yieldCurrent c).2.cpuCurrent c) (s.yieldCurrent c).1) := by
  refine ⟨⟨s.entries_schedule c, ?_⟩, s.entries_yieldCurrent c, ?_⟩
  · rcases s.schedule_cases c with ⟨pid, tid, hcur, -, heq⟩ | heq
    · rw [heq]
      exact hcur
    · rw [heq]
      exact dequeueNext_reports (s.vacate c) c
  · rw [yieldCurrent_eq]
    exact dequeueNext_reports (s.vacate c) c

/-! ## Removing a process -/

/-- One operation without the decisions. -/
def perform (s : Scheduler n) : Op → Scheduler n
  | .ready pid tid priority => s.ready pid tid priority
  | .remove pid tid => (s.remove pid tid).2
  | .block pid tid => (s.block pid tid).2
  | .schedule cpuId => if h : cpuId < n then (s.schedule ⟨cpuId, h⟩).2 else s
  | .yieldCurrent cpuId => if h : cpuId < n then (s.yieldCurrent ⟨cpuId, h⟩).2 else s

/-- The scheduler after some operations. -/
def performAll (s : Scheduler n) (ops : List Op) : Scheduler n := ops.foldl perform s

/-- The operation makes the thread ready. -/
def Op.readies (pid : Pid) (tid : Tid) : Op → Bool
  | .ready p t _ => p == pid && t == tid
  | _ => false

/-- No later decision for any CPU runs the thread, as long as it is not made ready again. -/
def Gone (s : Scheduler n) (pid : Pid) (tid : Tid) : Prop :=
  ∀ later : List Op, later.all (fun op => !op.readies pid tid) = true →
    ∀ c, ((s.performAll later).schedule c).1 ≠ .run pid tid ∧
      ((s.performAll later).yieldCurrent c).1 ≠ .run pid tid

/-- The thread is current on some CPU. -/
def Current (s : Scheduler n) (pid : Pid) (tid : Tid) : Prop :=
  ∃ i, s.cpuCurrent i = some (pid, tid)

/-- The thread has an entry in the queue. -/
def InQueue (queue : List ReadyQueueEntry) (pid : Pid) (tid : Tid) : Prop :=
  ∃ e ∈ queue, ReadyQueueEntry.isOf e pid tid = true

/-- What a removal should do: report whether the scheduler had the thread, and forget it. -/
def Complete (s : Scheduler n) (pid : Pid) (tid : Tid) (removal : Bool × Scheduler n) : Prop :=
  (removal.1 = true ↔
    s.Current pid tid ∨ InQueue s.readyQueue pid tid ∨ InQueue s.priorityQueue pid tid) ∧
  removal.2.Gone pid tid

/-- An entry is of a thread when its key is. -/
theorem isOf_iff (e : ReadyQueueEntry) (pid : Pid) (tid : Tid) :
    ReadyQueueEntry.isOf e pid tid = true ↔ key e = (pid, tid) := by
  simp [ReadyQueueEntry.isOf, key]

/-- The thread is nowhere the scheduler takes a process from. -/
structure Absent (s : Scheduler n) (pid : Pid) (tid : Tid) : Prop where
  current : ∀ i, s.cpuCurrent i ≠ some (pid, tid)
  queue : ∀ e ∈ s.readyQueue, key e ≠ (pid, tid)

section Absent

variable {s : Scheduler n} {pid : Pid} {tid : Tid}

/-- A thread that is absent stays so when another one is queued, -/
theorem Absent.ready (h : s.Absent pid tid) {p : Pid} {t : Tid} (hne : (p, t) ≠ (pid, tid))
    (priority : UInt8) : (s.ready p t priority).Absent pid tid := by
  refine ⟨by simpa using h.current, ?_⟩
  have hback : ∀ e ∈ s.readyQueue ++ [⟨p, t, priority⟩], key e ≠ (pid, tid) := by
    intro e he
    rcases List.mem_append.1 he with he | he
    · exact h.queue e he
    · rw [List.mem_singleton.1 he]
      exact hne
  cases hpolicy : s.policy with
  | fifo => simpa [Scheduler.ready, hpolicy] using hback
  | roundRobin quantum => simpa [Scheduler.ready, hpolicy] using hback
  | priority => simpa [Scheduler.ready, hpolicy] using h.queue
  | sjf => simpa [Scheduler.ready, hpolicy] using h.queue
  | mlfq => simpa [Scheduler.ready, hpolicy] using hback

/-- when one is removed, -/
theorem Absent.remove (h : s.Absent pid tid) (p : Pid) (t : Tid) :
    (s.remove p t).2.Absent pid tid := by
  constructor
  · intro i hi
    simp only [Scheduler.remove] at hi
    split at hi
    · cases hi
    · exact h.current i hi
  · intro e he
    exact h.queue e (List.mem_of_mem_eraseP he)

/-- and when a CPU is left. -/
theorem Absent.vacate (h : s.Absent pid tid) (c : Fin n) : (s.vacate c).Absent pid tid := by
  cases hcur : s.cpuCurrent c with
  | none => simpa [Scheduler.vacate, hcur] using h
  | some cur =>
    obtain ⟨p, t⟩ := cur
    have hne : (p, t) ≠ (pid, tid) := fun heq => h.current c (by rw [hcur, heq])
    have hready := h.ready hne 128
    refine ⟨?_, by simpa [Scheduler.vacate, hcur, requeue] using hready.queue⟩
    intro i
    rw [vacate_cpuCurrent]
    rcases eq_or_ne i c with rfl | hic
    · simp
    · rw [Function.update_of_ne hic]
      exact h.current i

/-- An absent thread is not dequeued. -/
theorem Absent.dequeueNext (h : s.Absent pid tid) (c : Fin n) :
    (s.dequeueNext c).1 ≠ .run pid tid ∧ (s.dequeueNext c).2.Absent pid tid := by
  have hupdate : ∀ x : Option (Pid × Tid), x ≠ some (pid, tid) →
      ∀ i, Function.update s.cpuCurrent c x i ≠ some (pid, tid) := by
    intro x hx i
    rcases eq_or_ne i c with rfl | hic
    · rwa [Function.update_self]
    · rw [Function.update_of_ne hic]
      exact h.current i
  rcases s.dequeueNext_cases c with ⟨e, he, -, hdec, hcpu, hqueue⟩ | ⟨-, hdec, hcpu, hqueue⟩
  · have hne := h.queue e he
    refine ⟨?_, ?_, ?_⟩
    · rw [hdec]
      intro heq
      cases heq
      exact hne rfl
    · rw [hcpu]
      exact hupdate _ (fun heq => hne (Option.some.inj heq))
    · intro e' he'
      exact h.queue e' (hqueue.mem_iff.1 (List.mem_cons_of_mem e he'))
  · refine ⟨by rw [hdec]; exact nofun, ?_, ?_⟩
    · rw [hcpu]
      exact hupdate none nofun
    · intro e' he'
      exact h.queue e' (hqueue.mem_iff.1 he')

/-- It is not chosen when a thread yields, -/
theorem Absent.yieldCurrent (h : s.Absent pid tid) (c : Fin n) :
    (s.yieldCurrent c).1 ≠ .run pid tid ∧ (s.yieldCurrent c).2.Absent pid tid := by
  rw [yieldCurrent_eq]
  exact (h.vacate c).dequeueNext c

/-- nor at a dispatch. -/
theorem Absent.schedule (h : s.Absent pid tid) (c : Fin n) :
    (s.schedule c).1 ≠ .run pid tid ∧ (s.schedule c).2.Absent pid tid := by
  rcases s.schedule_cases c with ⟨p, t, hcur, -, heq⟩ | heq
  · rw [heq]
    refine ⟨?_, h.current, h.queue⟩
    intro hrun
    cases hrun
    exact h.current c hcur
  · rw [heq]
    exact (h.vacate c).dequeueNext c

/-- So it is after every operation that does not queue it. -/
theorem Absent.perform (h : s.Absent pid tid) {op : Op} (hop : op.readies pid tid = false) :
    (s.perform op).Absent pid tid := by
  cases op with
  | ready p t priority =>
    refine h.ready ?_ priority
    intro heq
    cases heq
    simp [Op.readies] at hop
  | remove p t => exact h.remove p t
  | block p t => exact h.remove p t
  | schedule cpuId =>
    simp only [Scheduler.perform]
    split
    · exact (h.schedule _).2
    · exact h
  | yieldCurrent cpuId =>
    simp only [Scheduler.perform]
    split
    · exact (h.yieldCurrent _).2
    · exact h

/-- A thread that is absent is gone. -/
theorem Absent.gone (h : s.Absent pid tid) : s.Gone pid tid := by
  intro later hlater
  have hend : (s.performAll later).Absent pid tid := by
    induction later generalizing s with
    | nil => exact h
    | cons op later ih =>
      simp only [List.all_cons, Bool.and_eq_true, Bool.not_eq_true'] at hlater
      exact ih (h.perform hlater.1) hlater.2
  exact fun c => ⟨(hend.schedule c).1, (hend.yieldCurrent c).1⟩

end Absent

/-- A thread that is removed is on no CPU, -/
theorem remove_current_ne {s : Scheduler n} {p : Pid} {t : Tid} (i : Fin n) :
    (s.remove p t).2.cpuCurrent i ≠ some (p, t) := by
  simp only [remove]
  split
  · simp
  · assumption

/-- a free CPU stays free, -/
theorem remove_cpuCurrent_of_none {s : Scheduler n} {i : Fin n} (h : s.cpuCurrent i = none)
    (p : Pid) (t : Tid) : (s.remove p t).2.cpuCurrent i = none := by
  simp [remove, h]

/-- and other threads stay in the queue. -/
theorem inQueue_remove_of_ne {s : Scheduler n} {pid : Pid} {tid : Tid}
    (h : InQueue s.readyQueue pid tid) {p : Pid} {t : Tid} (hne : (p, t) ≠ (pid, tid)) :
    InQueue (s.remove p t).2.readyQueue pid tid := by
  obtain ⟨e, he, hof⟩ := h
  refine ⟨e, ?_, hof⟩
  simp only [remove]
  rw [List.mem_eraseP_of_neg]
  · exact he
  · intro hof'
    rw [isOf_iff] at hof hof'
    exact hne (hof'.symm.trans hof)

/-- Once no CPU is busy, removing the entries in front of a queued thread makes it the next. -/
theorem not_gone_of_idle {s : Scheduler n} {pid : Pid} {tid : Tid} (c : Fin n)
    (hidle : ∀ i, s.cpuCurrent i = none) (hin : InQueue s.readyQueue pid tid) :
    ¬ s.Gone pid tid := by
  induction hqueue : s.readyQueue generalizing s with
  | nil =>
    rw [hqueue] at hin
    obtain ⟨e, he, -⟩ := hin
    cases he
  | cons e queue ih =>
    intro hgone
    rcases eq_or_ne (key e) (pid, tid) with heq | hne
    · -- the thread is at the front and every CPU is free
      have hbusy : s.busy c = [] := by
        simp [busy, hidle]
      have hdec : (s.schedule c).1 = .run e.pid e.tid := by
        simp [schedule, hidle c, dequeueNext, hqueue, hbusy, dequeueLoop]
      cases heq
      exact (hgone [] rfl c).1 hdec
    · have hof : ReadyQueueEntry.isOf e e.pid e.tid = true := (isOf_iff e e.pid e.tid).2 rfl
      have hrest : (s.remove e.pid e.tid).2.readyQueue = queue := by
        simp [remove, hqueue, hof]
      refine ih (fun i => remove_cpuCurrent_of_none (hidle i) e.pid e.tid)
        (inQueue_remove_of_ne hin hne) hrest ?_
      intro later hlater
      exact hgone (.remove e.pid e.tid :: later) (by simpa [Op.readies] using hlater)

/-- The CPUs can be cleared one by one without touching a thread that only waits. -/
theorem not_gone_of_inQueue {s : Scheduler n} {pid : Pid} {tid : Tid} (c : Fin n)
    (hcur : ∀ i, s.cpuCurrent i ≠ some (pid, tid)) (hin : InQueue s.readyQueue pid tid) :
    ¬ s.Gone pid tid := by
  have hclear : ∀ k ≤ n, ∀ s : Scheduler n, (∀ i, s.cpuCurrent i ≠ some (pid, tid)) →
      InQueue s.readyQueue pid tid → (∀ i : Fin n, k ≤ i.val → s.cpuCurrent i = none) →
      ¬ s.Gone pid tid := by
    intro k
    -- induction on the number of CPUs that may still be busy
    induction k with
    | zero => exact fun _ s _ hin hidle => not_gone_of_idle c (fun i => hidle i (Nat.zero_le _)) hin
    | succ k ih =>
      intro hk s hcur hin hidle hgone
      cases hlast : s.cpuCurrent ⟨k, hk⟩ with
      | none =>
        refine ih (Nat.le_of_succ_le hk) s hcur hin ?_ hgone
        intro i hi
        rcases Nat.eq_or_lt_of_le hi with heq | hlt
        · rw [← hlast]
          exact congrArg s.cpuCurrent (Fin.ext heq.symm)
        · exact hidle i hlt
      | some cur =>
        obtain ⟨p, t⟩ := cur
        have hne : (p, t) ≠ (pid, tid) := fun heq => hcur ⟨k, hk⟩ (by rw [hlast, heq])
        -- the current thread of the last one is another one, so that it can be removed
        refine ih (Nat.le_of_succ_le hk) (s.remove p t).2 ?_ (inQueue_remove_of_ne hin hne) ?_ ?_
        · intro i hi
          simp only [remove] at hi
          split at hi
          · cases hi
          · exact hcur i hi
        · intro i hi
          rcases Nat.eq_or_lt_of_le hi with heq | hlt
          · have hik : i = ⟨k, hk⟩ := Fin.ext heq.symm
            simp [remove, hik, hlast]
          · exact remove_cpuCurrent_of_none (hidle i hlt) p t
        · intro later hlater
          exact hgone (.remove p t :: later) (by simpa [Op.readies] using hlater)
  exact hclear n (Nat.le_refl n) s hcur hin fun i hi => absurd i.isLt (Nat.not_lt.2 hi)

/-- One entry is erased, if there is one. -/
theorem countP_eraseP (f : ReadyQueueEntry → Bool) (queue : List ReadyQueueEntry) :
    (queue.eraseP f).countP f = queue.countP f - 1 := by
  induction queue with
  | nil => rfl
  | cons e queue ih =>
    cases he : f e with
    | true => simp [he]
    | false => simp [he, ih]

/-- One entry is removed, so a thread is still queued when it had two. -/
theorem inQueue_remove_iff (s : Scheduler n) (pid : Pid) (tid : Tid) :
    InQueue (s.remove pid tid).2.readyQueue pid tid ↔
      2 ≤ s.readyQueue.countP (ReadyQueueEntry.isOf · pid tid) := by
  have hcount := countP_eraseP (ReadyQueueEntry.isOf · pid tid) s.readyQueue
  have hpos : InQueue (s.remove pid tid).2.readyQueue pid tid ↔
      0 < (s.readyQueue.eraseP (ReadyQueueEntry.isOf · pid tid)).countP
        (ReadyQueueEntry.isOf · pid tid) := List.countP_pos_iff.symm
  rw [hpos]
  omega

/-- After its removal a thread is gone, unless a second entry of it was in the ready queue. -/
theorem gone_remove_iff (s : Scheduler n) (pid : Pid) (tid : Tid) :
    (s.remove pid tid).2.Gone pid tid ↔
      n = 0 ∨ s.readyQueue.countP (ReadyQueueEntry.isOf · pid tid) ≤ 1 := by
  constructor
  · intro hgone
    rcases Nat.eq_zero_or_pos n with hzero | hpos
    · exact Or.inl hzero
    · right
      by_contra htwo
      exact not_gone_of_inQueue ⟨0, hpos⟩ remove_current_ne
        ((s.inQueue_remove_iff pid tid).2 (by omega)) hgone
  · rintro (rfl | hone)
    · exact fun _ _ c => c.elim0
    · apply Absent.gone
      refine ⟨remove_current_ne, ?_⟩
      intro e he heq
      have := (s.inQueue_remove_iff pid tid).1 ⟨e, he, (isOf_iff e pid tid).2 heq⟩
      omega

/-- The result tells whether the thread was in the ready queue. -/
theorem remove_eq_true_iff (s : Scheduler n) (pid : Pid) (tid : Tid) :
    (s.remove pid tid).1 = true ↔ InQueue s.readyQueue pid tid := by
  simp [remove, InQueue]

/-- When a removal is complete, in terms of the entries before it. -/
theorem complete_remove_iff (s : Scheduler n) (pid : Pid) (tid : Tid) :
    s.Complete pid tid (s.remove pid tid) ↔
      (s.Current pid tid ∨ InQueue s.priorityQueue pid tid → InQueue s.readyQueue pid tid) ∧
      (n = 0 ∨ s.readyQueue.countP (ReadyQueueEntry.isOf · pid tid) ≤ 1) := by
  rw [Complete, remove_eq_true_iff, gone_remove_iff]
  apply and_congr_left
  intro _
  tauto

/-- In every state the scheduler reaches, `remove` and `block` do all that is expected of them
exactly when the thread has no second entry in the ready queue and is not outside it alone. -/
theorem removal_complete_iff (policy : SchedulingPolicy) (n : Nat) (ops : List Op) (pid : Pid)
    (tid : Tid) :
    ((runOps policy n ops).scheduler.Complete pid tid
        ((runOps policy n ops).scheduler.remove pid tid) ∧
      (runOps policy n ops).scheduler.Complete pid tid
        ((runOps policy n ops).scheduler.block pid tid)) ↔
      ((runOps policy n ops).scheduler.Current pid tid ∨
          InQueue (runOps policy n ops).scheduler.priorityQueue pid tid →
        InQueue (runOps policy n ops).scheduler.readyQueue pid tid) ∧
      (n = 0 ∨ (runOps policy n ops).scheduler.readyQueue.countP
        (ReadyQueueEntry.isOf · pid tid) ≤ 1) := by
  rw [block, and_self_iff]
  exact complete_remove_iff _ pid tid

/-- A running process is removed and reported as not found. -/
theorem running_removal_denied :
    ((runOps (.roundRobin 3) 1 [.ready 1 1 128, .schedule 0]).scheduler.Current 1 1 ∧
      ((runOps (.roundRobin 3) 1 [.ready 1 1 128, .schedule 0]).scheduler.remove 1 1).1 = false) ∧
    ¬ (runOps (.roundRobin 3) 1 [.ready 1 1 128, .schedule 0]).scheduler.Complete 1 1
      ((runOps (.roundRobin 3) 1 [.ready 1 1 128, .schedule 0]).scheduler.remove 1 1) := by
  have hcur : (runOps (.roundRobin 3) 1 [.ready 1 1 128, .schedule 0]).scheduler.Current 1 1 :=
    ⟨0, by decide⟩
  have hfalse : ((runOps (.roundRobin 3) 1 [.ready 1 1 128, .schedule 0]).scheduler.remove 1 1).1 =
      false := by decide
  refine ⟨⟨hcur, hfalse⟩, ?_⟩
  rintro ⟨hret, -⟩
  rw [hret.2 (Or.inl hcur)] at hfalse
  cases hfalse

/-! ## Work conservation -/

/-- The entries made ready and not removed since, as an operation changes them. -/
def readiedStep (readied : List ReadyQueueEntry) : Op → List ReadyQueueEntry
  | .ready pid tid priority => readied ++ [⟨pid, tid, priority⟩]
  | .remove pid tid => readied.filter fun e => !ReadyQueueEntry.isOf e pid tid
  | .block pid tid => readied.filter fun e => !ReadyQueueEntry.isOf e pid tid
  | .schedule _ => readied
  | .yieldCurrent _ => readied

/-- The entries made ready and not removed since. -/
def readied (ops : List Op) : List ReadyQueueEntry := ops.foldl readiedStep []

/-- The process is current on another CPU. -/
def Elsewhere (s : Scheduler n) (c : Fin n) (pid : Pid) : Prop :=
  ∃ i, i ≠ c ∧ ∃ tid, s.cpuCurrent i = some (pid, tid)

/-- A CPU is left idle only when every ready process runs elsewhere, and under the priority policy
a free CPU takes a process of the highest priority among those it may take. -/
def WorkConserving (s : Scheduler n) (c : Fin n) (waiting : List ReadyQueueEntry) : Prop :=
  ((s.schedule c).1 = .idle → ∀ e ∈ waiting, s.Elsewhere c e.pid) ∧
  (s.policy = .priority → s.cpuCurrent c = none → ∀ pid tid, (s.schedule c).1 = .run pid tid →
    ∃ e ∈ waiting, key e = (pid, tid) ∧
      ∀ e' ∈ waiting, ¬ s.Elsewhere c e'.pid → e'.priority ≤ e.priority)

/-- The policies that keep their processes in the priority queue. -/
def SchedulingPolicy.ranked : SchedulingPolicy → Bool
  | .priority => true
  | .sjf => true
  | _ => false

/-- Under each policy one side of the scheduler stays empty. -/
structure Sided (s : Scheduler n) : Prop where
  ranked : SchedulingPolicy.ranked s.policy = true →
    s.readyQueue = [] ∧ ∀ i, s.cpuCurrent i = none
  unranked : SchedulingPolicy.ranked s.policy = false → s.priorityQueue = []

/-- Both sides of a new scheduler are empty. -/
theorem Sided.new (policy : SchedulingPolicy) (n : Nat) : (Scheduler.new policy n).Sided :=
  ⟨fun _ => ⟨rfl, fun _ => rfl⟩, fun _ => rfl⟩

section Sided

variable {s : Scheduler n}

/-- The side stays empty when a thread is queued, -/
theorem Sided.ready (h : s.Sided) (pid : Pid) (tid : Tid) (priority : UInt8) :
    (s.ready pid tid priority).Sided := by
  constructor
  · rw [ready_policy, ready_cpuCurrent]
    intro hr
    refine ⟨?_, (h.ranked hr).2⟩
    rw [← (h.ranked hr).1]
    cases hpolicy : s.policy <;> simp_all [Scheduler.ready, SchedulingPolicy.ranked]
  · rw [ready_policy]
    intro hr
    rw [← h.unranked hr]
    cases hpolicy : s.policy <;> simp_all [Scheduler.ready, SchedulingPolicy.ranked]

/-- when one is removed, -/
theorem Sided.remove (h : s.Sided) (pid : Pid) (tid : Tid) : (s.remove pid tid).2.Sided := by
  constructor
  · intro hr
    obtain ⟨hqueue, hidle⟩ := h.ranked hr
    refine ⟨by simp [Scheduler.remove, hqueue], ?_⟩
    exact fun i => remove_cpuCurrent_of_none (hidle i) pid tid
  · exact h.unranked

/-- when a CPU is left, -/
theorem Sided.vacate (h : s.Sided) (c : Fin n) : (s.vacate c).Sided := by
  cases hcur : s.cpuCurrent c with
  | none => simpa [Scheduler.vacate, hcur] using h
  | some cur =>
    obtain ⟨pid, tid⟩ := cur
    have hunranked : SchedulingPolicy.ranked s.policy = false := by
      by_contra hr
      have hidle := (h.ranked (by simpa using hr)).2 c
      rw [hcur] at hidle
      cases hidle
    constructor
    · rw [vacate_policy, hunranked]
      exact nofun
    · intro _
      have hready := (h.ready pid tid 128).unranked (by rw [ready_policy]; exact hunranked)
      simpa [Scheduler.vacate, hcur, requeue] using hready

/-- when one takes its next thread, -/
theorem Sided.dequeueNext (h : s.Sided) (c : Fin n) : (s.dequeueNext c).2.Sided := by
  constructor
  · rw [dequeueNext_policy]
    intro hr
    obtain ⟨hqueue, hidle⟩ := h.ranked hr
    rcases s.dequeueNext_cases c with ⟨e, he, -⟩ | ⟨-, -, hcpu, hperm⟩
    · rw [hqueue] at he
      cases he
    · rw [hqueue] at hperm
      refine ⟨hperm.eq_nil, fun i => ?_⟩
      simp [hcpu, Function.update_apply, hidle i]
  · rw [dequeueNext_policy, dequeueNext_priorityQueue]
    exact h.unranked

/-- when a thread yields, -/
theorem Sided.yieldCurrent (h : s.Sided) (c : Fin n) : (s.yieldCurrent c).2.Sided := by
  rw [yieldCurrent_eq]
  exact (h.vacate c).dequeueNext c

/-- at a dispatch, -/
theorem Sided.schedule (h : s.Sided) (c : Fin n) : (s.schedule c).2.Sided := by
  rcases s.schedule_cases c with ⟨pid, tid, -, -, heq⟩ | heq
  · rw [heq]
    exact ⟨h.ranked, h.unranked⟩
  · rw [heq]
    exact (h.vacate c).dequeueNext c

/-- and so in every operation. -/
theorem Sided.perform (h : s.Sided) (op : Op) : (s.perform op).Sided := by
  cases op with
  | ready pid tid priority => exact h.ready pid tid priority
  | remove pid tid => exact h.remove pid tid
  | block pid tid => exact h.remove pid tid
  | schedule cpuId =>
    simp only [Scheduler.perform]
    split
    · exact h.schedule _
    · exact h
  | yieldCurrent cpuId =>
    simp only [Scheduler.perform]
    split
    · exact h.yieldCurrent _
    · exact h

end Sided

/-- An entry is on a CPU, or in one of the queues. -/
theorem mem_entries {s : Scheduler n} {x : Pid × Tid} :
    x ∈ s.entries ↔ (∃ i, s.cpuCurrent i = some x) ∨ (∃ e ∈ s.readyQueue, key e = x) ∨
      ∃ e ∈ s.priorityQueue, key e = x := by
  simp [entries, currents, queued]

/-- A removal leaves the entries of others. -/
theorem mem_entries_remove {s : Scheduler n} {x : Pid × Tid} {pid : Pid} {tid : Tid}
    (h : x ∈ s.entries) (hne : x ≠ (pid, tid)) : x ∈ (s.remove pid tid).2.entries := by
  rw [mem_entries] at h ⊢
  rcases h with ⟨i, hi⟩ | ⟨e, he, rfl⟩ | hprio
  · refine Or.inl ⟨i, ?_⟩
    have hother : s.cpuCurrent i ≠ some (pid, tid) := by
      rw [hi]
      exact fun heq => hne (Option.some.inj heq)
    simpa [remove, hother] using hi
  · obtain ⟨e', he', hof⟩ := inQueue_remove_of_ne ⟨e, he, (isOf_iff e e.pid e.tid).2 rfl⟩ hne.symm
    exact Or.inr (Or.inl ⟨e', he', (isOf_iff e' _ _).1 hof⟩)
  · exact Or.inr (Or.inr hprio)

/-- Every entry made ready and not removed is still somewhere in the scheduler. -/
def Holds (s : Scheduler n) (waiting : List ReadyQueueEntry) : Prop :=
  ∀ e ∈ waiting, key e ∈ s.entries

/-- What waits is held, apart from the thread that is removed, -/
theorem Holds.remove {s : Scheduler n} {waiting : List ReadyQueueEntry} (h : s.Holds waiting)
    (pid : Pid) (tid : Tid) :
    (s.remove pid tid).2.Holds (waiting.filter fun e => !ReadyQueueEntry.isOf e pid tid) := by
  intro e he
  rw [List.mem_filter] at he
  refine mem_entries_remove (h e he.1) ?_
  rw [Ne, ← isOf_iff]
  simpa using he.2

/-- and so after every operation. -/
theorem Holds.perform {s : Scheduler n} {waiting : List ReadyQueueEntry} (h : s.Holds waiting)
    (op : Op) : (s.perform op).Holds (readiedStep waiting op) := by
  cases op with
  | ready pid tid priority =>
    intro e he
    rw [Scheduler.perform, entries_ready, Multiset.mem_cons]
    rcases List.mem_append.1 he with he | he
    · exact Or.inr (h e he)
    · rw [List.mem_singleton.1 he]
      exact Or.inl rfl
  | remove pid tid => exact h.remove pid tid
  | block pid tid => exact h.remove pid tid
  | schedule cpuId =>
    intro e he
    simp only [Scheduler.perform]
    split
    · rw [entries_schedule]
      exact h e he
    · exact h e he
  | yieldCurrent cpuId =>
    intro e he
    simp only [Scheduler.perform]
    split
    · rw [entries_yieldCurrent]
      exact h e he
    · exact h e he

/-- The record does not change the scheduler. -/
theorem apply_scheduler (r : Tracked n) (op : Op) :
    (r.apply op).scheduler = r.scheduler.perform op := by
  cases op with
  | ready pid tid priority => rfl
  | remove pid tid => rfl
  | block pid tid => rfl
  | schedule cpuId =>
    simp only [Tracked.apply, perform]
    split <;> rfl
  | yieldCurrent cpuId =>
    simp only [Tracked.apply, perform]
    split <;> rfl

/-- Nor do the records of a run. -/
theorem runOps_scheduler (policy : SchedulingPolicy) (n : Nat) (ops : List Op) :
    (runOps policy n ops).scheduler = (new policy n).performAll ops := by
  have hfold : ∀ r : Tracked n, (ops.foldl Tracked.apply r).scheduler =
      r.scheduler.performAll ops := by
    induction ops with
    | nil => exact fun r => rfl
    | cons op ops ih =>
      intro r
      rw [List.foldl_cons, ih, apply_scheduler]
      rfl
  exact hfold _

/-- What a run keeps for every policy. -/
structure Served (policy : SchedulingPolicy) (s : Scheduler n) (waiting : List ReadyQueueEntry) :
    Prop where
  policy_eq : s.policy = policy
  sided : s.Sided
  holds : s.Holds waiting

@[simp] theorem perform_policy (s : Scheduler n) (op : Op) : (s.perform op).policy = s.policy := by
  cases op with
  | ready pid tid priority => exact ready_policy ..
  | remove pid tid => rfl
  | block pid tid => rfl
  | schedule cpuId =>
    simp only [perform]
    split
    · rcases s.schedule_cases ⟨cpuId, by assumption⟩ with ⟨pid, tid, -, -, heq⟩ | heq
      · rw [heq]
        rfl
      · simp [heq]
    · rfl
  | yieldCurrent cpuId =>
    simp only [perform]
    split
    · simp [yieldCurrent_eq]
    · rfl

/-- After a run the scheduler serves what was queued. -/
theorem served_runOps (policy : SchedulingPolicy) (n : Nat) (ops : List Op) :
    Served policy (runOps policy n ops).scheduler (readied ops) := by
  have hfold : ∀ (s : Scheduler n) (waiting : List ReadyQueueEntry), Served policy s waiting →
      Served policy (s.performAll ops) (ops.foldl readiedStep waiting) := by
    induction ops with
    | nil => exact fun s waiting h => h
    | cons op ops ih =>
      intro s waiting h
      exact ih _ _ ⟨(perform_policy s op).trans h.policy_eq, h.sided.perform op, h.holds.perform op⟩
  rw [runOps_scheduler]
  exact hfold _ _ ⟨rfl, Sided.new policy n, nofun⟩

/-- A CPU without a process that dequeues nothing leaves only processes that run elsewhere. -/
theorem dequeueNext_idle {s : Scheduler n} {c : Fin n} (hcur : s.cpuCurrent c = none)
    (hprio : s.priorityQueue = []) (hidle : (s.dequeueNext c).1 = .idle)
    {x : Pid × Tid} (hx : x ∈ s.entries) : s.Elsewhere c x.1 := by
  rcases s.dequeueNext_cases c with ⟨e, -, -, hdec, -⟩ | ⟨hall, -⟩
  · rw [hdec] at hidle
    cases hidle
  · rw [mem_entries, hprio] at hx
    rcases hx with ⟨i, hi⟩ | ⟨e, he, rfl⟩ | ⟨e, he, -⟩
    · refine ⟨i, ?_, x.2, hi⟩
      rintro rfl
      rw [hcur] at hi
      cases hi
    · exact (s.mem_busy c e.pid).1 (hall e he)
    · cases he

/-- A process that runs elsewhere did so before the CPU was left. -/
theorem elsewhere_of_vacate {s : Scheduler n} {c : Fin n} {pid : Pid}
    (h : (s.vacate c).Elsewhere c pid) : s.Elsewhere c pid := by
  obtain ⟨i, hi, tid, hcur⟩ := h
  rw [vacate_cpuCurrent, Function.update_of_ne hi] at hcur
  exact ⟨i, hi, tid, hcur⟩

/-- Without priorities no CPU idles while a thread waits. -/
theorem workConserving_of_unranked {s : Scheduler n} {waiting : List ReadyQueueEntry}
    (hsided : s.Sided) (hholds : s.Holds waiting) (hr : SchedulingPolicy.ranked s.policy = false)
    (c : Fin n) : s.WorkConserving c waiting := by
  constructor
  · intro hidle e he
    rcases s.schedule_cases c with ⟨pid, tid, -, -, heq⟩ | heq
    · rw [heq] at hidle
      cases hidle
    · rw [heq] at hidle
      have hprio := (hsided.vacate c).unranked (by rw [vacate_policy]; exact hr)
      have hmem : key e ∈ (s.vacate c).entries := by
        rw [entries_vacate]
        exact hholds e he
      exact elsewhere_of_vacate (dequeueNext_idle (by simp) hprio hidle hmem)
  · intro hpolicy
    rw [hpolicy] at hr
    cases hr

/-- The ranked policies leave every CPU idle. -/
theorem schedule_of_ranked {s : Scheduler n} (hsided : s.Sided)
    (hr : SchedulingPolicy.ranked s.policy = true) (c : Fin n) : (s.schedule c).1 = .idle := by
  obtain ⟨hqueue, hidle⟩ := hsided.ranked hr
  simp [schedule, hidle c, dequeueNext, hqueue, dequeueLoop]

/-- In every state the scheduler reaches, a CPU is scheduled without wasting it exactly when the
policy is not one of the two ranked ones, or there is nothing to run. -/
theorem workConserving_iff (policy : SchedulingPolicy) (n : Nat) (ops : List Op) (c : Fin n) :
    (runOps policy n ops).scheduler.WorkConserving c (readied ops) ↔
      (policy ≠ .priority ∧ policy ≠ .sjf) ∨ readied ops = [] := by
  obtain ⟨hpolicy, hsided, hholds⟩ := served_runOps policy n ops
  have hranked : SchedulingPolicy.ranked policy = false ↔ policy ≠ .priority ∧ policy ≠ .sjf := by
    cases policy <;> simp [SchedulingPolicy.ranked]
  rw [← hranked]
  constructor
  · rintro ⟨hidle, -⟩
    cases hr : SchedulingPolicy.ranked policy with
    | false => exact Or.inl rfl
    | true =>
      right
      rw [← hpolicy] at hr
      -- the ranked policies leave the CPU idle whatever waits
      have hall := hidle (schedule_of_ranked hsided hr c)
      rw [List.eq_nil_iff_forall_not_mem]
      intro e he
      obtain ⟨i, -, tid, hcur⟩ := hall e he
      rw [(hsided.ranked hr).2 i] at hcur
      cases hcur
  · intro hcond
    cases hr : SchedulingPolicy.ranked policy with
    | false => exact workConserving_of_unranked hsided hholds (by rw [hpolicy]; exact hr) c
    | true =>
      rcases hcond with hfalse | hnil
      · rw [hfalse] at hr
        cases hr
      · rw [hnil]
        refine ⟨fun _ => nofun, fun _ _ pid tid hrun => ?_⟩
        rw [schedule_of_ranked hsided (by rw [hpolicy]; exact hr) c] at hrun
        cases hrun

/-- Under the priority policy a single ready process waits while the only CPU is idle. -/
theorem priority_process_waits :
    ((runOps .priority 1 [.ready 1 1 128]).scheduler.schedule 0).1 = .idle ∧
      ¬ (runOps .priority 1 [.ready 1 1 128]).scheduler.WorkConserving 0
        (readied [.ready 1 1 128]) := by
  have hidle : ((runOps .priority 1 [.ready 1 1 128]).scheduler.schedule 0).1 = .idle := by decide
  refine ⟨hidle, ?_⟩
  rintro ⟨hall, -⟩
  obtain ⟨i, hi, -⟩ := hall hidle ⟨1, 1, 128⟩ (by decide)
  exact hi (Subsingleton.elim i 0)

end Scheduler

end GenshinOs.Process
