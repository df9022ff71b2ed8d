import GenshinOs.Messaging

/-!
# Scheduler

The SMP-aware scheduler (`src/services/process/scheduler.rs`) for any number of CPUs. Each CPU has a
current process and a tick counter; the ready processes wait in one queue, which the priority
policies never read: they insert into a list of their own. A CPU takes the first queued process
that is not current elsewhere, and a busy one is moved to the back.

`Distinct` says that no process is current on two CPUs. `remove` and `ready` keep it for trivial
reasons, `schedule` and `yieldCurrent` because `dequeueNext` looks at the other CPUs.
-/

set_option autoImplicit false

namespace GenshinOs.Process

/-- Scheduling policy. -/
inductive SchedulingPolicy where
  | fifo
  | roundRobin (quantum : Nat)
  | priority
  | sjf
  | mlfq
  deriving DecidableEq, Repr

/-- Scheduling decision. -/
inductive SchedulingDecision where
  | run (pid : Pid) (tid : Tid)
  | idle
  | halt
  deriving DecidableEq, Repr

/-- Entry of the ready queue. -/
structure ReadyQueueEntry where
  pid : Pid
  tid : Tid
  priority : UInt8
  deriving DecidableEq, Repr

/-- Scheduler of `n` CPUs. -/
structure Scheduler (n : Nat) where
  policy : SchedulingPolicy
  readyQueue : List ReadyQueueEntry
  priorityQueue : List ReadyQueueEntry
  cpuCurrent : Fin n → Option (Pid × Tid)
  cpuTicks : Fin n → Nat
  timeSlice : Nat
  totalScheduled : Nat
  contextSwitches : Nat

namespace Scheduler

variable {n : Nat}

/-- A scheduler without threads. -/
def new (policy : SchedulingPolicy) (n : Nat) : Scheduler n where
  policy := policy
  readyQueue := []
  priorityQueue := []
  cpuCurrent := fun _ => none
  cpuTicks := fun _ => 0
  timeSlice :=
    match policy with
    | .roundRobin quantum => quantum
    | _ => 10
  totalScheduled := 0
  contextSwitches := 0

/-- Insert before the first entry of lower priority. -/
def insertByPriority (entry : ReadyQueueEntry) : List ReadyQueueEntry → List ReadyQueueEntry
  | [] => [entry]
  | e :: es => if e.priority < entry.priority then entry :: e :: es
      else e :: insertByPriority entry es

/-- Add a process to the queue of its policy. -/
def ready (s : Scheduler n) (pid : Pid) (tid : Tid) (priority : UInt8) : Scheduler n :=
  let entry : ReadyQueueEntry := ⟨pid, tid, priority⟩
  match s.policy with
  | .fifo => { s with readyQueue := s.readyQueue ++ [entry] }
  | .roundRobin _ => { s with readyQueue := s.readyQueue ++ [entry] }
  | .priority => { s with priorityQueue := insertByPriority entry s.priorityQueue }
  | .sjf => { s with priorityQueue := insertByPriority entry s.priorityQueue }
  | .mlfq => { s with readyQueue := s.readyQueue ++ [entry] }

/-- The entry is of the given thread. -/
def ReadyQueueEntry.isOf (e : ReadyQueueEntry) (pid : Pid) (tid : Tid) : Bool :=
  e.pid == pid && e.tid == tid

/-- Remove a thread from all CPUs and its first entry from the ready queue. -/
def remove (s : Scheduler n) (pid : Pid) (tid : Tid) : Bool × Scheduler n :=
  (s.readyQueue.any (ReadyQueueEntry.isOf · pid tid),
    { s with
      cpuCurrent := fun i => if s.cpuCurrent i = some (pid, tid) then none else s.cpuCurrent i
      cpuTicks := fun i => if s.cpuCurrent i = some (pid, tid) then 0 else s.cpuTicks i
      readyQueue := s.readyQueue.eraseP (ReadyQueueEntry.isOf · pid tid) })

/-- A thread that is blocked is taken from the queues. -/
def block (s : Scheduler n) (pid : Pid) (tid : Tid) : Bool × Scheduler n := s.remove pid tid

/-- The processes current on the other CPUs. -/
def busy (s : Scheduler n) (cpuId : Fin n) : List Pid :=
  ((List.finRange n).filter (· ≠ cpuId)).filterMap fun i => (s.cpuCurrent i).map Prod.fst

/-- The dequeue loop: a busy process goes to the back, the first other one is taken. -/
def dequeueLoop (busy : List Pid) : Nat → List ReadyQueueEntry →
    Option ReadyQueueEntry × List ReadyQueueEntry
  | 0, queue => (none, queue)
  | k + 1, [] => dequeueLoop busy k []
  | k + 1, e :: queue =>
    if e.pid ∈ busy then dequeueLoop busy k (queue ++ [e]) else (some e, queue)

/-- The first thread of the queue whose process runs on no other CPU. -/
def dequeueNext (s : Scheduler n) (cpuId : Fin n) : SchedulingDecision × Scheduler n :=
  match dequeueLoop (s.busy cpuId) s.readyQueue.length s.readyQueue with
  | (some e, queue) =>
    (.run e.pid e.tid,
      { s with
        readyQueue := queue
        cpuCurrent := Function.update s.cpuCurrent cpuId (some (e.pid, e.tid))
        cpuTicks := Function.update s.cpuTicks cpuId 0
        totalScheduled := s.totalScheduled + 1
        contextSwitches := s.contextSwitches + 1 })
  | (none, queue) =>
    (.idle,
      { s with
        readyQueue := queue
        cpuCurrent := Function.update s.cpuCurrent cpuId none })

/-- Put the current process of a CPU back into the queue. -/
def requeue (s : Scheduler n) (cpuId : Fin n) (pid : Pid) (tid : Tid) : Scheduler n :=
  let s := s.ready pid tid 128
  { s with
    cpuCurrent := Function.update s.cpuCurrent cpuId none
    cpuTicks := Function.update s.cpuTicks cpuId 0 }

/-- Pick a process for a CPU: the current one until its time slice is over. -/
def schedule (s : Scheduler n) (cpuId : Fin n) : SchedulingDecision × Scheduler n :=
  match s.cpuCurrent cpuId with
  | some (pid, tid) =>
    let ticked := { s with cpuTicks := Function.update s.cpuTicks cpuId (s.cpuTicks cpuId + 1) }
    if ticked.cpuTicks cpuId < s.timeSlice then (.run pid tid, ticked)
    else (ticked.requeue cpuId pid tid).dequeueNext cpuId
  | none => s.dequeueNext cpuId

/-- Put the current process back and pick the next one. -/
def yieldCurrent (s : Scheduler n) (cpuId : Fin n) : SchedulingDecision × Scheduler n :=
  match s.cpuCurrent cpuId with
  | some (pid, tid) => (s.requeue cpuId pid tid).dequeueNext cpuId
  | none => s.dequeueNext cpuId

/-! ## The dequeue loop -/

theorem mem_busy (s : Scheduler n) (cpuId : Fin n) (p : Pid) :
    p ∈ s.busy cpuId ↔ ∃ i, i ≠ cpuId ∧ ∃ t, s.cpuCurrent i = some (p, t) := by
  simp only [busy, List.mem_filterMap, List.mem_filter, List.mem_finRange, true_and,
    decide_eq_true_eq, Option.map_eq_some_iff]
  constructor
  · rintro ⟨i, hi, ⟨q, t⟩, hcur, rfl⟩
    exact ⟨i, hi, t, hcur⟩
  · rintro ⟨i, hi, t, hcur⟩
    exact ⟨i, hi, (p, t), hcur, rfl⟩

/-- The loop only rearranges the queue and takes at most one entry out. -/
theorem dequeueLoop_perm (busy : List Pid) (k : Nat) (queue : List ReadyQueueEntry) :
    ((dequeueLoop busy k queue).1.toList ++ (dequeueLoop busy k queue).2).Perm queue := by
  induction k generalizing queue with
  | zero => exact List.Perm.refl queue
  | succ k ih =>
    cases queue with
    | nil => exact ih []
    | cons e queue =>
      simp only [dequeueLoop]
      split
      · exact (ih (queue ++ [e])).trans List.perm_append_comm
      · exact List.Perm.refl (e :: queue)

theorem dequeueLoop_not_busy {busy : List Pid} {k : Nat} {queue : List ReadyQueueEntry}
    {e : ReadyQueueEntry} (h : (dequeueLoop busy k queue).1 = some e) : e.pid ∉ busy := by
  induction k generalizing queue with
  | zero => cases h
  | succ k ih =>
    cases queue with
    | nil => exact ih h
    | cons e' queue =>
      simp only [dequeueLoop] at h
      split at h
      · exact ih h
      · next hnot =>
        cases h
        exact hnot

/-- A loop that takes nothing has seen only busy processes. -/
theorem dequeueLoop_none {busy : List Pid} {k : Nat} (front back : List ReadyQueueEntry)
    (hk : front.length ≤ k) (hback : ∀ e ∈ back, e.pid ∈ busy)
    (h : (dequeueLoop busy k (front ++ back)).1 = none) :
    ∀ e ∈ front ++ back, e.pid ∈ busy := by
  induction k generalizing front back with
  | zero =>
    have hnil : front = [] := List.length_eq_zero_iff.1 (Nat.le_zero.1 hk)
    rw [hnil]
    exact hback
  | succ k ih =>
    cases front with
    | nil =>
      rw [List.nil_append]
      exact hback
    | cons e front =>
      simp only [List.cons_append, dequeueLoop] at h
      split at h
      · next hbusy =>
        -- the busy entry joins the back, which stays busy
        rw [List.append_assoc] at h
        have hrest := ih front (back ++ [e]) (by simpa using hk) (by
          intro e' he'
          rcases List.mem_append.1 he' with he' | he'
          · exact hback e' he'
          · rw [List.mem_singleton.1 he']
            exact hbusy) h
        intro e' he'
        rcases List.mem_cons.1 he' with rfl | he'
        · exact hbusy
        · apply hrest
          rcases List.mem_append.1 he' with he' | he'
          · exact List.mem_append_left _ he'
          · exact List.mem_append_right _ (List.mem_append_left _ he')
      · cases h

/-! ## What the operations do to the current processes -/

@[simp] theorem ready_cpuCurrent (s : Scheduler n) (pid : Pid) (tid : Tid) (priority : UInt8) :
    (s.ready pid tid priority).cpuCurrent = s.cpuCurrent := by
  simp only [ready]
  split <;> rfl

@[simp] theorem ready_policy (s : Scheduler n) (pid : Pid) (tid : Tid) (priority : UInt8) :
    (s.ready pid tid priority).policy = s.policy := by
  simp only [ready]
  split <;> rfl

@[simp] theorem ready_timeSlice (s : Scheduler n) (pid : Pid) (tid : Tid) (priority : UInt8) :
    (s.ready pid tid priority).timeSlice = s.timeSlice := by
  simp only [ready]
  split <;> rfl

theorem requeue_cpuCurrent (s : Scheduler n) (cpuId : Fin n) (pid : Pid) (tid : Tid) :
    (s.requeue cpuId pid tid).cpuCurrent = Function.update s.cpuCurrent cpuId none := by
  simp [requeue]

/-- What `dequeueNext` decides: a queued process that is not busy, or nothing. -/
theorem dequeueNext_cases (s : Scheduler n) (cpuId : Fin n) :
    (∃ e, e ∈ s.readyQueue ∧ e.pid ∉ s.busy cpuId ∧
      (s.dequeueNext cpuId).1 = .run e.pid e.tid ∧
      (s.dequeueNext cpuId).2.cpuCurrent =
        Function.update s.cpuCurrent cpuId (some (e.pid, e.tid)) ∧
      (e :: (s.dequeueNext cpuId).2.readyQueue).Perm s.readyQueue) ∨
    ((∀ e ∈ s.readyQueue, e.pid ∈ s.busy cpuId) ∧
      (s.dequeueNext cpuId).1 = .idle ∧
      (s.dequeueNext cpuId).2.cpuCurrent = Function.update s.cpuCurrent cpuId none ∧
      (s.dequeueNext cpuId).2.readyQueue.Perm s.readyQueue) := by
  have hperm := dequeueLoop_perm (s.busy cpuId) s.readyQueue.length s.readyQueue
  cases hloop : dequeueLoop (s.busy cpuId) s.readyQueue.length s.readyQueue with
  | mk taken queue =>
    rw [hloop] at hperm
    cases taken with
    | some e =>
      have hnot := dequeueLoop_not_busy (e := e) (by rw [hloop])
      refine Or.inl ⟨e, hperm.mem_iff.1 List.mem_cons_self, hnot, ?_⟩
      simp only [dequeueNext, hloop]
      exact ⟨trivial, trivial, hperm⟩
    | none =>
      have hall := dequeueLoop_none s.readyQueue [] (Nat.le_refl _) (by simp) (by
        rw [List.append_nil, hloop])
      rw [List.append_nil] at hall
      refine Or.inr ⟨hall, ?_⟩
      simp only [dequeueNext, hloop]
      exact ⟨trivial, trivial, hperm⟩

/-- The decision is what the CPU's entry says afterwards. -/
def decided : SchedulingDecision → Option (Pid × Tid)
  | .run pid tid => some (pid, tid)
  | .idle => none
  | .halt => none

theorem dequeueNext_decided (s : Scheduler n) (cpuId : Fin n) :
    (s.dequeueNext cpuId).2.cpuCurrent =
      Function.update s.cpuCurrent cpuId (decided (s.dequeueNext cpuId).1) := by
  rcases s.dequeueNext_cases cpuId with ⟨e, -, -, hdec, hcur, -⟩ | ⟨-, hdec, hcur, -⟩
  · rw [hdec, hcur]
    rfl
  · rw [hdec, hcur]
    rfl

theorem schedule_decided (s : Scheduler n) (cpuId : Fin n) :
    (s.schedule cpuId).2.cpuCurrent =
      Function.update s.cpuCurrent cpuId (decided (s.schedule cpuId).1) := by
  cases hcur : s.cpuCurrent cpuId with
  | none =>
    simp only [schedule, hcur]
    exact s.dequeueNext_decided cpuId
  | some cur =>
    obtain ⟨pid, tid⟩ := cur
    simp only [schedule, hcur]
    split
    · simp only [decided]
      rw [← hcur, Function.update_eq_self]
    · rw [dequeueNext_decided, requeue_cpuCurrent, Function.update_idem]

theorem yieldCurrent_decided (s : Scheduler n) (cpuId : Fin n) :
    (s.yieldCurrent cpuId).2.cpuCurrent =
      Function.update s.cpuCurrent cpuId (decided (s.yieldCurrent cpuId).1) := by
  cases hcur : s.cpuCurrent cpuId with
  | none =>
    simp only [yieldCurrent, hcur]
    exact s.dequeueNext_decided cpuId
  | some cur =>
    obtain ⟨pid, tid⟩ := cur
    simp only [yieldCurrent, hcur]
    rw [dequeueNext_decided, requeue_cpuCurrent, Function.update_idem]

/-! ## One CPU per process -/

/-- No process has an entry on two CPUs. -/
def Distinct (current : Fin n → Option (Pid × Tid)) : Prop :=
  ∀ i j p t t', current i = some (p, t) → current j = some (p, t') → i = j

/-- Clearing entries keeps them distinct. -/
theorem Distinct.mono {f g : Fin n → Option (Pid × Tid)} (h : Distinct f)
    (hsub : ∀ i p t, g i = some (p, t) → f i = some (p, t)) : Distinct g :=
  fun i j p t t' hi hj => h i j p t t' (hsub i p t hi) (hsub j p t' hj)

theorem Distinct.update_none {f : Fin n → Option (Pid × Tid)} (h : Distinct f) (c : Fin n) :
    Distinct (Function.update f c none) := by
  apply h.mono
  intro i p t hi
  rcases eq_or_ne i c with rfl | hne
  · simp at hi
  · rwa [Function.update_of_ne hne] at hi

/-- A new entry of a process that no other CPU runs. -/
theorem Distinct.update_some {f : Fin n → Option (Pid × Tid)} (h : Distinct f) {c : Fin n}
    {p : Pid} {t : Tid} (hfree : ∀ i, i ≠ c → ∀ t', f i ≠ some (p, t')) :
    Distinct (Function.update f c (some (p, t))) := by
  intro i j q u u' hi hj
  rcases eq_or_ne i c with rfl | hic
  · rcases eq_or_ne j i with rfl | hjc
    · rfl
    · rw [Function.update_of_ne hjc] at hj
      rw [Function.update_self] at hi
      cases hi
      exact absurd hj (hfree j hjc u')
  · rw [Function.update_of_ne hic] at hi
    rcases eq_or_ne j c with rfl | hjc
    · rw [Function.update_self] at hj
      cases hj
      exact absurd hi (hfree i hic u)
    · rw [Function.update_of_ne hjc] at hj
      exact h i j q u u' hi hj

theorem remove_distinct {s : Scheduler n} (h : Distinct s.cpuCurrent) (pid : Pid) (tid : Tid) :
    Distinct (s.remove pid tid).2.cpuCurrent := by
  apply h.mono
  intro i p t hi
  simp only [remove] at hi
  split at hi
  · cases hi
  · exact hi

theorem dequeueNext_distinct {s : Scheduler n} (h : Distinct s.cpuCurrent) (cpuId : Fin n) :
    Distinct (s.dequeueNext cpuId).2.cpuCurrent := by
  rcases s.dequeueNext_cases cpuId with ⟨e, -, hfree, -, hcur, -⟩ | ⟨-, -, hcur, -⟩
  · rw [hcur]
    apply h.update_some
    intro i hi t' hcur'
    exact hfree ((s.mem_busy cpuId e.pid).2 ⟨i, hi, t', hcur'⟩)
  · rw [hcur]
    exact h.update_none cpuId

theorem requeue_distinct {s : Scheduler n} (h : Distinct s.cpuCurrent) (cpuId : Fin n) (pid : Pid)
    (tid : Tid) : Distinct (s.requeue cpuId pid tid).cpuCurrent := by
  rw [requeue_cpuCurrent]
  exact h.update_none cpuId

theorem schedule_distinct {s : Scheduler n} (h : Distinct s.cpuCurrent) (cpuId : Fin n) :
    Distinct (s.schedule cpuId).2.cpuCurrent := by
  simp only [schedule]
  split
  · split
    · exact h
    · refine dequeueNext_distinct (requeue_distinct ?_ cpuId _ _) cpuId
      exact h
  · exact dequeueNext_distinct h cpuId

theorem yieldCurrent_distinct {s : Scheduler n} (h : Distinct s.cpuCurrent) (cpuId : Fin n) :
    Distinct (s.yieldCurrent cpuId).2.cpuCurrent := by
  simp only [yieldCurrent]
  split
  · exact dequeueNext_distinct (requeue_distinct h cpuId _ _) cpuId
  · exact dequeueNext_distinct h cpuId

/-! ## Sequences of operations -/

/-- An operation on the scheduler. -/
inductive Op where
  | ready (pid : Pid) (tid : Tid) (priority : UInt8)
  | remove (pid : Pid) (tid : Tid)
  | block (pid : Pid) (tid : Tid)
  | schedule (cpuId : Nat)
  | yieldCurrent (cpuId : Nat)
  deriving DecidableEq, Repr

/-- A scheduler with the decision in force on each CPU: the last one made for it, until the process
is removed. -/
structure Tracked (n : Nat) where
  scheduler : Scheduler n
  inForce : Fin n → Option (Pid × Tid)

/-- Record the decision that was made for a CPU. -/
def Tracked.decide (r : Tracked n) (c : Fin n) (result : SchedulingDecision × Scheduler n) :
    Tracked n :=
  ⟨result.2, Function.update r.inForce c (decided result.1)⟩

/-- One operation. A CPU that does not exist is an index out of range, which stops the caller
before anything is changed. -/
def Tracked.apply (r : Tracked n) : Op → Tracked n
  | .ready pid tid priority => { r with scheduler := r.scheduler.ready pid tid priority }
  | .remove pid tid =>
    ⟨(r.scheduler.remove pid tid).2, fun i => if r.inForce i = some (pid, tid) then none else r.inForce i⟩
  | .block pid tid =>
    ⟨(r.scheduler.block pid tid).2, fun i => if r.inForce i = some (pid, tid) then none else r.inForce i⟩
  | .schedule cpuId =>
    if h : cpuId < n then r.decide ⟨cpuId, h⟩ (r.scheduler.schedule ⟨cpuId, h⟩) else r
  | .yieldCurrent cpuId =>
    if h : cpuId < n then r.decide ⟨cpuId, h⟩ (r.scheduler.yieldCurrent ⟨cpuId, h⟩) else r

/-- A sequence of operations on a fresh scheduler. -/
def runOps (policy : SchedulingPolicy) (n : Nat) (ops : List Op) : Tracked n :=
  ops.foldl Tracked.apply ⟨new policy n, fun _ => none⟩

/-- The decisions in force are the current processes, and these are distinct. -/
structure Tracked.Ok (r : Tracked n) : Prop where
  inForce_eq : r.inForce = r.scheduler.cpuCurrent
  distinct : Distinct r.scheduler.cpuCurrent

theorem Tracked.apply_ok {r : Tracked n} (h : r.Ok) (op : Op) : (r.apply op).Ok := by
  cases op with
  | ready pid tid priority =>
    exact ⟨by simp [apply, h.inForce_eq], by simpa [apply] using h.distinct⟩
  | remove pid tid =>
    exact ⟨by simp [apply, remove, h.inForce_eq], remove_distinct h.distinct pid tid⟩
  | block pid tid =>
    exact ⟨by simp [apply, block, remove, h.inForce_eq], remove_distinct h.distinct pid tid⟩
  | schedule cpuId =>
    simp only [apply]
    split
    · refine ⟨?_, schedule_distinct h.distinct _⟩
      simp only [Tracked.decide, h.inForce_eq, schedule_decided]
    · exact h
  | yieldCurrent cpuId =>
    simp only [apply]
    split
    · refine ⟨?_, yieldCurrent_distinct h.distinct _⟩
      simp only [Tracked.decide, h.inForce_eq, yieldCurrent_decided]
    · exact h

theorem runOps_ok (policy : SchedulingPolicy) (n : Nat) (ops : List Op) : (runOps policy n ops).Ok := by
  have hfold : ∀ r : Tracked n, r.Ok → (ops.foldl Tracked.apply r).Ok := by
    induction ops with
    | nil => exact fun r hr => hr
    | cons op ops ih => exact fun r hr => ih (r.apply op) (Tracked.apply_ok hr op)
  refine hfold _ ⟨rfl, ?_⟩
  intro i j p t t' hi
  cases hi

/-- No process is ever current on two CPUs, and no two decisions in force name the same process. -/
theorem current_on_one_cpu (policy : SchedulingPolicy) (n : Nat) (ops : List Op) :
    Distinct (runOps policy n ops).scheduler.cpuCurrent ∧
      Distinct (runOps policy n ops).inForce := by
  have h := runOps_ok policy n ops
  refine ⟨h.distinct, ?_⟩
  rw [h.inForce_eq]
  exact h.distinct

end Scheduler

end GenshinOs.Process
