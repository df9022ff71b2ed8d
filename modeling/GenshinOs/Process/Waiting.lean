import GenshinOs.Lib.Ranking
import GenshinOs.Process.RoundRobin
import Mathlib.Algebra.Order.BigOperators.Group.Finset

/-!
# Waiting in the ready queue

Nobody starves. Under the policies that serve the ready queue in its order, a process that waits there gets
a CPU after a number of calls of `schedule` and `yieldCurrent` that its place in the queue and the slices
in force determine, whichever CPUs the calls are for and whatever else becomes ready or is removed in
between: `bounded_waiting`. The rank of the argument is the number of calls that those before it, and the
slices that run, can still use up.
-/

set_option autoImplicit false

namespace GenshinOs.Process

open GenshinOs.Lib

namespace Scheduler

variable {n : Nat}

/-- The length of a slice in calls. -/
def sliceCalls (s : Scheduler n) : Nat := max s.timeSlice 1

/-- The calls for a CPU that still keep its process. -/
def remaining (s : Scheduler n) (c : Fin n) : Nat :=
  match s.cpuCurrent c with
  | some _ => s.sliceCalls - 1 - s.cpuTicks c
  | none => 0

/-- The calls that a thread in the queue may still have to wait for. -/
def callsBefore (s : Scheduler n) (x : Pid × Tid) : Nat :=
  (s.readyQueue.map key).idxOf x * s.sliceCalls + ∑ c, s.remaining c

/-- The operation asks a CPU of the scheduler for a decision. -/
def Op.decides (n : Nat) : Op → Bool
  | .schedule cpuId => decide (cpuId < n)
  | .yieldCurrent cpuId => decide (cpuId < n)
  | _ => false

/-- The operation takes a thread out of the scheduler. -/
def Op.removes (x : Pid × Tid) : Op → Bool
  | .remove pid tid => decide ((pid, tid) = x)
  | .block pid tid => decide ((pid, tid) = x)
  | _ => false

/-- The operation gives a CPU to a thread. -/
def Dispatches (x : Pid × Tid) (s : Scheduler n) : Op → Prop
  | .schedule cpuId => ∃ h : cpuId < n, (s.schedule ⟨cpuId, h⟩).1 = .run x.1 x.2
  | .yieldCurrent cpuId => ∃ h : cpuId < n, (s.yieldCurrent ⟨cpuId, h⟩).1 = .run x.1 x.2
  | _ => False

/-- The processes are in the scheduler once, its queue is the ready queue, and no slice is overrun. -/
structure Orderly (s : Scheduler n) : Prop where
  nodup : s.pids.Nodup
  plain : SchedulingPolicy.ranked s.policy = false

/-- A thread waits in an orderly scheduler. -/
structure WaitsFor (x : Pid × Tid) (s : Scheduler n) : Prop extends Orderly s where
  waits : x ∈ s.readyQueue.map key

@[simp] theorem dequeueNext_timeSlice (s : Scheduler n) (c : Fin n) :
    (s.dequeueNext c).2.timeSlice = s.timeSlice := by
  simp only [dequeueNext]
  split <;> rfl

@[simp] theorem vacate_timeSlice (s : Scheduler n) (c : Fin n) :
    (s.vacate c).timeSlice = s.timeSlice := by
  simp only [vacate]
  split
  · simp [requeue]
  · rfl

section steps

variable {s : Scheduler n} {x : Pid × Tid}

theorem ready_queue (hplain : SchedulingPolicy.ranked s.policy = false) (pid : Pid) (tid : Tid) (priority : UInt8) :
    s.ready pid tid priority = { s with readyQueue := s.readyQueue ++ [⟨pid, tid, priority⟩] } := by
  rw [ready]
  cases hpolicy : s.policy with
  | fifo => rfl
  | roundRobin quantum => rfl
  | mlfq => rfl
  | priority =>
    rw [hpolicy] at hplain
    cases hplain
  | sjf =>
    rw [hpolicy] at hplain
    cases hplain

/-- What changes on one CPU changes the sum by as much. -/
theorem sum_remaining {s s' : Scheduler n} (c : Fin n)
    (hothers : ∀ i, i ≠ c → s'.remaining i = s.remaining i) :
    ∑ i, s'.remaining i + s.remaining c = ∑ i, s.remaining i + s'.remaining c := by
  have hsplit : ∀ f : Fin n → Nat, ∑ i, f i = f c + ∑ i ∈ Finset.univ.erase c, f i :=
    fun f => (Finset.add_sum_erase _ _ (Finset.mem_univ c)).symm
  have hrest : ∑ i ∈ Finset.univ.erase c, s'.remaining i = ∑ i ∈ Finset.univ.erase c, s.remaining i :=
    Finset.sum_congr rfl fun i hi => hothers i (Finset.ne_of_mem_erase hi)
  rw [hsplit s'.remaining, hsplit s.remaining, hrest]
  omega

theorem remaining_lt (s : Scheduler n) (c : Fin n) : s.remaining c < s.sliceCalls := by
  have hpos : 1 ≤ s.sliceCalls := Nat.le_max_right _ _
  rw [remaining]
  split <;> omega

theorem idxOf_erase_le {α : Type*} [BEq α] [LawfulBEq α] (l : List α) {x y : α} (hne : y ≠ x) :
    (l.erase y).idxOf x ≤ l.idxOf x := by
  induction l with
  | nil => exact le_rfl
  | cons a l ih =>
    by_cases hay : a = y
    · subst hay
      rw [List.erase_cons_head, List.idxOf_cons_ne _ hne]
      exact Nat.le_succ _
    · rw [List.erase_cons_tail (by simpa using hay)]
      by_cases hax : a = x
      · rw [hax, List.idxOf_cons_self]
        exact Nat.zero_le _
      · rw [List.idxOf_cons_ne _ hax, List.idxOf_cons_ne _ hax]
        exact Nat.succ_le_succ ih

theorem WaitsFor.ready (h : WaitsFor x s) {pid : Pid} (hnew : pid ∉ s.pids) (tid : Tid)
    (priority : UInt8) :
    WaitsFor x (s.ready pid tid priority) ∧
      (s.ready pid tid priority).callsBefore x = s.callsBefore x := by
  have hentries := s.entries_ready pid tid priority
  have hqueue := ready_queue h.plain pid tid priority
  refine ⟨⟨⟨?_, ?_⟩, ?_⟩, ?_⟩
  · rw [pids, hentries, Multiset.map_cons, Multiset.nodup_cons]
    exact ⟨hnew, h.nodup⟩
  · rw [ready_policy]
    exact h.plain
  · rw [hqueue]
    simp only [List.map_append]
    exact List.mem_append_left _ h.waits
  · rw [hqueue, callsBefore, callsBefore, List.map_append, List.idxOf_append_of_mem h.waits]
    rfl

theorem WaitsFor.remove (h : WaitsFor x s) {pid : Pid} {tid : Tid} (hne : (pid, tid) ≠ x) :
    WaitsFor x (s.remove pid tid).2 ∧ (s.remove pid tid).2.callsBefore x ≤ s.callsBefore x := by
  have hqueue : (s.remove pid tid).2.readyQueue.map key = (s.readyQueue.map key).erase (pid, tid) :=
    map_key_eraseP s.readyQueue pid tid
  refine ⟨⟨⟨Multiset.nodup_of_le (s.pids_remove_le pid tid) h.nodup, h.plain⟩, ?_⟩, ?_⟩
  · rw [hqueue]
    exact (List.mem_erase_of_ne hne.symm).2 h.waits
  · rw [callsBefore, callsBefore, hqueue]
    apply Nat.add_le_add
    · exact Nat.mul_le_mul_right _ (idxOf_erase_le _ hne)
    · apply Finset.sum_le_sum
      intro i _
      -- a CPU that is cleared keeps nobody any more
      simp only [remaining, Scheduler.remove]
      by_cases hcur : s.cpuCurrent i = some (pid, tid)
      · rw [if_pos hcur]
        exact Nat.zero_le _
      · rw [if_neg hcur, if_neg hcur]
        exact le_rfl

/-- A call that keeps the process of its CPU uses up one of those that are left. -/
theorem WaitsFor.keep (h : WaitsFor x s) {c : Fin n} {cur : Pid × Tid} (hcur : s.cpuCurrent c = some cur)
    (hslice : s.cpuTicks c + 1 < s.timeSlice) :
    WaitsFor x (s.tick c) ∧ (s.tick c).callsBefore x < s.callsBefore x := by
  have hothers : ∀ i, i ≠ c → (s.tick c).remaining i = s.remaining i := by
    intro i hi
    simp only [remaining, tick, sliceCalls, Function.update_of_ne hi]
  have hsum := sum_remaining c hothers
  have hbefore : s.remaining c = s.sliceCalls - 1 - s.cpuTicks c := by
    rw [remaining, hcur]
  have hafter : (s.tick c).remaining c = s.sliceCalls - 1 - (s.cpuTicks c + 1) := by
    simp only [remaining, tick, hcur, Function.update_self]
    rfl
  have hlong : s.sliceCalls = s.timeSlice := by
    rw [sliceCalls]
    omega
  refine ⟨⟨⟨h.nodup, h.plain⟩, h.waits⟩, ?_⟩
  show (s.readyQueue.map key).idxOf x * s.sliceCalls + ∑ i, (s.tick c).remaining i < _
  rw [callsBefore]
  omega

/-- A CPU that gives its process back does so at the end of the queue. -/
theorem vacate_frame (hplain : SchedulingPolicy.ranked s.policy = false) (c : Fin n) :
    (∃ back, (s.vacate c).readyQueue = s.readyQueue ++ back) ∧
      ∀ i, i ≠ c → (s.vacate c).cpuTicks i = s.cpuTicks i := by
  cases hcur : s.cpuCurrent c with
  | none =>
    have hsame : s.vacate c = s := by simp only [vacate, hcur]
    rw [hsame]
    exact ⟨⟨[], (List.append_nil _).symm⟩, fun _ _ => rfl⟩
  | some cur =>
    obtain ⟨pid, tid⟩ := cur
    have hback : s.vacate c = s.requeue c pid tid := by simp only [vacate, hcur]
    rw [hback, requeue, ready_queue hplain]
    exact ⟨⟨_, rfl⟩, fun i hi => Function.update_of_ne hi _ _⟩

/-- The first of the queue gets the CPU, and those behind it move up. -/
theorem WaitsFor.next (h : WaitsFor x s) (c : Fin n) :
    ((s.vacate c).dequeueNext c).1 = .run x.1 x.2 ∨
      WaitsFor x ((s.vacate c).dequeueNext c).2 ∧
        ((s.vacate c).dequeueNext c).2.callsBefore x < s.callsBefore x := by
  obtain ⟨⟨back, hback⟩, hticks⟩ := vacate_frame h.plain c
  have htime := s.vacate_timeSlice c
  obtain ⟨e, queue, hqueue⟩ : ∃ e queue, s.readyQueue = e :: queue := by
    cases hs : s.readyQueue with
    | nil =>
      have hwaits := h.waits
      rw [hs] at hwaits
      exact absurd hwaits List.not_mem_nil
    | cons e queue => exact ⟨e, queue, rfl⟩
  have hnodup : (s.vacate c).pids.Nodup := by
    rw [pids, entries_vacate]
    exact h.nodup
  rw [hqueue, List.cons_append] at hback
  have hfree : e.pid ∉ (s.vacate c).busy c :=
    not_busy_of_nodup hnodup (by rw [hback]; exact List.mem_cons_self) c
  have hnext := dequeueNext_head hback hfree
  rcases eq_or_ne (key e) x with heq | hne
  · left
    rw [hnext, ← heq]
    rfl
  · right
    have hwaits : x ∈ queue.map key := by
      have hmem := h.waits
      rw [hqueue, List.map_cons, List.mem_cons] at hmem
      exact hmem.resolve_left hne.symm
    have hentries := s.entries_next c
    rw [hnext] at hentries ⊢
    refine ⟨⟨⟨?_, ?_⟩, ?_⟩, ?_⟩
    · rw [pids, hentries]
      exact h.nodup
    · show SchedulingPolicy.ranked (s.vacate c).policy = false
      rw [vacate_policy]
      exact h.plain
    · show x ∈ (queue ++ back).map key
      rw [List.map_append]
      exact List.mem_append_left _ hwaits
    · -- one place less in the queue is worth a whole slice
      have hlength : ∀ s' : Scheduler n, s'.timeSlice = (s.vacate c).timeSlice →
          s'.sliceCalls = s.sliceCalls := by
        intro s' hs'
        rw [sliceCalls, sliceCalls, hs', htime]
      have hplace : (s.readyQueue.map key).idxOf x = (queue.map key).idxOf x + 1 := by
        rw [hqueue, List.map_cons, List.idxOf_cons_ne _ hne]
      generalize hs' : ({ s.vacate c with
        readyQueue := queue ++ back
        cpuCurrent := Function.update (s.vacate c).cpuCurrent c (some (key e))
        cpuTicks := Function.update (s.vacate c).cpuTicks c 0
        totalScheduled := (s.vacate c).totalScheduled + 1
        contextSwitches := (s.vacate c).contextSwitches + 1 } : Scheduler n) = s'
      have hslice : s'.sliceCalls = s.sliceCalls := hlength s' (by rw [← hs'])
      have hothers : ∀ i, i ≠ c → s'.remaining i = s.remaining i := by
        intro i hi
        rw [remaining, remaining, hslice, ← hs']
        simp only [Function.update_of_ne hi, vacate_cpuCurrent, hticks i hi]
      have hsum := sum_remaining c hothers
      have hlow := s'.remaining_lt c
      have hqueue' : s'.readyQueue.map key = queue.map key ++ back.map key := by
        rw [← hs', List.map_append]
      show s'.callsBefore x < s.callsBefore x
      rw [callsBefore, callsBefore, hqueue', List.idxOf_append_of_mem hwaits, hplace, hslice, Nat.add_mul,
        Nat.one_mul]
      rw [hslice] at hlow
      omega

end steps

/-- The calls before a waiting thread are a rank for its dispatch. -/
theorem waiting_ranking (n : Nat) (x : Pid × Tid) :
    Ranking (perform (n := n)) (fun s op => s.Fresh op ∧ op.removes x = false) (Dispatches x)
      (Op.decides n) (WaitsFor x) (callsBefore · x) := by
  -- every operation, at once: it keeps the wait, and makes it shorter if it is a decision
  have hall : ∀ {s : Scheduler n} {op : Op}, WaitsFor x s → s.Fresh op ∧ op.removes x = false →
      ¬Dispatches x s op → WaitsFor x (s.perform op) ∧
        (s.perform op).callsBefore x ≤ s.callsBefore x ∧
          (op.decides n = true → (s.perform op).callsBefore x < s.callsBefore x) := by
    intro s op h hok hnot
    have hdecide : ∀ {s' : Scheduler n}, WaitsFor x s' ∧ s'.callsBefore x < s.callsBefore x →
        WaitsFor x s' ∧ s'.callsBefore x ≤ s.callsBefore x ∧
          (op.decides n = true → s'.callsBefore x < s.callsBefore x) :=
      fun hs' => ⟨hs'.1, hs'.2.le, fun _ => hs'.2⟩
    cases op with
    | ready pid tid priority =>
      obtain ⟨hwaits, heq⟩ := h.ready hok.1 tid priority
      exact ⟨hwaits, heq.le, fun hdecides => by cases hdecides⟩
    | remove pid tid =>
      obtain ⟨hwaits, hle⟩ := h.remove (of_decide_eq_false hok.2)
      exact ⟨hwaits, hle, fun hdecides => by cases hdecides⟩
    | block pid tid =>
      obtain ⟨hwaits, hle⟩ := h.remove (of_decide_eq_false hok.2)
      exact ⟨hwaits, hle, fun hdecides => by cases hdecides⟩
    | schedule cpuId =>
      by_cases hcpu : cpuId < n
      · have hperform : s.perform (.schedule cpuId) = (s.schedule ⟨cpuId, hcpu⟩).2 := dif_pos hcpu
        rw [hperform]
        apply hdecide
        rcases s.schedule_cases ⟨cpuId, hcpu⟩ with ⟨pid, tid, hcur, hslice, heq⟩ | heq
        · rw [heq]
          exact h.keep hcur hslice
        · rw [heq]
          refine (h.next ⟨cpuId, hcpu⟩).resolve_left fun hrun => hnot ⟨hcpu, ?_⟩
          rw [heq]
          exact hrun
      · have hperform : s.perform (.schedule cpuId) = s := dif_neg hcpu
        rw [hperform]
        exact ⟨h, le_rfl, fun hdecides => absurd (of_decide_eq_true hdecides) hcpu⟩
    | yieldCurrent cpuId =>
      by_cases hcpu : cpuId < n
      · have hperform : s.perform (.yieldCurrent cpuId) = (s.yieldCurrent ⟨cpuId, hcpu⟩).2 :=
          dif_pos hcpu
        rw [hperform]
        apply hdecide
        rw [yieldCurrent_eq]
        refine (h.next ⟨cpuId, hcpu⟩).resolve_left fun hrun => hnot ⟨hcpu, ?_⟩
        rw [yieldCurrent_eq]
        exact hrun
      · have hperform : s.perform (.yieldCurrent cpuId) = s := dif_neg hcpu
        rw [hperform]
        exact ⟨h, le_rfl, fun hdecides => absurd (of_decide_eq_true hdecides) hcpu⟩
  exact ⟨fun h hok hnot => (hall h hok hnot).1, fun h hok hnot => (hall h hok hnot).2.1,
    fun h hok hnot => (hall h hok hnot).2.2⟩

/-! ## Runs -/

theorem Orderly.perform {s : Scheduler n} (h : s.Orderly) {op : Op} (hop : s.Fresh op) :
    (s.perform op).Orderly := by
  refine ⟨?_, ?_⟩
  · cases op with
    | ready pid tid priority =>
      show (s.ready pid tid priority).pids.Nodup
      rw [pids, entries_ready, Multiset.map_cons, Multiset.nodup_cons]
      exact ⟨hop, h.nodup⟩
    | remove pid tid => exact Multiset.nodup_of_le (s.pids_remove_le pid tid) h.nodup
    | block pid tid => exact Multiset.nodup_of_le (s.pids_remove_le pid tid) h.nodup
    | schedule cpuId =>
      simp only [Scheduler.perform]
      split
      · rw [pids, entries_schedule]
        exact h.nodup
      · exact h.nodup
    | yieldCurrent cpuId =>
      simp only [Scheduler.perform]
      split
      · rw [pids, entries_yieldCurrent]
        exact h.nodup
      · exact h.nodup
  · rw [perform_policy]
    exact h.plain

/-- No operation changes the length of the slices. -/
theorem perform_timeSlice (s : Scheduler n) (op : Op) : (s.perform op).timeSlice = s.timeSlice := by
  cases op with
  | ready pid tid priority => exact s.ready_timeSlice pid tid priority
  | remove pid tid => rfl
  | block pid tid => rfl
  | schedule cpuId =>
    simp only [Scheduler.perform]
    split
    · next hcpu =>
      rcases s.schedule_cases ⟨cpuId, hcpu⟩ with ⟨pid, tid, -, -, heq⟩ | heq
      · rw [heq]
        rfl
      · rw [heq, dequeueNext_timeSlice, vacate_timeSlice]
    · rfl
  | yieldCurrent cpuId =>
    simp only [Scheduler.perform]
    split
    · rw [yieldCurrent_eq, dequeueNext_timeSlice, vacate_timeSlice]
    · rfl

theorem performAll_timeSlice (s : Scheduler n) (ops : List Op) :
    (s.performAll ops).timeSlice = s.timeSlice := by
  induction ops generalizing s with
  | nil => rfl
  | cons op ops ih => exact (ih (s.perform op)).trans (s.perform_timeSlice op)

theorem Orderly.performAll {s : Scheduler n} (h : s.Orderly) {ops : List Op} (hops : s.Disciplined ops) :
    (s.performAll ops).Orderly := by
  induction ops generalizing s with
  | nil => exact h
  | cons op ops ih => exact ih (h.perform hops.1) hops.2

theorem disciplined_append {s : Scheduler n} {ops ops' : List Op} :
    s.Disciplined (ops ++ ops') ↔ s.Disciplined ops ∧ (s.performAll ops).Disciplined ops' := by
  induction ops generalizing s with
  | nil => simp [Disciplined, Scheduler.performAll]
  | cons op ops ih =>
    rw [List.cons_append, Disciplined, Disciplined, ih, and_assoc]
    rfl

theorem Disciplined.allowed {s : Scheduler n} {x : Pid × Tid} {ops : List Op} (h : s.Disciplined ops)
    (hkept : ∀ op ∈ ops, op.removes x = false) :
    Allowed perform (fun s op => s.Fresh op ∧ op.removes x = false) s ops := by
  induction ops generalizing s with
  | nil => trivial
  | cons op ops ih =>
    exact ⟨⟨h.1, hkept op List.mem_cons_self⟩, ih h.2 fun op' hop' => hkept op' (List.mem_cons_of_mem op hop')⟩

/-- Nobody starves. On any number of CPUs and under every policy that serves the ready queue, a thread at
place `i` of the queue gets a CPU within `i` slices and what is left of those that run, counted in calls of
`schedule` and `yieldCurrent`, whichever CPUs they are for and whatever becomes ready or is removed in
between. -/
theorem bounded_waiting (policy : SchedulingPolicy) (hpolicy : SchedulingPolicy.ranked policy = false)
    (n : Nat) (before after : List Op) (hops : (new policy n).Disciplined (before ++ after))
    {x : Pid × Tid} {i : Nat} (hwaits : (((new policy n).performAll before).readyQueue.map key)[i]? = some x)
    (hkept : ∀ op ∈ after, op.removes x = false)
    (hcalls : i * (new policy n).sliceCalls + n * ((new policy n).sliceCalls - 1) <
      after.countP (Op.decides n)) :
    ∃ done op rest, after = done ++ op :: rest ∧
      Dispatches x ((new policy n).performAll (before ++ done)) op := by
  obtain ⟨hbefore, hafter⟩ := disciplined_append.1 hops
  have horderly : (new policy n).Orderly := ⟨(Rota.new 0 n).nodup, hpolicy⟩
  have hstart : WaitsFor x ((new policy n).performAll before) :=
    ⟨horderly.performAll hbefore, List.mem_of_getElem? hwaits⟩
  -- the rank at the beginning: the place in the queue, and less than a slice on every CPU
  have hlength : ((new policy n).performAll before).sliceCalls = (new policy n).sliceCalls := by
    rw [sliceCalls, performAll_timeSlice]
    rfl
  have hplace : (((new policy n).performAll before).readyQueue.map key).idxOf x ≤ i := by
    obtain ⟨hi, heq⟩ := List.getElem?_eq_some_iff.1 hwaits
    rw [← heq, (keys_nodup (horderly.performAll hbefore).nodup).idxOf_getElem i hi]
  have hcpus : ∑ c, ((new policy n).performAll before).remaining c ≤
      n * ((new policy n).sliceCalls - 1) := by
    have hone : ∀ c ∈ Finset.univ, ((new policy n).performAll before).remaining c ≤
        (new policy n).sliceCalls - 1 := by
      intro c _
      have hlt := ((new policy n).performAll before).remaining_lt c
      omega
    have hsum := Finset.sum_le_card_nsmul _ _ _ hone
    simpa using hsum
  have hrank : ((new policy n).performAll before).callsBefore x < after.countP (Op.decides n) := by
    refine Nat.lt_of_le_of_lt ?_ hcalls
    rw [callsBefore, hlength]
    exact Nat.add_le_add (Nat.mul_le_mul_right _ hplace) hcpus
  obtain ⟨done, op, rest, hsplit, hreached⟩ :=
    (waiting_ranking n x).reached hstart (hafter.allowed hkept) hrank
  refine ⟨done, op, rest, hsplit, ?_⟩
  rw [performAll_append]
  exact hreached

/-- Three processes on two CPUs: the third one waits for one slice of three calls to end. -/
theorem bounded_waiting_third : ∃ done op rest,
    List.replicate 5 (Op.schedule 0) = done ++ op :: rest ∧
      Dispatches (3, 1) ((new (.roundRobin 3) 2).performAll
        ([.ready 1 1 128, .ready 2 1 128, .ready 3 1 128, .schedule 0, .schedule 1] ++ done)) op :=
  bounded_waiting (.roundRobin 3) rfl 2
    [.ready 1 1 128, .ready 2 1 128, .ready 3 1 128, .schedule 0, .schedule 1]
    (List.replicate 5 (.schedule 0)) (by decide) (i := 0) (by decide) (by decide) (by decide)

end Scheduler

end GenshinOs.Process
