import GenshinOs.Process.Queueing
import Mathlib.Data.List.Rotate

/-!
# Round robin

The round-robin policy. On one CPU and with no other operation the decisions have a closed form:
the state after `t + 1` calls is known exactly (`Turn`), and one more call either keeps the process
or rotates the queue by one.

On any number of CPUs the scheduler is a queue with exact time slices, as long as only processes
that it does not have are made ready. A history records who joined the queue, who was dispatched
and how many results each time slice had.
-/

set_option autoImplicit false

namespace GenshinOs.Process

namespace Scheduler

variable {n : Nat}

/-- The queue is served in its order while its first process is not busy. -/
theorem dequeueNext_head {s : Scheduler n} {c : Fin n} {e : ReadyQueueEntry}
    {queue : List ReadyQueueEntry} (hqueue : s.readyQueue = e :: queue)
    (hfree : e.pid ∉ s.busy c) :
    s.dequeueNext c = (.run e.pid e.tid,
      { s with
        readyQueue := queue
        cpuCurrent := Function.update s.cpuCurrent c (some (key e))
        cpuTicks := Function.update s.cpuTicks c 0
        totalScheduled := s.totalScheduled + 1
        contextSwitches := s.contextSwitches + 1 }) := by
  have hloop : dequeueLoop (s.busy c) s.readyQueue.length s.readyQueue = (some e, queue) := by
    rw [hqueue, List.length_cons, dequeueLoop, if_neg hfree]
  simp only [dequeueNext, hloop, key]

theorem dequeueNext_nil {s : Scheduler n} {c : Fin n} (hqueue : s.readyQueue = []) :
    s.dequeueNext c = (.idle, { s with cpuCurrent := Function.update s.cpuCurrent c none }) := by
  have hloop : dequeueLoop (s.busy c) s.readyQueue.length s.readyQueue = (none, []) := by
    rw [hqueue]
    rfl
  simp only [dequeueNext, hloop, ← hqueue]

/-! ## One CPU -/

/-- The operations that make the entries ready in their order. -/
def readyAll (l : List ReadyQueueEntry) : List Op := l.map fun e => .ready e.pid e.tid e.priority

theorem busy_one (s : Scheduler 1) : s.busy 0 = [] := rfl

/-- The state after `a` whole slices and `b` more ticks. -/
structure Turn (q : Nat) (l : List (Pid × Tid)) (a b : Nat) (s : Scheduler 1) : Prop where
  policy : s.policy = .roundRobin q
  slice : s.timeSlice = q
  current : s.cpuCurrent 0 = (l.rotate a).head?
  ticks : s.cpuTicks 0 = b
  queue : s.readyQueue.map key = (l.rotate a).tail

/-- The result of a call is the process of the state after it. -/
def runs (x : Option (Pid × Tid)) : SchedulingDecision :=
  match x with
  | some (pid, tid) => .run pid tid
  | none => .idle

/-- Dequeuing on the only CPU. -/
theorem turn_dequeueNext {q a : Nat} {l : List (Pid × Tid)} {s : Scheduler 1} (hl : l ≠ [])
    (hpolicy : s.policy = .roundRobin q) (hslice : s.timeSlice = q)
    (hqueue : s.readyQueue.map key = l.rotate a) :
    (s.dequeueNext 0).1 = runs (l.rotate a).head? ∧ Turn q l a 0 (s.dequeueNext 0).2 := by
  cases hready : s.readyQueue with
  | nil =>
    rw [hready, List.map_nil] at hqueue
    exact absurd (List.rotate_eq_nil_iff.1 hqueue.symm) hl
  | cons e queue =>
    rw [hready, List.map_cons] at hqueue
    have hfree : e.pid ∉ s.busy 0 := by
      rw [busy_one]
      exact List.not_mem_nil
    rw [dequeueNext_head hready hfree, ← hqueue]
    refine ⟨rfl, hpolicy, hslice, ?_, ?_, ?_⟩
    · rw [← hqueue]
      simp
    · simp
    · rw [← hqueue]
      rfl

section Turn

variable {q a b : Nat} {l : List (Pid × Tid)} {s : Scheduler 1}

theorem Turn.keep (h : Turn q l a b s) (hl : l ≠ []) (hb : b + 1 < q) :
    (s.schedule 0).1 = runs (l.rotate a).head? ∧ Turn q l a (b + 1) (s.schedule 0).2 := by
  cases hrot : l.rotate a with
  | nil => exact absurd (List.rotate_eq_nil_iff.1 hrot) hl
  | cons x xs =>
    have hcur : s.cpuCurrent 0 = some (x.1, x.2) := by
      rw [h.current, hrot]
      rfl
    rw [schedule_keep hcur (by rw [h.ticks, h.slice]; exact hb)]
    refine ⟨rfl, h.policy, h.slice, h.current, ?_, h.queue⟩
    simp [tick, h.ticks]

/-- At the end of a slice the process goes behind the others, which rotates the list by one. -/
theorem Turn.next (h : Turn q l a b s) (hl : l ≠ []) (hb : q ≤ b + 1) :
    (s.schedule 0).1 = runs (l.rotate (a + 1)).head? ∧ Turn q l (a + 1) 0 (s.schedule 0).2 := by
  cases hrot : l.rotate a with
  | nil => exact absurd (List.rotate_eq_nil_iff.1 hrot) hl
  | cons x xs =>
    have hcur : s.cpuCurrent 0 = some (x.1, x.2) := by
      rw [h.current, hrot]
      rfl
    have hnext : l.rotate (a + 1) = xs ++ [x] := by
      rw [← List.rotate_rotate, hrot]
      simp
    have hqueue : (s.vacate 0).readyQueue.map key = l.rotate (a + 1) := by
      rw [hnext]
      have hwaiting := h.queue
      rw [hrot, List.tail_cons] at hwaiting
      simp [vacate, hcur, requeue, ready, h.policy, hwaiting, key]
    have hslice : (s.vacate 0).timeSlice = q := by
      simp [vacate, hcur, requeue, h.slice]
    rw [schedule_next (fun _ => by rw [h.ticks, h.slice]; exact hb)]
    exact turn_dequeueNext hl (by rw [vacate_policy, h.policy]) hslice hqueue

end Turn

theorem performAll_append (s : Scheduler n) (ops ops' : List Op) :
    s.performAll (ops ++ ops') = (s.performAll ops).performAll ops' := List.foldl_append

/-- After the processes were made ready they are the queue. -/
theorem performAll_readyAll {q : Nat} (s : Scheduler n) (hpolicy : s.policy = .roundRobin q)
    (l : List ReadyQueueEntry) :
    s.performAll (readyAll l) = { s with readyQueue := s.readyQueue ++ l } := by
  induction l generalizing s with
  | nil => simp [readyAll, performAll]
  | cons e l ih =>
    have hready : s.perform (.ready e.pid e.tid e.priority) =
        { s with readyQueue := s.readyQueue ++ [e] } := by
      simp [perform, ready, hpolicy]
    have hrest := ih { s with readyQueue := s.readyQueue ++ [e] } hpolicy
    rw [← hready, performAll] at hrest
    rw [performAll, readyAll, List.map_cons, List.foldl_cons]
    rw [readyAll] at hrest
    rw [hrest, hready]
    simp

/-- The state before call `t`. -/
def beforeCall (q : Nat) (l : List ReadyQueueEntry) (t : Nat) : Scheduler 1 :=
  (new (.roundRobin q) 1).performAll (readyAll l ++ List.replicate t (.schedule 0))

theorem beforeCall_zero (q : Nat) (l : List ReadyQueueEntry) :
    beforeCall q l 0 = { new (.roundRobin q) 1 with readyQueue := l } := by
  rw [beforeCall, List.replicate_zero, List.append_nil]
  exact performAll_readyAll (new (.roundRobin q) 1) rfl l

theorem beforeCall_succ (q : Nat) (l : List ReadyQueueEntry) (t : Nat) :
    beforeCall q l (t + 1) = ((beforeCall q l t).schedule 0).2 := by
  rw [beforeCall, List.replicate_succ', ← List.append_assoc, performAll_append]
  rfl

/-- Call `t` and the state it leaves. -/
theorem call_turn (q : Nat) {l : List ReadyQueueEntry} (hl : l.map key ≠ []) (t : Nat) :
    ((beforeCall q l t).schedule 0).1 = runs ((l.map key).rotate (t / max q 1)).head? ∧
      Turn q (l.map key) (t / max q 1) (t % max q 1) (beforeCall q l (t + 1)) := by
  induction t with
  | zero =>
    have hstart := turn_dequeueNext (q := q) (a := 0) (s := beforeCall q l 0) hl
      (by rw [beforeCall_zero]; rfl) (by rw [beforeCall_zero]; rfl)
      (by rw [beforeCall_zero, List.rotate_zero])
    have hnext : (beforeCall q l 0).schedule 0 = (beforeCall q l 0).dequeueNext 0 := by
      rw [beforeCall_zero]
      rfl
    rw [beforeCall_succ, hnext, Nat.zero_div, Nat.zero_mod]
    exact hstart
  | succ t ih =>
    have hpos : 0 < max q 1 := by omega
    rw [beforeCall_succ q l (t + 1)]
    rcases Nat.lt_or_ge (t % max q 1 + 1) q with hlt | hge
    · -- the slice goes on
      have hlt' : t % max q 1 + 1 < max q 1 := by omega
      have hmod : (t + 1) % max q 1 = t % max q 1 + 1 := by
        rw [Nat.add_mod, Nat.mod_eq_of_lt (by omega : 1 < max q 1), Nat.mod_eq_of_lt hlt']
      have hdiv : (t + 1) / max q 1 = t / max q 1 := by
        rw [Nat.succ_div_of_not_dvd]
        intro hdvd
        have := Nat.mod_eq_zero_of_dvd hdvd
        omega
      rw [hmod, hdiv]
      exact ih.2.keep hl hlt
    · -- the slice is over
      have hfull : t % max q 1 + 1 = max q 1 := by
        have := Nat.mod_lt t hpos
        omega
      have hdvd : max q 1 ∣ t + 1 := by
        refine ⟨t / max q 1 + 1, ?_⟩
        have := Nat.div_add_mod t (max q 1)
        rw [Nat.mul_add, Nat.mul_one]
        omega
      rw [Nat.mod_eq_zero_of_dvd hdvd, Nat.succ_div_of_dvd hdvd]
      exact ih.2.next hl hge

/-- Call `t` of `schedule` runs the process with index `t / max q 1` in the order of the queue,
counted around it. -/
theorem roundRobin_closed_form (q : Nat) (l : List ReadyQueueEntry) (hl : 0 < l.length) (t : Nat) :
    ((beforeCall q l t).schedule 0).1 =
      .run (l.get ⟨t / max q 1 % l.length, Nat.mod_lt _ hl⟩).pid
        (l.get ⟨t / max q 1 % l.length, Nat.mod_lt _ hl⟩).tid := by
  have hne : l.map key ≠ [] := by
    rw [Ne, List.map_eq_nil_iff]
    exact List.ne_nil_of_length_pos hl
  have hhead : ((l.map key).rotate (t / max q 1)).head? =
      some (key (l.get ⟨t / max q 1 % l.length, Nat.mod_lt _ hl⟩)) := by
    rw [List.head?_eq_getElem?, List.getElem?_rotate (by simpa using hl)]
    simp [Nat.mod_lt _ hl]
  rw [(call_turn q hne t).1, hhead]
  rfl

/-- Three processes with slices of two calls: the sixth call is the last of the third process. -/
theorem roundRobin_sixth_call :
    0 < [⟨1, 1, 128⟩, ⟨2, 1, 128⟩, (⟨3, 1, 128⟩ : ReadyQueueEntry)].length ∧
      ((beforeCall 2 [⟨1, 1, 128⟩, ⟨2, 1, 128⟩, ⟨3, 1, 128⟩] 5).schedule 0).1 = .run 3 1 :=
  ⟨by decide, roundRobin_closed_form 2 [⟨1, 1, 128⟩, ⟨2, 1, 128⟩, ⟨3, 1, 128⟩] (by decide) 5⟩

/-! ## Any number of CPUs -/

/-- A dispatch of a thread: the results it had, and how many of them came from `schedule`. -/
structure Slice where
  thread : Pid × Tid
  results : Nat
  scheduled : Nat
  deriving DecidableEq, Repr

/-- What has been seen of a scheduler. -/
structure Watch (n : Nat) where
  /-- the joins of the queue in their order, less those that a removal undid -/
  joined : List (Pid × Tid)
  /-- the dispatches in their order -/
  dispatched : List (Pid × Tid)
  /-- the dispatch in force on each CPU -/
  running : Fin n → Slice
  /-- the dispatches that lasted until their slice was used up -/
  expired : List Slice

/-- Nothing has been seen. -/
def Watch.start (n : Nat) : Watch n := ⟨[], [], fun _ => ⟨(0, 0), 0, 0⟩, []⟩

/-- Undo the last join of a thread. -/
def eraseLast (x : Pid × Tid) (l : List (Pid × Tid)) : List (Pid × Tid) :=
  (l.reverse.erase x).reverse

/-- The call of `schedule` finds the time slice of the CPU used up. -/
def Expires (s : Scheduler n) (c : Fin n) : Prop :=
  (s.cpuCurrent c).isSome ∧ s.timeSlice ≤ s.cpuTicks c + 1

/-- The call of `schedule` leaves the CPU its process. -/
def Keeps (s : Scheduler n) (c : Fin n) : Prop :=
  (s.cpuCurrent c).isSome ∧ s.cpuTicks c + 1 < s.timeSlice

instance (s : Scheduler n) (c : Fin n) : Decidable (s.Expires c) :=
  inferInstanceAs (Decidable (_ ∧ _))

instance (s : Scheduler n) (c : Fin n) : Decidable (s.Keeps c) :=
  inferInstanceAs (Decidable (_ ∧ _))

/-- The process the CPU gives back joins the queue. -/
def Watch.join (w : Watch n) (current : Option (Pid × Tid)) : Watch n :=
  { w with joined := w.joined ++ current.toList }

/-- A decision dispatches a process, with its first result. -/
def Watch.dispatch (w : Watch n) (c : Fin n) (scheduled : Nat) : SchedulingDecision → Watch n
  | .run pid tid =>
    { w with
      dispatched := w.dispatched ++ [(pid, tid)]
      running := Function.update w.running c ⟨(pid, tid), 1, scheduled⟩ }
  | .idle => w
  | .halt => w

/-- One more result of the dispatch in force. -/
def Watch.again (w : Watch n) (c : Fin n) : Watch n :=
  { w with
    running := Function.update w.running c
      { w.running c with
        results := (w.running c).results + 1
        scheduled := (w.running c).scheduled + 1 } }

/-- A removal undoes the join of a thread that waits. -/
def Watch.undo (w : Watch n) (s : Scheduler n) (x : Pid × Tid) : Watch n :=
  { w with
    joined := if x ∈ s.readyQueue.map key then eraseLast x w.joined else w.joined }

/-- What an operation on a scheduler adds to the history. -/
def Watch.see (w : Watch n) (s : Scheduler n) : Op → Watch n
  | .ready pid tid _ => w.join (some (pid, tid))
  | .remove pid tid => w.undo s (pid, tid)
  | .block pid tid => w.undo s (pid, tid)
  | .schedule cpuId =>
    if h : cpuId < n then
      let c : Fin n := ⟨cpuId, h⟩
      if s.Keeps c then w.again c
      else
        let w := if s.Expires c then { w with expired := w.expired ++ [w.running c] } else w
        (w.join (s.cpuCurrent c)).dispatch c 1 (s.schedule c).1
    else w
  | .yieldCurrent cpuId =>
    if h : cpuId < n then
      let c : Fin n := ⟨cpuId, h⟩
      (w.join (s.cpuCurrent c)).dispatch c 0 (s.yieldCurrent c).1
    else w

/-- The processes of the scheduler. -/
def pids (s : Scheduler n) : Multiset Pid := s.entries.map Prod.fst

/-- A process is made ready only when the scheduler does not have it. -/
def Fresh (s : Scheduler n) : Op → Prop
  | .ready pid _ _ => pid ∉ s.pids
  | _ => True

instance (s : Scheduler n) (op : Op) : Decidable (s.Fresh op) :=
  match op with
  | .ready pid _ _ => inferInstanceAs (Decidable (pid ∉ s.pids))
  | .remove _ _ => isTrue trivial
  | .block _ _ => isTrue trivial
  | .schedule _ => isTrue trivial
  | .yieldCurrent _ => isTrue trivial

/-- Every operation of the sequence is so. -/
def Disciplined (s : Scheduler n) : List Op → Prop
  | [] => True
  | op :: ops => s.Fresh op ∧ (s.perform op).Disciplined ops

instance decidableDisciplined (s : Scheduler n) (ops : List Op) : Decidable (s.Disciplined ops) :=
  match ops with
  | [] => isTrue trivial
  | op :: ops => @instDecidableAnd _ _ _ (decidableDisciplined (s.perform op) ops)

/-- The history of a sequence of operations. -/
def watchAll (s : Scheduler n) (w : Watch n) : List Op → Watch n
  | [] => w
  | op :: ops => (s.perform op).watchAll (w.see s op) ops

/-! ## The invariant of the queue -/

/-- The history explains the state: what joined was dispatched or still waits, in this order, and
the ticks of a CPU count the results of its dispatch. -/
structure Rota (q : Nat) (s : Scheduler n) (w : Watch n) : Prop where
  policy : s.policy = .roundRobin q
  slice : s.timeSlice = q
  nodup : s.pids.Nodup
  order : w.dispatched ++ s.readyQueue.map key = w.joined
  running : ∀ c x, s.cpuCurrent c = some x → (w.running c).thread = x ∧
    (w.running c).results = s.cpuTicks c + 1 ∧ s.cpuTicks c < max q 1
  expired : ∀ slice ∈ w.expired, slice.results = max q 1

theorem pids_eq (s : Scheduler n) :
    s.pids = Multiset.ofList (s.currents.map Prod.fst) +
      Multiset.ofList (s.readyQueue.map ReadyQueueEntry.pid) +
      Multiset.ofList (s.priorityQueue.map ReadyQueueEntry.pid) := by
  have hqueue : ∀ queue : List ReadyQueueEntry,
      (queued queue).map Prod.fst = Multiset.ofList (queue.map ReadyQueueEntry.pid) := by
    intro queue
    rw [queued, Multiset.map_coe, List.map_map]
    rfl
  simp only [pids, entries, Multiset.map_add, hqueue, Multiset.map_coe]

/-- A process that waits is not busy. -/
theorem not_busy_of_nodup {s : Scheduler n} (hnodup : s.pids.Nodup) {e : ReadyQueueEntry}
    (he : e ∈ s.readyQueue) (c : Fin n) : e.pid ∉ s.busy c := by
  rw [pids_eq] at hnodup
  have hsum := (Multiset.nodup_add.1 hnodup).1
  have hdisj := (Multiset.nodup_add.1 hsum).2.2
  intro hbusy
  obtain ⟨i, -, tid, hcur⟩ := (s.mem_busy c e.pid).1 hbusy
  have hcurrent : e.pid ∈ Multiset.ofList (s.currents.map Prod.fst) := by
    rw [Multiset.mem_coe, List.mem_map]
    refine ⟨(e.pid, tid), ?_, rfl⟩
    rw [currents, List.mem_filterMap]
    exact ⟨i, List.mem_finRange i, hcur⟩
  have hwaiting : e.pid ∈ Multiset.ofList (s.readyQueue.map ReadyQueueEntry.pid) :=
    List.mem_map_of_mem he
  exact Multiset.disjoint_left.1 hdisj hcurrent hwaiting

theorem keys_nodup {s : Scheduler n} (hnodup : s.pids.Nodup) : (s.readyQueue.map key).Nodup := by
  rw [pids_eq] at hnodup
  have hsum := (Multiset.nodup_add.1 hnodup).1
  have hqueue : (s.readyQueue.map ReadyQueueEntry.pid).Nodup := (Multiset.nodup_add.1 hsum).2.1
  have hmap : (s.readyQueue.map key).map Prod.fst = s.readyQueue.map ReadyQueueEntry.pid := by
    simp [key]
  rw [← hmap] at hqueue
  exact hqueue.of_map Prod.fst

/-! ### Removing -/

/-- Clearing CPUs leaves a part of the current threads. -/
theorem filterMap_sublist {f g : Fin n → Option (Pid × Tid)} (l : List (Fin n))
    (h : ∀ i, g i = none ∨ g i = f i) : (l.filterMap g).Sublist (l.filterMap f) := by
  induction l with
  | nil => exact List.Sublist.refl []
  | cons i l ih =>
    rcases h i with hnone | heq
    · rw [List.filterMap_cons_none hnone]
      cases hf : f i with
      | none =>
        rw [List.filterMap_cons_none hf]
        exact ih
      | some x =>
        rw [List.filterMap_cons_some hf]
        exact ih.cons x
    · cases hf : f i with
      | none =>
        rw [List.filterMap_cons_none (heq.trans hf), List.filterMap_cons_none hf]
        exact ih
      | some x =>
        rw [List.filterMap_cons_some (heq.trans hf), List.filterMap_cons_some hf]
        exact ih.cons_cons x

theorem pids_remove_le (s : Scheduler n) (pid : Pid) (tid : Tid) :
    (s.remove pid tid).2.pids ≤ s.pids := by
  have hcurrents : (s.remove pid tid).2.currents.Sublist s.currents := by
    apply filterMap_sublist
    intro i
    simp only [remove]
    split
    · exact Or.inl rfl
    · exact Or.inr rfl
  have hqueue : (s.remove pid tid).2.readyQueue.Sublist s.readyQueue := List.eraseP_sublist
  rw [pids_eq, pids_eq]
  refine add_le_add (add_le_add ?_ ?_) (le_refl _)
  · exact Multiset.coe_le.2 (hcurrents.map Prod.fst).subperm
  · exact Multiset.coe_le.2 (hqueue.map ReadyQueueEntry.pid).subperm

theorem map_key_eraseP (queue : List ReadyQueueEntry) (pid : Pid) (tid : Tid) :
    (queue.eraseP (ReadyQueueEntry.isOf · pid tid)).map key = (queue.map key).erase (pid, tid) := by
  induction queue with
  | nil => rfl
  | cons e queue ih =>
    rcases eq_or_ne (key e) (pid, tid) with heq | hne
    · have hof := (isOf_iff e pid tid).2 heq
      simp [hof, heq]
    · have hof : ¬ ReadyQueueEntry.isOf e pid tid = true := by
        rw [isOf_iff]
        exact hne
      simp [hof, hne, ih]

/-- The last join of a thread that waits once is the one it waits for. -/
theorem eraseLast_append {d l : List (Pid × Tid)} {x : Pid × Tid} (hx : x ∈ l) (hl : l.Nodup) :
    eraseLast x (d ++ l) = d ++ l.erase x := by
  have hrev : (l.reverse.erase x).reverse = l.erase x := by
    rw [(List.nodup_reverse.2 hl).erase_eq_filter, hl.erase_eq_filter, List.filter_reverse,
      List.reverse_reverse]
  rw [eraseLast, List.reverse_append, List.erase_append_left _ (List.mem_reverse.2 hx),
    List.reverse_append, List.reverse_reverse, hrev]

section Rota

variable {q : Nat} {s : Scheduler n} {w : Watch n}

theorem Rota.remove (h : Rota q s w) (pid : Pid) (tid : Tid) :
    Rota q (s.remove pid tid).2 (w.undo s (pid, tid)) := by
  refine ⟨h.policy, h.slice, Multiset.nodup_of_le (s.pids_remove_le pid tid) h.nodup, ?_, ?_,
    h.expired⟩
  · simp only [Scheduler.remove, Watch.undo, map_key_eraseP, ← h.order]
    split
    · next hmem => rw [eraseLast_append hmem (keys_nodup h.nodup)]
    · next hmem => rw [List.erase_of_not_mem hmem]
  · intro c x hcur
    simp only [Scheduler.remove] at hcur ⊢
    split at hcur
    · cases hcur
    · next hother =>
      rw [if_neg hother]
      exact h.running c x hcur

/-! ### Joining and dispatching -/

theorem Rota.ready (h : Rota q s w) {pid : Pid} (hnew : pid ∉ s.pids) (tid : Tid)
    (priority : UInt8) : Rota q (s.ready pid tid priority) (w.join (some (pid, tid))) := by
  have hready : s.ready pid tid priority =
      { s with readyQueue := s.readyQueue ++ [⟨pid, tid, priority⟩] } := by
    simp [Scheduler.ready, h.policy]
  refine ⟨by rw [ready_policy, h.policy], by rw [ready_timeSlice, h.slice], ?_, ?_, ?_, h.expired⟩
  · rw [pids, entries_ready, Multiset.map_cons, Multiset.nodup_cons]
    exact ⟨hnew, h.nodup⟩
  · simp [hready, Watch.join, ← h.order, key]
  · rw [hready]
    exact h.running

theorem Rota.vacate (h : Rota q s w) (c : Fin n) :
    Rota q (s.vacate c) (w.join (s.cpuCurrent c)) := by
  cases hcur : s.cpuCurrent c with
  | none =>
    have hsame : s.vacate c = s := by simp [Scheduler.vacate, hcur]
    rw [hsame]
    refine ⟨h.policy, h.slice, h.nodup, ?_, h.running, h.expired⟩
    simp [Watch.join, h.order]
  | some x =>
    have hqueue : (s.vacate c).readyQueue.map key = s.readyQueue.map key ++ [x] := by
      simp [Scheduler.vacate, hcur, requeue, Scheduler.ready, h.policy, key]
    refine ⟨by rw [vacate_policy, h.policy], ?_, ?_, ?_, ?_, h.expired⟩
    · simp [Scheduler.vacate, hcur, requeue, h.slice]
    · rw [pids, entries_vacate]
      exact h.nodup
    · simp [hqueue, Watch.join, ← h.order]
    · intro i y hi
      rw [vacate_cpuCurrent] at hi
      rcases eq_or_ne i c with rfl | hic
      · simp at hi
      · rw [Function.update_of_ne hic] at hi
        have hticks : (s.vacate c).cpuTicks i = s.cpuTicks i := by
          simp [Scheduler.vacate, hcur, requeue, Scheduler.ready, h.policy, hic]
        rw [hticks]
        exact h.running i y hi

/-- The next process is the one that has waited longest. -/
theorem Rota.dequeueNext (h : Rota q s w) {c : Fin n} (hcur : s.cpuCurrent c = none)
    (scheduled : Nat) :
    Rota q (s.dequeueNext c).2 (w.dispatch c scheduled (s.dequeueNext c).1) := by
  have hpids : (s.dequeueNext c).2.pids.Nodup := by
    rw [pids, entries_dequeueNext hcur]
    exact h.nodup
  cases hqueue : s.readyQueue with
  | nil =>
    rw [dequeueNext_nil hqueue] at hpids ⊢
    refine ⟨h.policy, h.slice, hpids, h.order, ?_, h.expired⟩
    rw [← hcur, Function.update_eq_self]
    exact h.running
  | cons e queue =>
    have hfree := not_busy_of_nodup h.nodup (by rw [hqueue]; exact List.mem_cons_self) c
    rw [dequeueNext_head hqueue hfree] at hpids ⊢
    refine ⟨h.policy, h.slice, hpids, ?_, ?_, h.expired⟩
    · have horder := h.order
      rw [hqueue] at horder
      simp [Watch.dispatch, ← horder, key]
    · intro i x hi
      rcases eq_or_ne i c with rfl | hic
      · simp only [Function.update_self] at hi
        cases hi
        simp [Watch.dispatch, key]
      · simp only [Function.update_of_ne hic] at hi
        simp only [Watch.dispatch, Function.update_of_ne hic]
        exact h.running i x hi

/-! ### The operations -/

theorem Rota.keep (h : Rota q s w) {c : Fin n} (hkeep : s.Keeps c) :
    Rota q (s.schedule c).2 (w.again c) := by
  obtain ⟨hsome, hslice⟩ := hkeep
  obtain ⟨⟨pid, tid⟩, hcur⟩ := Option.isSome_iff_exists.1 hsome
  rw [schedule_keep hcur hslice]
  refine ⟨h.policy, h.slice, h.nodup, h.order, ?_, h.expired⟩
  intro i y hi
  rcases eq_or_ne i c with rfl | hic
  · obtain ⟨hthread, hresults, -⟩ := h.running i y hi
    rw [h.slice] at hslice
    simp only [Watch.again, tick, Function.update_self]
    exact ⟨hthread, by rw [hresults], by omega⟩
  · simp only [Watch.again, tick, Function.update_of_ne hic]
    exact h.running i y hi

/-- A slice that is used up had all its results. -/
theorem Rota.expire (h : Rota q s w) {c : Fin n} (hexp : s.Expires c) :
    Rota q s { w with expired := w.expired ++ [w.running c] } := by
  obtain ⟨hsome, hslice⟩ := hexp
  obtain ⟨x, hcur⟩ := Option.isSome_iff_exists.1 hsome
  obtain ⟨-, hresults, hticks⟩ := h.running c x hcur
  refine ⟨h.policy, h.slice, h.nodup, h.order, h.running, ?_⟩
  intro slice hmem
  rcases List.mem_append.1 hmem with hmem | hmem
  · exact h.expired slice hmem
  · rw [List.mem_singleton.1 hmem, hresults]
    rw [h.slice] at hslice
    omega

theorem Rota.next (h : Rota q s w) (c : Fin n) (scheduled : Nat) :
    Rota q ((s.vacate c).dequeueNext c).2
      ((w.join (s.cpuCurrent c)).dispatch c scheduled ((s.vacate c).dequeueNext c).1) :=
  (h.vacate c).dequeueNext (by simp) scheduled

theorem Rota.perform (h : Rota q s w) {op : Op} (hop : s.Fresh op) :
    Rota q (s.perform op) (w.see s op) := by
  cases op with
  | ready pid tid priority => exact h.ready hop tid priority
  | remove pid tid => exact h.remove pid tid
  | block pid tid => exact h.remove pid tid
  | schedule cpuId =>
    simp only [Scheduler.perform, Watch.see]
    split
    · next hc =>
      split
      · next hkeep => exact h.keep hkeep
      · next hnot =>
        rw [schedule_next (fun hsome => by
          by_contra hlt
          exact hnot ⟨hsome, Nat.not_le.1 hlt⟩)]
        split
        · next hexp => exact (h.expire hexp).next _ 1
        · exact h.next _ 1
    · exact h
  | yieldCurrent cpuId =>
    simp only [Scheduler.perform, Watch.see]
    split
    · rw [yieldCurrent_eq]
      exact h.next _ 0
    · exact h

theorem Rota.performAll (h : Rota q s w) {ops : List Op} (hops : s.Disciplined ops) :
    Rota q (s.performAll ops) (s.watchAll w ops) := by
  induction ops generalizing s w with
  | nil => exact h
  | cons op ops ih => exact ih (h.perform hops.1) hops.2

end Rota

theorem Rota.new (q n : Nat) : Rota q (Scheduler.new (.roundRobin q) n) (Watch.start n) where
  policy := rfl
  slice := rfl
  nodup := by simp [pids_eq, currents, Scheduler.new]
  order := rfl
  running := nofun
  expired := nofun

/-- The scheduler serves its processes in the order of a queue and with exact slices: no process is
there twice, what joined was dispatched or still waits in the order of joining, and a dispatch that
nothing cuts short has `max q 1` results, the one of the call that made it included. -/
theorem roundRobin_queue (q n : Nat) (ops : List Op)
    (hops : (new (.roundRobin q) n).Disciplined ops) :
    ((new (.roundRobin q) n).performAll ops).pids.Nodup ∧
    ((new (.roundRobin q) n).watchAll (Watch.start n) ops).dispatched ++
        ((new (.roundRobin q) n).performAll ops).readyQueue.map key =
      ((new (.roundRobin q) n).watchAll (Watch.start n) ops).joined ∧
    (∀ slice ∈ ((new (.roundRobin q) n).watchAll (Watch.start n) ops).expired,
      slice.results = max q 1) ∧
    ∀ c x, ((new (.roundRobin q) n).performAll ops).cpuCurrent c = some x →
      (((new (.roundRobin q) n).watchAll (Watch.start n) ops).running c).thread = x ∧
      (((new (.roundRobin q) n).performAll ops).Keeps c ↔
        (((new (.roundRobin q) n).watchAll (Watch.start n) ops).running c).results < max q 1) := by
  have h := (Rota.new q n).performAll hops
  refine ⟨h.nodup, h.order, h.expired, ?_⟩
  intro c x hcur
  obtain ⟨hthread, hresults, hticks⟩ := h.running c x hcur
  refine ⟨hthread, ?_⟩
  rw [Keeps, hcur, h.slice, hresults]
  simp only [Option.isSome_some, true_and]
  omega

/-- Two processes on one CPU, a yield and the slice that follows it. -/
theorem roundRobin_queue_yield :
    (new (.roundRobin 2) 1).Disciplined
      [.ready 1 1 128, .ready 2 1 128, .schedule 0, .yieldCurrent 0, .schedule 0, .schedule 0] ∧
    ((new (.roundRobin 2) 1).performAll
      [.ready 1 1 128, .ready 2 1 128, .schedule 0, .yieldCurrent 0, .schedule 0,
        .schedule 0]).pids.Nodup :=
  ⟨by decide, (roundRobin_queue 2 1 [.ready 1 1 128, .ready 2 1 128, .schedule 0, .yieldCurrent 0,
    .schedule 0, .schedule 0] (by decide)).1⟩

/-- A dispatch that `yieldCurrent` made uses up its slice of two after one result of `schedule`. -/
theorem yielded_slice_short :
    (new (.roundRobin 2) 1).Disciplined
      [.ready 1 1 128, .ready 2 1 128, .schedule 0, .yieldCurrent 0, .schedule 0, .schedule 0] ∧
    ¬ ∀ slice ∈ ((new (.roundRobin 2) 1).watchAll (Watch.start 1)
      [.ready 1 1 128, .ready 2 1 128, .schedule 0, .yieldCurrent 0, .schedule 0,
        .schedule 0]).expired, slice.scheduled = max 2 1 :=
  ⟨by decide, by decide⟩

end Scheduler

end GenshinOs.Process
