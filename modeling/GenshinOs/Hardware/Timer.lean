import GenshinOs.Messaging
import Mathlib.Data.List.Induction

/-!
# Timer

The timer (`src/hardware/timer.rs`) and its tick threads. A client starts, stops, pauses and resumes
the timer; each call holds the lock of the state from its first line to its last, so it is one step.
Starting spawns a thread, which checks the state, sleeps, checks again, sends a timer interrupt and
counts it, and ends at the first check that does not find the timer running. Threads are never
joined: stopping and pausing only change the state, which a thread notices at its next check.

A run is a list of steps of clients and threads in any order. A step of a thread that has ended does
nothing. The sleep has no length here: a thread may wake after any number of steps of others.
-/

set_option autoImplicit false

namespace GenshinOs.Hardware

/-- Timer state (internal). -/
inductive TimerStateInternal where
  | stopped
  | running
  | paused
  deriving DecidableEq, Repr

/-- Where a tick thread is in its loop. -/
inductive TickThread where
  | check
  | sleep
  | checkAgain
  | send
  | count
  | exited
  deriving DecidableEq, Repr

namespace TickThread

/-- The thread has not decided to exit. -/
def isLive : TickThread → Bool
  | .exited => false
  | _ => true

/-- The next step looks at the state of the timer. -/
def isCheck : TickThread → Bool
  | .check => true
  | .checkAgain => true
  | _ => false

end TickThread

/-- Hardware timer with its threads, in the order in which they were spawned. -/
structure Timer where
  state : TimerStateInternal
  threads : List TickThread
  tickCount : Nat
  bus : List KernelMsg

/-- Steps of clients, and of the thread with the given index. -/
inductive TimerAct where
  | start
  | stop
  | pause
  | resume
  | resetCounter
  | thread (i : Nat)
  deriving DecidableEq, Repr

/-- The call may make a timer run that did not. -/
def TimerAct.isRevival : TimerAct → Bool
  | .start => true
  | .resume => true
  | _ => false

namespace Timer

/-! ## Calls -/

/-- A timer that has never run. -/
def stopped : Timer := ⟨.stopped, [], 0, []⟩

/-- Start the timer, unless it runs: a new thread enters its loop. -/
def start (t : Timer) : Timer :=
  if t.state = .running then t
  else { t with state := .running, threads := t.threads ++ [.check] }

/-- Stop the timer. -/
def stop (t : Timer) : Timer := { t with state := .stopped }

/-- Pause the timer, if it runs. -/
def pause (t : Timer) : Timer := if t.state = .running then { t with state := .paused } else t

/-- Resume the timer. No thread is spawned. -/
def resume (t : Timer) : Timer := if t.state = .paused then { t with state := .running } else t

/-- The ticks are counted from zero again. -/
def resetCounter (t : Timer) : Timer := { t with tickCount := 0 }

/-- A new timer, started or not. -/
def new (autoStart : Bool) : Timer := if autoStart then stopped.start else stopped

/-! ## Threads -/

/-- Move a thread to its next place. -/
def move (t : Timer) (i : Nat) (next : TickThread) : Timer :=
  { t with threads := t.threads.set i next }

/-- A check: the thread goes on if the timer runs, and exits otherwise. -/
def checked (t : Timer) (i : Nat) (next : TickThread) : Timer :=
  t.move i (if t.state = .running then next else .exited)

/-- One step of a thread. -/
def threadStep (t : Timer) (i : Nat) : Timer :=
  match t.threads[i]? with
  | some .check => t.checked i .sleep
  | some .sleep => t.move i .checkAgain
  | some .checkAgain => t.checked i .send
  | some .send => { t.move i .count with bus := t.bus ++ [.interrupt .timer] }
  | some .count => { t.move i .check with tickCount := t.tickCount + 1 }
  | some .exited => t
  | none => t

/-- An act of a caller or of a thread. -/
def step (t : Timer) : TimerAct → Timer
  | .start => t.start
  | .stop => t.stop
  | .pause => t.pause
  | .resume => t.resume
  | .resetCounter => t.resetCounter
  | .thread i => t.threadStep i

/-- Acts one after the other. -/
def run (t : Timer) (acts : List TimerAct) : Timer := acts.foldl step t

theorem run_append (t : Timer) (acts acts' : List TimerAct) :
    t.run (acts ++ acts') = (t.run acts).run acts' := List.foldl_append

theorem run_cons (t : Timer) (act : TimerAct) (acts : List TimerAct) :
    t.run (act :: acts) = (t.step act).run acts := rfl

theorem run_concat (t : Timer) (acts : List TimerAct) (act : TimerAct) :
    t.run (acts ++ [act]) = (t.run acts).step act := run_append t acts [act]

/-! ## Live threads -/

/-- The number of threads that have not decided to exit. -/
def live (t : Timer) : Nat := t.threads.countP TickThread.isLive

@[simp] theorem move_state (t : Timer) (i : Nat) (next : TickThread) :
    (t.move i next).state = t.state := rfl

@[simp] theorem checked_state (t : Timer) (i : Nat) (next : TickThread) :
    (t.checked i next).state = t.state := rfl

/-- A thread that moves without exiting leaves the number of live threads. -/
theorem live_move {t : Timer} {i : Nat} {now next : TickThread} (h : t.threads[i]? = some now)
    (hnow : now.isLive = true) (hnext : next.isLive = true) : (t.move i next).live = t.live := by
  obtain ⟨hlt, hget⟩ := List.getElem?_eq_some_iff.1 h
  have hpos : 0 < t.threads.countP TickThread.isLive :=
    List.countP_pos_iff.2 ⟨now, List.mem_of_getElem? h, hnow⟩
  simp only [live, move]
  rw [List.countP_set hlt, hget, if_pos hnow, if_pos hnext]
  omega

theorem threadStep_state (t : Timer) (i : Nat) : (t.threadStep i).state = t.state := by
  simp only [threadStep]
  split <;> rfl

/-- While the timer runs, no thread exits. -/
theorem threadStep_live {t : Timer} (h : t.state = .running) (i : Nat) :
    (t.threadStep i).live = t.live := by
  simp only [threadStep, checked, if_pos h]
  split
  · next hget => exact live_move hget rfl rfl
  · next hget => exact live_move hget rfl rfl
  · next hget => exact live_move hget rfl rfl
  · next hget => exact live_move (t := t) hget rfl rfl
  · next hget => exact live_move (t := t) hget rfl rfl
  · rfl
  · rfl

theorem start_live {t : Timer} (h : t.state ≠ .running) : t.start.live = t.live + 1 := by
  rw [start, if_neg h]
  exact List.countP_append.trans rfl

theorem resume_live (t : Timer) : t.resume.live = t.live := by
  rw [resume]
  split <;> rfl

/-! ## One thread for a running timer -/

/-- The calls come when the threads have caught up: a timer that does not run is started when every
earlier thread has exited, and a paused timer is resumed while its one thread is still alive. -/
def CalledInTime (t : Timer) : TimerAct → Prop
  | .start => t.state ≠ .running → t.live = 0
  | .resume => t.state = .paused → t.live = 1
  | _ => True

/-- A running timer has exactly one live thread. -/
def OneThread (t : Timer) : Prop := t.state = .running → t.live = 1

theorem oneThread_step {t : Timer} (h : t.OneThread) {act : TimerAct} (hact : t.CalledInTime act) :
    (t.step act).OneThread := by
  intro hrunning
  cases act with
  | start =>
    by_cases hstate : t.state = .running
    · rw [step, start, if_pos hstate]
      exact h hstate
    · rw [step, start_live hstate, hact hstate]
  | stop => cases hrunning
  | pause =>
    rw [step, pause] at hrunning
    split at hrunning
    · cases hrunning
    · next hnot => exact absurd hrunning hnot
  | resume =>
    rw [step, resume_live]
    by_cases hstate : t.state = .paused
    · exact hact hstate
    · rw [step, resume, if_neg hstate] at hrunning
      exact h hrunning
  | resetCounter => exact h hrunning
  | thread i =>
    rw [step, threadStep_state] at hrunning
    rw [step, threadStep_live hrunning]
    exact h hrunning

/-- A call that leaves a running timer with one live thread came in time. -/
theorem calledInTime_of_step {t : Timer} {act : TimerAct} (h : (t.step act).OneThread) :
    t.CalledInTime act := by
  cases act with
  | start =>
    intro hstate
    have hone : t.start.live = 1 := h (by rw [step, start, if_neg hstate])
    rw [start_live hstate] at hone
    exact Nat.succ.inj hone
  | resume =>
    intro hstate
    have hone : t.resume.live = 1 := h (by rw [step, resume, if_pos hstate])
    rwa [resume_live] at hone
  | _ => exact trivial

theorem oneThread_new (autoStart : Bool) : (new autoStart).OneThread := by
  cases autoStart with
  | false => exact fun hrunning => by cases hrunning
  | true => exact fun _ => rfl

/-- Every call of a run is in time if and only if the timer has one live thread whenever it runs. -/
theorem oneThread_run_iff (autoStart : Bool) (acts : List TimerAct) :
    (∀ before after, acts = before ++ after → ((new autoStart).run before).OneThread) ↔
      ∀ before act after, acts = before ++ act :: after →
        ((new autoStart).run before).CalledInTime act := by
  constructor
  · intro hone before act after hacts
    apply calledInTime_of_step
    rw [← run_concat]
    exact hone (before ++ [act]) after (by rw [hacts, List.append_assoc]; rfl)
  · intro htime before
    -- induction on the steps made so far, the last one first
    induction before using List.reverseRecOn with
    | nil => exact fun _ _ => oneThread_new autoStart
    | append_singleton before act ih =>
      intro after hacts
      have hsplit : acts = before ++ act :: after := by rw [hacts, List.append_assoc]; rfl
      rw [run_concat]
      exact oneThread_step (ih (act :: after) hsplit) (htime before act after hsplit)

/-! ## Threads of a timer that does not run -/

/-- The next step of the thread looks at the state. -/
def checksNext (t : Timer) (i : Nat) : Prop := (t.threads[i]?).any TickThread.isCheck = true

/-- Without a start or a resume, a timer that does not run goes on not running. -/
theorem step_idle {t : Timer} (h : t.state ≠ .running) {act : TimerAct}
    (hact : act.isRevival = false) : (t.step act).state ≠ .running := by
  cases act with
  | start => cases hact
  | stop => exact fun hrunning => by cases hrunning
  | pause =>
    rw [step, pause, if_neg h]
    exact h
  | resume => cases hact
  | resetCounter => exact h
  | thread i =>
    rw [step, threadStep_state]
    exact h

theorem run_idle {t : Timer} (h : t.state ≠ .running) {acts : List TimerAct}
    (hacts : ∀ act ∈ acts, act.isRevival = false) : (t.run acts).state ≠ .running := by
  induction acts generalizing t with
  | nil => exact h
  | cons act acts ih =>
    rw [run_cons]
    exact ih (step_idle h (hacts act List.mem_cons_self)) fun a ha =>
      hacts a (List.mem_cons_of_mem act ha)

/-- A check of a timer that does not run is the last step of its thread. -/
theorem threadStep_check {t : Timer} (h : t.state ≠ .running) {i : Nat} (hcheck : t.checksNext i) :
    (t.threadStep i).threads[i]? = some .exited := by
  obtain ⟨now, hnow, hischeck⟩ := (Option.any_eq_true _ _).1 hcheck
  obtain ⟨hlt, -⟩ := List.getElem?_eq_some_iff.1 hnow
  have hexit : ∀ next, (t.checked i next).threads[i]? = some .exited := by
    intro next
    rw [checked, if_neg h]
    exact List.getElem?_set_self hlt
  cases now with
  | check =>
    simp only [threadStep, hnow]
    exact hexit .sleep
  | checkAgain =>
    simp only [threadStep, hnow]
    exact hexit .send
  | _ => cases hischeck

/-- A step of one thread leaves the places of the others. -/
theorem threadStep_threads (t : Timer) (i : Nat) :
    ∃ next, (t.threadStep i).threads = t.threads.set i next ∨ (t.threadStep i).threads = t.threads := by
  simp only [threadStep]
  split
  · exact ⟨_, Or.inl rfl⟩
  · exact ⟨_, Or.inl rfl⟩
  · exact ⟨_, Or.inl rfl⟩
  · exact ⟨_, Or.inl rfl⟩
  · exact ⟨_, Or.inl rfl⟩
  · exact ⟨.exited, Or.inr rfl⟩
  · exact ⟨.exited, Or.inr rfl⟩

/-- A thread that has exited does not come back. -/
theorem step_exited {t : Timer} {i : Nat} (h : t.threads[i]? = some .exited) (act : TimerAct) :
    (t.step act).threads[i]? = some .exited := by
  cases act with
  | start =>
    rw [step, start]
    split
    · exact h
    · obtain ⟨hlt, -⟩ := List.getElem?_eq_some_iff.1 h
      exact (List.getElem?_append_left hlt).trans h
  | stop => exact h
  | pause =>
    rw [step, pause]
    split <;> exact h
  | resume =>
    rw [step, resume]
    split <;> exact h
  | resetCounter => exact h
  | thread j =>
    by_cases hij : j = i
    · rw [step, hij, threadStep, h]
      exact h
    · obtain ⟨next, hthreads | hthreads⟩ := t.threadStep_threads j
      · rw [step, hthreads, List.getElem?_set_ne hij]
        exact h
      · rw [step, hthreads]
        exact h

theorem run_exited {t : Timer} {i : Nat} (h : t.threads[i]? = some .exited) (acts : List TimerAct) :
    (t.run acts).threads[i]? = some .exited := by
  induction acts generalizing t with
  | nil => exact h
  | cons act acts ih => exact ih (step_exited h act)

/-- The threads match the state: a running timer has exactly one live thread, and while it does not
run, a thread sends nothing after its next check. -/
structure ThreadsMatch (autoStart : Bool) (acts : List TimerAct) : Prop where
  one : ∀ before after, acts = before ++ after → ((new autoStart).run before).OneThread
  silent : ∀ before middle rest after i,
    acts = before ++ middle ++ .thread i :: rest ++ .thread i :: after →
    ((new autoStart).run before).state ≠ .running →
    (∀ act ∈ middle ++ rest, act.isRevival = false) →
    ((new autoStart).run (before ++ middle)).checksNext i →
    ((new autoStart).run (before ++ middle ++ .thread i :: rest ++ [.thread i])).bus =
      ((new autoStart).run (before ++ middle ++ .thread i :: rest)).bus

/-- The threads match the state throughout a run exactly if every call of it comes in time. -/
theorem threadsMatch_iff (autoStart : Bool) (acts : List TimerAct) :
    ThreadsMatch autoStart acts ↔ ∀ before act after, acts = before ++ act :: after →
      ((new autoStart).run before).CalledInTime act := by
  rw [← oneThread_run_iff]
  constructor
  · exact fun h => h.one
  · intro hone
    refine ⟨hone, ?_⟩
    intro before middle rest after i _ hidle hcalls hcheck
    have hstate : ((new autoStart).run (before ++ middle)).state ≠ .running := by
      rw [run_append]
      exact run_idle hidle fun act hact => hcalls act (List.mem_append_left rest hact)
    have hexited : ((new autoStart).run (before ++ middle ++ .thread i :: rest)).threads[i]? =
        some .exited := by
      rw [run_append]
      exact run_exited (threadStep_check hstate hcheck) rest
    rw [run_concat, step, threadStep, hexited]

/-- A timer that is stopped and started again within one sleep has two threads, a paused one whose
thread has looked at the state has none left to resume. -/
theorem threads_mismatch :
    ¬(∀ autoStart acts, ThreadsMatch autoStart acts) ∧
    ((new true).run [.thread 0, .stop, .start]).live = 2 ∧
      ((new true).run [.pause, .thread 0, .resume]).state = .running ∧
      ((new true).run [.pause, .thread 0, .resume]).live = 0 := by
  refine ⟨?_, rfl, rfl, rfl⟩
  intro hall
  have hone := (hall true [.thread 0, .stop, .start]).one _ [] (List.append_nil _).symm rfl
  cases hone

end Timer

end GenshinOs.Hardware
