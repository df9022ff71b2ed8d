import GenshinOs.Process.Numbers
import GenshinOs.Process.Wakeups

/-!
# Mutual exclusion

A process is inside a semaphore from the end of its `sem_wait` to its `sem_signal`, and inside a mutex from
the end of its `lock_acquire` to its `lock_release`. A call that has put its process to sleep ends in two
ways: `sem_signal` makes the process go on behind the call, `lock_release` makes it repeat the call.
`Regions` follows this through a run.

Semaphores of value 1 and mutexes should let one live process in. Two things break this. The clean-up of
a process that ends signals semaphore 0 whenever it has no token, whoever is inside; and `sem_signal`
wakes a process that sleeps on a mutex of the same number, which then goes on as if it had the mutex.
Besides, a process that has been killed goes on executing until it is reaped. `Regions.Careful` excludes
these steps, and `one_inside` says that nothing else breaks the exclusion.
-/

set_option autoImplicit false

namespace GenshinOs.Process

open GenshinOs.Lib GenshinOs.Hardware GenshinOs.Memory

open Machine Kernel

/-- The process is in the table and has not ended. -/
def Kernel.isLive (k : Kernel) (q : Pid) : Bool := (k.stateOf q).any fun st => !st.isTerminated

/-! ## Calls that end -/

/-- Who is inside what, and the call in which a process sleeps. -/
structure Regions where
  inside : Finset (Pid × Wait)
  calls : Pid → Option Wait

namespace Regions

/-- Nobody is inside, and nobody calls. -/
def empty : Regions := ⟨∅, fun _ => none⟩

/-- A process goes in. -/
def enter (g : Regions) (pid : Pid) (x : Wait) : Regions := { g with inside := insert (pid, x) g.inside }

/-- A process goes out. -/
def leave (g : Regions) (pid : Pid) (x : Wait) : Regions := { g with inside := g.inside.erase (pid, x) }

/-- The call that a process is in. -/
def setCall (g : Regions) (pid : Pid) (call : Option Wait) : Regions :=
  { g with calls := Function.update g.calls pid call }

/-- The process goes on behind the call in which it slept. -/
def complete (g : Regions) (pid : Pid) : Regions :=
  match g.calls pid with
  | some x => (g.enter pid x).setCall pid none
  | none => g

/-- The process that a transition wakes on the given identifier. -/
def woken (t : Tr) (lockAddr : Nat) : Option Pid := wokenOn (t.map Machine.toKernel) lockAddr

/-- A release sets the program counter of the process back to its call. -/
def setBack (s : Machine) (q : Pid) : Bool := (s.cpus.get q).all fun cpu => decide (8 ≤ cpu.pc)

/-- Follow the calls through a transition. -/
def record (g : Regions) (t : Tr) : Regions :=
  match t.act with
  | .syscall _ pid (.semWait semId) =>
    match (t.pre.syncManager.waitSemaphore semId.toNat).1 with
    | some .acquired => g.enter pid (.semaphore semId.toNat)
    | some _ => g.setCall pid (some (.semaphore semId.toNat))
    | none => g
  | .syscall _ pid (.semSignal semId) =>
    let left := g.leave pid (.semaphore semId.toNat)
    match woken t semId.toNat with
    | some q => left.complete q
    | none => left
  | .syscall _ pid (.lockAcquire lockId) =>
    match (t.pre.syncManager.acquireMutex lockId.toNat pid).1 with
    | some .acquired => g.enter pid (.mutex lockId.toNat)
    | some _ => g.setCall pid (some (.mutex lockId.toNat))
    | none => g
  | .syscall _ pid (.lockRelease lockId) =>
    let left := g.leave pid (.mutex lockId.toNat)
    match woken t lockId.toNat with
    | some q => if setBack t.pre q then left.setCall q none else left.complete q
    | none => left
  | _ => g

end Regions

/-- Messages that use the primitives, or block or resume a process. -/
def Act.isForeign : Act → Bool
  | .request (.block _ _ _) _ => true
  | .request (.unblock _ _) _ => true
  | .request (.receiveMessage _ _) _ => true
  | .request (.waitSemaphore _ _) _ => true
  | .request (.signalSemaphore _ _) _ => true
  | .request (.acquireLock _ _) _ => true
  | .request (.releaseLock _ _) _ => true
  | .request (.waitChild _ _) none => true
  | .request (.signal _ .stop) _ => true
  | .request (.signal _ .continue) _ => true
  | _ => false

namespace Regions

/-- The processes use the primitives in pairs of calls, which no message disturbs, and start programs
outside of them. -/
def Patterned (g : Regions) (t : Tr) : Prop :=
  match t.act with
  | .syscall _ pid (.semWait semId) => (pid, .semaphore semId.toNat) ∉ g.inside
  | .syscall _ pid (.semSignal semId) => (pid, .semaphore semId.toNat) ∈ g.inside
  | .syscall _ pid (.lockAcquire lockId) => (pid, .mutex lockId.toNat) ∉ g.inside
  | .syscall _ pid (.lockRelease lockId) => (pid, .mutex lockId.toNat) ∈ g.inside
  | .syscall _ pid .exec => ∀ y ∈ g.inside, y.1 ≠ pid
  | .exec pid _ _ => ∀ y ∈ g.inside, y.1 ≠ pid
  | act => act.isForeign = false

instance (g : Regions) (t : Tr) : Decidable (Patterned g t) := by
  induction t using Transition.casesOn with
  | mk pre act post =>
    induction act using Act.casesOn with
    | syscall cpuId pid call =>
      induction call using SystemCall.casesOn <;> dsimp only [Patterned] <;> infer_instance
    | _ => dsimp only [Patterned]; infer_instance

/-- If the clean-up of a process signals semaphore 0, no other live process is inside. -/
def SparesInside (g : Regions) (k : Kernel) (pid : Pid) : Prop :=
  k.syncManager.value 0 = some 0 →
    ∀ y ∈ g.inside, y.2 = .semaphore 0 → k.isLive y.1 = true → y.1 = pid

instance (g : Regions) (k : Kernel) (pid : Pid) : Decidable (g.SparesInside k pid) :=
  inferInstanceAs (Decidable (_ → _))

/-- No process that has ended calls, a signal wakes no process that sleeps on a mutex, and who ends does
not free semaphore 0 for another one. -/
def Careful (g : Regions) (t : Tr) : Prop :=
  match t.act with
  | .syscall _ pid (.semWait _) => t.pre.isLive pid = true
  | .syscall _ pid (.semSignal semId) =>
    t.pre.isLive pid = true ∧
      ∀ q ∈ t.pre.processTable.keys, t.pre.SleepsOn q semId.toNat →
        g.calls q ≠ some (.mutex semId.toNat)
  | .syscall _ pid (.lockAcquire _) => t.pre.isLive pid = true ∧ pid ≠ unlocked
  | .syscall _ _ (.lockRelease lockId) =>
    ∀ q ∈ t.pre.processTable.keys, t.pre.SleepsOn q lockId.toNat → setBack t.pre q = true
  | .syscall _ pid (.exit _) => pid ≠ 1 → g.SparesInside t.pre.toKernel pid
  | .settle _ pid => t.pre.CleansUp pid → g.SparesInside t.pre.toKernel pid
  | .request (.signal pid signal) _ =>
    SignalType.isFatal signal = true → (t.pre.stateOf pid).isSome = true →
      g.SparesInside t.pre.toKernel pid
  | _ => True

instance (g : Regions) (t : Tr) : Decidable (Careful g t) := by
  induction t using Transition.casesOn with
  | mk pre act post =>
    induction act using Act.casesOn with
    | syscall cpuId pid call =>
      induction call using SystemCall.casesOn <;> dsimp only [Careful] <;> infer_instance
    | request req channel =>
      induction req using ProcessRequest.casesOn <;> dsimp only [Careful] <;> infer_instance
    | _ => dsimp only [Careful]; infer_instance

/-- Semaphores that were created with one token, and mutexes. -/
def Guards (k : Kernel) : Wait → Prop
  | .semaphore id => k.syncManager.initial id = some 1
  | .mutex _ => True

/-- One live process at most is inside. -/
def Exclusive (g : Regions) (k : Kernel) : Prop :=
  ∀ x, Guards k x → ∀ p q, (p, x) ∈ g.inside → (q, x) ∈ g.inside → k.isLive p = true →
    k.isLive q = true → p = q

end Regions

/-! ## Who is live -/

namespace Kernel

variable {k k' : Kernel} {q : Pid}

theorem isLive_iff : k.isLive q = true ↔ ∃ st, k.stateOf q = some st ∧ st.isTerminated = false := by
  rw [isLive, Option.any_eq_true]
  simp only [Bool.not_eq_true']

theorem isLive_congr (h : k'.stateOf q = k.stateOf q) : k'.isLive q = k.isLive q := by
  rw [isLive, isLive, h]

theorem SleepsOn.isLive {lockAddr : Nat} (h : k.SleepsOn q lockAddr) : k.isLive q = true :=
  isLive_iff.2 ⟨_, h, rfl⟩

/-- A process that is live after a state was written was live before, or it is the one. -/
theorem isLive_written {pid : Pid} {st : ProcessState}
    (h : k'.stateOf q = if q = pid then (k.stateOf pid).map fun _ => st else k.stateOf q)
    (hq : k'.isLive q = true) : k.isLive q = true ∨ q = pid ∧ st.isTerminated = false := by
  obtain ⟨st', hst', hlive⟩ := isLive_iff.1 hq
  rw [h] at hst'
  split at hst'
  · next heq =>
    rw [eq_of_map_const hst']
    exact Or.inr ⟨heq, hlive⟩
  · exact Or.inl (isLive_iff.2 ⟨st', hst', hlive⟩)

theorem isLive_shuffled (h : Shuffled k k') (hq : k'.isLive q = true) : k.isLive q = true := by
  rcases h q with heq | ⟨a, b, ha, -, hact, -⟩
  · rwa [isLive_congr heq] at hq
  · refine isLive_iff.2 ⟨a, ha, ?_⟩
    cases a with
    | terminated code => cases hact
    | zombie code => cases hact
    | _ => rfl

theorem isLive_removed {pid : Pid} (h : k'.stateOf q = if q = pid then none else k.stateOf q)
    (hq : k'.isLive q = true) : k.isLive q = true := by
  obtain ⟨st, hst, hlive⟩ := isLive_iff.1 hq
  rw [h] at hst
  split at hst
  · cases hst
  · exact isLive_iff.2 ⟨st, hst, hlive⟩

theorem isLive_inserted {st : ProcessState}
    (h : k'.stateOf q = if q = k.nextPid then some st else k.stateOf q) (hq : k'.isLive q = true) :
    k.isLive q = true ∨ k.nextPid ≤ q := by
  by_cases heq : q = k.nextPid
  · exact Or.inr (Nat.le_of_eq heq.symm)
  · rw [if_neg heq] at h
    rw [isLive_congr h] at hq
    exact Or.inl hq

end Kernel

/-- The acts that can make a process live. -/
def Act.starts : Act → Pid → Bool
  | .syscall _ pid .exec, q => decide (q = pid)
  | .syscall _ pid (.semWait _), q => decide (q = pid)
  | .syscall _ pid (.lockAcquire _), q => decide (q = pid)
  | .exec pid _ _, q => decide (q = pid)
  | _, _ => false

theorem ForkStep.isLive {k k' : Kernel} {parent q : Pid} (h : ForkStep k parent k')
    (hq : k'.isLive q = true) : k.isLive q = true ∨ k.nextPid ≤ q := by
  cases h with
  | refused => exact Or.inl hq
  | aborted => exact Or.inl hq
  | fresh => exact isLive_inserted (k.forkFresh_stateOf q) hq
  | child => exact isLive_inserted (k.forkChild_stateOf q parent) hq

theorem ExecStep.isLive {k k' : Kernel} {pid q : Pid} (h : ExecStep k pid k') (hq : k'.isLive q = true) :
    k.isLive q = true ∨ q = pid := by
  cases h with
  | failed => exact Or.inl hq
  | started executable args =>
    exact (isLive_written (k.exec_stateOf pid q executable args) hq).imp_right And.left

theorem RequestEffect.isLive {k k' : Kernel} {req : ProcessRequest} {q : Pid} (h : RequestEffect k req k')
    (hreq : Act.isForeign (.request req none) = false) (hq : k'.isLive q = true) : k.isLive q = true := by
  cases h with
  | inert _ h => rwa [isLive_congr (congrFun h.stateOf q)] at hq
  | schedule => exact hq
  | contextSwitch => exact hq
  | createSemaphore => exact hq
  | createLock => exact hq
  | signalQueued pid signal h => rwa [isLive_congr (congrFun h.stateOf q)] at hq
  | kill pid signal =>
    refine (isLive_written (k := k) (setState_stateOf _ pid q _) hq).resolve_right ?_
    rintro ⟨-, hterm⟩
    cases hterm
  | _ => cases hreq

theorem isLive_waitChild {k : Kernel} {pid q : Pid} {childPid : Option Pid} {channel : RequestId}
    (hq : (k.handleWaitChildWithResponse pid childPid channel).1.isLive q = true) : k.isLive q = true := by
  simp only [handleWaitChildWithResponse] at hq
  split at hq
  · exact hq
  split at hq
  · exact hq
  split at hq
  · exact hq
  split at hq
  · exact isLive_removed (removeProcess_stateOf _ _ q) hq
  · exact hq

/-- A request that is not foreign is a wait with a channel, or handled the same way without one. -/
theorem Performed.request_cases {w : World} {s s' : Machine} {req : ProcessRequest}
    {channel : Option RequestId} (h : Performed w s (.request req channel) s')
    (hact : Act.isForeign (.request req channel) = false) :
    (∃ pid childPid id, s'.toKernel = (s.toKernel.handleWaitChildWithResponse pid childPid id).1) ∨
      RequestEffect s.toKernel req s'.toKernel ∧ Act.isForeign (.request req none) = false := by
  have hplain := s.toKernel.handleProcessRequest_effect req
  cases h with
  | request =>
    cases channel with
    | none => exact Or.inr ⟨hplain, hact⟩
    | some id =>
      have halike := Kernel.Alike.refl s.toKernel
      cases req with
      | waitChild pid childPid => exact Or.inl ⟨pid, childPid, id, rfl⟩
      | getProcessInfo pid => exact Or.inr ⟨.inert rfl halike, rfl⟩
      | getStats => exact Or.inr ⟨.inert rfl halike, rfl⟩
      | getMemoryMap => exact Or.inr ⟨.inert rfl halike, rfl⟩
      | listProcesses => exact Or.inr ⟨.inert rfl halike, rfl⟩
      | signal pid signal => exact Or.inr ⟨hplain, by cases signal <;> first | rfl | cases hact⟩
      | _ => exact Or.inr ⟨hplain, by first | rfl | cases hact⟩

/-- A process that becomes live is new, or one that the act starts. -/
theorem Performed.isLive {w : World} {s s' : Machine} {act : Act} {q : Pid} (h : Performed w s act s')
    (hact : act.isForeign = false) (hq : s'.isLive q = true) :
    s.isLive q = true ∨ s.nextPid ≤ q ∨ act.starts q = true := by
  by_cases hreq : ∃ req channel, act = .request req channel
  · obtain ⟨req, channel, rfl⟩ := hreq
    rcases h.request_cases hact with ⟨pid, childPid, id, hk⟩ | ⟨heffect, hreq⟩
    · rw [hk] at hq
      exact Or.inl (isLive_waitChild hq)
    · exact Or.inl (heffect.isLive hreq hq)
  -- most steps leave the states alone; the others name the one process that they write
  · have hsame : s'.stateOf = s.stateOf → s.isLive q = true := by
      intro hstate
      rwa [isLive_congr (congrFun hstate q)] at hq
    have htable := h.step_of.table
    generalize hk : s'.toKernel = k' at htable hq hsame
    cases htable with
    | idle => exact Or.inl (hsame rfl)
    | dispatch cpuId scheduled => exact Or.inl (isLive_shuffled (shuffled_dispatch _ cpuId scheduled) hq)
    | initExit => exact Or.inl (hsame rfl)
    | exit cpuId pid code =>
      refine Or.inl ((isLive_written (exit_stateOf _ pid q _) hq).resolve_right ?_)
      rintro ⟨-, hterm⟩
      cases hterm
    | forkCall cpuId pid h => exact (h.isLive hq).imp_right Or.inl
    | execCall cpuId pid h => exact (h.isLive hq).imp_right fun heq => Or.inr (decide_eq_true heq)
    | semCreate => exact Or.inl (hsame rfl)
    | semWaitPassed => exact Or.inl (hsame rfl)
    | semWaitSlept cpuId pid =>
      exact (isLive_written (k := s.toKernel) (sleepOn_stateOf _ pid q _) hq).imp_right
        fun heq => Or.inr (decide_eq_true heq.1)
    | semSignalWoke cpuId pid semId waiter hwaiter =>
      refine Or.inl ((isLive_written (wake_stateOf _ waiter q) hq).elim id fun heq => ?_)
      rw [heq.1]
      exact SleepsOn.isLive hwaiter
    | semSignalCounted => exact Or.inl (hsame rfl)
    | lockCreate => exact Or.inl (hsame rfl)
    | lockAcquirePassed => exact Or.inl (hsame rfl)
    | lockAcquireSlept cpuId pid =>
      exact (isLive_written (k := s.toKernel) (sleepOn_stateOf _ pid q _) hq).imp_right
        fun heq => Or.inr (decide_eq_true heq.1)
    | lockReleaseWoke cpuId pid lockId waiter hwaiter =>
      refine Or.inl ((isLive_written (wake_stateOf s.toKernel waiter q) hq).elim id fun heq => ?_)
      rw [heq.1]
      exact SleepsOn.isLive hwaiter
    | lockReleaseNone => exact Or.inl (hsame rfl)
    | settled => exact Or.inl (hsame rfl)
    | zombified cpuId pid =>
      refine Or.inl ?_
      obtain ⟨st, hst, hlive⟩ := isLive_iff.1 hq
      rw [zombify_stateOf] at hst
      split at hst
      · cases hst
        cases hlive
      · exact isLive_iff.2 ⟨st, hst, hlive⟩
    | reapedNone => exact Or.inl (hsame rfl)
    | reaped cpuId pid => exact Or.inl (isLive_removed (removeProcess_stateOf _ pid q) hq)
    | fork h => exact (h.isLive hq).imp_right Or.inl
    | exec h => exact (h.isLive hq).imp_right fun heq => Or.inr (decide_eq_true heq)
    | sharedSemaphores => exact Or.inl (hsame rfl)
    | request channel h => exact absurd ⟨_, channel, rfl⟩ hreq
    | waitChild pid childPid channel => exact absurd ⟨_, some channel, rfl⟩ hreq
    | responded => exact Or.inl (hsame rfl)
    | silent => exact Or.inl (hsame rfl)

/-! ## The invariant -/

namespace Regions

/-- Nobody alive is inside a semaphore with a token, and one live process at most in one without. -/
structure OneToken (g : Regions) (k : Kernel) (id : SemaphoreId) : Prop where
  value : k.syncManager.value id = some 0 ∨
    k.syncManager.value id = some 1 ∧ ∀ p, (p, .semaphore id) ∈ g.inside → k.isLive p = false
  alone : ∀ p q, (p, .semaphore id) ∈ g.inside → (q, .semaphore id) ∈ g.inside → k.isLive p = true →
    k.isLive q = true → p = q

/-- Only processes that have existed are inside, and only inside of what exists; the semaphores of value 1
have one token, who is alive and inside a mutex owns it, and a sleeping process has called. -/
structure Ordered (g : Regions) (k : Kernel) : Prop where
  sound : k.syncManager.Sound
  numbered : k.Numbered
  known : ∀ y ∈ g.inside, y.1 < k.nextPid
  made : ∀ p id, (p, .semaphore id) ∈ g.inside → k.syncManager.value id ≠ none
  locks : ∀ p id, (p, .mutex id) ∈ g.inside → k.syncManager.owner id ≠ none
  semaphore : ∀ id, k.syncManager.initial id = some 1 → OneToken g k id
  mutex : ∀ id p, (p, .mutex id) ∈ g.inside → k.isLive p = true →
    k.syncManager.owner id = some p ∧ p ≠ unlocked
  asleep : ∀ q id, k.SleepsOn q id →
    g.calls q = some (.semaphore id) ∨ g.calls q = some (.mutex id)

theorem Ordered.exclusive {g : Regions} {k : Kernel} (h : Ordered g k) : Exclusive g k := by
  intro x hguards p q hp hq hlivep hliveq
  cases x with
  | semaphore id => exact (h.semaphore id hguards).alone p q hp hq hlivep hliveq
  | mutex id =>
    have howned := (h.mutex id p hp hlivep).1
    rw [(h.mutex id q hq hliveq).1] at howned
    exact (Option.some.inj howned).symm

/-- What a transition must do that none of the four calls is. -/
structure Follows (g : Regions) (k k' : Kernel) : Prop where
  sound : k'.syncManager.Sound
  enrols : Enrols k k'
  live : ∀ y ∈ g.inside, k'.isLive y.1 = true → k.isLive y.1 = true
  sleeps : ∀ q id, k'.SleepsOn q id → k.SleepsOn q id
  value : ∀ id, k'.syncManager.initial id = some 1 →
    k.syncManager.initial id = some 1 ∧ k'.syncManager.value id = k.syncManager.value id ∨
      k'.syncManager.value id = some 1 ∧ ∀ p, (p, .semaphore id) ∈ g.inside → k'.isLive p = false
  owner : ∀ id p, (p, .mutex id) ∈ g.inside → k'.isLive p = true →
    k'.syncManager.owner id = k.syncManager.owner id
  made : ∀ id, k'.syncManager.value id = none → k.syncManager.value id = none
  locks : ∀ id, k'.syncManager.owner id = none → k.syncManager.owner id = none

theorem Ordered.follows {g : Regions} {k k' : Kernel} (h : Ordered g k) (hk : Follows g k k') :
    Ordered g k' where
  sound := hk.sound
  numbered := h.numbered.step hk.enrols
  known := fun y hy => Nat.lt_of_lt_of_le (h.known y hy) hk.enrols.nextPid_le
  made := fun p id hp hnone => h.made p id hp (hk.made id hnone)
  locks := fun p id hp hnone => h.locks p id hp (hk.locks id hnone)
  semaphore := by
    intro id hone
    rcases hk.value id hone with ⟨hbefore, hvalue⟩ | ⟨hvalue, hdead⟩
    · have hkept := h.semaphore id hbefore
      refine ⟨?_, ?_⟩
      · rw [hvalue]
        refine hkept.value.imp_right fun hfree => ⟨hfree.1, fun p hp => ?_⟩
        by_contra hlive
        have hpre := hk.live _ hp (by simpa using hlive)
        rw [hfree.2 p hp] at hpre
        cases hpre
      · exact fun p q hp hq hlivep hliveq => hkept.alone p q hp hq (hk.live _ hp hlivep) (hk.live _ hq hliveq)
    · refine ⟨Or.inr ⟨hvalue, hdead⟩, fun p q hp _ hlivep _ => ?_⟩
      rw [hdead p hp] at hlivep
      cases hlivep
  mutex := by
    intro id p hp hlive
    rw [hk.owner id p hp hlive]
    exact h.mutex id p hp (hk.live _ hp hlive)
  asleep := fun q id hq => h.asleep q id (hk.sleeps q id hq)

section follows

variable {w : World} {g : Regions} {s s' : Machine} {act : Act}

/-- Who is inside and live afterwards was live before. -/
theorem Ordered.live_before (h : Ordered g s.toKernel) (hstep : Performed w s act s')
    (hforeign : act.isForeign = false) (hstarts : ∀ y ∈ g.inside, act.starts y.1 = false) :
    ∀ y ∈ g.inside, s'.isLive y.1 = true → s.isLive y.1 = true := by
  intro y hy hlive
  rcases hstep.isLive hforeign hlive with hpre | hnew | hstarted
  · exact hpre
  · exact absurd (h.known y hy) (Nat.not_lt.2 hnew)
  · cases hstarted.symm.trans (hstarts y hy)

/-- The parts that are the same for all of them. -/
theorem Ordered.follows_of (h : Ordered g s.toKernel) (hstep : Performed w s act s')
    (hforeign : act.isForeign = false) (hstarts : ∀ y ∈ g.inside, act.starts y.1 = false)
    (hfalls : ∀ q id, ¬FallsAsleep s.toKernel q id act)
    (hvalue : ∀ id, s'.syncManager.initial id = some 1 →
      s.syncManager.initial id = some 1 ∧ s'.syncManager.value id = s.syncManager.value id ∨
        s'.syncManager.value id = some 1 ∧ ∀ p, (p, .semaphore id) ∈ g.inside → s'.isLive p = false)
    (howner : ∀ id p, (p, .mutex id) ∈ g.inside → s'.isLive p = true →
      s'.syncManager.owner id = s.syncManager.owner id)
    (hmade : ∀ id, s'.syncManager.value id = none → s.syncManager.value id = none)
    (hlocks : ∀ id, s'.syncManager.owner id = none → s.syncManager.owner id = none) :
    Ordered g s'.toKernel := by
  have htable := hstep.step_of.table
  refine h.follows ⟨htable.sound h.sound, htable.enrols, h.live_before hstep hforeign hstarts, ?_, hvalue,
    howner, hmade, hlocks⟩
  exact fun q id hq => (htable.sleepsOn hq).resolve_right (hfalls q id)

/-- A transition that leaves the primitives alone. -/
theorem Ordered.same (h : Ordered g s.toKernel) (hstep : Performed w s act s')
    (hforeign : act.isForeign = false) (hstarts : ∀ y ∈ g.inside, act.starts y.1 = false)
    (hfalls : ∀ q id, ¬FallsAsleep s.toKernel q id act) (hsync : s'.syncManager = s.syncManager) :
    Ordered g s'.toKernel := by
  refine h.follows_of hstep hforeign hstarts hfalls ?_ ?_ ?_ ?_
  · intro id hone
    rw [hsync] at hone ⊢
    exact Or.inl ⟨hone, rfl⟩
  · intro id p _ _
    rw [hsync]
  · intro id hnone
    rwa [hsync] at hnone
  · intro id hnone
    rwa [hsync] at hnone

end follows

/-- A new semaphore. -/
theorem Ordered.created {g : Regions} {k : Kernel} (h : Ordered g k) (pid : Pid) (initialValue : UInt32) :
    Ordered g (k.handleCreateSemaphore pid initialValue) := by
  have hvalue := k.syncManager.createSemaphore_value pid initialValue
  have hinitial := k.syncManager.createSemaphore_initial pid initialValue
  have hnew : k.syncManager.value k.syncManager.nextSemId = none := by
    rw [SyncManager.value, h.sound.semaphore_lt _ (Nat.le_refl _), Option.map_none]
  refine h.follows ⟨h.sound.createSemaphore pid initialValue, Enrols.of_eq rfl rfl, fun _ _ => id,
    fun _ _ => id, ?_, fun _ _ _ _ => rfl, ?_, fun _ => id⟩
  · intro id hone
    have hone' : (k.syncManager.createSemaphore pid initialValue).2.initial id = some 1 := hone
    rw [hinitial] at hone'
    show _ ∧ (k.syncManager.createSemaphore pid initialValue).2.value id = _ ∨
      (k.syncManager.createSemaphore pid initialValue).2.value id = _ ∧ _
    rw [hvalue]
    split at hone'
    · next heq =>
      rw [if_pos heq]
      refine Or.inr ⟨hone', fun p hp => absurd ?_ (h.made p id hp)⟩
      rw [heq]
      exact hnew
    · next hne =>
      rw [if_neg hne]
      exact Or.inl ⟨hone', rfl⟩
  · intro id hnone
    have hnone' : (k.syncManager.createSemaphore pid initialValue).2.value id = none := hnone
    rw [hvalue] at hnone'
    split at hnone'
    · cases hnone'
    · exact hnone'

/-- A new mutex. -/
theorem Ordered.lockCreated {g : Regions} {k : Kernel} (h : Ordered g k) (pid : Pid) :
    Ordered g (k.handleCreateLock pid) := by
  have howner := k.syncManager.createMutex_owner pid false
  have hnew : k.syncManager.owner k.syncManager.nextMutexId = none := by
    rw [SyncManager.owner, h.sound.mutex_lt _ (Nat.le_refl _), Option.map_none]
  refine h.follows ⟨h.sound.createMutex pid, Enrols.of_eq rfl rfl, fun _ _ => id, fun _ _ => id,
    fun _ hone => Or.inl ⟨hone, rfl⟩, ?_, fun _ => id, ?_⟩
  · intro id p hp _
    show (k.syncManager.createMutex pid false).2.owner id = _
    rw [howner, if_neg]
    rintro rfl
    exact h.locks p _ hp hnew
  · intro id hnone
    have hnone' : (k.syncManager.createMutex pid false).2.owner id = none := hnone
    rw [howner] at hnone'
    split at hnone'
    · cases hnone'
    · exact hnone'

/-! ## Processes that end -/

section endings

variable {w : World} {g : Regions} {s s' : Machine} {act : Act} {pid : Pid}

/-- The clean-up of a process that ends, when it frees semaphore 0 for nobody else. -/
theorem Ordered.cleaned (h : Ordered g s.toKernel) (hstep : Performed w s act s')
    (hforeign : act.isForeign = false) (hstarts : ∀ y ∈ g.inside, act.starts y.1 = false)
    (hfalls : ∀ q id, ¬FallsAsleep s.toKernel q id act) (hspares : g.SparesInside s.toKernel pid)
    (hdead : s'.isLive pid = false)
    (hvalue : ∀ id, s'.syncManager.value id = s.syncManager.releaseGlobalSemaphore.value id)
    (hinitial : ∀ id, s'.syncManager.initial id = s.syncManager.initial id)
    (howner : ∀ id, s'.syncManager.owner id = s.syncManager.owner id ∨
      s'.syncManager.owner id = some unlocked ∧ s.syncManager.owner id = some pid) :
    Ordered g s'.toKernel := by
  refine h.follows_of hstep hforeign hstarts hfalls ?_ ?_ ?_ ?_
  · intro id hone
    rw [hinitial] at hone
    rw [hvalue, SyncManager.releaseGlobalSemaphore_value h.sound]
    split
    · next hzero =>
      refine Or.inr ⟨rfl, fun p hp => ?_⟩
      cases hlive : s'.isLive p with
      | false => rfl
      | true =>
        -- a live process inside would be the one that has ended
        rw [hzero.1] at hp
        have hpre : s.isLive p = true := h.live_before hstep hforeign hstarts _ hp hlive
        have heq : p = pid := hspares hzero.2 _ hp rfl hpre
        rw [heq, hdead] at hlive
        cases hlive
    · exact Or.inl ⟨hone, rfl⟩
  · intro id p hp hlive
    rcases howner id with hsame | ⟨-, howned⟩
    · exact hsame
    · have hpre : s.isLive p = true := h.live_before hstep hforeign hstarts _ hp hlive
      have hself := (h.mutex id p hp hpre).1
      rw [howned] at hself
      rw [← Option.some.inj hself, hdead] at hlive
      cases hlive
  · intro id hnone
    rw [hvalue, SyncManager.releaseGlobalSemaphore_value h.sound] at hnone
    split at hnone
    · cases hnone
    · exact hnone
  · intro id hnone
    rcases howner id with hsame | ⟨hfree, -⟩
    · rwa [hsame] at hnone
    · rw [hfree] at hnone
      cases hnone

/-- What the clean-up does to the mutexes. -/
theorem owner_releaseGlobals {m : SyncManager} (hsound : m.Sound) (pid : Pid) (id : LockId) :
    (m.releaseGlobalSemaphore.releaseGlobalMutex pid).owner id = m.owner id ∨
      (m.releaseGlobalSemaphore.releaseGlobalMutex pid).owner id = some unlocked ∧
        m.owner id = some pid := by
  rw [SyncManager.releaseGlobalMutex_owner hsound.releaseGlobalSemaphore,
    SyncManager.releaseGlobalSemaphore_owner, SyncManager.releaseGlobalSemaphore_owner]
  split
  · next hfreed => exact Or.inr ⟨rfl, by rw [hfreed.1]; exact hfreed.2⟩
  · exact Or.inl rfl

/-- Both shared primitives are given back for a process that ends. -/
theorem Ordered.ended (h : Ordered g s.toKernel) (hstep : Performed w s act s')
    (hforeign : act.isForeign = false) (hstarts : ∀ y ∈ g.inside, act.starts y.1 = false)
    (hfalls : ∀ q id, ¬FallsAsleep s.toKernel q id act) (hspares : g.SparesInside s.toKernel pid)
    (hdead : s'.isLive pid = false)
    (hsync : s'.syncManager = s.syncManager.releaseGlobalSemaphore.releaseGlobalMutex pid) :
    Ordered g s'.toKernel := by
  apply h.cleaned hstep hforeign hstarts hfalls hspares hdead
  · intro id
    rw [hsync, SyncManager.releaseGlobalMutex_value]
  · intro id
    rw [hsync, SyncManager.releaseGlobalMutex_initial, SyncManager.releaseGlobalSemaphore_initial]
  · intro id
    rw [hsync]
    exact owner_releaseGlobals h.sound pid id

theorem not_live_of_written {k k' : Kernel} {st : ProcessState}
    (h : k'.stateOf pid = (k.stateOf pid).map fun _ => st) (hst : st.isTerminated = true) :
    k'.isLive pid = false := by
  rw [isLive, h]
  cases k.stateOf pid with
  | none => rfl
  | some _ => simp [hst]

/-- The clean-up after a slice. -/
theorem Ordered.settle (w : World) (cpuId : Fin 2) (h : Ordered g s.toKernel)
    (hspares : s.CleansUp pid → g.SparesInside s.toKernel pid) :
    Ordered g (s.settle pid).toKernel := by
  have hstep : Performed w s (.settle cpuId pid) (s.settle pid) := .settle cpuId pid
  have hfalls : ∀ q id, ¬FallsAsleep s.toKernel q id (.settle cpuId pid) := by
    intro q id hfall
    cases hfall
  rcases s.settle_cases pid with hsame | ⟨hcleans, hzombie⟩ | ⟨hover, hzombie⟩
  · rw [hsame]
    exact h
  · have halive : (s.stateOf pid).any (fun st => !st.isTerminated) = true := by
      rcases hcleans.2.2 with hst | hst
      · rw [hst]
        rfl
      · rw [hst]
        rfl
    -- the timer ends the process, and gives back what it may have held
    have hsync : (s.settle pid).syncManager =
        s.syncManager.releaseGlobalSemaphore.releaseGlobalMutex pid := by
      rw [hzombie, zombify_syncManager, if_pos halive]
    apply h.ended hstep rfl (fun _ _ => rfl) hfalls (hspares hcleans) ?_ hsync
    rw [hzombie, isLive, zombify_stateOf, if_pos ⟨rfl, halive⟩]
    rfl
  -- the process is over already: the scheduler alone is written
  · refine h.same hstep rfl (fun _ _ => rfl) hfalls ?_
    rw [hzombie, zombify_of_dead _ _ hover]
    rfl

/-- A message that uses no primitive and blocks nobody. -/
theorem Ordered.request {req : ProcessRequest} {channel : Option RequestId} (h : Ordered g s.toKernel)
    (hstep : Performed w s (.request req channel) s') (hforeign : Act.isForeign (.request req channel) = false)
    (hspares : ∀ pid signal, req = .signal pid signal → SignalType.isFatal signal = true →
      (s.stateOf pid).isSome = true → g.SparesInside s.toKernel pid) : Ordered g s'.toKernel := by
  have hfalls : ∀ q id, ¬FallsAsleep s.toKernel q id (.request req channel) := by
    intro q id hfall
    cases hfall
  -- most requests leave the primitives alone
  have hsame : s'.syncManager = s.syncManager → Ordered g s'.toKernel :=
    h.same hstep hforeign (fun _ _ => rfl) hfalls
  rcases hstep.request_cases hforeign with ⟨pid, childPid, id, hk⟩ | ⟨heffect, hreq⟩
  · refine hsame ?_
    rw [hk, handleWaitChildWithResponse_syncManager]
  · generalize hk : s'.toKernel = k' at heffect
    cases heffect with
    | inert _ halike => exact hk ▸ hsame (hk ▸ halike.syncManager)
    | schedule => exact hk ▸ hsame (by rw [hk]; rfl)
    | contextSwitch => exact hk ▸ hsame (by rw [hk]; rfl)
    | createSemaphore pid initialValue => exact h.created pid initialValue
    | createLock pid => exact h.lockCreated pid
    | signalQueued pid signal halike => exact hk ▸ hsame (hk ▸ halike.syncManager)
    | kill pid signal hsig hpid =>
      rw [← hk]
      -- a fatal signal releases what the process holds
      have hsync : s'.syncManager = s.syncManager.releaseGlobalSemaphore.releaseGlobalMutex pid := by
        rw [hk]
        rfl
      have hwritten : s'.stateOf pid = (s.stateOf pid).map fun _ => .zombie 0 := by
        rw [hk, setState_stateOf, if_pos rfl]
        rfl
      apply h.ended hstep hforeign (fun _ _ => rfl) hfalls (hspares pid signal rfl hsig hpid) ?_ hsync
      exact not_live_of_written hwritten rfl
    | _ => cases hreq

end endings

/-! ## The four calls -/

theorem mem_enter {g : Regions} {pid p : Pid} {x y : Wait} :
    (p, y) ∈ (g.enter pid x).inside ↔ p = pid ∧ y = x ∨ (p, y) ∈ g.inside := by
  rw [enter, Finset.mem_insert, Prod.mk.injEq]

theorem mem_leave {g : Regions} {pid p : Pid} {x y : Wait} :
    (p, y) ∈ (g.leave pid x).inside ↔ ¬(p = pid ∧ y = x) ∧ (p, y) ∈ g.inside := by
  rw [leave, Finset.mem_erase, Ne, Prod.mk.injEq]

theorem OneToken.frame {g g' : Regions} {k k' : Kernel} {id : SemaphoreId} (h : OneToken g k id)
    (hvalue : k'.syncManager.value id = k.syncManager.value id)
    (hinside : ∀ p, (p, .semaphore id) ∈ g'.inside → (p, .semaphore id) ∈ g.inside)
    (hlive : ∀ p, (p, .semaphore id) ∈ g'.inside → k'.isLive p = true → k.isLive p = true) :
    OneToken g' k' id := by
  refine ⟨?_, fun p q hp hq hlivep hliveq => ?_⟩
  · rw [hvalue]
    refine h.value.imp_right fun hfree => ⟨hfree.1, fun p hp => ?_⟩
    rw [Bool.eq_false_iff]
    intro hafter
    have hbefore := hlive p hp hafter
    rw [hfree.2 p (hinside p hp)] at hbefore
    cases hbefore
  · exact h.alone p q (hinside p hp) (hinside q hq) (hlive p hp hlivep) (hlive q hq hliveq)

theorem Ordered.lt_nextPid {g : Regions} {k : Kernel} {pid : Pid} (h : Ordered g k)
    (hlive : k.isLive pid = true) : pid < k.nextPid := by
  obtain ⟨st, hst, -⟩ := isLive_iff.1 hlive
  exact h.numbered pid (by rw [hst]; rfl)

section calls

variable {g : Regions} {k : Kernel} {pid : Pid} {id : Nat}

/-- The process enters a semaphore: it takes the token. -/
theorem Ordered.waitPassed (h : Ordered g k) {v : Nat} (hv : k.syncManager.value id = some v) (hpos : v ≠ 0)
    (hlive : k.isLive pid = true) :
    Ordered (g.enter pid (.semaphore id)) (k.onSync fun m => (m.waitSemaphore id).2) := by
  have hvalue : ∀ id', (k.onSync fun m => (m.waitSemaphore id).2).syncManager.value id' =
      if id' = id then some (v - 1) else k.syncManager.value id' := by
    intro id'
    rw [onSync_syncManager, SyncManager.waitSemaphore_value h.sound, hv, Option.map_some]
  refine ⟨h.sound.waitSemaphore id, h.numbered, ?_, ?_, ?_, ?_, ?_, h.asleep⟩
  · rintro ⟨p, x⟩ hp
    rcases mem_enter.1 hp with ⟨rfl, -⟩ | hp
    · exact h.lt_nextPid hlive
    · exact h.known _ hp
  · intro p id' hp
    rw [hvalue]
    split
    · exact Option.some_ne_none _
    · next hne =>
      rcases mem_enter.1 hp with ⟨-, heq⟩ | hp
      · exact absurd (Wait.semaphore.inj heq) hne
      · exact h.made p id' hp
  · intro p id' hp
    rw [onSync_syncManager, SyncManager.waitSemaphore_owner]
    rcases mem_enter.1 hp with ⟨-, heq⟩ | hp
    · cases heq
    · exact h.locks p id' hp
  · intro id' hone
    rw [onSync_syncManager, SyncManager.waitSemaphore_initial] at hone
    by_cases hid : id' = id
    · -- the token was there, so nobody alive was inside
      subst hid
      have hkept := h.semaphore id' hone
      rcases hkept.value with hzero | ⟨hone', hnobody⟩
      · rw [hv] at hzero
        exact absurd (Option.some.inj hzero) hpos
      · rw [hv] at hone'
        have hself : ∀ p, (p, .semaphore id') ∈ (g.enter pid (.semaphore id')).inside →
            k.isLive p = true → p = pid := by
          intro p hp hlivep
          rcases mem_enter.1 hp with ⟨heq, -⟩ | hp
          · exact heq
          · rw [hnobody p hp] at hlivep
            cases hlivep
        refine ⟨Or.inl ?_, fun p q hp hq hlivep hliveq => ?_⟩
        · rw [hvalue, if_pos rfl, Option.some.inj hone']
        · rw [hself p hp hlivep, hself q hq hliveq]
    · refine (h.semaphore id' hone).frame ?_ ?_ fun _ _ hafter => hafter
      · rw [hvalue, if_neg hid]
      · intro p hp
        rcases mem_enter.1 hp with ⟨-, heq⟩ | hp
        · exact absurd (Wait.semaphore.inj heq) hid
        · exact hp
  · intro id' p hp hlivep
    rw [onSync_syncManager, SyncManager.waitSemaphore_owner]
    rcases mem_enter.1 hp with ⟨-, heq⟩ | hp
    · cases heq
    · exact h.mutex id' p hp hlivep

/-- The process enters a mutex: it becomes the owner. -/
theorem Ordered.acquired (h : Ordered g k) (hfree : k.syncManager.owner id = some unlocked)
    (hlive : k.isLive pid = true) (hpid : pid ≠ unlocked) :
    Ordered (g.enter pid (.mutex id)) (k.onSync fun m => (m.acquireMutex id pid).2) := by
  have howner : ∀ id', (k.onSync fun m => (m.acquireMutex id pid).2).syncManager.owner id' =
      if id' = id then some pid else k.syncManager.owner id' := by
    intro id'
    rw [onSync_syncManager, SyncManager.acquireMutex_owner h.sound, hfree, Option.map_some, if_pos rfl]
  refine ⟨h.sound.acquireMutex id pid, h.numbered, ?_, ?_, ?_, ?_, ?_, h.asleep⟩
  · rintro ⟨p, x⟩ hp
    rcases mem_enter.1 hp with ⟨rfl, -⟩ | hp
    · exact h.lt_nextPid hlive
    · exact h.known _ hp
  · intro p id' hp
    rw [onSync_syncManager, SyncManager.acquireMutex_value]
    rcases mem_enter.1 hp with ⟨-, heq⟩ | hp
    · cases heq
    · exact h.made p id' hp
  · intro p id' hp
    rw [howner]
    split
    · exact Option.some_ne_none _
    · next hne =>
      rcases mem_enter.1 hp with ⟨-, heq⟩ | hp
      · exact absurd (Wait.mutex.inj heq) hne
      · exact h.locks p id' hp
  · intro id' hone
    rw [onSync_syncManager, SyncManager.acquireMutex_initial] at hone
    refine (h.semaphore id' hone).frame ?_ ?_ fun _ _ hafter => hafter
    · rw [onSync_syncManager, SyncManager.acquireMutex_value]
    · intro p hp
      rcases mem_enter.1 hp with ⟨-, heq⟩ | hp
      · cases heq
      · exact hp
  · intro id' p hp hlivep
    rw [howner]
    rcases mem_enter.1 hp with ⟨hp, heq⟩ | hp
    · rw [if_pos (Wait.mutex.inj heq), hp]
      exact ⟨rfl, hpid⟩
    · split
      · next heq =>
        -- the mutex was free, so nobody alive was inside
        rw [heq] at hp
        have howned := h.mutex id p hp hlivep
        rw [hfree] at howned
        exact absurd (Option.some.inj howned.1).symm howned.2
      · exact h.mutex id' p hp hlivep

/-- The process falls asleep in a call. -/
theorem Ordered.slept {k' : Kernel} (h : Ordered g k) (hlive : k.isLive pid = true) {x : Wait}
    (hx : x = .semaphore id ∨ x = .mutex id) (hk : k' = (k.onSync fun _ => k'.syncManager).sleepOn pid id)
    (hsound : k'.syncManager.Sound) (hvalue : ∀ id', k'.syncManager.value id' = k.syncManager.value id')
    (hinitial : ∀ id', k'.syncManager.initial id' = k.syncManager.initial id')
    (howner : ∀ id', k'.syncManager.owner id' = k.syncManager.owner id') :
    Ordered (g.setCall pid (some x)) k' := by
  have hstate : ∀ q, k'.stateOf q =
      if q = pid then (k.stateOf pid).map fun _ => .blocked (.waitingForLock id) else k.stateOf q := by
    intro q
    rw [hk, sleepOn_stateOf]
    rfl
  -- a sleeping process is live, and so was this one before
  have hbefore : ∀ q, k'.isLive q = true → k.isLive q = true := by
    intro q hq
    rcases isLive_written (hstate q) hq with hpre | ⟨rfl, -⟩
    · exact hpre
    · exact hlive
  have hnext : k'.nextPid = k.nextPid := by
    rw [hk]
    rfl
  refine ⟨hsound, h.numbered.step (Enrols.of_written hnext hstate), ?_, ?_, ?_, ?_, ?_, ?_⟩
  · rw [hnext]
    exact h.known
  · intro p id' hp
    rw [hvalue]
    exact h.made p id' hp
  · intro p id' hp
    rw [howner]
    exact h.locks p id' hp
  · intro id' hone
    rw [hinitial] at hone
    exact (h.semaphore id' hone).frame (hvalue id') (fun _ hp => hp) fun p _ => hbefore p
  · intro id' p hp hlivep
    rw [howner]
    exact h.mutex id' p hp (hbefore p hlivep)
  · intro q id' hq
    rw [SleepsOn, hstate] at hq
    simp only [setCall, Function.update_apply]
    split at hq
    · next heq =>
      have hid : id = id' := by simpa using eq_of_map_const hq
      rw [if_pos heq, ← hid]
      exact hx.imp (congrArg some) (congrArg some)
    · next hne =>
      rw [if_neg hne]
      exact h.asleep q id' hq

/-- The process leaves. -/
theorem Ordered.left (h : Ordered g k) (x : Wait) : Ordered (g.leave pid x) k where
  sound := h.sound
  numbered := h.numbered
  known := fun y hy => h.known y (Finset.mem_of_mem_erase hy)
  made := fun p id hp => h.made p id (Finset.mem_of_mem_erase hp)
  locks := fun p id hp => h.locks p id (Finset.mem_of_mem_erase hp)
  semaphore := fun id hone => (h.semaphore id hone).frame rfl (fun _ hp => Finset.mem_of_mem_erase hp)
    fun _ _ hafter => hafter
  mutex := fun id p hp => h.mutex id p (Finset.mem_of_mem_erase hp)
  asleep := h.asleep

/-- A sleeping process is made ready. -/
theorem Ordered.woke (h : Ordered g k) {waiter : Pid} (hwaiter : k.SleepsOn waiter id) :
    Ordered g (k.wake waiter) := by
  refine h.follows ⟨h.sound, Enrols.of_written rfl fun q => k.wake_stateOf waiter q, ?_, ?_,
    fun _ hone => Or.inl ⟨hone, rfl⟩, fun _ _ _ _ => rfl, fun _ hnone => hnone, fun _ hnone => hnone⟩
  · intro y _ hlive
    rcases isLive_written (k.wake_stateOf waiter y.1) hlive with hpre | ⟨heq, -⟩
    · exact hpre
    · rw [heq]
      exact hwaiter.isLive
  · intro q id' hq
    rw [SleepsOn, wake_stateOf] at hq
    exact of_written hq (by simp)

/-- The call of a process that does not sleep is forgotten. -/
theorem Ordered.forgotten (h : Ordered g k) {q : Pid} (hq : ∀ id, ¬k.SleepsOn q id) (call : Option Wait) :
    Ordered (g.setCall q call) k := by
  refine ⟨h.sound, h.numbered, h.known, h.made, h.locks, ?_, h.mutex, ?_⟩
  · exact fun id hone => (h.semaphore id hone).frame rfl (fun _ hp => hp) fun _ _ hafter => hafter
  · intro q' id hq'
    have hne : q' ≠ q := by
      rintro rfl
      exact hq id hq'
    simp only [setCall, Function.update_apply, if_neg hne]
    exact h.asleep q' id hq'

theorem awake_of_wake (k : Kernel) (waiter : Pid) (id : Nat) : ¬(k.wake waiter).SleepsOn waiter id := by
  intro hsleeps
  rw [SleepsOn, wake_stateOf, if_pos rfl] at hsleeps
  cases eq_of_map_const hsleeps

/-- A live process that is inside hands the token to a process that sleeps in `sem_wait`. -/
theorem Ordered.handed (h : Ordered g k) (hinside : (pid, .semaphore id) ∈ g.inside)
    (hlive : k.isLive pid = true) {waiter : Pid} (hwaiter : k.SleepsOn waiter id)
    (hcall : g.calls waiter = some (.semaphore id)) :
    Ordered ((g.leave pid (.semaphore id)).complete waiter) (k.wake waiter) := by
  have hcomplete : (g.leave pid (.semaphore id)).complete waiter =
      ((g.leave pid (.semaphore id)).enter waiter (.semaphore id)).setCall waiter none := by
    have hcall' : (g.leave pid (.semaphore id)).calls waiter = some (.semaphore id) := hcall
    simp only [complete, hcall']
  have hleft : Ordered (g.leave pid (.semaphore id)) k := h.left (.semaphore id)
  have hwoken := hleft.woke hwaiter
  rw [hcomplete]
  refine Ordered.forgotten ?_ (awake_of_wake k waiter) none
  have hbefore : ∀ p, (k.wake waiter).isLive p = true → k.isLive p = true := by
    intro p hp
    rcases isLive_written (k.wake_stateOf waiter p) hp with hpre | ⟨rfl, -⟩
    · exact hpre
    · exact hwaiter.isLive
  refine ⟨hwoken.sound, hwoken.numbered, ?_, ?_, ?_, ?_, ?_, hwoken.asleep⟩
  · rintro ⟨p, x⟩ hp
    rcases mem_enter.1 hp with ⟨rfl, -⟩ | hp
    · exact h.lt_nextPid hwaiter.isLive
    · exact hwoken.known _ hp
  · intro p id' hp
    rcases mem_enter.1 hp with ⟨-, heq⟩ | hp
    · cases heq
      exact h.made pid _ hinside
    · exact hwoken.made p id' hp
  · intro p id' hp
    rcases mem_enter.1 hp with ⟨-, heq⟩ | hp
    · cases heq
    · exact hwoken.locks p id' hp
  · intro id' hone
    by_cases hid : id' = id
    · subst hid
      have hkept := h.semaphore id' hone
      have hzero : k.syncManager.value id' = some 0 := by
        rcases hkept.value with hzero | ⟨-, hnobody⟩
        · exact hzero
        · rw [hnobody pid hinside] at hlive
          cases hlive
      -- who was inside beside the one that leaves is not alive
      have hself : ∀ p, (p, .semaphore id') ∈ ((g.leave pid (.semaphore id')).enter waiter
          (.semaphore id')).inside → (k.wake waiter).isLive p = true → p = waiter := by
        intro p hp hlivep
        rcases mem_enter.1 hp with ⟨heq, -⟩ | hp
        · exact heq
        -- nobody else who is inside is live, or there would have been two
        · obtain ⟨hother, hp⟩ := mem_leave.1 hp
          exact absurd ⟨hkept.alone p pid hp hinside (hbefore p hlivep) hlive, rfl⟩ hother
      refine ⟨Or.inl hzero, fun p q hp hq hlivep hliveq => ?_⟩
      rw [hself p hp hlivep, hself q hq hliveq]
    · refine (hwoken.semaphore id' hone).frame rfl ?_ fun _ _ hafter => hafter
      intro p hp
      rcases mem_enter.1 hp with ⟨-, heq⟩ | hp
      · exact absurd (Wait.semaphore.inj heq) hid
      · exact hp
  · intro id' p hp hlivep
    rcases mem_enter.1 hp with ⟨-, heq⟩ | hp
    · cases heq
    · exact hwoken.mutex id' p hp hlivep

/-- A live process that is inside puts the token back. -/
theorem Ordered.putBack (h : Ordered g k) (hinside : (pid, .semaphore id) ∈ g.inside)
    (hlive : k.isLive pid = true) :
    Ordered (g.leave pid (.semaphore id)) (k.onSync fun m => (m.signalSemaphore id).2) := by
  have hvalue : ∀ id', (k.onSync fun m => (m.signalSemaphore id).2).syncManager.value id' = _ :=
    SyncManager.signalSemaphore_value h.sound id
  -- the process is outside from here on
  have hleft : Ordered (g.leave pid (.semaphore id)) k := h.left (.semaphore id)
  refine hleft.follows ⟨h.sound.signalSemaphore id, Enrols.of_eq rfl rfl,
    fun _ _ hafter => hafter, fun _ _ hafter => hafter, ?_, ?_, ?_, ?_⟩
  · intro id' hone
    rw [onSync_syncManager, SyncManager.signalSemaphore_initial] at hone
    by_cases hid : id' = id
    · subst hid
      have hkept := h.semaphore id' hone
      refine Or.inr ⟨?_, fun p hp => ?_⟩
      · -- the token was out, since its holder is alive
        rcases hkept.value with hzero | ⟨-, hnobody⟩
        · rw [hvalue, if_pos rfl, hzero]
          rfl
        · rw [hnobody pid hinside] at hlive
          cases hlive
      · obtain ⟨hother, hp⟩ := mem_leave.1 hp
        rw [Bool.eq_false_iff]
        exact fun hlivep => hother ⟨hkept.alone p pid hp hinside hlivep hlive, rfl⟩
    · exact Or.inl ⟨hone, by rw [hvalue, if_neg hid]⟩
  · intro id' p _ _
    rw [onSync_syncManager, SyncManager.signalSemaphore_owner]
  · intro id' hnone
    rw [hvalue] at hnone
    split at hnone
    · next heq => rw [heq, Option.map_eq_none_iff.1 hnone]
    · exact hnone
  · intro id' hnone
    rwa [onSync_syncManager, SyncManager.signalSemaphore_owner] at hnone

/-- The process releases a mutex, if it has it. -/
theorem Ordered.released (h : Ordered g k) :
    Ordered (g.leave pid (.mutex id)) (k.onSync fun m => (m.releaseMutex id pid).2) := by
  have howner : ∀ id', (k.onSync fun m => (m.releaseMutex id pid).2).syncManager.owner id' = _ :=
    fun id' => SyncManager.releaseMutex_owner h.sound id id' pid
  have hleft : Ordered (g.leave pid (.mutex id)) k := h.left (.mutex id)
  refine hleft.follows ⟨h.sound.releaseMutex id pid, Enrols.of_eq rfl rfl,
    fun _ _ hafter => hafter, fun _ _ hafter => hafter, ?_, ?_, ?_, ?_⟩
  · intro id' hone
    rw [onSync_syncManager, SyncManager.releaseMutex_initial] at hone
    exact Or.inl ⟨hone, by rw [onSync_syncManager, SyncManager.releaseMutex_value]⟩
  · intro id' p hp hlivep
    obtain ⟨hother, hstill⟩ := mem_leave.1 hp
    rw [howner]
    split
    · next heq =>
      subst heq
      -- another process that is inside is the owner
      have howned := (h.mutex id' p hstill hlivep).1
      rw [howned, Option.map_some, if_neg]
      rintro rfl
      exact hother ⟨rfl, rfl⟩
    · rfl
  · intro id' hnone
    rwa [onSync_syncManager, SyncManager.releaseMutex_value] at hnone
  · intro id' hnone
    rw [howner] at hnone
    split at hnone
    · next heq => rw [heq, Option.map_eq_none_iff.1 hnone]
    · exact hnone

end calls

/-! ## All transitions -/

section steps

variable {w : World} {g : Regions} {t : Tr} {cpuId : Fin 2} {pid : Pid}

/-- Whom a transition wakes depends on the states only. -/
theorem woken_of_wake {waiter : Pid} {lockAddr : Nat} (hwaiter : t.pre.SleepsOn waiter lockAddr)
    (hpost : t.post.stateOf = (t.pre.toKernel.wake waiter).stateOf) : woken t lockAddr = some waiter := by
  have hwoken : wokenOn ⟨t.pre.toKernel, t.act, t.pre.toKernel.wake waiter⟩ lockAddr = some waiter :=
    wokenOn_wake hwaiter
  rw [← hwoken]
  refine congrArg (fun p => List.find? p t.pre.processTable.keys) (funext fun q => decide_eq_decide.2 ?_)
  show _ ∧ ¬t.post.stateOf q = _ ↔ _
  rw [hpost]
  rfl

theorem woken_of_none {lockAddr : Nat} (h : ∀ q, ¬t.pre.SleepsOn q lockAddr) : woken t lockAddr = none := by
  cases hwoken : woken t lockAddr with
  | none => rfl
  | some q => exact absurd (wokenOn_some hwoken).1 (h q)

theorem Ordered.semWait (h : Ordered g t.pre.toKernel) {semId : UInt64}
    (hact : t.act = .syscall cpuId pid (.semWait semId))
    (hstep : TableStep t.pre.toKernel t.act t.post.toKernel) (hlive : t.pre.isLive pid = true) :
    Ordered (record g t) t.post.toKernel := by
  have hresult := SyncManager.waitSemaphore_result h.sound semId.toNat
  simp only [record, hact]
  rw [hact] at hstep
  generalize hk : t.post.toKernel = k' at hstep
  cases hstep with
  | idle hidle => cases hidle
  | semWaitPassed _ _ _ hpassed =>
    rcases hpassed with hnone | hacquired
    · -- there is no such semaphore
      have hvalue : t.pre.syncManager.value semId.toNat = none := by
        rw [hnone] at hresult
        exact Option.map_eq_none_iff.1 hresult.symm
      have hsame : ∀ id, (t.pre.syncManager.waitSemaphore semId.toNat).2.value id =
          t.pre.syncManager.value id := by
        intro id
        rw [SyncManager.waitSemaphore_value h.sound, hvalue, Option.map_none]
        split
        · next heq => rw [heq, hvalue]
        · rfl
      simp only [hnone]
      refine h.follows ⟨h.sound.waitSemaphore _, Enrols.of_eq rfl rfl, fun _ _ hafter => hafter,
        fun _ _ hafter => hafter, ?_, ?_, ?_, ?_⟩
      · intro id hone
        rw [onSync_syncManager, SyncManager.waitSemaphore_initial] at hone
        exact Or.inl ⟨hone, hsame id⟩
      · intro id p _ _
        rw [onSync_syncManager, SyncManager.waitSemaphore_owner]
      · intro id hid
        rwa [onSync_syncManager, hsame] at hid
      · intro id hid
        rwa [onSync_syncManager, SyncManager.waitSemaphore_owner] at hid
    · rw [hacquired] at hresult
      obtain ⟨v, hv, hpos⟩ := Option.map_eq_some_iff.1 hresult.symm
      simp only [hacquired]
      exact h.waitPassed hv (by rintro rfl; cases hpos) hlive
  | semWaitSlept _ _ _ hslept hr =>
    have hzero := Waits.value_of_blocked h.sound hslept hr
    have hsame : ∀ id, (t.pre.syncManager.waitSemaphore semId.toNat).2.value id =
        t.pre.syncManager.value id := by
      intro id
      rw [SyncManager.waitSemaphore_value h.sound]
      split
      · next heq => rw [heq, hzero, Option.map_some]
      · rfl
    simp only [hslept]
    exact h.slept hlive (Or.inl rfl) rfl (h.sound.waitSemaphore _) hsame
      (SyncManager.waitSemaphore_initial _ _) (SyncManager.waitSemaphore_owner _ _)

theorem Ordered.semSignal (h : Ordered g t.pre.toKernel) {semId : UInt64}
    (hact : t.act = .syscall cpuId pid (.semSignal semId))
    (hstep : TableStep t.pre.toKernel t.act t.post.toKernel)
    (hinside : (pid, .semaphore semId.toNat) ∈ g.inside) (hlive : t.pre.isLive pid = true)
    (hcalls : ∀ q ∈ t.pre.processTable.keys, t.pre.SleepsOn q semId.toNat →
      g.calls q ≠ some (.mutex semId.toNat)) : Ordered (record g t) t.post.toKernel := by
  have hstep' := hstep
  rw [hact] at hstep'
  simp only [record, hact]
  generalize hk : t.post.toKernel = k' at hstep'
  cases hstep' with
  | idle hidle => cases hidle
  | semSignalWoke _ _ _ waiter hwaiter =>
    have hwoken : woken t semId.toNat = some waiter := woken_of_wake hwaiter (by rw [hk])
    have hcall : g.calls waiter = some (.semaphore semId.toNat) :=
      (h.asleep waiter _ hwaiter).resolve_right (hcalls waiter (SleepsOn.mem_keys hwaiter) hwaiter)
    simp only [hwoken]
    exact h.handed hinside hlive hwaiter hcall
  | semSignalCounted _ _ _ hnobody =>
    simp only [woken_of_none hnobody]
    exact h.putBack hinside hlive

theorem Ordered.lockAcquire (h : Ordered g t.pre.toKernel) {lockId : UInt64}
    (hact : t.act = .syscall cpuId pid (.lockAcquire lockId))
    (hstep : TableStep t.pre.toKernel t.act t.post.toKernel) (hlive : t.pre.isLive pid = true)
    (hpid : pid ≠ unlocked) : Ordered (record g t) t.post.toKernel := by
  have hresult := SyncManager.acquireMutex_result h.sound lockId.toNat pid
  simp only [record, hact]
  rw [hact] at hstep
  generalize hk : t.post.toKernel = k' at hstep
  have hkept : ∀ o, t.pre.syncManager.owner lockId.toNat = o → (∀ p, o = some p → p ≠ unlocked) →
      ∀ id, (t.pre.syncManager.acquireMutex lockId.toNat pid).2.owner id = t.pre.syncManager.owner id := by
    intro o ho hlocked id
    rw [SyncManager.acquireMutex_owner h.sound]
    split
    · next heq =>
      rw [heq, ho]
      cases o with
      | none => rfl
      | some p => rw [Option.map_some, if_neg (hlocked p rfl)]
    · rfl
  cases hstep with
  | idle hidle => cases hidle
  | lockAcquirePassed _ _ _ hpassed =>
    rcases hpassed with hnone | hacquired
    · -- there is no such mutex
      have howner : t.pre.syncManager.owner lockId.toNat = none := by
        rw [hnone] at hresult
        exact Option.map_eq_none_iff.1 hresult.symm
      have hsame := hkept none howner (by rintro p ⟨⟩)
      simp only [hnone]
      refine h.follows ⟨h.sound.acquireMutex _ _, Enrols.of_eq rfl rfl, fun _ _ hafter => hafter,
        fun _ _ hafter => hafter, ?_, fun id p _ _ => hsame id, ?_, ?_⟩
      · intro id hone
        rw [onSync_syncManager, SyncManager.acquireMutex_initial] at hone
        exact Or.inl ⟨hone, by rw [onSync_syncManager, SyncManager.acquireMutex_value]⟩
      · intro id hid
        rwa [onSync_syncManager, SyncManager.acquireMutex_value] at hid
      · intro id hid
        rwa [onSync_syncManager, hsame] at hid
    · rw [hacquired] at hresult
      obtain ⟨o, ho, hfree⟩ := Option.map_eq_some_iff.1 hresult.symm
      simp only [hacquired]
      split at hfree
      · next heq => exact h.acquired (heq ▸ ho) hlive hpid
      · split at hfree
        · cases hfree
        · cases hfree
  | lockAcquireSlept _ _ _ hslept hr =>
    obtain ⟨o, ho, hlocked⟩ := Waits.owner_of_blocked h.sound hslept hr
    have hsame := hkept (some o) ho (by rintro p ⟨⟩; exact hlocked)
    simp only [hslept]
    exact h.slept hlive (Or.inr rfl) rfl (h.sound.acquireMutex _ _)
      (SyncManager.acquireMutex_value _ _ _) (SyncManager.acquireMutex_initial _ _ _) hsame

theorem Ordered.lockRelease (h : Ordered g t.pre.toKernel) {lockId : UInt64}
    (hact : t.act = .syscall cpuId pid (.lockRelease lockId))
    (hstep : TableStep t.pre.toKernel t.act t.post.toKernel)
    (hback : ∀ q ∈ t.pre.processTable.keys, t.pre.SleepsOn q lockId.toNat → setBack t.pre q = true) :
    Ordered (record g t) t.post.toKernel := by
  have hstep' := hstep
  rw [hact] at hstep'
  simp only [record, hact]
  generalize hk : t.post.toKernel = k' at hstep'
  cases hstep' with
  | idle hidle => cases hidle
  | lockReleaseWoke _ _ _ waiter hwaiter =>
    have hwoken : woken t lockId.toNat = some waiter := woken_of_wake hwaiter (by rw [hk]; rfl)
    simp only [hwoken, hback waiter (SleepsOn.mem_keys hwaiter) hwaiter]
    have hreleased : Ordered (g.leave pid (.mutex lockId.toNat)) _ := (h.woke hwaiter).released
    exact hreleased.forgotten (awake_of_wake t.pre.toKernel waiter) none
  | lockReleaseNone _ _ _ hnobody =>
    simp only [woken_of_none hnobody]
    exact h.released

/-- The calls that enter and leave. -/
def SystemCall.isPaired : SystemCall → Bool
  | .semWait _ => true
  | .semSignal _ => true
  | .lockAcquire _ => true
  | .lockRelease _ => true
  | _ => false

/-- A system call that is none of the four. -/
theorem Ordered.call (h : Ordered g t.pre.toKernel) (ht : Performed w t.pre t.act t.post) {call : SystemCall}
    (hact : t.act = .syscall cpuId pid call) (hpatterned : Patterned g t) (hcareful : Careful g t)
    (hcall : SystemCall.isPaired call = false) : Ordered (record g t) t.post.toKernel := by
  have hrecord : record g t = g := by
    simp only [record, hact]
    cases call <;> first | rfl | cases hcall
  have hforeign : t.act.isForeign = false := by rw [hact]; rfl
  -- an exec inside a section is excluded by the pattern, and no other call starts a process
  have hstarts : ∀ y ∈ g.inside, t.act.starts y.1 = false := by
    intro y hy
    rw [hact]
    simp only [Patterned, hact] at hpatterned
    cases call with
    | exec => exact decide_eq_false (hpatterned y hy)
    | _ => first | rfl | cases hcall
  have hfalls : ∀ q id, ¬FallsAsleep t.pre.toKernel q id t.act := by
    intro q id hfall
    rw [hact] at hfall
    cases hfall with
    | semWait => cases hcall
    | lockAcquire => cases hcall
  have hsame : t.post.syncManager = t.pre.syncManager → Ordered g t.post.toKernel :=
    h.same ht hforeign hstarts hfalls
  rw [hrecord]
  have htable := ht.step_of.table
  rw [hact] at htable
  generalize hk : t.post.toKernel = k' at htable hsame
  cases htable with
  | idle => exact h
  | initExit => exact h
  | exit _ _ code hpid =>
    simp only [Careful, hact] at hcareful
    -- an exit gives the shared semaphore back, and the process that ended was outside
    have hsync : t.post.syncManager = t.pre.syncManager.releaseGlobalSemaphore := by
      rw [hk]
      rfl
    have hcleaned : Ordered g t.post.toKernel := by
      refine h.cleaned ht hforeign hstarts hfalls (hcareful hpid) ?_ ?_ ?_ ?_
      · have hwritten : t.post.stateOf pid = (t.pre.stateOf pid).map fun _ => .zombie (exitCodeOf code) := by
          rw [hk, exit_stateOf, if_pos rfl]
        exact not_live_of_written hwritten rfl
      · intro id
        rw [hsync]
      · intro id
        rw [hsync, SyncManager.releaseGlobalSemaphore_initial]
      · intro id
        rw [hsync, SyncManager.releaseGlobalSemaphore_owner]
        exact Or.inl rfl
    exact hk ▸ hcleaned
  | forkCall _ _ hfork => exact hsame (hfork.syncManager_eq)
  | execCall _ _ hexec => exact hsame (hexec.syncManager_eq)
  | semCreate => exact h.created pid 1
  | lockCreate => exact h.lockCreated pid
  | _ => cases hcall

/-- Every transition. -/
theorem Ordered.step (h : Ordered g t.pre.toKernel) (ht : Performed w t.pre t.act t.post)
    (hpatterned : Patterned g t) (hcareful : Careful g t) : Ordered (record g t) t.post.toKernel := by
  have htable := ht.step_of.table
  -- acts that record nothing and leave the primitives alone
  have hsame : record g t = g → t.act.isForeign = false → (∀ y ∈ g.inside, t.act.starts y.1 = false) →
      (∀ q id, ¬FallsAsleep t.pre.toKernel q id t.act) → t.post.syncManager = t.pre.syncManager →
      Ordered (record g t) t.post.toKernel := by
    intro hrecord hforeign hstarts hfalls hsync
    rw [hrecord]
    exact h.same ht hforeign hstarts hfalls hsync
  cases hact : t.act with
  | syscall cpuId pid call =>
    -- system calls that use no primitive
    have hcalled : SystemCall.isPaired call = false → Ordered (record g t) t.post.toKernel :=
      h.call ht hact hpatterned hcareful
    simp only [Patterned, hact] at hpatterned
    simp only [Careful, hact] at hcareful
    cases call with
    | semWait semId => exact h.semWait hact htable hcareful
    | semSignal semId => exact h.semSignal hact htable hpatterned hcareful.1 hcareful.2
    | lockAcquire lockId => exact h.lockAcquire hact htable hcareful.1 hcareful.2
    | lockRelease lockId => exact h.lockRelease hact htable hcareful
    | _ => exact hcalled rfl
  | settle cpuId pid =>
    simp only [Careful, hact] at hcareful
    have hrecord : record g t = g := by simp only [record, hact]
    have hpost : t.post = t.pre.settle pid := by
      rw [hact] at ht
      generalize t.post = s' at ht
      cases ht with
      | settle => rfl
    rw [hrecord, hpost]
    exact h.settle w cpuId hcareful
  | request req channel =>
    have hrecord : record g t = g := by simp only [record, hact]
    simp only [Patterned, hact] at hpatterned
    rw [hrecord]
    rw [hact] at ht
    refine h.request ht hpatterned ?_
    rintro pid signal rfl hfatal hpid
    simp only [Careful, hact] at hcareful
    exact hcareful hfatal hpid
  | sharedSemaphores =>
    have hrecord : record g t = g := by simp only [record, hact]
    rw [hact] at htable
    rw [hrecord]
    generalize t.post.toKernel = k' at htable
    cases htable with
    | idle hidle => cases hidle
    -- the two shared semaphores are new ones
    | sharedSemaphores => exact (h.created 0 1).created 0 1
  | exec pid executable args =>
    simp only [Patterned, hact] at hpatterned
    refine hsame ?_ ?_ ?_ ?_ ?_
    · simp only [record, hact]
    · rw [hact]
      rfl
    · intro y hy
      rw [hact]
      exact decide_eq_false (hpatterned y hy)
    · intro q id hfall
      rw [hact] at hfall
      cases hfall
    · rw [hact] at htable
      generalize t.post.toKernel = k' at htable
      cases htable with
      | idle hidle => cases hidle
      | exec hexec => exact hexec.syncManager_eq
  | _ =>
    refine hsame ?_ ?_ ?_ ?_ ?_
    · simp only [record, hact]
    · rw [hact]
      rfl
    · intro y hy
      rw [hact]
      rfl
    · intro q id hfall
      rw [hact] at hfall
      cases hfall
    · rw [hact] at htable
      generalize t.post.toKernel = k' at htable
      cases htable <;>
        first
          | rfl
          | exact dispatch_syncManager _ _ _
          | exact ForkStep.syncManager_eq (by assumption)

end steps

theorem ordered_boot (w : World) (memory : MemoryService) : Ordered empty (boot w memory).toKernel := by
  have hboot := boot_tables w memory
  have hsync : (boot w memory).syncManager = SyncManager.new := hboot.syncManager_eq
  refine ⟨by rw [hsync]; exact SyncManager.sound_new, numbered_boot w memory, ?_, ?_, ?_, ?_, ?_, ?_⟩
  · intro y hy
    cases hy
  · intro p id hp
    cases hp
  · intro p id hp
    cases hp
  · intro id hone
    rw [hsync, SyncManager.new_initial] at hone
    refine ⟨Or.inr ⟨?_, ?_⟩, ?_⟩
    · rw [hsync, SyncManager.new_value]
      exact hone
    · intro p hp
      cases hp
    · intro p q hp
      cases hp
  · intro id p hp
    cases hp
  · intro q id hq
    cases hboot.sleepsOn hq

end Regions

open Regions in
/-- In every run of processes that use the primitives in pairs, whose steps are careful, one live process at
most is inside a semaphore of value 1 or a mutex, in every state. -/
theorem one_inside (w : World) (memory : MemoryService) (events : List Event)
    (h : Along record (fun g t => Patterned g t ∧ Careful g t) Regions.empty (run w memory events).2) :
    Exclusive (history record Regions.empty (run w memory events).2) (run w memory events).1.toKernel ∧
      Along record (fun g t => Exclusive g t.pre.toKernel ∧ Exclusive (record g t) t.post.toKernel)
        Regions.empty (run w memory events).2 := by
  have htraced := run_traced w memory events
  have hstep : ∀ t ∈ (run w memory events).2, ∀ g, (Patterned g t ∧ Careful g t) →
      Ordered g t.pre.toKernel → Ordered (record g t) t.post.toKernel :=
    fun t ht g hok hpre => hpre.step (htraced.performed t ht) hok.1 hok.2
  have hinv := @Chain.coupled _ _ _ record (fun g t => Patterned g t ∧ Careful g t)
    (fun g s => Ordered g s.toKernel) _ _ _ htraced.chain Regions.empty (ordered_boot w memory) h hstep
  exact ⟨hinv.1.exclusive, along_mono (fun _ _ _ hpair => ⟨hpair.1.exclusive, hpair.2.exclusive⟩) hinv.2⟩

/-- Two processes go through the turnstile. -/
def turnstileEvents : List Event :=
  [.envelope (.syscall (.createProcess "a" [])) false, .envelope (.syscall (.createProcess "b" [])) false,
    .timer, .timer, .timer]

open Regions in
/-- The second process is inside after the first. -/
theorem turnstile_one_inside :
    (3, .semaphore 0) ∈ (history record Regions.empty (run (World.calm turnstile) (bootMemory 16384 fun _ => 0)
        turnstileEvents).2).inside ∧
      Exclusive (history record Regions.empty (run (World.calm turnstile) (bootMemory 16384 fun _ => 0)
        turnstileEvents).2)
        (run (World.calm turnstile) (bootMemory 16384 fun _ => 0) turnstileEvents).1.toKernel := by
  have hcareful : Along record (fun g t => Patterned g t ∧ Careful g t) Regions.empty
      (run (World.calm turnstile) (bootMemory 16384 fun _ => 0) turnstileEvents).2 := by decide +kernel
  exact ⟨by decide +kernel, (one_inside _ _ _ hcareful).1⟩

/-- A process takes the global semaphore and goes on with other things. -/
def holdSemaphore : List UInt8 := mov 0 201 ++ int80 ++ (List.range 6).flatMap fun _ => mov 2 1

/-- Process 2 is inside and process 3 waits, is killed and makes room for process 4. -/
def killedWaiterEvents : List Event :=
  [.envelope (.syscall (.createProcess "a" [])) false, .envelope (.syscall (.createProcess "b" [])) false,
    .timer, .envelope (.process (.signal 3 .kill)) false,
    .envelope (.syscall (.createProcess "c" [])) false, .timer]

open Regions in
/-- Two live processes are inside the global semaphore. -/
theorem two_inside :
    Along record Patterned Regions.empty
        (run (World.calm holdSemaphore) (bootMemory 32768 fun _ => 0) killedWaiterEvents).2 ∧
      ¬Exclusive (history record Regions.empty
          (run (World.calm holdSemaphore) (bootMemory 32768 fun _ => 0) killedWaiterEvents).2)
        (run (World.calm holdSemaphore) (bootMemory 32768 fun _ => 0) killedWaiterEvents).1.toKernel := by
  refine ⟨by decide +kernel, fun hexclusive => ?_⟩
  have hguards : Guards (run (World.calm holdSemaphore) (bootMemory 32768 fun _ => 0)
      killedWaiterEvents).1.toKernel (.semaphore 0) := by
    show _ = some 1
    decide +kernel
  have hsame := hexclusive (.semaphore 0) hguards 2 4 (by decide +kernel) (by decide +kernel)
    (by decide +kernel) (by decide +kernel)
  cases hsame

end GenshinOs.Process
