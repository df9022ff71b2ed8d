import GenshinOs.Process.Numbers

/-!
# Ends of processes

What one transition can do to the state of one process, `Fate`: it stays, it moves to a state in
which the process is not over, the process ends, or a process that is over leaves the table. Three
acts end a process: its own exit, the clean-up after its slice when its CPU has halted, and a fatal
signal. The guard that keeps process 1 alive stands in the first two only.

A process that ends should hold no mutex. The clean-up of each of the three acts gives back less
than that: a fatal signal and the clean-up after a halt release the global mutex, exit none.
-/

set_option autoImplicit false

namespace GenshinOs.Process

open GenshinOs.Lib GenshinOs.Hardware GenshinOs.Memory

/-- The acts that may end a process. -/
def Act.ends : Act → Pid → Bool
  | .syscall _ pid (.exit _), q => decide (q = pid ∧ pid ≠ 1)
  | .settle _ pid, q => decide (q = pid ∧ pid ≠ 1)
  | .request (.signal pid signal) _, q => decide (q = pid) && SignalType.isFatal signal
  | _, _ => false

/-- What an act can do to the state of a process. -/
inductive Fate (act : Act) (q : Pid) : Option ProcessState → Option ProcessState → Prop
  | kept (o : Option ProcessState) : Fate act q o o
  | moved (o : Option ProcessState) {b : ProcessState} (hb : b.isTerminated = false) :
      Fate act q o (some b)
  | ended (a : ProcessState) (code : Int32) (h : act.ends q = true) :
      Fate act q (some a) (some (.zombie code))
  | removed {a : ProcessState} (ha : a.isTerminated = true) : Fate act q (some a) none

namespace Fate

variable {act : Act} {q : Pid}

/-- The state stays as it is. -/
theorem of_eq {o o' : Option ProcessState} (h : o' = o) : Fate act q o o' := by
  rw [h]
  exact .kept o

/-- One process of the table gets a state in which it is not over. -/
theorem of_written {k : Kernel} {pid : Pid} {st : ProcessState} {o : Option ProcessState}
    (h : o = if q = pid then (k.stateOf pid).map fun _ => st else k.stateOf q)
    (hst : st.isTerminated = false) : Fate act q (k.stateOf q) o := by
  rw [h]
  split
  · next heq =>
    rw [heq]
    cases k.stateOf pid with
    | none => exact .kept none
    | some a => exact .moved (some a) hst
  · exact .kept _

/-- One process of the table becomes a zombie. -/
theorem of_ended {k : Kernel} {pid : Pid} {code : Int32} {o : Option ProcessState}
    (h : o = if q = pid then (k.stateOf pid).map fun _ => .zombie code else k.stateOf q)
    (hact : act.ends pid = true) : Fate act q (k.stateOf q) o := by
  rw [h]
  split
  · next heq =>
    rw [heq]
    cases k.stateOf pid with
    | none => exact .kept none
    | some a => exact .ended a code hact
  · exact .kept _

/-- A process that has ended leaves the table. -/
theorem of_removed {k : Kernel} {pid : Pid} {st : ProcessState} {o : Option ProcessState}
    (h : o = if q = pid then none else k.stateOf q) (hpid : k.stateOf pid = some st)
    (hst : st.isTerminated = true) : Fate act q (k.stateOf q) o := by
  rw [h]
  split
  · next heq =>
    rw [heq, hpid]
    exact .removed hst
  · exact .kept _

/-- A process enters the table alive. -/
theorem of_inserted {k : Kernel} {pid : Pid} {st : ProcessState} {o : Option ProcessState}
    (h : o = if q = pid then some st else k.stateOf q) (hst : st.isTerminated = false) :
    Fate act q (k.stateOf q) o := by
  rw [h]
  split
  · exact .moved _ hst
  · exact .kept _

/-- Active states are shuffled. -/
theorem of_shuffled {k k' : Kernel} (h : k.Shuffled k') : Fate act q (k.stateOf q) (k'.stateOf q) := by
  rcases h q with heq | ⟨a, b, ha, hb, -, hact⟩
  · exact of_eq heq
  · rw [ha, hb]
    refine .moved (some a) ?_
    cases b with
    | terminated _ => cases hact
    | zombie _ => cases hact
    | _ => rfl

end Fate

/-- A fork ends nobody, -/
theorem ForkStep.fate {k k' : Kernel} {parent : Pid} (h : ForkStep k parent k') (act : Act)
    (q : Pid) : Fate act q (k.stateOf q) (k'.stateOf q) := by
  cases h with
  | refused => exact .kept _
  | aborted => exact .kept _
  | fresh => exact Fate.of_inserted (k.forkFresh_stateOf q) rfl
  | child => exact Fate.of_inserted (k.forkChild_stateOf q parent) rfl

/-- nor does an exec; -/
theorem ExecStep.fate {k k' : Kernel} {pid : Pid} (h : ExecStep k pid k') (act : Act) (q : Pid) :
    Fate act q (k.stateOf q) (k'.stateOf q) := by
  cases h with
  | failed => exact .kept _
  | started executable args => exact Fate.of_written (k.exec_stateOf pid q executable args) rfl

/-- a request ends those that its signal kills. -/
theorem RequestEffect.fate {k k' : Kernel} {req : ProcessRequest} (h : RequestEffect k req k')
    (channel : Option RequestId) (q : Pid) :
    Fate (.request req channel) q (k.stateOf q) (k'.stateOf q) := by
  cases h with
  | inert hreq h => exact Fate.of_eq (congrFun h.stateOf q)
  | schedule => exact .kept _
  | block pid tid reason => exact Fate.of_written (k.handleBlock_stateOf pid q tid reason) rfl
  | unblock pid tid => exact Fate.of_written (k.handleUnblock_stateOf pid q tid) rfl
  | contextSwitch => exact .kept _
  | received pid blocking h => exact Fate.of_eq (congrFun h.stateOf q)
  | receiveBlocked pid => exact Fate.of_written (k.handleBlock_stateOf pid q 1 _) rfl
  | createSemaphore => exact .kept _
  | waitBlocked pid => exact Fate.of_written (k := k) (Kernel.handleBlock_stateOf _ pid q 1 _) rfl
  | waitPassed => exact .kept _
  | signalSemaphore => exact .kept _
  | createLock => exact .kept _
  | acquireBlocked pid => exact Fate.of_written (k := k) (Kernel.handleBlock_stateOf _ pid q 1 _) rfl
  | acquirePassed => exact .kept _
  | releaseLock => exact .kept _
  | waitRefused => exact .kept _
  | waitChild pid childPid reason => exact Fate.of_written (k.handleBlock_stateOf pid q 1 reason) rfl
  | kill pid signal hsig =>
    refine Fate.of_ended (k := k) (Kernel.setState_stateOf _ pid q _) ?_
    simp [Act.ends, hsig]
  | stop pid => exact Fate.of_written (k.setState_stateOf pid q _) rfl
  | continued pid => exact Fate.of_written (k.setState_stateOf pid q _) rfl
  | signalQueued pid signal h => exact Fate.of_eq (congrFun h.stateOf q)

/-- The wait for a child takes away one that has ended. -/
theorem Kernel.waitChild_fate (k : Kernel) (pid : Pid) (childPid : Option Pid) (channel : RequestId)
    (act : Act) (q : Pid) :
    Fate act q (k.stateOf q) ((k.handleWaitChildWithResponse pid childPid channel).1.stateOf q) := by
  simp only [handleWaitChildWithResponse]
  split
  · exact .kept _
  next child =>
  split
  · exact .kept _
  split
  · exact .kept _
  next state hchild =>
  split
  · next hterm => exact Fate.of_removed (removeProcess_stateOf _ child q) hchild hterm
  · exact .kept _

/-- What a transition does to the state of a process. -/
theorem TableStep.fate {k k' : Kernel} {act : Act} (h : TableStep k act k') (q : Pid) :
    Fate act q (k.stateOf q) (k'.stateOf q) := by
  -- a state is kept, written, ended or removed, by the part of the table that the act writes
  cases h with
  | idle => exact .kept _
  | dispatch cpuId scheduled => exact Fate.of_shuffled (k.shuffled_dispatch cpuId scheduled)
  | initExit => exact .kept _
  | exit cpuId pid code hpid =>
    refine Fate.of_ended (k.exit_stateOf pid q _) ?_
    simp [Act.ends, hpid]
  | forkCall cpuId pid h => exact h.fate _ q
  | execCall cpuId pid h => exact h.fate _ q
  | semCreate => exact .kept _
  | semWaitPassed => exact .kept _
  | semWaitSlept cpuId pid => exact Fate.of_written (k := k) (Kernel.sleepOn_stateOf _ pid q _) rfl
  | semSignalWoke cpuId pid semId waiter => exact Fate.of_written (k.wake_stateOf waiter q) rfl
  | semSignalCounted => exact .kept _
  | lockCreate => exact .kept _
  | lockAcquirePassed => exact .kept _
  | lockAcquireSlept cpuId pid => exact Fate.of_written (k := k) (Kernel.sleepOn_stateOf _ pid q _) rfl
  | lockReleaseWoke cpuId pid lockId waiter => exact Fate.of_written (k.wake_stateOf waiter q) rfl
  | lockReleaseNone => exact .kept _
  | settled => exact .kept _
  | zombified cpuId pid hpid =>
    rw [Kernel.zombify_stateOf]
    split
    · next hboth =>
      -- the process was there and not a zombie
      obtain ⟨a, ha, -⟩ := (Option.any_eq_true _ _).1 hboth.2
      rw [hboth.1, ha]
      refine .ended a 0 ?_
      simp [Act.ends, hpid]
    · exact .kept _
  | reapedNone => exact .kept _
  | reaped cpuId pid code hpid h => exact Fate.of_removed (k.removeProcess_stateOf pid q) h rfl
  | fork h => exact h.fate _ q
  | exec h => exact h.fate _ q
  | sharedSemaphores => exact .kept _
  | request channel h => exact h.fate channel q
  | waitChild pid childPid channel => exact k.waitChild_fate pid childPid channel _ q
  | responded => exact .kept _
  | silent => exact .kept _

/-! ## Processes that are not over -/

namespace Kernel

/-- The process is in the table and no zombie. -/
def Lives (k : Kernel) (q : Pid) : Prop := ∃ st, k.stateOf q = some st ∧ st.isZombie = false

/-- The service ends a process by making it a zombie; no process is in the other final state. -/
def ZombiesOnly (k : Kernel) : Prop := ∀ q code, k.stateOf q ≠ some (.terminated code)

/-- Who has ended is a zombie, as nobody is ever marked as terminated. -/
theorem ZombiesOnly.isTerminated {k : Kernel} (h : k.ZombiesOnly) {q : Pid} {st : ProcessState}
    (hq : k.stateOf q = some st) : st.isTerminated = st.isZombie := by
  cases st with
  | terminated code => exact absurd hq (h q code)
  | _ => rfl

end Kernel

open Kernel

/-- No step marks anybody so. -/
theorem TableStep.zombiesOnly {k k' : Kernel} {act : Act} (h : TableStep k act k')
    (hk : k.ZombiesOnly) : k'.ZombiesOnly := by
  intro q code hq
  have hfate := h.fate q
  rw [hq] at hfate
  generalize ho : k.stateOf q = o at hfate
  cases hfate with
  | kept => exact hk q code ho
  | moved _ hb => cases hb

/-- Only the three acts end a process. -/
theorem TableStep.lives {k k' : Kernel} {act : Act} (h : TableStep k act k') (hk : k.ZombiesOnly)
    {q : Pid} (hact : act.ends q = false) (hq : k.Lives q) : k'.Lives q := by
  obtain ⟨st, hst, hlive⟩ := hq
  have hfate := h.fate q
  rw [hst] at hfate
  generalize ho : k'.stateOf q = o at hfate
  cases hfate with
  | kept => exact ⟨st, ho, hlive⟩
  | @moved _ b hb =>
    refine ⟨b, ho, ?_⟩
    cases b with
    | zombie code => cases hb
    | _ => rfl
  | ended _ code hends =>
    rw [hact] at hends
    cases hends
  | removed hterm =>
    rw [hk.isTerminated hst, hlive] at hterm
    cases hterm

/-- A fatal signal ends a process of the table, whatever its number. -/
theorem Kernel.handleSignal_fatal {k : Kernel} {pid : Pid} {signal : SignalType}
    (hsig : SignalType.isFatal signal = true) (hpid : (k.stateOf pid).isSome = true) :
    (k.handleSignal pid signal).1 = (k.releaseGlobals pid).setState pid (.zombie 0) := by
  have hknown : ¬(k.processTable.lookup pid).isNone = true := by
    intro hnone
    rw [stateOf, Option.isNone_iff_eq_none.1 hnone] at hpid
    cases hpid
  simp only [handleSignal]
  rw [if_neg hknown]
  cases signal with
  | terminate => rfl
  | kill => rfl
  | _ => cases hsig

/-- A signal does to the tables what its handler does. -/
theorem Performed.signal_eq {w : World} {s s' : Machine} {pid : Pid} {signal : SignalType}
    {channel : Option RequestId} (h : Performed w s (.request (.signal pid signal) channel) s') :
    s'.toKernel = (s.toKernel.handleSignal pid signal).1 := by
  cases h with
  | request => cases channel <;> rfl

/-! ## Process 1 -/

namespace Machine

/-- The property holds at every point of a run. -/
def Throughout (w : World) (memory : MemoryService) (events : List Event) (P : Machine → Prop) :
    Prop :=
  P (run w memory events).1 ∧ ∀ t ∈ (run w memory events).2, P t.pre ∧ P t.post

/-- The operations that are performed in a run keep a property that they keep under a condition which
they all meet. -/
theorem throughout_of {w : World} {memory : MemoryService} {events : List Event}
    {P : Machine → Prop} {ok : Tr → Prop} (hboot : P (boot w memory))
    (hok : ∀ t ∈ (run w memory events).2, ok t)
    (hstep : ∀ t, Performed w t.pre t.act t.post → ok t → P t.pre → P t.post) :
    Throughout w memory events P := by
  have htraced := run_traced w memory events
  exact htraced.chain.invariant hboot fun t ht => hstep t (htraced.performed t ht) (hok t ht)

/-- A property that implies another one throughout. -/
theorem Throughout.mono {w : World} {memory : MemoryService} {events : List Event}
    {P Q : Machine → Prop} (h : Throughout w memory events P) (hPQ : ∀ s, P s → Q s) :
    Throughout w memory events Q :=
  ⟨hPQ _ h.1, fun t ht => ⟨hPQ _ (h.2 t ht).1, hPQ _ (h.2 t ht).2⟩⟩

/-- At boot there is the first process. -/
theorem boot_toKernel (w : World) (memory : MemoryService) :
    (boot w memory).toKernel = Kernel.new.forkFresh := rfl

/-- It has not ended. -/
theorem zombiesOnly_boot (w : World) (memory : MemoryService) :
    (boot w memory).toKernel.ZombiesOnly := by
  intro q code hq
  rw [boot_toKernel, forkFresh_stateOf] at hq
  split at hq
  · cases hq
  · simp [Kernel.new, stateOf] at hq

end Machine

/-- A request to end process 1. -/
def Act.killsInit : Act → Bool
  | .request (.signal pid signal) _ => decide (pid = 1) && SignalType.isFatal signal
  | _ => false

/-- An act ends process 1 exactly when it kills it. -/
theorem Act.ends_one (act : Act) : act.ends 1 = act.killsInit := by
  cases act with
  | syscall cpuId pid call => cases call <;> simp [ends, killsInit, eq_comm]
  | settle cpuId pid => simp [ends, killsInit, eq_comm]
  | request req channel => cases req <;> simp [ends, killsInit, eq_comm]
  | _ => rfl

/-- Only a fatal signal does. -/
theorem Act.killsInit_eq_true {act : Act} (h : act.killsInit = true) :
    ∃ signal channel, act = .request (.signal 1 signal) channel ∧
      SignalType.isFatal signal = true := by
  cases act with
  | request req channel =>
    cases req with
    | signal pid signal =>
      rw [killsInit, Bool.and_eq_true, decide_eq_true_iff] at h
      exact ⟨signal, channel, by rw [h.1], h.2⟩
    | _ => cases h
  | _ => cases h

namespace Machine

/-- Process 1 lives through a run exactly if nobody asks for its end with a signal. -/
theorem init_lives_iff (w : World) (memory : MemoryService) (events : List Event) :
    Throughout w memory events (fun s => s.toKernel.Lives 1) ↔
      ∀ t ∈ (run w memory events).2, t.act.killsInit = false := by
  constructor
  · intro hlives t ht
    obtain ⟨hpre, hpost⟩ := hlives.2 t ht
    rw [← Bool.not_eq_true]
    intro hkill
    obtain ⟨signal, channel, hact, hsig⟩ := Act.killsInit_eq_true hkill
    have hperformed := (run_traced w memory events).performed t ht
    rw [hact] at hperformed
    obtain ⟨st, hst, -⟩ := hpre
    have hsome : (t.pre.toKernel.stateOf 1).isSome = true := by rw [hst]; rfl
    -- the signal does not ask whom it ends
    obtain ⟨st', hst', hlive⟩ := hpost
    rw [hperformed.signal_eq, handleSignal_fatal hsig hsome, setState_stateOf, if_pos rfl,
      releaseGlobals_stateOf, hst] at hst'
    cases hst'
    cases hlive
  · intro hspared
    have hboth : Throughout w memory events
        fun s => s.toKernel.ZombiesOnly ∧ s.toKernel.Lives 1 := by
      apply throughout_of ⟨zombiesOnly_boot w memory, .creating, rfl, rfl⟩ hspared
      intro t hperformed hact hpre
      have hstep := hperformed.step_of.table
      rw [← Act.ends_one] at hact
      exact ⟨hstep.zombiesOnly hpre.1, hstep.lives hpre.1 hact hpre.2⟩
    exact hboth.mono fun s hs => hs.2

/-- The guards of exit and clean-up have no counterpart in the handling of signals. -/
theorem init_killed :
    ¬Throughout (World.calm []) (bootMemory 16384 fun _ => 0) [.envelope (.process (.signal 1 .kill)) false]
      fun s => s.toKernel.Lives 1 := by
  intro hlives
  obtain ⟨st, hst, hlive⟩ := hlives.1
  have hzombie : (run (World.calm []) (bootMemory 16384 fun _ => 0)
      [.envelope (.process (.signal 1 .kill)) false]).1.toKernel.stateOf 1 = some (.zombie 0) := by
    decide +kernel
  rw [hzombie] at hst
  cases hst
  cases hlive

end Machine

/-! ## Owners of mutexes -/

namespace Kernel

/-- The process owns the mutex. -/
def Owns (k : Kernel) (p : Pid) (id : LockId) : Prop :=
  k.syncManager.owner id = some p ∧ p ≠ unlocked

/-- Every owner of a mutex is in the table and no zombie. -/
def OwnersLive (k : Kernel) : Prop := ∀ id p, k.Owns p id → k.Lives p

/-- The mutex is free, so that the process gets it. -/
def MayTake (k : Kernel) (p : Pid) (id : LockId) : Prop :=
  k.syncManager.owner id = some unlocked ∧ p ≠ unlocked

/-- Only the owner of the lock matters. -/
theorem Owns.of_owner {k k' : Kernel} {p : Pid} {id : LockId}
    (h : k'.syncManager.owner id = k.syncManager.owner id) (hown : k'.Owns p id) : k.Owns p id :=
  ⟨h.symm.trans hown.1, hown.2⟩

/-- A new lock has no owner, -/
theorem Owns.of_createLock {k : Kernel} {pid p : Pid} {id : LockId}
    (h : (k.handleCreateLock pid).Owns p id) : k.Owns p id := by
  obtain ⟨howner, hp⟩ := h
  rw [handleCreateLock, onSync_syncManager, SyncManager.createMutex_owner] at howner
  split at howner
  · cases howner
    exact absurd rfl hp
  · exact ⟨howner, hp⟩

/-- one that is given back none either, -/
theorem Owns.of_releaseMutex {k k' : Kernel} {pid p : Pid} {id lockId : LockId}
    (hsound : k.syncManager.Sound) (hk : k'.syncManager = (k.syncManager.releaseMutex lockId pid).2)
    (h : k'.Owns p id) : k.Owns p id := by
  obtain ⟨howner, hp⟩ := h
  rw [hk, SyncManager.releaseMutex_owner hsound] at howner
  split at howner
  · next hid =>
    rw [hid]
    obtain ⟨o, ho, heq⟩ := Option.map_eq_some_iff.1 howner
    split at heq
    · exact absurd heq.symm hp
    · exact ⟨by rw [ho, heq], hp⟩
  · exact ⟨howner, hp⟩

/-- nor has lock 0 that of a process which has ended. -/
theorem Owns.of_releaseGlobals {k k' : Kernel} {pid p : Pid} {id : LockId}
    (hsound : k.syncManager.Sound)
    (hk : k'.syncManager = k.syncManager.releaseGlobalSemaphore.releaseGlobalMutex pid)
    (h : k'.Owns p id) : k.Owns p id ∧ (id = 0 → p ≠ pid) := by
  obtain ⟨howner, hp⟩ := h
  rw [hk, SyncManager.releaseGlobalMutex_owner hsound.releaseGlobalSemaphore,
    SyncManager.releaseGlobalSemaphore_owner, SyncManager.releaseGlobalSemaphore_owner] at howner
  split at howner
  · cases howner
    exact absurd rfl hp
  · next hnot =>
    refine ⟨⟨howner, hp⟩, ?_⟩
    rintro hid rfl
    exact hnot ⟨hid, hid ▸ howner⟩

/-- Who owns a mutex after an attempt to acquire one owned it before, or has got it. -/
theorem Owns.of_acquireMutex {k k' : Kernel} {pid p : Pid} {id lockId : LockId}
    (hsound : k.syncManager.Sound) (hk : k'.syncManager = (k.syncManager.acquireMutex lockId pid).2)
    (h : k'.Owns p id) : k.Owns p id ∨ p = pid ∧ k.MayTake pid lockId := by
  obtain ⟨howner, hp⟩ := h
  rw [hk, SyncManager.acquireMutex_owner hsound] at howner
  split at howner
  · next hid =>
    obtain ⟨o, ho, heq⟩ := Option.map_eq_some_iff.1 howner
    split at heq
    · next hfree => exact Or.inr ⟨heq.symm, by rw [ho, hfree], heq ▸ hp⟩
    · exact Or.inl ⟨by rw [hid, ho, heq], hp⟩
  · exact Or.inl ⟨howner, hp⟩

end Kernel

/-- The act gives a mutex to a process. -/
inductive Takes (k : Kernel) (p : Pid) : Act → Prop
  | syscall (cpuId : Fin 2) (lockId : UInt64) (h : k.MayTake p lockId.toNat) :
      Takes k p (.syscall cpuId p (.lockAcquire lockId))
  | request (lockId : LockId) (channel : Option RequestId) (h : k.MayTake p lockId) :
      Takes k p (.request (.acquireLock p lockId) channel)

/-- After a request a lock has its owner still, or the caller has taken it. -/
theorem RequestEffect.owns {k k' : Kernel} {req : ProcessRequest} (h : RequestEffect k req k')
    (hsound : k.syncManager.Sound) (channel : Option RequestId) {p : Pid} {id : LockId}
    (hown : k'.Owns p id) : k.Owns p id ∨ Takes k p (.request req channel) := by
  -- an acquire makes its caller the owner, or leaves the owner
  have hacquired : ∀ {k'' : Kernel} {pid : Pid} {lockId : LockId},
      k''.syncManager = (k.syncManager.acquireMutex lockId pid).2 → k''.Owns p id →
      k.Owns p id ∨ Takes k p (.request (.acquireLock pid lockId) channel) := by
    intro k'' pid lockId hk hown
    rcases Owns.of_acquireMutex hsound hk hown with hold | ⟨rfl, hfree⟩
    · exact Or.inl hold
    · exact Or.inr (.request lockId channel hfree)
  cases h with
  | inert hreq h => exact Or.inl (hown.of_owner (by rw [h.syncManager]))
  | schedule => exact Or.inl hown
  | block => exact Or.inl hown
  | unblock => exact Or.inl hown
  | contextSwitch => exact Or.inl hown
  | received pid blocking h => exact Or.inl (hown.of_owner (by rw [h.syncManager]))
  | receiveBlocked => exact Or.inl hown
  | createSemaphore => exact Or.inl hown
  | waitBlocked => exact Or.inl (hown.of_owner (SyncManager.waitSemaphore_owner _ _ _))
  | waitPassed => exact Or.inl (hown.of_owner (SyncManager.waitSemaphore_owner _ _ _))
  | signalSemaphore => exact Or.inl (hown.of_owner (SyncManager.signalSemaphore_owner _ _ _))
  | createLock => exact Or.inl hown.of_createLock
  | acquireBlocked => exact hacquired rfl hown
  | acquirePassed => exact hacquired rfl hown
  | releaseLock => exact Or.inl (Owns.of_releaseMutex hsound rfl hown)
  | waitRefused => exact Or.inl hown
  | waitChild => exact Or.inl hown
  | kill => exact Or.inl (Owns.of_releaseGlobals hsound rfl hown).1
  | stop => exact Or.inl hown
  | continued => exact Or.inl hown
  | signalQueued pid signal h => exact Or.inl (hown.of_owner (by rw [h.syncManager]))

/-- Who owns a mutex owned it before, or the act gives it to him. -/
theorem TableStep.owns {k k' : Kernel} {act : Act} (h : TableStep k act k')
    (hsound : k.syncManager.Sound) {p : Pid} {id : LockId} (hown : k'.Owns p id) :
    k.Owns p id ∨ Takes k p act := by
  -- a lock call, whether it sleeps or not, leaves the owner or makes the caller one
  have hacquired : ∀ {k'' : Kernel} {cpuId : Fin 2} {pid : Pid} {lockId : UInt64},
      k''.syncManager = (k.syncManager.acquireMutex lockId.toNat pid).2 → k''.Owns p id →
      k.Owns p id ∨ Takes k p (.syscall cpuId pid (.lockAcquire lockId)) := by
    intro k'' cpuId pid lockId hk hown
    rcases Owns.of_acquireMutex hsound hk hown with hold | ⟨rfl, hfree⟩
    · exact Or.inl hold
    · exact Or.inr (.syscall cpuId lockId hfree)
  cases h with
  | idle => exact Or.inl hown
  | dispatch => exact Or.inl (hown.of_owner (by rw [dispatch_syncManager]))
  | initExit => exact Or.inl hown
  | exit => exact Or.inl (hown.of_owner (SyncManager.releaseGlobalSemaphore_owner _ _))
  | forkCall cpuId pid h => exact Or.inl (hown.of_owner (by rw [h.syncManager_eq]))
  | execCall cpuId pid h => exact Or.inl (hown.of_owner (by rw [h.syncManager_eq]))
  | semCreate => exact Or.inl hown
  | semWaitPassed => exact Or.inl (hown.of_owner (SyncManager.waitSemaphore_owner _ _ _))
  | semWaitSlept => exact Or.inl (hown.of_owner (SyncManager.waitSemaphore_owner _ _ _))
  | semSignalWoke => exact Or.inl hown
  | semSignalCounted => exact Or.inl (hown.of_owner (SyncManager.signalSemaphore_owner _ _ _))
  | lockCreate => exact Or.inl hown.of_createLock
  | lockAcquirePassed => exact hacquired rfl hown
  | lockAcquireSlept => exact hacquired rfl hown
  | lockReleaseWoke => exact Or.inl (Owns.of_releaseMutex hsound rfl hown)
  | lockReleaseNone => exact Or.inl (Owns.of_releaseMutex hsound rfl hown)
  | settled => exact Or.inl hown
  | zombified cpuId pid =>
    -- only a process that is not a zombie yet gives up its mutexes
    by_cases halive : (k.stateOf pid).any (fun st => !st.isTerminated) = true
    · have hk := k.zombify_syncManager pid
      rw [if_pos halive] at hk
      exact Or.inl (Owns.of_releaseGlobals hsound hk hown).1
    · refine Or.inl (hown.of_owner ?_)
      rw [zombify_syncManager, if_neg halive]
  | reapedNone => exact Or.inl hown
  | reaped => exact Or.inl hown
  | fork h => exact Or.inl (hown.of_owner (by rw [h.syncManager_eq]))
  | exec h => exact Or.inl (hown.of_owner (by rw [h.syncManager_eq]))
  | sharedSemaphores => exact Or.inl hown
  | request channel h => exact h.owns hsound channel hown
  | waitChild => exact Or.inl (hown.of_owner (by rw [handleWaitChildWithResponse_syncManager]))
  | responded => exact Or.inl hown
  | silent => exact Or.inl hown

namespace Machine

/-- The process has halted for good, as the clean-up after its slice sees it. -/
def Finished (s : Machine) (pid : Pid) : Prop :=
  pid ≠ 1 ∧ (s.stateOf pid).any ProcessState.isBlocked = false ∧
    (s.cpus.get pid).any VirtualCPU.halted = true ∧ s.stateOf pid ≠ some .ready

/-- At the end of its last slice a process becomes a zombie, -/
theorem settle_finished {s : Machine} {pid : Pid} (h : s.Finished pid) :
    (s.settle pid).toKernel = s.toKernel.zombify pid := by
  obtain ⟨hpid, hblocked, hhalted, hready⟩ := h
  simp only [settle]
  rw [if_pos ⟨hpid, hblocked, hhalted⟩, if_neg hready]
  rfl

/-- and of any other nothing happens. -/
theorem settle_unfinished {s : Machine} {pid : Pid} (h : ¬s.Finished pid) :
    (s.settle pid).toKernel = s.toKernel := by
  simp only [settle]
  split
  · next hhalted =>
    split
    · rfl
    · next hready => exact absurd ⟨hhalted.1, hhalted.2.1, hhalted.2.2, hready⟩ h
  · rfl

/-- Nobody ends while he owns a mutex that the act does not release, and nobody who is gone takes one:
exit releases nothing, a fatal signal and the clean-up after a halt release the global mutex. -/
def SparesOwners (s : Machine) : Act → Prop
  | .syscall _ pid (.exit _) => pid ≠ 1 → ∀ id, ¬s.toKernel.Owns pid id
  | .syscall _ pid (.lockAcquire lockId) => s.toKernel.MayTake pid lockId.toNat → s.toKernel.Lives pid
  | .settle _ pid => s.Finished pid → ∀ id, s.toKernel.Owns pid id → id = 0
  | .request (.signal pid signal) _ =>
    SignalType.isFatal signal = true → ∀ id, s.toKernel.Owns pid id → id = 0
  | .request (.acquireLock pid lockId) _ => s.toKernel.MayTake pid lockId → s.toKernel.Lives pid
  | _ => True

/-- Who takes a lock is alive, -/
theorem SparesOwners.of_takes {s : Machine} {act : Act} {p : Pid} (h : s.SparesOwners act)
    (htakes : Takes s.toKernel p act) : s.toKernel.Lives p := by
  cases htakes with
  | syscall cpuId lockId hfree => exact h hfree
  | request lockId channel hfree => exact h hfree

end Machine

/-- and is not ended by it. -/
theorem Act.ends_of_takes {k : Kernel} {act : Act} {p : Pid} (h : Takes k p act) :
    act.ends p = false := by
  cases h with
  | syscall => rfl
  | request => rfl

namespace Machine

/-- A process that keeps a mutex through an act that may end it is not over. -/
theorem lives_of_ends {w : World} {s s' : Machine} {act : Act} {p : Pid} {id : LockId}
    (hperformed : Performed w s act s') (hsound : s.syncManager.Sound)
    (hok : s.SparesOwners act) (hends : act.ends p = true) (hlives : s.toKernel.Lives p)
    (hpre : s.toKernel.Owns p id) (hpost : s'.toKernel.Owns p id) : s'.toKernel.Lives p := by
  cases act with
  | syscall cpuId pid call =>
    cases call with
    | exit code =>
      obtain ⟨rfl, hpid⟩ := of_decide_eq_true hends
      exact absurd hpre (hok hpid id)
    | _ => cases hends
  | settle cpuId pid =>
    obtain ⟨rfl, hpid⟩ := of_decide_eq_true hends
    cases hperformed with
    | settle =>
    by_cases hfinished : s.Finished p
    · -- only the global mutex is owned, and that is released
      obtain ⟨st, hst, hlive⟩ := hlives
      rw [settle_finished hfinished] at hpost ⊢
      by_cases halive : (s.toKernel.stateOf p).any (fun st => !st.isTerminated) = true
      · have hk := s.toKernel.zombify_syncManager p
        rw [if_pos halive] at hk
        exact absurd rfl ((Owns.of_releaseGlobals hsound hk hpost).2 (hok hfinished id hpre))
      · refine ⟨st, ?_, hlive⟩
        rw [zombify_stateOf, if_neg fun hboth => halive hboth.2, hst]
    · rw [settle_unfinished hfinished]
      exact hlives
  | request req channel =>
    cases req with
    | signal pid signal =>
      rw [Act.ends, Bool.and_eq_true, decide_eq_true_iff] at hends
      obtain ⟨rfl, hfatal⟩ := hends
      obtain ⟨st, hst, -⟩ := hlives
      have hk := hperformed.signal_eq
      rw [handleSignal_fatal hfatal (by rw [hst]; rfl)] at hk
      have hsync : s'.syncManager = s.syncManager.releaseGlobalSemaphore.releaseGlobalMutex p := by
        rw [hk]
        rfl
      exact absurd rfl ((Owns.of_releaseGlobals hsound hsync hpost).2 (hok hfatal id hpre))
    | _ => cases hends
  | _ => cases hends

/-- A step that spares the owners keeps them alive. -/
theorem ownersLive_step {w : World} {s s' : Machine} {act : Act} (hperformed : Performed w s act s')
    (hsound : s.syncManager.Sound) (hzombies : s.toKernel.ZombiesOnly)
    (hok : s.SparesOwners act) (hlive : s.toKernel.OwnersLive) : s'.toKernel.OwnersLive := by
  intro id p hown
  have hstep := hperformed.step_of.table
  rcases hstep.owns hsound hown with hold | htakes
  · have hp := hlive id p hold
    cases hends : act.ends p with
    | true => exact lives_of_ends hperformed hsound hok hends hp hold hown
    | false => exact hstep.lives hzombies hends hp
  · exact hstep.lives hzombies (Act.ends_of_takes htakes) (hok.of_takes htakes)

end Machine

namespace Kernel

/-- Who takes a free mutex owns it. -/
theorem MayTake.owns {k k' : Kernel} {p : Pid} {id : LockId} (h : k.MayTake p id)
    (hsound : k.syncManager.Sound) (hk : k'.syncManager = (k.syncManager.acquireMutex id p).2) :
    k'.Owns p id := by
  refine ⟨?_, h.2⟩
  rw [hk, SyncManager.acquireMutex_owner hsound, if_pos rfl, h.1, Option.map_some, if_pos rfl]

/-- A lock that may be taken is taken. -/
theorem MayTake.acquired {k : Kernel} {p : Pid} {id : LockId} (h : k.MayTake p id)
    (hsound : k.syncManager.Sound) : (k.syncManager.acquireMutex id p).1 = some .acquired := by
  rw [SyncManager.acquireMutex_result hsound, h.1, Option.map_some, if_pos rfl]

/-- A mutex other than the global one outlives the clean-up. -/
theorem Owns.releaseGlobals {k k' : Kernel} {p : Pid} {id : LockId} (h : k.Owns p id)
    (hsound : k.syncManager.Sound)
    (hk : k'.syncManager = k.syncManager.releaseGlobalSemaphore.releaseGlobalMutex p)
    (hid : id ≠ 0) : k'.Owns p id := by
  refine ⟨?_, h.2⟩
  rw [hk, SyncManager.releaseGlobalMutex_owner hsound.releaseGlobalSemaphore,
    if_neg fun hboth => hid hboth.1, SyncManager.releaseGlobalSemaphore_owner]
  exact h.1

/-- A zombie does not live. -/
theorem not_lives_zombie {k : Kernel} {p : Pid} (code : Int32)
    (h : k.stateOf p = some (.zombie code)) : ¬k.Lives p := by
  rintro ⟨st, hst, hlive⟩
  rw [h] at hst
  cases hst
  cases hlive

end Kernel

/-- A process that acquires a free mutex and is alive afterwards was alive before. -/
theorem TableStep.takes_lives {k k' : Kernel} {act : Act} {p : Pid} (h : TableStep k act k')
    (hsound : k.syncManager.Sound) (htakes : Takes k p act) (hlive : k'.OwnersLive) : k.Lives p := by
  cases htakes with
  | syscall cpuId lockId hfree =>
    cases h with
    | idle hact => cases hact
    | lockAcquirePassed => exact hlive lockId.toNat p (hfree.owns hsound rfl)
    | lockAcquireSlept _ _ _ hresult hr =>
      rw [hfree.acquired hsound] at hresult
      cases hresult
      exact absurd rfl hr
  | request lockId channel hfree =>
    cases h with
    | idle hact => cases hact
    | request _ heffect =>
      cases heffect with
      | inert hreq => cases hreq
      | acquireBlocked _ _ hresult =>
        rw [hfree.acquired hsound] at hresult
        cases hresult
      | acquirePassed => exact hlive lockId p (hfree.owns hsound rfl)

namespace Machine

/-- An exit that keeps all owners alive was of a process without a lock, -/
theorem sparesOwners_exit {k k' : Kernel} {cpuId : Fin 2} {pid : Pid} {code : UInt64}
    (h : TableStep k (.syscall cpuId pid (.exit code)) k') (hpid : pid ≠ 1)
    (hpre : k.OwnersLive) (hpost : k'.OwnersLive) (id : LockId) : ¬k.Owns pid id := by
  intro hown
  obtain ⟨st, hst, -⟩ := hpre id pid hown
  cases h with
  | idle hact => cases hact
  | initExit => exact hpid rfl
  | exit =>
    -- nothing is released: the zombie still owns it
    have hkept : (k.exit pid (exitCodeOf code)).Owns pid id := by
      refine ⟨?_, hown.2⟩
      rw [exit_syncManager, SyncManager.releaseGlobalSemaphore_owner]
      exact hown.1
    refine not_lives_zombie (exitCodeOf code) ?_ (hpost id pid hkept)
    rw [exit_stateOf, if_pos rfl, hst]
    rfl

/-- the end of a last slice of one with lock 0 at most, -/
theorem sparesOwners_settle {s : Machine} {pid : Pid} (hsound : s.syncManager.Sound)
    (hzombies : s.toKernel.ZombiesOnly) (hfinished : s.Finished pid) (hpre : s.toKernel.OwnersLive)
    (hpost : (s.settle pid).toKernel.OwnersLive) {id : LockId} (hown : s.toKernel.Owns pid id) :
    id = 0 := by
  obtain ⟨st, hst, hlive⟩ := hpre id pid hown
  rw [settle_finished hfinished] at hpost
  have halive : (s.toKernel.stateOf pid).any (fun st => !st.isTerminated) = true := by
    rw [hst, Option.any_some, hzombies.isTerminated hst, hlive]
    rfl
  by_contra hid
  have hk := s.toKernel.zombify_syncManager pid
  rw [if_pos halive] at hk
  refine not_lives_zombie 0 ?_ (hpost id pid (hown.releaseGlobals hsound hk hid))
  rw [zombify_stateOf, if_pos ⟨rfl, halive⟩]

/-- and so a fatal signal. -/
theorem sparesOwners_signal {w : World} {s s' : Machine} {pid : Pid} {signal : SignalType}
    {channel : Option RequestId}
    (hperformed : Performed w s (.request (.signal pid signal) channel) s')
    (hsound : s.syncManager.Sound) (hfatal : SignalType.isFatal signal = true)
    (hpre : s.toKernel.OwnersLive) (hpost : s'.toKernel.OwnersLive) {id : LockId}
    (hown : s.toKernel.Owns pid id) : id = 0 := by
  obtain ⟨st, hst, -⟩ := hpre id pid hown
  have hk := hperformed.signal_eq
  rw [handleSignal_fatal hfatal (by rw [hst]; rfl)] at hk
  rw [hk] at hpost
  by_contra hid
  refine not_lives_zombie 0 ?_ (hpost id pid (hown.releaseGlobals hsound rfl hid))
  rw [setState_stateOf, if_pos rfl, releaseGlobals_stateOf, hst]
  rfl

/-- A transition that leaves every owner alive meets the condition. -/
theorem sparesOwners_of_live {w : World} {s s' : Machine} {act : Act}
    (hperformed : Performed w s act s') (hsound : s.syncManager.Sound)
    (hzombies : s.toKernel.ZombiesOnly) (hpre : s.toKernel.OwnersLive)
    (hpost : s'.toKernel.OwnersLive) : s.SparesOwners act := by
  have hstep := hperformed.step_of.table
  cases act with
  | syscall cpuId pid call =>
    cases call with
    | exit code => exact fun hpid id => sparesOwners_exit hstep hpid hpre hpost id
    | lockAcquire lockId =>
      exact fun hfree => hstep.takes_lives hsound (.syscall cpuId lockId hfree) hpost
    | _ => exact trivial
  | settle cpuId pid =>
    intro hfinished id hown
    cases hperformed with
    | settle => exact sparesOwners_settle hsound hzombies hfinished hpre hpost hown
  | request req channel =>
    cases req with
    | signal pid signal =>
      exact fun hfatal id hown => sparesOwners_signal hperformed hsound hfatal hpre hpost hown
    | acquireLock pid lockId =>
      exact fun hfree => hstep.takes_lives hsound (.request lockId channel hfree) hpost
    | _ => exact trivial
  | _ => exact trivial

/-- At boot no lock has an owner. -/
theorem ownersLive_boot (w : World) (memory : MemoryService) :
    (boot w memory).toKernel.OwnersLive := by
  intro id p hown
  -- the only mutex is the global one, and it is free
  have howner : SyncManager.new.owner id = some p := hown.1
  rw [SyncManager.new_owner] at howner
  split at howner
  · cases howner
    exact absurd rfl hown.2
  · cases howner

/-- Every owner of a mutex is alive throughout a run exactly if every transition of the run spares the
owners. -/
theorem owners_live_iff (w : World) (memory : MemoryService) (events : List Event) :
    Throughout w memory events (fun s => s.toKernel.OwnersLive) ↔
      ∀ t ∈ (run w memory events).2, t.pre.SparesOwners t.act := by
  have hsound : Throughout w memory events
      fun s => s.syncManager.Sound ∧ s.toKernel.ZombiesOnly := by
    have hany : ∀ t ∈ (run w memory events).2, True := fun _ _ => trivial
    apply throughout_of ⟨SyncManager.sound_new, zombiesOnly_boot w memory⟩ hany
    intro t hperformed _ hpre
    have hstep := hperformed.step_of.table
    exact ⟨hstep.sound hpre.1, hstep.zombiesOnly hpre.2⟩
  constructor
  · intro hlive t ht
    obtain ⟨hs, hz⟩ := (hsound.2 t ht).1
    obtain ⟨hpre, hpost⟩ := hlive.2 t ht
    exact sparesOwners_of_live ((run_traced w memory events).performed t ht) hs hz hpre hpost
  · intro hok
    have hall : Throughout w memory events
        fun s => (s.syncManager.Sound ∧ s.toKernel.ZombiesOnly) ∧ s.toKernel.OwnersLive := by
      apply throughout_of
        ⟨⟨SyncManager.sound_new, zombiesOnly_boot w memory⟩, ownersLive_boot w memory⟩ hok
      intro t hperformed hspared hpre
      have hstep := hperformed.step_of.table
      exact ⟨⟨hstep.sound hpre.1.1, hstep.zombiesOnly hpre.1.2⟩,
        ownersLive_step hperformed hpre.1.1 hpre.1.2 hspared hpre.2⟩
    exact hall.mono fun s hs => hs.2

/-- Process 2 is forked, makes mutex 1, acquires it and is killed. -/
def killedOwnerEvents : List Event :=
  [.envelope (.process (.forkProcess 0)) false, .envelope (.process (.createLock 2)) false,
    .envelope (.process (.acquireLock 2 1)) false, .envelope (.process (.signal 2 .kill)) false]

/-- A killed process keeps a mutex that it acquired. -/
theorem owners_live_killed :
    ¬Throughout (World.calm []) (bootMemory 16384 fun _ => 0) killedOwnerEvents
      fun s => s.toKernel.OwnersLive := by
  intro hlive
  have hstate : (run (World.calm []) (bootMemory 16384 fun _ => 0)
      killedOwnerEvents).1.toKernel.stateOf 2 = some (.zombie 0) := by
    decide +kernel
  refine not_lives_zombie 0 hstate (hlive.1 1 2 ⟨?_, by decide⟩)
  decide +kernel

end Machine

end GenshinOs.Process
