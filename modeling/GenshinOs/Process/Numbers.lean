import GenshinOs.Process.Observations

/-!
# Process numbers

Process identifiers are handed out in order and never taken back: every process in the table has a
number below the next one. So a forked process is new, whatever became of the processes before it.
-/

set_option autoImplicit false

namespace GenshinOs.Process

open GenshinOs.Lib GenshinOs.Hardware GenshinOs.Memory

namespace Kernel

/-- Every process in the table has a number that was handed out. -/
def Numbered (k : Kernel) : Prop := ∀ q, (k.stateOf q).isSome = true → q < k.nextPid

/-- No process appears, except the one that takes the next number. -/
structure Enrols (k k' : Kernel) : Prop where
  nextPid_le : k.nextPid ≤ k'.nextPid
  known : ∀ q, (k'.stateOf q).isSome = true →
    (k.stateOf q).isSome = true ∨ q = k.nextPid ∧ k.nextPid < k'.nextPid

theorem Numbered.step {k k' : Kernel} (h : Numbered k) (hstep : Enrols k k') : Numbered k' := by
  intro q hq
  rcases hstep.known q hq with hold | ⟨rfl, hlt⟩
  · exact Nat.lt_of_lt_of_le (h q hold) hstep.nextPid_le
  · exact hlt

namespace Enrols

theorem refl (k : Kernel) : Enrols k k := ⟨Nat.le_refl _, fun _ hq => Or.inl hq⟩

/-- Nobody appears and no number is taken. -/
theorem of_known {k k' : Kernel} (hnext : k'.nextPid = k.nextPid)
    (hknown : ∀ q, (k'.stateOf q).isSome = true → (k.stateOf q).isSome = true) : Enrols k k' :=
  ⟨Nat.le_of_eq hnext.symm, fun q hq => Or.inl (hknown q hq)⟩

theorem of_eq {k k' : Kernel} (hnext : k'.nextPid = k.nextPid) (hstate : k'.stateOf = k.stateOf) :
    Enrols k k' := by
  apply of_known hnext
  intro q hq
  rwa [hstate] at hq

/-- One process of the table gets a new state. -/
theorem of_written {k k' : Kernel} {pid : Pid} {st : ProcessState} (hnext : k'.nextPid = k.nextPid)
    (hstate : ∀ q, k'.stateOf q = if q = pid then (k.stateOf pid).map fun _ => st else k.stateOf q) :
    Enrols k k' := by
  apply of_known hnext
  intro q hq
  rw [hstate] at hq
  split at hq
  · next heq => rwa [Option.isSome_map, ← heq] at hq
  · exact hq

theorem of_shuffled {k k' : Kernel} (hnext : k'.nextPid = k.nextPid) (h : Shuffled k k') :
    Enrols k k' := by
  apply of_known hnext
  intro q hq
  rw [Option.isSome_iff_ne_none] at hq ⊢
  exact fun hnone => hq ((h.none_iff q).2 hnone)

theorem of_removed {k k' : Kernel} {pid : Pid} (hnext : k'.nextPid = k.nextPid)
    (hstate : ∀ q, k'.stateOf q = if q = pid then none else k.stateOf q) : Enrols k k' := by
  apply of_known hnext
  intro q hq
  rw [hstate] at hq
  split at hq
  · cases hq
  · exact hq

/-- The process that takes the next number is the only new one. -/
theorem of_inserted {k k' : Kernel} {st : ProcessState} (hnext : k'.nextPid = k.nextPid + 1)
    (hstate : ∀ q, k'.stateOf q = if q = k.nextPid then some st else k.stateOf q) : Enrols k k' := by
  refine ⟨by rw [hnext]; exact Nat.le_succ _, ?_⟩
  intro q hq
  rw [hstate] at hq
  split at hq
  · next heq => exact Or.inr ⟨heq, by rw [hnext]; exact Nat.lt_succ_self _⟩
  · exact Or.inl hq

end Enrols

theorem dispatch_nextPid (k : Kernel) (cpuId : Fin 2) (scheduledThisTick : List Pid) :
    (k.dispatch cpuId scheduledThisTick).2.nextPid = k.nextPid := by
  obtain ⟨updates, scheduler, lastRunning, hframe⟩ := k.dispatch_frame cpuId scheduledThisTick
  rw [hframe]

theorem zombify_nextPid (k : Kernel) (pid : Pid) : (k.zombify pid).nextPid = k.nextPid := by
  obtain ⟨updates, scheduler, sync, waiting, responses, hframe⟩ := k.zombify_frame pid
  rw [hframe]

end Kernel

open Kernel

theorem ForkStep.enrols {k k' : Kernel} {parent : Pid} (h : ForkStep k parent k') : Enrols k k' := by
  cases h with
  | refused => exact Enrols.refl k
  | aborted => exact ⟨Nat.le_succ _, fun q hq => Or.inl hq⟩
  | fresh => exact Enrols.of_inserted rfl k.forkFresh_stateOf
  | child => exact Enrols.of_inserted rfl fun q => k.forkChild_stateOf q parent

theorem ExecStep.enrols {k k' : Kernel} {pid : Pid} (h : ExecStep k pid k') : Enrols k k' := by
  cases h with
  | failed => exact Enrols.refl k
  | started executable args =>
    exact Enrols.of_written rfl fun q => k.exec_stateOf pid q executable args

theorem RequestEffect.enrols {k k' : Kernel} {req : ProcessRequest} (h : RequestEffect k req k') :
    Enrols k k' := by
  cases h with
  | inert hreq h => exact Enrols.of_eq h.nextPid h.stateOf
  | schedule => exact Enrols.of_eq rfl rfl
  | block pid tid reason => exact Enrols.of_written rfl fun q => k.handleBlock_stateOf pid q tid reason
  | unblock pid tid => exact Enrols.of_written rfl fun q => k.handleUnblock_stateOf pid q tid
  | contextSwitch => exact Enrols.of_eq rfl rfl
  | received pid blocking h => exact Enrols.of_eq h.nextPid h.stateOf
  | receiveBlocked pid => exact Enrols.of_written rfl fun q => k.handleBlock_stateOf pid q 1 _
  | createSemaphore => exact Enrols.of_eq rfl rfl
  | waitBlocked pid => exact Enrols.of_written rfl fun q => handleBlock_stateOf _ pid q 1 _
  | waitPassed => exact Enrols.of_eq rfl rfl
  | signalSemaphore => exact Enrols.of_eq rfl rfl
  | createLock => exact Enrols.of_eq rfl rfl
  | acquireBlocked pid => exact Enrols.of_written rfl fun q => handleBlock_stateOf _ pid q 1 _
  | acquirePassed => exact Enrols.of_eq rfl rfl
  | releaseLock => exact Enrols.of_eq rfl rfl
  | waitRefused => exact Enrols.refl k
  | waitChild pid childPid reason =>
    exact Enrols.of_written rfl fun q => k.handleBlock_stateOf pid q 1 reason
  | kill pid => exact Enrols.of_written rfl fun q => setState_stateOf _ pid q _
  | stop pid => exact Enrols.of_written rfl fun q => k.setState_stateOf pid q _
  | continued pid => exact Enrols.of_written rfl fun q => k.setState_stateOf pid q _
  | signalQueued pid signal h => exact Enrols.of_eq h.nextPid h.stateOf

theorem Kernel.enrols_waitChild (k : Kernel) (pid : Pid) (childPid : Option Pid)
    (channel : RequestId) : Enrols k (k.handleWaitChildWithResponse pid childPid channel).1 := by
  simp only [handleWaitChildWithResponse]
  split
  · exact Enrols.refl k
  next child =>
  split
  · exact Enrols.of_eq rfl rfl
  split
  · exact Enrols.of_eq rfl rfl
  split
  · exact Enrols.of_removed rfl fun q => removeProcess_stateOf _ child q
  · exact Enrols.of_eq rfl rfl

theorem TableStep.enrols {k k' : Kernel} {act : Act} (h : TableStep k act k') : Enrols k k' := by
  -- only a fork moves the next number; the others write states of processes that are there
  cases h with
  | idle => exact Enrols.refl k
  | dispatch cpuId scheduled =>
    exact Enrols.of_shuffled (k.dispatch_nextPid cpuId scheduled) (k.shuffled_dispatch cpuId scheduled)
  | initExit => exact Enrols.refl k
  | exit cpuId pid code => exact Enrols.of_written rfl fun q => k.exit_stateOf pid q _
  | forkCall cpuId pid h => exact h.enrols
  | execCall cpuId pid h => exact h.enrols
  | semCreate => exact Enrols.of_eq rfl rfl
  | semWaitPassed => exact Enrols.of_eq rfl rfl
  | semWaitSlept cpuId pid => exact Enrols.of_written rfl fun q => sleepOn_stateOf _ pid q _
  | semSignalWoke cpuId pid semId waiter => exact Enrols.of_written rfl fun q => k.wake_stateOf waiter q
  | semSignalCounted => exact Enrols.of_eq rfl rfl
  | lockCreate => exact Enrols.of_eq rfl rfl
  | lockAcquirePassed => exact Enrols.of_eq rfl rfl
  | lockAcquireSlept cpuId pid => exact Enrols.of_written rfl fun q => sleepOn_stateOf _ pid q _
  | lockReleaseWoke cpuId pid lockId waiter =>
    exact Enrols.of_written rfl fun q => k.wake_stateOf waiter q
  | lockReleaseNone => exact Enrols.of_eq rfl rfl
  | settled => exact Enrols.refl k
  | zombified cpuId pid =>
    apply Enrols.of_known (k.zombify_nextPid pid)
    intro q hq
    rw [zombify_stateOf] at hq
    split at hq
    · next hboth =>
      rw [hboth.1]
      exact Option.isSome_of_any hboth.2
    · exact hq
  | reapedNone => exact Enrols.refl k
  | reaped cpuId pid => exact Enrols.of_removed rfl fun q => k.removeProcess_stateOf pid q
  | fork h => exact h.enrols
  | exec h => exact h.enrols
  | sharedSemaphores => exact Enrols.of_eq rfl rfl
  | request channel h => exact h.enrols
  | waitChild pid childPid channel => exact k.enrols_waitChild pid childPid channel
  | responded => exact Enrols.of_eq rfl rfl
  | silent => exact Enrols.refl k

/-! ## Reachable states -/

namespace Machine

/-- A state in which the service can be observed in some run, between any two of its operations. -/
def Reached (memory : MemoryService) (s : Machine) : Prop :=
  ∃ w events, s = (run w memory events).1 ∨ ∃ t ∈ (run w memory events).2, s = t.pre

/-- What holds at boot and is kept by every transition of the tables holds of every reachable state. -/
theorem Reached.tables {memory : MemoryService} {s : Machine} (h : s.Reached memory)
    {Inv : Kernel → Prop} (hboot : ∀ w, Inv (boot w memory).toKernel)
    (hstep : ∀ {k k' : Kernel} {act : Act}, TableStep k act k' → Inv k → Inv k') :
    Inv s.toKernel := by
  obtain ⟨w, events, hs⟩ := h
  have htraced := run_traced w memory events
  have hinv : Inv (run w memory events).1.toKernel ∧
      ∀ t ∈ (run w memory events).2, Inv t.pre.toKernel ∧ Inv t.post.toKernel :=
    htraced.chain.invariant (I := fun s => Inv s.toKernel) (hboot w)
      fun t ht => hstep (htraced.performed t ht).step_of.table
  rcases hs with rfl | ⟨t, ht, rfl⟩
  · exact hinv.1
  · exact (hinv.2 t ht).1

theorem numbered_boot (w : World) (memory : MemoryService) : (boot w memory).toKernel.Numbered := by
  refine Numbered.step ?_ (boot_tables w memory).enrols
  intro q hq
  simp [Kernel.new, stateOf] at hq

theorem Reached.numbered {memory : MemoryService} {s : Machine} (h : s.Reached memory) :
    s.toKernel.Numbered :=
  h.tables (fun w => numbered_boot w memory) fun hstep hk => hk.step hstep.enrols

end Machine

end GenshinOs.Process
