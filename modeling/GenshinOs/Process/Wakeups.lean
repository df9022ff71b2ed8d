import GenshinOs.Process.Tokens

/-!
# Waits and wake-ups

A process waits for a semaphore or a mutex from the call or message that blocks it until it is made
ready, ends or goes. `Waits` follows this through a run, beside the reason that the table records: a
message blocks its process for good measure under another reason, and a stop overwrites the one that
was there.

A semaphore gets a token, and a mutex loses its owner, in five ways. A signal by system call looks for
a sleeping process first, a release by system call wakes one and releases anyway, and the messages and
the clean-up of a process that ends look for nobody. `Machine.Spares` says when such a step forgets no
process that waits; along a run of such steps nobody waits for what is free.
-/

set_option autoImplicit false

namespace GenshinOs.Process

open GenshinOs.Lib GenshinOs.Hardware GenshinOs.Memory

/-- What a process waits for. -/
inductive Wait where
  | semaphore (id : SemaphoreId)
  | mutex (id : LockId)
  deriving DecidableEq

/-! ## What is taken -/

/-- The semaphore has no token, the mutex has an owner. -/
def Wait.Pending (m : SyncManager) : Wait → Prop
  | .semaphore id => m.value id = some 0
  | .mutex id => ∃ o, m.owner id = some o ∧ o ≠ unlocked

namespace Wait.Pending

variable {m m' : SyncManager} {x : Wait}

/-- The observations of the primitive are the same. -/
theorem of_eq (h : x.Pending m) (hvalue : ∀ id, x = .semaphore id → m'.value id = m.value id)
    (howner : ∀ id, x = .mutex id → m'.owner id = m.owner id) : x.Pending m' := by
  cases x with
  | semaphore id => exact (hvalue id rfl).trans h
  | mutex id =>
    obtain ⟨o, ho, hlocked⟩ := h
    exact ⟨o, (howner id rfl).trans ho, hlocked⟩

variable (h : x.Pending m) (hsound : m.Sound)

include h hsound

/-- A new semaphore has an identifier that nobody waits for. -/
theorem createSemaphore (pid : Pid) (initialValue : UInt32) :
    x.Pending (m.createSemaphore pid initialValue).2 := by
  refine h.of_eq (fun id hid => ?_) fun _ _ => rfl
  rw [SyncManager.createSemaphore_value, if_neg]
  rintro rfl
  subst hid
  have hnone := hsound.semaphore_lt m.nextSemId (Nat.le_refl _)
  have hzero : m.value m.nextSemId = some 0 := h
  rw [SyncManager.value, hnone] at hzero
  cases hzero

theorem createMutex (pid : Pid) : x.Pending (m.createMutex pid false).2 := by
  refine h.of_eq (fun _ _ => rfl) fun id hid => ?_
  rw [SyncManager.createMutex_owner, if_neg]
  rintro rfl
  subst hid
  obtain ⟨o, howned, -⟩ := h
  rw [SyncManager.owner, hsound.mutex_lt m.nextMutexId (Nat.le_refl _)] at howned
  cases howned

/-- A wait takes no token from an empty semaphore. -/
theorem waitSemaphore (id : SemaphoreId) : x.Pending (m.waitSemaphore id).2 := by
  refine h.of_eq (fun id' hid => ?_) fun id' _ => SyncManager.waitSemaphore_owner m id id'
  rw [SyncManager.waitSemaphore_value hsound]
  split
  · next heq =>
    subst heq hid
    have hzero : m.value id' = some 0 := h
    rw [hzero]
    rfl
  · rfl

theorem signalSemaphore {id : SemaphoreId} (hne : x ≠ .semaphore id) :
    x.Pending (m.signalSemaphore id).2 := by
  refine h.of_eq (fun id' hid => ?_) fun id' _ => SyncManager.signalSemaphore_owner m id id'
  rw [SyncManager.signalSemaphore_value hsound, if_neg]
  rintro rfl
  exact hne hid

/-- An owned mutex is not acquired. -/
theorem acquireMutex (id : LockId) (pid : Pid) : x.Pending (m.acquireMutex id pid).2 := by
  refine h.of_eq (fun id' _ => SyncManager.acquireMutex_value m id pid id') fun id' hid => ?_
  rw [SyncManager.acquireMutex_owner hsound]
  split
  · next heq =>
    subst heq hid
    obtain ⟨o, howned, hlocked⟩ := h
    rw [howned, Option.map_some, if_neg hlocked]
  · rfl

/-- Only the owner releases a mutex. -/
theorem releaseMutex {id : LockId} {pid : Pid} (hne : m.owner id = some pid → x ≠ .mutex id) :
    x.Pending (m.releaseMutex id pid).2 := by
  refine h.of_eq (fun id' _ => SyncManager.releaseMutex_value m id pid id') fun id' hid => ?_
  rw [SyncManager.releaseMutex_owner hsound]
  split
  · next heq =>
    subst heq hid
    obtain ⟨o, howned, -⟩ := h
    rw [howned, Option.map_some, if_neg]
    rintro rfl
    exact hne howned rfl
  · rfl

theorem releaseGlobalSemaphore (hne : x ≠ .semaphore 0) : x.Pending m.releaseGlobalSemaphore := by
  refine h.of_eq (fun id hid => ?_) fun id _ => SyncManager.releaseGlobalSemaphore_owner m id
  rw [SyncManager.releaseGlobalSemaphore_value hsound, if_neg]
  rintro ⟨rfl, -⟩
  exact hne hid

theorem releaseGlobalMutex {pid : Pid} (hne : m.owner 0 = some pid → x ≠ .mutex 0) :
    x.Pending (m.releaseGlobalMutex pid) := by
  refine h.of_eq (fun id _ => SyncManager.releaseGlobalMutex_value m pid id) fun id hid => ?_
  rw [SyncManager.releaseGlobalMutex_owner hsound, if_neg]
  rintro ⟨rfl, howned⟩
  exact hne howned hid

end Wait.Pending

/-! ## Steps that forget nobody -/

/-- The clean-up of a process that ends gives this back. -/
def Kernel.GivesBack (k : Kernel) (pid : Pid) (x : Wait) : Prop :=
  x = .semaphore 0 ∨ x = .mutex 0 ∧ k.syncManager.owner 0 = some pid

instance (k : Kernel) (pid : Pid) (x : Wait) : Decidable (k.GivesBack pid x) :=
  inferInstanceAs (Decidable (_ ∨ _))

/-- The act does not free what the process waits for, or it wakes or ends the process. -/
def Machine.Spares (s : Machine) (pid : Pid) (x : Wait) : Act → Prop
  -- a signal by system call wakes a process that the table records as sleeping, if there is one
  | .syscall _ _ (.semSignal semId) =>
    x = .semaphore semId.toNat → ∃ q ∈ s.processTable.keys, s.SleepsOn q semId.toNat
  -- a release by system call wakes one of those, and the mutex is free for all
  | .syscall _ caller (.lockRelease lockId) =>
    s.syncManager.owner lockId.toNat = some caller → x = .mutex lockId.toNat →
      s.SleepsOn pid lockId.toNat ∧
        ∀ q ∈ s.processTable.keys, s.SleepsOn q lockId.toNat → q = pid
  -- the others wake nobody
  | .syscall _ caller (.exit _) => caller ≠ 1 → x = .semaphore 0 → pid = caller
  | .settle _ ended => s.CleansUp ended → s.GivesBack ended x → pid = ended
  | .request (.signal ended signal) _ =>
    SignalType.isFatal signal = true → (s.stateOf ended).isSome = true → s.GivesBack ended x →
      pid = ended
  | .request (.signalSemaphore _ semid) _ => x ≠ .semaphore semid
  | .request (.releaseLock caller lockId) _ =>
    s.syncManager.owner lockId = some caller → x ≠ .mutex lockId
  | _ => True

instance (s : Machine) (pid : Pid) (x : Wait) (act : Act) : Decidable (s.Spares pid x act) := by
  induction act using Act.casesOn with
  | syscall cpuId caller call =>
    induction call using SystemCall.casesOn <;> dsimp only [Machine.Spares] <;> infer_instance
  | request req channel =>
    induction req using ProcessRequest.casesOn <;> dsimp only [Machine.Spares] <;> infer_instance
  | _ => dsimp only [Machine.Spares]; infer_instance

theorem Kernel.SleepsOn.mem_keys {k : Kernel} {q : Pid} {lockAddr : Nat} (h : k.SleepsOn q lockAddr) :
    q ∈ k.processTable.keys := by
  obtain ⟨pcb, hlook, -⟩ := Option.map_eq_some_iff.1 h
  have hsome : (k.processTable.lookup q).isSome = true := by rw [hlook]; rfl
  exact AList.mem_keys.1 (AList.lookup_isSome.1 hsome)

section steps

variable {s : Machine} {k' : Kernel} {pid : Pid} {x : Wait}

/-- The clean-up of an ending process: who still waits afterwards is somebody else. -/
theorem Wait.Pending.releaseGlobals {m : SyncManager} (h : x.Pending m) (hsound : m.Sound)
    {ended : Pid} (hsem : x ≠ .semaphore 0) (hmutex : m.owner 0 = some ended → x ≠ .mutex 0) :
    x.Pending (m.releaseGlobalSemaphore.releaseGlobalMutex ended) := by
  refine (h.releaseGlobalSemaphore hsound hsem).releaseGlobalMutex hsound.releaseGlobalSemaphore ?_
  rw [SyncManager.releaseGlobalSemaphore_owner]
  exact hmutex

theorem awake_of_written {o : Option ProcessState} {st : ProcessState} (h : st.isBlocked = false) :
    (o.map fun _ => st).any ProcessState.isBlocked = false := by
  cases o with
  | none => rfl
  | some _ => exact h

/-- A process that is blocked afterwards is not one that is awake. -/
theorem ne_of_blocked {k : Kernel} {pid q : Pid}
    (hblocked : (k.stateOf q).any ProcessState.isBlocked = true)
    (hawake : (k.stateOf pid).any ProcessState.isBlocked = false) : q ≠ pid := by
  rintro rfl
  cases hblocked.symm.trans hawake

theorem RequestEffect.pending {req : ProcessRequest} {channel : Option RequestId}
    (h : RequestEffect s.toKernel req k') (hsound : s.syncManager.Sound)
    (hblocked : (k'.stateOf pid).any ProcessState.isBlocked = true)
    (hspares : s.Spares pid x (.request req channel)) (hx : x.Pending s.syncManager) :
    x.Pending k'.syncManager := by
  cases h with
  | inert hreq h => rwa [h.syncManager]
  | schedule pid tid => exact hx
  | block pid tid reason => exact hx
  | unblock pid tid => exact hx
  | contextSwitch fromPid toPid => exact hx
  | received pid blocking h => rwa [h.syncManager]
  | receiveBlocked pid => exact hx
  | createSemaphore pid initialValue => exact hx.createSemaphore hsound pid initialValue
  | waitBlocked pid semid h => exact hx.waitSemaphore hsound semid
  | waitPassed pid semid h => exact hx.waitSemaphore hsound semid
  | signalSemaphore pid semid => exact hx.signalSemaphore hsound hspares
  | createLock pid => exact hx.createMutex hsound pid
  | acquireBlocked pid lockId h => exact hx.acquireMutex hsound lockId pid
  | acquirePassed pid lockId h => exact hx.acquireMutex hsound lockId pid
  | releaseLock pid lockId => exact hx.releaseMutex hsound hspares
  | waitRefused pid childPid => exact hx
  | waitChild pid childPid reason => exact hx
  | kill ended signal hsig hpid =>
    -- the process that is killed is not the one that waits
    have hne : pid ≠ ended := by
      refine ne_of_blocked hblocked ?_
      rw [Kernel.setState_stateOf, if_pos rfl]
      exact awake_of_written rfl
    refine hx.releaseGlobals hsound ?_ ?_
    · exact fun hsem => hne (hspares hsig hpid (Or.inl hsem))
    · exact fun howned hmutex => hne (hspares hsig hpid (Or.inr ⟨hmutex, howned⟩))
  | stop pid hpid => exact hx
  | continued pid hpid => exact hx
  | signalQueued pid signal h => rwa [h.syncManager]

/-- What a process waits for stays taken, unless the process is woken or ended. -/
theorem TableStep.pending {act : Act} (h : TableStep s.toKernel act k')
    (hsound : s.syncManager.Sound) (hblocked : (k'.stateOf pid).any ProcessState.isBlocked = true)
    (hspares : s.Spares pid x act) (hsettle : ∀ c q, act ≠ .settle c q)
    (hx : x.Pending s.syncManager) : x.Pending k'.syncManager := by
  cases h with
  | idle hact => exact hx
  | dispatch cpuId scheduled => rwa [Kernel.dispatch_syncManager]
  | initExit cpuId code => exact hx
  | exit cpuId caller code hcaller =>
    have hne : pid ≠ caller := by
      refine ne_of_blocked hblocked ?_
      rw [Kernel.exit_stateOf, if_pos rfl]
      exact awake_of_written rfl
    exact hx.releaseGlobalSemaphore hsound fun hsem => hne (hspares hcaller hsem)
  | forkCall cpuId pid h => rwa [h.syncManager_eq]
  | execCall cpuId pid h => rwa [h.syncManager_eq]
  | semCreate cpuId pid => exact hx.createSemaphore hsound pid 1
  | semWaitPassed cpuId pid semId h => exact hx.waitSemaphore hsound semId.toNat
  | semWaitSlept cpuId pid semId h hr => exact hx.waitSemaphore hsound semId.toNat
  | semSignalWoke cpuId pid semId waiter h => exact hx
  | semSignalCounted cpuId pid semId h =>
    refine hx.signalSemaphore hsound fun hsem => ?_
    obtain ⟨q, -, hq⟩ := hspares hsem
    exact h q hq
  | lockCreate cpuId pid => exact hx.createMutex hsound pid
  | lockAcquirePassed cpuId pid lockId h => exact hx.acquireMutex hsound lockId.toNat pid
  | lockAcquireSlept cpuId pid lockId h hr => exact hx.acquireMutex hsound lockId.toNat pid
  | lockReleaseWoke cpuId caller lockId waiter h =>
    have hne : pid ≠ waiter := by
      refine ne_of_blocked hblocked ?_
      rw [Kernel.onSync_stateOf, Kernel.wake_stateOf, if_pos rfl]
      exact awake_of_written rfl
    refine hx.releaseMutex hsound fun howned hmutex => ?_
    -- the process sleeps alone, so it is the one that is woken
    obtain ⟨-, halone⟩ := hspares howned hmutex
    exact hne (halone waiter (Kernel.SleepsOn.mem_keys h) h).symm
  | lockReleaseNone cpuId caller lockId h =>
    refine hx.releaseMutex hsound fun howned hmutex => ?_
    exact h pid (hspares howned hmutex).1
  | settled cpuId pid => exact hx
  | zombified cpuId pid => exact absurd rfl (hsettle cpuId pid)
  | reapedNone cpuId => exact hx
  | reaped cpuId pid code hpid h => exact hx
  | fork h => rwa [h.syncManager_eq]
  | exec h => rwa [h.syncManager_eq]
  | sharedSemaphores =>
    exact (hx.createSemaphore hsound 0 1).createSemaphore (hsound.createSemaphore 0 1) 0 1
  | request channel h => exact h.pending hsound hblocked hspares hx
  | waitChild pid childPid channel => rwa [Kernel.handleWaitChildWithResponse_syncManager]
  | responded channel response => exact hx
  | silent channel => exact hx

theorem Machine.settle_pending {cpuId : Fin 2} {ended : Pid} (hsound : s.syncManager.Sound)
    (hblocked : ((s.settle ended).stateOf pid).any ProcessState.isBlocked = true)
    (hspares : s.Spares pid x (.settle cpuId ended)) (hx : x.Pending s.syncManager) :
    x.Pending (s.settle ended).syncManager := by
  rcases s.settle_cases ended with heq | ⟨hcleans, heq⟩ | ⟨hdead, heq⟩
  · rwa [heq]
  · rw [heq] at hblocked ⊢
    have halive : (s.stateOf ended).any (fun st => !st.isTerminated) = true := by
      rcases hcleans.2.2 with hst | hst
      · rw [hst]
        rfl
      · rw [hst]
        rfl
    have hne : pid ≠ ended := by
      refine ne_of_blocked hblocked ?_
      rw [Kernel.zombify_stateOf, if_pos ⟨rfl, halive⟩]
      rfl
    rw [Kernel.zombify_syncManager, if_pos halive]
    refine hx.releaseGlobals hsound ?_ ?_
    · exact fun hsem => hne (hspares hcleans (Or.inl hsem))
    · exact fun howned hmutex => hne (hspares hcleans (Or.inr ⟨hmutex, howned⟩))
  · rw [heq, Kernel.zombify_of_dead _ _ hdead]
    exact hx

end steps

theorem Performed.pending {w : World} {s s' : Machine} {act : Act} {pid : Pid} {x : Wait}
    (h : Performed w s act s') (hsound : s.syncManager.Sound)
    (hblocked : (s'.stateOf pid).any ProcessState.isBlocked = true) (hspares : s.Spares pid x act)
    (hx : x.Pending s.syncManager) : x.Pending s'.syncManager := by
  by_cases hsettle : ∃ c q, act = .settle c q
  · obtain ⟨c, q, rfl⟩ := hsettle
    cases h
    exact Machine.settle_pending hsound hblocked hspares hx
  · push Not at hsettle
    exact h.step_of.table.pending hsound hblocked hspares hsettle hx

/-! ## Who waits -/

/-- The processes that wait, and for what. -/
abbrev Waits := List (Pid × Wait)

namespace Waits

/-- The wait that a transition begins. -/
def begun (t : Tr) : Waits :=
  match t.act with
  | .syscall _ pid (.semWait semId) =>
    if (t.pre.syncManager.waitSemaphore semId.toNat).1.any (fun r => decide (r ≠ .acquired)) then
      [(pid, .semaphore semId.toNat)]
    else []
  | .syscall _ pid (.lockAcquire lockId) =>
    if (t.pre.syncManager.acquireMutex lockId.toNat pid).1.any (fun r => decide (r ≠ .acquired)) then
      [(pid, .mutex lockId.toNat)]
    else []
  | .request (.waitSemaphore pid semid) _ =>
    if (t.pre.syncManager.waitSemaphore semid).1 = some .wouldBlock then [(pid, .semaphore semid)]
    else []
  | .request (.acquireLock pid lockId) _ =>
    if (t.pre.syncManager.acquireMutex lockId pid).1 = some .wouldBlock then [(pid, .mutex lockId)]
    else []
  | _ => []

/-- A process waits until it is no longer blocked. -/
def record (g : Waits) (t : Tr) : Waits :=
  (begun t ++ g).filter fun x => (t.post.stateOf x.1).any ProcessState.isBlocked

/-- The transition forgets nobody who waits. -/
def Heeded (g : Waits) (t : Tr) : Prop := ∀ x ∈ g, t.pre.Spares x.1 x.2 t.act

instance (g : Waits) (t : Tr) : Decidable (Heeded g t) :=
  inferInstanceAs (Decidable (∀ x ∈ g, _))

/-- Nobody waits for a semaphore with a token or for a mutex without an owner. -/
structure NoneForgotten (g : Waits) (k : Kernel) : Prop where
  semaphore : ∀ id v, k.syncManager.value id = some v → 0 < v → ∀ pid, (pid, .semaphore id) ∉ g
  mutex : ∀ id, k.syncManager.owner id = some unlocked → ∀ pid, (pid, .mutex id) ∉ g

/-- Everything that is waited for is taken. -/
structure Justified (g : Waits) (k : Kernel) : Prop where
  sound : k.syncManager.Sound
  pending : ∀ x ∈ g, x.2.Pending k.syncManager

theorem Justified.noneForgotten {g : Waits} {k : Kernel} (h : Justified g k) : NoneForgotten g k := by
  constructor
  · intro id v hv hpos pid hmem
    have hzero : k.syncManager.value id = some 0 := h.pending _ hmem
    rw [hzero] at hv
    cases hv
    exact absurd hpos (Nat.lt_irrefl 0)
  · intro id hfree pid hmem
    obtain ⟨o, howned, hlocked⟩ := h.pending _ hmem
    rw [hfree] at howned
    exact hlocked (Option.some.inj howned).symm

theorem value_of_blocked {m : SyncManager} (hsound : m.Sound) {id : SemaphoreId} {r : SemaphoreResult}
    (h : (m.waitSemaphore id).1 = some r) (hr : r ≠ .acquired) : m.value id = some 0 := by
  rw [SyncManager.waitSemaphore_result hsound] at h
  obtain ⟨v, hv, hresult⟩ := Option.map_eq_some_iff.1 h
  rw [hv]
  split at hresult
  · next hzero => rw [hzero]
  · exact absurd hresult.symm hr

theorem owner_of_blocked {m : SyncManager} (hsound : m.Sound) {id : LockId} {pid : Pid}
    {r : MutexResult} (h : (m.acquireMutex id pid).1 = some r) (hr : r ≠ .acquired) :
    ∃ o, m.owner id = some o ∧ o ≠ unlocked := by
  rw [SyncManager.acquireMutex_result hsound] at h
  obtain ⟨o, ho, hresult⟩ := Option.map_eq_some_iff.1 h
  refine ⟨o, ho, ?_⟩
  rintro rfl
  rw [if_pos rfl] at hresult
  exact hr hresult.symm

/-- A wait begins only when what it is for is taken. -/
theorem begun_pending {t : Tr} (hsound : t.pre.syncManager.Sound) {x : Pid × Wait}
    (hx : x ∈ begun t) : x.2.Pending t.pre.syncManager := by
  simp only [begun] at hx
  split at hx
  · split at hx
    · next hslept =>
      obtain ⟨r, hresult, hr⟩ := (Option.any_eq_true _ _).1 hslept
      rw [List.mem_singleton.1 hx]
      exact value_of_blocked hsound hresult (of_decide_eq_true hr)
    · cases hx
  · split at hx
    · next hslept =>
      obtain ⟨r, hresult, hr⟩ := (Option.any_eq_true _ _).1 hslept
      rw [List.mem_singleton.1 hx]
      exact owner_of_blocked hsound hresult (of_decide_eq_true hr)
    · cases hx
  · split at hx
    · next hblocked =>
      rw [List.mem_singleton.1 hx]
      exact value_of_blocked hsound hblocked (by decide)
    · cases hx
  · split at hx
    · next hblocked =>
      rw [List.mem_singleton.1 hx]
      exact owner_of_blocked hsound hblocked (by decide)
    · cases hx
  · cases hx

/-- A transition that begins a wait frees nothing. -/
theorem begun_spares {t : Tr} {x : Pid × Wait} (hx : x ∈ begun t) : t.pre.Spares x.1 x.2 t.act := by
  simp only [begun] at hx
  split at hx
  · next hact => rw [hact]; trivial
  · next hact => rw [hact]; trivial
  · next hact => rw [hact]; trivial
  · next hact => rw [hact]; trivial
  · cases hx

theorem Justified.step {w : World} {g : Waits} {t : Tr} (h : Justified g t.pre.toKernel)
    (ht : Performed w t.pre t.act t.post) (hheeded : Heeded g t) :
    Justified (record g t) t.post.toKernel := by
  refine ⟨ht.step_of.table.sound h.sound, ?_⟩
  intro x hx
  obtain ⟨hmem, hblocked⟩ := List.mem_filter.1 hx
  rcases List.mem_append.1 hmem with hbegun | hold
  · exact ht.pending h.sound hblocked (begun_spares hbegun) (begun_pending h.sound hbegun)
  · exact ht.pending h.sound hblocked (hheeded x hold) (h.pending x hold)

end Waits

open Machine Waits in
/-- In a run that forgets nobody, no process waits for what is free, in any state. -/
theorem no_lost_wakeup (w : World) (memory : MemoryService) (events : List Event)
    (h : Along record Heeded [] (run w memory events).2) :
    NoneForgotten (history record [] (run w memory events).2) (run w memory events).1.toKernel ∧
      Along record (fun g t => NoneForgotten g t.pre.toKernel ∧
        NoneForgotten (record g t) t.post.toKernel) [] (run w memory events).2 := by
  have htraced := run_traced w memory events
  have hboot : Justified [] (boot w memory).toKernel := by
    refine ⟨?_, by simp⟩
    rw [(boot_tables w memory).syncManager_eq]
    exact SyncManager.sound_new
  have hstep : ∀ t ∈ (run w memory events).2, ∀ g, Heeded g t → Justified g t.pre.toKernel →
      Justified (record g t) t.post.toKernel :=
    fun t ht g hheeded hpre => hpre.step (htraced.performed t ht) hheeded
  have hinv := @Chain.coupled _ _ _ record Heeded (fun g s => Justified g s.toKernel) _ _ _
    htraced.chain [] hboot h hstep
  exact ⟨hinv.1.noneForgotten,
    along_mono (fun _ _ _ hpair => ⟨hpair.1.noneForgotten, hpair.2.noneForgotten⟩) hinv.2⟩

open Machine Waits in
/-- The second process of the turnstile sleeps and is woken by the first. -/
theorem turnstile_wakes :
    Along record Heeded [] (run (World.calm turnstile) (bootMemory 16384 fun _ => 0)
        [.envelope (.syscall (.createProcess "a" [])) false,
          .envelope (.syscall (.createProcess "b" [])) false, .timer, .timer]).2 ∧
      NoneForgotten (history record [] (run (World.calm turnstile) (bootMemory 16384 fun _ => 0)
          [.envelope (.syscall (.createProcess "a" [])) false,
            .envelope (.syscall (.createProcess "b" [])) false, .timer, .timer]).2)
        (run (World.calm turnstile) (bootMemory 16384 fun _ => 0)
          [.envelope (.syscall (.createProcess "a" [])) false,
            .envelope (.syscall (.createProcess "b" [])) false, .timer, .timer]).1.toKernel := by
  have hheeded : Along record Heeded [] (run (World.calm turnstile) (bootMemory 16384 fun _ => 0)
      [.envelope (.syscall (.createProcess "a" [])) false,
        .envelope (.syscall (.createProcess "b" [])) false, .timer, .timer]).2 := by decide +kernel
  exact ⟨hheeded, (no_lost_wakeup _ _ _ hheeded).1⟩

/-- Process 1 takes the global semaphore, process 2 waits for it, and process 1 gives it back, all by
message. -/
def messagedEvents : List Event :=
  [.envelope (.process (.forkProcess 1)) false,
    .envelope (.process (.waitSemaphore 1 0)) false,
    .envelope (.process (.waitSemaphore 2 0)) false,
    .envelope (.process (.signalSemaphore 1 0)) false]

open Machine Waits in
theorem messaged_waiter_forgotten :
    ¬NoneForgotten (history record [] (run (World.calm []) (bootMemory 8192 fun _ => 0) messagedEvents).2)
      (run (World.calm []) (bootMemory 8192 fun _ => 0) messagedEvents).1.toKernel := by
  intro h
  have htoken : (run (World.calm []) (bootMemory 8192 fun _ => 0)
      messagedEvents).1.syncManager.value 0 = some 1 := by decide +kernel
  have hwaits : (2, Wait.semaphore 0) ∈ history record []
      (run (World.calm []) (bootMemory 8192 fun _ => 0) messagedEvents).2 := by decide +kernel
  exact h.semaphore 0 1 htoken Nat.one_pos 2 hwaits

end GenshinOs.Process
