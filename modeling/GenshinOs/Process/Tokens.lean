import GenshinOs.Process.Observations

/-!
# Conservation of semaphore tokens

A semaphore is a stock of tokens: `sem_wait` takes one or sleeps, `sem_signal` hands one to a sleeping
process or puts it back. `Tokens` is a history variable that follows where the tokens are. As long as
nothing but these two calls touches the semaphores, every token is either counted or held by a
process, nobody sleeps on a semaphore that has a token, and a sleeping process is woken once
(`tokens_conserved`).
-/

set_option autoImplicit false

namespace GenshinOs.Process

open GenshinOs.Lib GenshinOs.Hardware GenshinOs.Memory

instance (k : Kernel) (q : Pid) (lockAddr : Nat) : Decidable (k.SleepsOn q lockAddr) :=
  inferInstanceAs (Decidable (k.stateOf q = _))

/-- The process that a transition takes from its sleep on the given identifier. -/
def wokenOn (t : TableTr) (lockAddr : Nat) : Option Pid :=
  t.pre.processTable.keys.find? fun q => t.pre.SleepsOn q lockAddr ∧ ¬t.post.SleepsOn q lockAddr

theorem wokenOn_some {t : TableTr} {lockAddr : Nat} {q : Pid} (h : wokenOn t lockAddr = some q) :
    t.pre.SleepsOn q lockAddr ∧ ¬t.post.SleepsOn q lockAddr := by
  have hfound := List.find?_some h
  exact of_decide_eq_true hfound

theorem wokenOn_none {t : TableTr} {lockAddr : Nat} (h : wokenOn t lockAddr = none) {q : Pid}
    (hpre : t.pre.SleepsOn q lockAddr) : t.post.SleepsOn q lockAddr := by
  obtain ⟨pcb, hlook, -⟩ := Option.map_eq_some_iff.1 hpre
  have hkey : q ∈ t.pre.processTable.keys :=
    AList.mem_keys.1 (AList.lookup_isSome.1 (by simp [hlook]))
  have hnot := List.find?_eq_none.1 h q hkey
  by_contra hpost
  exact hnot (decide_eq_true ⟨hpre, hpost⟩)

/-- A wake-up takes exactly the woken process from its sleep. -/
theorem wokenOn_wake {k : Kernel} {act : Act} {waiter : Pid} {lockAddr : Nat}
    (h : k.SleepsOn waiter lockAddr) : wokenOn ⟨k, act, k.wake waiter⟩ lockAddr = some waiter := by
  cases hwoken : wokenOn ⟨k, act, k.wake waiter⟩ lockAddr with
  | none =>
    have hpost : (k.wake waiter).SleepsOn waiter lockAddr := wokenOn_none hwoken h
    rw [Kernel.SleepsOn, Kernel.wake_stateOf, if_pos rfl] at hpost
    exact absurd (eq_of_map_const hpost) (by simp)
  | some q =>
    obtain ⟨hpre, hpost⟩ := wokenOn_some hwoken
    by_contra hne
    have hq : q ≠ waiter := fun heq => hne (by rw [heq])
    apply hpost
    simp only [Kernel.SleepsOn, Kernel.wake_stateOf, if_neg hq]
    exact hpre

/-- Who holds tokens of which semaphore, once for each token, and how often a process has been woken
since it last went to sleep. -/
structure Tokens where
  held : SemaphoreId → List Pid
  woken : Pid → Nat

namespace Tokens

/-- Nobody holds a token. -/
def none : Tokens := ⟨fun _ => [], fun _ => 0⟩

/-- Other holders of a semaphore. -/
def setHeld (g : Tokens) (semId : SemaphoreId) (holders : List Pid) : Tokens :=
  { g with held := Function.update g.held semId holders }

/-- How often a process was woken. -/
def setWoken (g : Tokens) (pid : Pid) (times : Nat) : Tokens :=
  { g with woken := Function.update g.woken pid times }

section updates

variable (g : Tokens)

@[simp] theorem setHeld_held (semId s : SemaphoreId) (holders : List Pid) :
    (g.setHeld semId holders).held s = if s = semId then holders else g.held s :=
  Function.update_apply g.held semId holders s

@[simp] theorem setHeld_woken (semId : SemaphoreId) (holders : List Pid) :
    (g.setHeld semId holders).woken = g.woken := rfl

@[simp] theorem setWoken_held (pid : Pid) (times : Nat) : (g.setWoken pid times).held = g.held := rfl

@[simp] theorem setWoken_woken (pid q : Pid) (times : Nat) :
    (g.setWoken pid times).woken q = if q = pid then times else g.woken q :=
  Function.update_apply g.woken pid times q

end updates

/-- Follow the tokens through a transition. -/
def record (g : Tokens) (t : TableTr) : Tokens :=
  match t.act with
  | .syscall _ pid (.semWait semId) =>
    match (t.pre.syncManager.waitSemaphore semId.toNat).1 with
    | some .acquired => g.setHeld semId.toNat (pid :: g.held semId.toNat)
    | some _ => g.setWoken pid 0
    | .none => g
  | .syscall _ pid (.semSignal semId) =>
    let kept := (g.held semId.toNat).erase pid
    match wokenOn t semId.toNat with
    | some waiter =>
      (g.setHeld semId.toNat (waiter :: kept)).setWoken waiter (g.woken waiter + 1)
    | .none => g.setHeld semId.toNat kept
  | _ => g

/-- Only waits and signals touch the semaphores: no process ends, no mutex is used by a system call,
no message blocks, unblocks or signals anything, and only a holder of a token signals. -/
def Disciplined (g : Tokens) (t : TableTr) : Prop :=
  match t.act with
  | .syscall _ pid (.exit _) => pid = 1
  | .syscall _ pid (.semSignal semId) => pid ∈ g.held semId.toNat
  | .syscall _ _ (.lockAcquire _) => False
  | .syscall _ _ (.lockRelease _) => False
  | .settle _ pid => (t.pre.stateOf pid).any ProcessState.isTerminated =
      (t.post.stateOf pid).any ProcessState.isTerminated
  | .request (.block _ _ _) _ => False
  | .request (.unblock _ _) _ => False
  | .request (.signal _ _) _ => False
  | .request (.waitSemaphore _ _) _ => False
  | .request (.signalSemaphore _ _) _ => False
  | _ => True

instance (g : Tokens) (t : TableTr) : Decidable (Disciplined g t) := by
  induction t using Transition.casesOn with
  | mk pre act post =>
    induction act using Act.casesOn with
    | syscall cpuId pid call =>
      induction call using SystemCall.casesOn <;> dsimp only [Disciplined] <;> infer_instance
    | request req channel =>
      induction req using ProcessRequest.casesOn <;> dsimp only [Disciplined] <;> infer_instance
    | _ => dsimp only [Disciplined]; infer_instance

/-- Every token is counted or held, nobody sleeps beside a token, nobody is woken twice. -/
structure Conserved (g : Tokens) (k : Kernel) : Prop where
  total : ∀ s v, k.syncManager.value s = some v →
    k.syncManager.initial s = some (v + (g.held s).length)
  awake : ∀ s v, k.syncManager.value s = some v → 0 < v → ∀ q, ¬k.SleepsOn q s
  once : ∀ q, g.woken q ≤ 1

/-- The invariant behind it: the primitives are sound, a semaphore that does not exist has no tokens,
and who sleeps on a semaphore has not been woken and finds it empty. -/
structure Balanced (g : Tokens) (k : Kernel) : Prop where
  sound : k.syncManager.Sound
  total : ∀ s v, k.syncManager.value s = some v →
    k.syncManager.initial s = some (v + (g.held s).length)
  absent : ∀ s, k.syncManager.value s = Option.none → g.held s = []
  asleep : ∀ q s, k.SleepsOn q s → k.syncManager.value s = some 0 ∧ g.woken q = 0
  once : ∀ q, g.woken q ≤ 1

theorem Balanced.conserved {g : Tokens} {k : Kernel} (h : Balanced g k) : Conserved g k where
  total := h.total
  awake := by
    intro s v hv hpos q hsleep
    rw [(h.asleep q s hsleep).1] at hv
    cases hv
    exact Nat.lt_irrefl 0 hpos
  once := h.once

/-! ## Transitions that move no token -/

/-- The semaphores are the same and nobody else sleeps. -/
structure Untouched (k k' : Kernel) : Prop where
  sound : k.syncManager.Sound → k'.syncManager.Sound
  value : ∀ s, k'.syncManager.value s = k.syncManager.value s
  initial : ∀ s, k'.syncManager.initial s = k.syncManager.initial s
  sleeps : ∀ q s, k'.SleepsOn q s → k.SleepsOn q s

theorem Balanced.untouched {g : Tokens} {k k' : Kernel} (h : Balanced g k)
    (hk : Untouched k k') : Balanced g k' where
  sound := hk.sound h.sound
  total := by
    intro s v hv
    rw [hk.initial]
    exact h.total s v (hk.value s ▸ hv)
  absent := by
    intro s hs
    exact h.absent s (hk.value s ▸ hs)
  asleep := by
    intro q s hq
    rw [hk.value]
    exact h.asleep q s (hk.sleeps q s hq)
  once := h.once

/-- A new semaphore starts with all its tokens. -/
theorem Balanced.created {g : Tokens} {k : Kernel} (h : Balanced g k) (pid : Pid)
    (initialValue : UInt32) : Balanced g (k.handleCreateSemaphore pid initialValue) := by
  -- the number is new, so that nobody holds or awaits its tokens
  have hnew : k.syncManager.value k.syncManager.nextSemId = Option.none := by
    rw [SyncManager.value, h.sound.semaphore_lt _ (Nat.le_refl _), Option.map_none]
  have hvalue : ∀ s, (k.handleCreateSemaphore pid initialValue).syncManager.value s = _ :=
    k.syncManager.createSemaphore_value pid initialValue
  have hinitial : ∀ s, (k.handleCreateSemaphore pid initialValue).syncManager.initial s = _ :=
    k.syncManager.createSemaphore_initial pid initialValue
  refine ⟨h.sound.createSemaphore pid initialValue, ?_, ?_, ?_, h.once⟩
  · intro s v hv
    rw [hvalue] at hv
    rw [hinitial]
    split at hv
    · next heq =>
      cases hv
      rw [if_pos heq, heq, h.absent _ hnew, List.length_nil, Nat.add_zero]
    · next hne =>
      rw [if_neg hne]
      exact h.total s v hv
  · intro s hs
    rw [hvalue] at hs
    split at hs
    · cases hs
    · exact h.absent s hs
  · intro q s hq
    obtain ⟨hzero, hwoken⟩ := h.asleep q s hq
    refine ⟨?_, hwoken⟩
    rw [hvalue, if_neg]
    · exact hzero
    · intro heq
      rw [heq, hnew] at hzero
      cases hzero

/-! ## Waits and signals -/

/-- A wait that passes moves a token from the counter to the process. -/
theorem Balanced.waitPassed {g : Tokens} {k : Kernel} (h : Balanced g k) {semId : SemaphoreId}
    (pid : Pid) {v : Nat} (hv : k.syncManager.value semId = some v) (hpos : v ≠ 0) :
    Balanced (g.setHeld semId (pid :: g.held semId))
      (k.onSync fun m => (m.waitSemaphore semId).2) := by
  have hvalue : ∀ s, (k.onSync fun m => (m.waitSemaphore semId).2).syncManager.value s =
      if s = semId then some (v - 1) else k.syncManager.value s := by
    intro s
    rw [Kernel.onSync_syncManager, SyncManager.waitSemaphore_value h.sound, hv, Option.map_some]
  refine ⟨h.sound.waitSemaphore semId, ?_, ?_, ?_, h.once⟩
  · intro s u hu
    rw [hvalue] at hu
    rw [Kernel.onSync_syncManager, SyncManager.waitSemaphore_initial, setHeld_held]
    split at hu
    · next heq =>
      cases hu
      -- one token less in the counter, one more held
      rw [heq, h.total semId v hv, if_pos rfl, List.length_cons]
      congr 1
      omega
    · next hne =>
      rw [if_neg hne]
      exact h.total s u hu
  · intro s hs
    rw [hvalue] at hs
    rw [setHeld_held]
    split at hs
    · cases hs
    · next hne =>
      rw [if_neg hne]
      exact h.absent s hs
  · intro q s hq
    obtain ⟨hzero, hwoken⟩ := h.asleep q s hq
    refine ⟨?_, hwoken⟩
    rw [hvalue, if_neg]
    · exact hzero
    · intro heq
      rw [heq, hv] at hzero
      exact hpos (Option.some.inj hzero)

/-- A wait that finds no token puts the process to sleep. -/
theorem Balanced.waitSlept {g : Tokens} {k : Kernel} (h : Balanced g k) {semId : SemaphoreId}
    (pid : Pid) (hv : k.syncManager.value semId = some 0) :
    Balanced (g.setWoken pid 0)
      ((k.onSync fun m => (m.waitSemaphore semId).2).sleepOn pid semId) := by
  -- a wait without a token counts a waiter and leaves every value
  have hvalue : ∀ s, (k.syncManager.waitSemaphore semId).2.value s = k.syncManager.value s := by
    intro s
    rw [SyncManager.waitSemaphore_value h.sound]
    split
    · next heq => rw [heq, hv, Option.map_some]
    · rfl
  refine ⟨h.sound.waitSemaphore semId, ?_, ?_, ?_, ?_⟩
  · intro s v hs
    simp only [Kernel.sleepOn_syncManager, Kernel.onSync_syncManager, hvalue,
      SyncManager.waitSemaphore_initial] at hs ⊢
    exact h.total s v hs
  · intro s hs
    simp only [Kernel.sleepOn_syncManager, Kernel.onSync_syncManager, hvalue] at hs
    exact h.absent s hs
  · intro q s hq
    rw [Kernel.sleepOn_syncManager, Kernel.onSync_syncManager, hvalue, setWoken_woken]
    rw [Kernel.SleepsOn, Kernel.sleepOn_stateOf] at hq
    split at hq
    · next heq =>
      have hid : semId = s := by simpa using eq_of_map_const hq
      rw [if_pos heq, ← hid]
      exact ⟨hv, rfl⟩
    · next hne =>
      rw [if_neg hne]
      exact h.asleep q s hq
  · intro q
    rw [setWoken_woken]
    split
    · exact Nat.zero_le 1
    · exact h.once q

/-- A holder hands its token to a sleeping process. -/
theorem Balanced.transferred {g : Tokens} {k : Kernel} (h : Balanced g k) {semId : SemaphoreId}
    {pid waiter : Pid} (hpid : pid ∈ g.held semId) (hwaiter : k.SleepsOn waiter semId) :
    Balanced ((g.setHeld semId (waiter :: (g.held semId).erase pid)).setWoken waiter
      (g.woken waiter + 1)) (k.wake waiter) := by
  obtain ⟨hzero, hfresh⟩ := h.asleep waiter semId hwaiter
  -- the token changes hands, so that as many are held as before
  have hlength : (waiter :: (g.held semId).erase pid).length = (g.held semId).length := by
    rw [List.length_cons, List.length_erase_of_mem hpid]
    exact Nat.succ_pred_eq_of_pos (List.length_pos_of_mem hpid)
  refine ⟨h.sound, ?_, ?_, ?_, ?_⟩
  · intro s v hv
    rw [Kernel.wake_syncManager] at hv ⊢
    rw [setWoken_held, setHeld_held]
    split
    · next heq =>
      rw [hlength, ← heq]
      exact h.total s v hv
    · exact h.total s v hv
  · intro s hs
    rw [Kernel.wake_syncManager] at hs
    rw [setWoken_held, setHeld_held, if_neg]
    · exact h.absent s hs
    · intro heq
      rw [heq, hzero] at hs
      cases hs
  · intro q s hq
    rw [Kernel.SleepsOn, Kernel.wake_stateOf] at hq
    split at hq
    · exact absurd (eq_of_map_const hq) (by simp)
    · next hne =>
      rw [setWoken_woken, if_neg hne]
      exact h.asleep q s hq
  · intro q
    rw [setWoken_woken]
    split
    · rw [hfresh]
    · exact h.once q

/-- A holder puts its token back. The initial value bounds the counter, so it does not saturate. -/
theorem Balanced.counted {g : Tokens} {k : Kernel} (h : Balanced g k) {semId : SemaphoreId}
    {pid : Pid} (hpid : pid ∈ g.held semId) (hnobody : ∀ q, ¬k.SleepsOn q semId) :
    Balanced (g.setHeld semId ((g.held semId).erase pid))
      (k.onSync fun m => (m.signalSemaphore semId).2) := by
  have hpos : 0 < (g.held semId).length := List.length_pos_of_mem hpid
  have hvalue : ∀ s, (k.onSync fun m => (m.signalSemaphore semId).2).syncManager.value s = _ :=
    SyncManager.signalSemaphore_value h.sound semId
  refine ⟨h.sound.signalSemaphore semId, ?_, ?_, ?_, h.once⟩
  · intro s v hv
    rw [hvalue] at hv
    rw [Kernel.onSync_syncManager, SyncManager.signalSemaphore_initial, setHeld_held]
    split at hv
    · next heq =>
      -- the counter goes up by the token that is put back
      obtain ⟨u, hu, rfl⟩ := Option.map_eq_some_iff.1 hv
      have htotal := h.total semId u hu
      have hbound := SyncManager.initial_le h.sound htotal
      have hmin : min (u + 1) u32Max = u + 1 := Nat.min_eq_left (by omega)
      rw [heq, if_pos rfl, List.length_erase_of_mem hpid, htotal, hmin]
      congr 1
      omega
    · next hne =>
      rw [if_neg hne]
      exact h.total s v hv
  · intro s hs
    rw [hvalue] at hs
    split at hs
    · rw [h.absent semId (Option.map_eq_none_iff.1 hs)] at hpid
      cases hpid
    · next hne =>
      rw [setHeld_held, if_neg hne]
      exact h.absent s hs
  · intro q s hq
    -- nobody sleeps on this semaphore, and the other counters stay
    obtain ⟨hzero, hwoken⟩ := h.asleep q s hq
    refine ⟨?_, hwoken⟩
    rw [hvalue, if_neg]
    · exact hzero
    · intro heq
      exact hnobody q (heq ▸ hq)

/-! ## All transitions -/

theorem record_idle (g : Tokens) {t : TableTr} (h : t.act.isIdle = true) : g.record t = g := by
  obtain ⟨k, act, k'⟩ := t
  cases act with
  | syscall cpuId pid call =>
    cases call with
    | semWait semId => cases h
    | semSignal semId => cases h
    | _ => rfl
  | _ => rfl

/-- A transition that keeps the primitives keeps the tokens, if it puts nobody to sleep. -/
theorem untouched_of_eq {k k' : Kernel} {act : Act} (h : TableStep k act k')
    (hsync : k'.syncManager = k.syncManager) (hawake : ∀ q s, ¬FallsAsleep k q s act) :
    Untouched k k' where
  sound := by rw [hsync]; exact id
  value := by rw [hsync]; exact fun _ => rfl
  initial := by rw [hsync]; exact fun _ => rfl
  sleeps := fun q s hs => (h.sleepsOn hs).resolve_right (hawake q s)

/-- A change of the mutexes alone moves no token. -/
theorem untouched_onSync (k : Kernel) {f : SyncManager → SyncManager}
    (hsound : k.syncManager.Sound → (f k.syncManager).Sound)
    (hvalue : ∀ s, (f k.syncManager).value s = k.syncManager.value s)
    (hinitial : ∀ s, (f k.syncManager).initial s = k.syncManager.initial s) :
    Untouched k (k.onSync f) :=
  ⟨hsound, hvalue, hinitial, fun _ _ hs => hs⟩

theorem untouched_createLock (k : Kernel) (pid : Pid) : Untouched k (k.handleCreateLock pid) :=
  untouched_onSync k (fun hs => hs.createMutex pid) (fun _ => rfl) (fun _ => rfl)

/-- A disciplined request keeps the balance. -/
theorem Balanced.request {g : Tokens} {k k' : Kernel} {req : ProcessRequest}
    {channel : Option RequestId} (h : Balanced g k) (heff : RequestEffect k req k')
    (hrule : Disciplined g ⟨k, .request req channel, k'⟩) : Balanced g k' := by
  have hsame : k'.syncManager = k.syncManager → Balanced g k' := fun hsync =>
    h.untouched (untouched_of_eq (.request channel heff) hsync (by intro q s hfalls; cases hfalls))
  have hacquire : ∀ (pid : Pid) (lockId : LockId),
      Untouched k (k.onSync fun m => (m.acquireMutex lockId pid).2) := fun pid lockId =>
    untouched_onSync k (fun hs => hs.acquireMutex lockId pid)
      (k.syncManager.acquireMutex_value lockId pid) (k.syncManager.acquireMutex_initial lockId pid)
  cases heff with
  | inert hreq hk => exact hsame hk.syncManager
  | schedule pid tid => exact hsame rfl
  | block pid tid reason => exact hrule.elim
  | unblock pid tid => exact hrule.elim
  | contextSwitch fromPid toPid => exact hsame rfl
  | received pid blocking hk => exact hsame hk.syncManager
  | receiveBlocked pid => exact hsame rfl
  | createSemaphore pid initialValue => exact h.created pid initialValue
  | waitBlocked pid semid hres => exact hrule.elim
  | waitPassed pid semid hres => exact hrule.elim
  | signalSemaphore pid semid => exact hrule.elim
  | createLock pid => exact h.untouched (untouched_createLock k pid)
  | acquireBlocked pid lockId hres =>
    -- the mutex is tried first, then the process is blocked
    have htried := hacquire pid lockId
    refine h.untouched ⟨htried.sound, htried.value, htried.initial, ?_⟩
    intro q s hs
    exact (RequestEffect.acquireBlocked pid lockId hres).sleepsOn hs
  | acquirePassed pid lockId hres => exact h.untouched (hacquire pid lockId)
  | releaseLock pid lockId =>
    exact h.untouched (untouched_onSync k (fun hs => hs.releaseMutex lockId pid)
      (k.syncManager.releaseMutex_value lockId pid) (k.syncManager.releaseMutex_initial lockId pid))
  | waitRefused pid childPid => exact h
  | waitChild pid childPid reason => exact hsame rfl
  | kill pid signal hsig hpid => exact hrule.elim
  | stop pid hpid => exact hrule.elim
  | continued pid hpid => exact hrule.elim
  | signalQueued pid signal hk => exact hsame hk.syncManager

/-- A wait keeps the balance. -/
theorem Balanced.semWait {g : Tokens} {k k' : Kernel} {cpuId : Fin 2} {pid : Pid} {semId : UInt64}
    (h : Balanced g k) (hstep : TableStep k (.syscall cpuId pid (.semWait semId)) k') :
    Balanced (g.record ⟨k, .syscall cpuId pid (.semWait semId), k'⟩) k' := by
  have hresult := SyncManager.waitSemaphore_result h.sound semId.toNat
  cases hstep with
  | idle hact => cases hact
  | semWaitPassed _ _ _ hres =>
    rcases hres with hnone | hacquired
    -- there is no such semaphore, and the call returns
    · have hvalue : k.syncManager.value semId.toNat = .none := by
        rw [hnone] at hresult
        exact Option.map_eq_none_iff.1 hresult.symm
      simp only [record, hnone]
      refine h.untouched (untouched_onSync k (fun hs => hs.waitSemaphore semId.toNat) ?_
        (k.syncManager.waitSemaphore_initial semId.toNat))
      intro s
      rw [SyncManager.waitSemaphore_value h.sound, hvalue, Option.map_none]
      split
      · next heq => rw [heq, hvalue]
      · rfl
    · rw [hacquired] at hresult
      obtain ⟨v, hv, hpos⟩ := Option.map_eq_some_iff.1 hresult.symm
      simp only [record, hacquired]
      exact h.waitPassed pid hv (by rintro rfl; cases hpos)
  | semWaitSlept _ _ _ hres hr =>
    rw [hres] at hresult
    obtain ⟨v, hv, hzero⟩ := Option.map_eq_some_iff.1 hresult.symm
    split at hzero
    · next heq =>
      subst hzero
      rw [heq] at hv
      simp only [record, hres]
      exact h.waitSlept pid hv
    · exact absurd hzero.symm hr

/-- A signal by a holder keeps the balance. -/
theorem Balanced.semSignal {g : Tokens} {k k' : Kernel} {cpuId : Fin 2} {pid : Pid}
    {semId : UInt64} (h : Balanced g k)
    (hstep : TableStep k (.syscall cpuId pid (.semSignal semId)) k')
    (hpid : pid ∈ g.held semId.toNat) :
    Balanced (g.record ⟨k, .syscall cpuId pid (.semSignal semId), k'⟩) k' := by
  cases hstep with
  | idle hact => cases hact
  | semSignalWoke _ _ _ waiter hwaiter =>
    simp only [record, wokenOn_wake hwaiter]
    exact h.transferred hpid hwaiter
  | semSignalCounted _ _ _ hnobody =>
    cases hwoken : wokenOn ⟨k, .syscall cpuId pid (.semSignal semId),
        k.onSync fun m => (m.signalSemaphore semId.toNat).2⟩ semId.toNat with
    | none =>
      simp only [record, hwoken]
      exact h.counted hpid hnobody
    | some q => exact absurd (wokenOn_some hwoken).1 (hnobody q)

/-- A disciplined transition keeps the balance. -/
theorem Balanced.step {g : Tokens} {t : TableTr} (h : Balanced g t.pre)
    (hstep : TableStep t.pre t.act t.post) (hrule : Disciplined g t) :
    Balanced (g.record t) t.post := by
  obtain ⟨k, act, k'⟩ := t
  replace hstep : TableStep k act k' := hstep
  replace h : Balanced g k := h
  have hstep' := hstep
  have hsame : k'.syncManager = k.syncManager → (∀ q s, ¬FallsAsleep k q s act) →
      Balanced g k' := fun hsync hawake => h.untouched (untouched_of_eq hstep' hsync hawake)
  cases hstep with
  | idle hact =>
    rw [record_idle g hact]
    exact h
  | dispatch cpuId scheduled =>
    exact hsame (Kernel.dispatch_syncManager _ cpuId scheduled) (by intro q s hf; cases hf)
  | initExit cpuId code => exact h
  | exit cpuId pid code hpid => exact absurd hrule hpid
  | forkCall cpuId pid hk => exact hsame hk.syncManager_eq (by intro q s hf; cases hf)
  | execCall cpuId pid hk => exact hsame hk.syncManager_eq (by intro q s hf; cases hf)
  | semCreate cpuId pid => exact h.created pid 1
  | semWaitPassed cpuId pid semId hres => exact h.semWait hstep'
  | semWaitSlept cpuId pid semId hres hr => exact h.semWait hstep'
  | semSignalWoke cpuId pid semId waiter hwaiter => exact h.semSignal hstep' hrule
  | semSignalCounted cpuId pid semId hnobody => exact h.semSignal hstep' hrule
  | lockCreate cpuId pid => exact h.untouched (untouched_createLock k pid)
  | lockAcquirePassed cpuId pid lockId hres => exact hrule.elim
  | lockAcquireSlept cpuId pid lockId hres hr => exact hrule.elim
  | lockReleaseWoke cpuId pid lockId waiter hwaiter => exact hrule.elim
  | lockReleaseNone cpuId pid lockId hnobody => exact hrule.elim
  | settled cpuId pid => exact h
  | zombified cpuId pid hpid hblocked hready =>
    -- the process was dead before, so its clean-up has been done
    have hkept : (k.stateOf pid).any (fun st => !st.isTerminated) = false := by
      have hrule' : (k.stateOf pid).any ProcessState.isTerminated =
        ((k.zombify pid).stateOf pid).any ProcessState.isTerminated := hrule
      rw [Kernel.zombify_stateOf] at hrule'
      cases hst : k.stateOf pid with
      | none => rfl
      | some st =>
        rw [hst] at hrule'
        cases hterm : st.isTerminated with
        | true => simp [hterm]
        | false =>
          rw [if_pos ⟨rfl, by simp [hterm]⟩, Option.any_some, hterm] at hrule'
          cases hrule'
    refine hsame ?_ (by intro q s hf; cases hf)
    rw [Kernel.zombify_syncManager, hkept]
    rfl
  | reapedNone cpuId => exact h
  | reaped cpuId pid code hpid hk => exact hsame rfl (by intro q s hf; cases hf)
  | fork hk => exact hsame hk.syncManager_eq (by intro q s hf; cases hf)
  | exec hk => exact hsame hk.syncManager_eq (by intro q s hf; cases hf)
  | sharedSemaphores => exact (h.created 0 1).created 0 1
  | request channel heff => exact h.request heff hrule
  | waitChild pid childPid channel =>
    exact hsame (Kernel.handleWaitChildWithResponse_syncManager _ pid childPid channel)
      (by intro q s hf; cases hf)
  | responded channel response => exact hsame rfl (by intro q s hf; cases hf)
  | silent channel => exact h

theorem balanced_boot (w : World) (memory : MemoryService) :
    Balanced none (Machine.boot w memory).toKernel := by
  have hboot := boot_tables w memory
  have hsync : (Machine.boot w memory).syncManager = SyncManager.new := hboot.syncManager_eq
  refine ⟨by rw [hsync]; exact SyncManager.sound_new, ?_, fun _ _ => rfl, ?_, fun _ => Nat.zero_le 1⟩
  · intro s v hv
    rw [hsync, SyncManager.new_value] at hv
    rw [hsync, SyncManager.new_initial]
    exact hv
  · intro q s hq
    cases hboot.sleepsOn hq

end Tokens

open Tokens in
/-- Tokens are conserved in every disciplined run, at its end and at every point of it. -/
theorem tokens_conserved (w : World) (memory : MemoryService) (events : List Event)
    (h : Along record Disciplined Tokens.none (Machine.tableTrace w memory events)) :
    Conserved (history record Tokens.none (Machine.tableTrace w memory events))
        (Machine.finalTables w memory events) ∧
      Along record (fun g t => Conserved g t.pre ∧ Conserved (record g t) t.post) Tokens.none
        (Machine.tableTrace w memory events) := by
  have hinv := (tableTrace_chain w memory events).coupled (balanced_boot w memory) h
    fun t ht g hrule hpre => hpre.step (tableTrace_step ht) hrule
  exact ⟨hinv.1.conserved,
    along_mono (fun _ _ _ hpair => ⟨hpair.1.conserved, hpair.2.conserved⟩) hinv.2⟩

/-- Two processes wait, signal and start again; the second one sleeps and is woken. -/
def turnstile : List UInt8 :=
  Machine.mov 0 201 ++ Machine.int80 ++ Machine.mov 0 202 ++ Machine.int80 ++
    [0x10, 0x00, 0x00, 0x00, 0x00, 0x00, 0x00, 0x00]

open Tokens in
theorem tokens_conserved_turnstile :
    Conserved (history record Tokens.none (Machine.tableTrace (World.calm turnstile)
      (bootMemory 16384 fun _ => 0)
      [.envelope (.syscall (.createProcess "a" [])) false,
        .envelope (.syscall (.createProcess "b" [])) false, .timer, .timer]))
      (Machine.finalTables (World.calm turnstile) (bootMemory 16384 fun _ => 0)
        [.envelope (.syscall (.createProcess "a" [])) false,
          .envelope (.syscall (.createProcess "b" [])) false, .timer, .timer]) :=
  (tokens_conserved (World.calm turnstile) (bootMemory 16384 fun _ => 0) _ (by decide +kernel)).1

end GenshinOs.Process
