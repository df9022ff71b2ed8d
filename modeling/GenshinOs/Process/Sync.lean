import GenshinOs.Lib.HashMap
import GenshinOs.Messaging
import Mathlib.Tactic

/-!
# Semaphores and mutexes

The synchronisation primitives (`src/services/process/sync.rs`) and the manager that owns them. The
32-bit counters are natural numbers with the wrapping and saturation of the source. A mutex stores
its owner as a raw 64-bit word, in which the largest value means unlocked.

The manager is observed through the value and the initial value of each semaphore and the owner of
each mutex. Each operation has one lemma for what it answers and one for each observation it
changes; `SyncManager.Sound` holds the facts they need about the primitives that the service makes.
-/

set_option autoImplicit false

namespace GenshinOs.Process

open GenshinOs.Lib

/-- Semaphore identifier. -/
abbrev SemaphoreId := Nat

/-- Mutex identifier. -/
abbrev LockId := Nat

/-- The bound of a semaphore that names none. -/
def u32Max : Nat := 0xFFFFFFFF

/-- The owner word of an unlocked mutex. -/
def unlocked : Nat := 0xFFFFFFFFFFFFFFFF

/-- A counter that wraps at 32 bits goes one down. -/
def wrappingPred (count : Nat) : Nat := if count = 0 then u32Max else count - 1

/-- A counting semaphore, with its counters as the atomics hold them. -/
structure Semaphore where
  id : SemaphoreId
  value : Nat
  initialValue : Nat
  maxValue : Nat
  ownerPid : Pid
  waitCount : Nat
  valid : Bool
  deriving DecidableEq, Repr

/-- Results of the operations of a semaphore. -/
inductive SemaphoreResult where
  | acquired
  | released
  | wouldBlock
  | invalid
  | overflow
  | reset
  deriving DecidableEq, Repr

namespace Semaphore

/-- A semaphore without a bound of its own. -/
def new (id : SemaphoreId) (ownerPid : Pid) (initialValue : UInt32) : Semaphore where
  id := id
  value := initialValue.toNat
  initialValue := initialValue.toNat
  maxValue := u32Max
  ownerPid := ownerPid
  waitCount := 0
  valid := true

/-- A bounded semaphore. The value is cut off at the bound, the initial value is kept as it is. -/
def withMax (id : SemaphoreId) (ownerPid : Pid) (initialValue maxValue : UInt32) : Semaphore where
  id := id
  value := min initialValue.toNat maxValue.toNat
  initialValue := initialValue.toNat
  maxValue := maxValue.toNat
  ownerPid := ownerPid
  waitCount := 0
  valid := true

/-- Take a token, or count one more waiter. -/
def wait (s : Semaphore) : SemaphoreResult × Semaphore :=
  if s.valid = false then (.invalid, s)
  else if s.value = 0 then (.wouldBlock, { s with waitCount := (s.waitCount + 1) % 2 ^ 32 })
  else (.acquired, { s with value := s.value - 1 })

/-- Take a token if there is one. -/
def tryWait (s : Semaphore) : SemaphoreResult × Semaphore :=
  if s.valid = false then (.invalid, s)
  else if s.value = 0 then (.wouldBlock, s)
  else (.acquired, { s with value := s.value - 1 })

/-- Put a token back. The addition saturates, so the bound is exceeded only below `u32Max`. -/
def signal (s : Semaphore) : SemaphoreResult × Semaphore :=
  if s.valid = false then (.invalid, s)
  else
    let newValue := min (s.value + 1) u32Max
    if s.maxValue < newValue then (.overflow, s)
    else (.released, { s with value := newValue, waitCount := wrappingPred s.waitCount })

/-- Back to the initial value, whatever the bound. -/
def reset (s : Semaphore) : SemaphoreResult × Semaphore :=
  if s.valid = false then (.invalid, s) else (.reset, { s with value := s.initialValue })

/-- Wait for a semaphore that exists: take a token, or be counted as waiting. -/
theorem wait_valid {s : Semaphore} (h : s.valid = true) :
    s.wait = if s.value = 0 then (.wouldBlock, { s with waitCount := (s.waitCount + 1) % 2 ^ 32 })
      else (.acquired, { s with value := s.value - 1 }) := by
  rw [wait, if_neg (by rw [h]; decide)]

/-- An unbounded semaphore can always be signalled. -/
theorem signal_unbounded {s : Semaphore} (h : s.valid = true) (hmax : s.maxValue = u32Max) :
    s.signal = (.released,
      { s with value := min (s.value + 1) u32Max, waitCount := wrappingPred s.waitCount }) := by
  rw [signal, if_neg (by rw [h]; decide)]
  exact if_neg (by rw [hmax]; exact Nat.not_lt.2 (Nat.min_le_right _ _))

end Semaphore

/-- A lock: the word of its owner, and how often the owner has taken it. -/
structure MutexLock where
  id : LockId
  owner : Nat
  count : Nat
  creatorPid : Pid
  recursive : Bool
  waitCount : Nat
  valid : Bool
  deriving DecidableEq, Repr

/-- Results of the operations of a lock. -/
inductive MutexResult where
  | acquired
  | released
  | wouldBlock
  | notOwner
  | deadlock
  | invalid
  deriving DecidableEq, Repr

namespace MutexLock

/-- A lock that nobody has. -/
def new (id : LockId) (creatorPid : Pid) (recursive : Bool) : MutexLock where
  id := id
  owner := unlocked
  count := 0
  creatorPid := creatorPid
  recursive := recursive
  waitCount := 0
  valid := true

/-- Take the lock without waiting. The owner of a recursive lock takes it once more. -/
def tryAcquire (m : MutexLock) (pid : Pid) : MutexResult × MutexLock :=
  if m.valid = false then (.invalid, m)
  else if m.owner = unlocked then (.acquired, { m with owner := pid, count := 1 })
  else if m.owner = pid then
    if m.recursive then (.acquired, { m with count := (m.count + 1) % 2 ^ 32 })
    else (.deadlock, m)
  else (.wouldBlock, m)

/-- The same, and one more waiter is counted when another process has the lock. -/
def acquire (m : MutexLock) (pid : Pid) : MutexResult × MutexLock :=
  if m.valid = false then (.invalid, m)
  else
    match m.tryAcquire pid with
    | (.wouldBlock, m') => (.wouldBlock, { m' with waitCount := (m'.waitCount + 1) % 2 ^ 32 })
    | other => other

/-- Give the lock back once; the last time it is nobody's. -/
def release (m : MutexLock) (pid : Pid) : MutexResult × MutexLock :=
  if m.valid = false then (.invalid, m)
  else if m.owner ≠ pid then (.notOwner, m)
  else if m.count = 1 then
    (.released, { m with count := 0, owner := unlocked, waitCount := m.waitCount - 1 })
  else (.released, { m with count := wrappingPred m.count })

/-- Take a lock that is not recursive. -/
theorem tryAcquire_plain {m : MutexLock} (h : m.valid = true) (hrec : m.recursive = false)
    (pid : Pid) :
    m.tryAcquire pid = if m.owner = unlocked then (.acquired, { m with owner := pid, count := 1 })
      else if m.owner = pid then (.deadlock, m) else (.wouldBlock, m) := by
  rw [tryAcquire, if_neg (by rw [h]; decide), if_neg (c := m.recursive = true) (by rw [hrec]; decide)]

/-- Give a lock back. -/
theorem release_valid {m : MutexLock} (h : m.valid = true) (pid : Pid) :
    m.release pid = if m.owner ≠ pid then (.notOwner, m)
      else if m.count = 1 then
        (.released, { m with count := 0, owner := unlocked, waitCount := m.waitCount - 1 })
      else (.released, { m with count := wrappingPred m.count }) := by
  rw [release, if_neg (by rw [h]; decide)]

end MutexLock

/-- All synchronisation primitives. -/
structure SyncManager where
  semaphores : HashMap SemaphoreId Semaphore
  mutexes : HashMap LockId MutexLock
  nextSemId : SemaphoreId
  nextMutexId : LockId

namespace SyncManager

/-- A semaphore with the next number. -/
def createSemaphore (m : SyncManager) (ownerPid : Pid) (initialValue : UInt32) :
    SemaphoreId × SyncManager :=
  (m.nextSemId,
    { m with
      nextSemId := m.nextSemId + 1
      semaphores := m.semaphores.insert m.nextSemId
        (Semaphore.new m.nextSemId ownerPid initialValue) })

/-- A lock with the next number. -/
def createMutex (m : SyncManager) (creatorPid : Pid) (recursive : Bool) : LockId × SyncManager :=
  (m.nextMutexId,
    { m with
      nextMutexId := m.nextMutexId + 1
      mutexes := m.mutexes.insert m.nextMutexId
        (MutexLock.new m.nextMutexId creatorPid recursive) })

/-- The manager with the global semaphore 0 and mutex 0. -/
def new : SyncManager :=
  let empty : SyncManager := ⟨∅, ∅, 0, 0⟩
  ((empty.createSemaphore 0 1).2.createMutex 0 false).2

/-- An operation on the shared handle that `get_semaphore` returns. -/
def useSemaphore (m : SyncManager) (id : SemaphoreId)
    (op : Semaphore → SemaphoreResult × Semaphore) : Option SemaphoreResult × SyncManager :=
  match m.semaphores.lookup id with
  | none => (none, m)
  | some sem => (some (op sem).1, { m with semaphores := m.semaphores.insert id (op sem).2 })

/-- An operation on the shared handle that `get_mutex` returns. -/
def useMutex (m : SyncManager) (id : LockId) (op : MutexLock → MutexResult × MutexLock) :
    Option MutexResult × SyncManager :=
  match m.mutexes.lookup id with
  | none => (none, m)
  | some mutex => (some (op mutex).1, { m with mutexes := m.mutexes.insert id (op mutex).2 })

/-- Wait for the semaphore with this number, if there is one. -/
def waitSemaphore (m : SyncManager) (id : SemaphoreId) : Option SemaphoreResult × SyncManager :=
  m.useSemaphore id Semaphore.wait

/-- Signal it. -/
def signalSemaphore (m : SyncManager) (id : SemaphoreId) : Option SemaphoreResult × SyncManager :=
  m.useSemaphore id Semaphore.signal

/-- Take the lock with this number, if there is one. -/
def acquireMutex (m : SyncManager) (id : LockId) (pid : Pid) : Option MutexResult × SyncManager :=
  m.useMutex id (MutexLock.tryAcquire · pid)

/-- Give it back. -/
def releaseMutex (m : SyncManager) (id : LockId) (pid : Pid) : Option MutexResult × SyncManager :=
  m.useMutex id (MutexLock.release · pid)

/-! ## Observations -/

/-- Value of a semaphore. -/
def value (m : SyncManager) (id : SemaphoreId) : Option Nat :=
  (m.semaphores.lookup id).map Semaphore.value

/-- Initial value of a semaphore. -/
def initial (m : SyncManager) (id : SemaphoreId) : Option Nat :=
  (m.semaphores.lookup id).map Semaphore.initialValue

/-- Owner word of a mutex. -/
def owner (m : SyncManager) (id : LockId) : Option Nat :=
  (m.mutexes.lookup id).map MutexLock.owner

/-- What terminations do: the global semaphore is signalled if it is taken. -/
def releaseGlobalSemaphore (m : SyncManager) : SyncManager :=
  if m.value 0 = some 0 then (m.signalSemaphore 0).2 else m

/-- What a kill and a halt do: the global mutex is released if the process owns it. -/
def releaseGlobalMutex (m : SyncManager) (pid : Pid) : SyncManager :=
  if m.owner 0 = some pid ∧ pid ≠ unlocked then (m.releaseMutex 0 pid).2 else m

/-- Every primitive is one that the service made: semaphores are unbounded and never destroyed,
mutexes are not recursive, so an owned one has been acquired once. -/
structure Sound (m : SyncManager) : Prop where
  semaphore : ∀ id sem, m.semaphores.lookup id = some sem →
    sem.valid = true ∧ sem.maxValue = u32Max ∧ sem.initialValue ≤ u32Max
  mutex : ∀ id mutex, m.mutexes.lookup id = some mutex →
    mutex.valid = true ∧ mutex.recursive = false ∧ (mutex.owner ≠ unlocked → mutex.count = 1)
  semaphore_lt : ∀ id, m.nextSemId ≤ id → m.semaphores.lookup id = none
  mutex_lt : ∀ id, m.nextMutexId ≤ id → m.mutexes.lookup id = none

/-- An operation on a semaphore that is in the table, -/
theorem useSemaphore_some {m : SyncManager} {id : SemaphoreId} {sem : Semaphore}
    (h : m.semaphores.lookup id = some sem) (op : Semaphore → SemaphoreResult × Semaphore) :
    m.useSemaphore id op =
      (some (op sem).1, { m with semaphores := m.semaphores.insert id (op sem).2 }) := by
  simp only [useSemaphore, h]

/-- and on a lock. -/
theorem useMutex_some {m : SyncManager} {id : LockId} {mutex : MutexLock}
    (h : m.mutexes.lookup id = some mutex) (op : MutexLock → MutexResult × MutexLock) :
    m.useMutex id op =
      (some (op mutex).1, { m with mutexes := m.mutexes.insert id (op mutex).2 }) := by
  simp only [useMutex, h]

/-- An operation on a handle changes the value of that semaphore only. -/
theorem useSemaphore_value (m : SyncManager) (id id' : SemaphoreId)
    (op : Semaphore → SemaphoreResult × Semaphore) :
    (m.useSemaphore id op).2.value id' =
      if id' = id then (m.semaphores.lookup id).map fun sem => (op sem).2.value
      else m.value id' := by
  cases h : m.semaphores.lookup id with
  | none =>
    simp only [useSemaphore, h, value, Option.map_none]
    split
    · next heq => rw [heq, h, Option.map_none]
    · rfl
  | some sem =>
    rw [useSemaphore_some h]
    simp only [value, HashMap.lookup_insert_eq, Option.map_some]
    split <;> rfl

/-- Initial values stay, where the operation keeps them. -/
theorem useSemaphore_initial (m : SyncManager) (id id' : SemaphoreId)
    {op : Semaphore → SemaphoreResult × Semaphore}
    (hop : ∀ sem, (op sem).2.initialValue = sem.initialValue) :
    (m.useSemaphore id op).2.initial id' = m.initial id' := by
  cases h : m.semaphores.lookup id with
  | none => simp only [useSemaphore, h]
  | some sem =>
    rw [useSemaphore_some h]
    simp only [initial, HashMap.lookup_insert_eq]
    split
    · next heq => rw [heq, h, Option.map_some, Option.map_some, hop]
    · rfl

@[simp] theorem useSemaphore_owner (m : SyncManager) (id : SemaphoreId) (id' : LockId)
    (op : Semaphore → SemaphoreResult × Semaphore) :
    (m.useSemaphore id op).2.owner id' = m.owner id' := by
  simp only [useSemaphore]
  split <;> rfl

/-- An operation on a handle changes the owner of that mutex only. -/
theorem useMutex_owner (m : SyncManager) (id id' : LockId)
    (op : MutexLock → MutexResult × MutexLock) :
    (m.useMutex id op).2.owner id' =
      if id' = id then (m.mutexes.lookup id).map fun mutex => (op mutex).2.owner
      else m.owner id' := by
  cases h : m.mutexes.lookup id with
  | none =>
    simp only [useMutex, h, owner, Option.map_none]
    split
    · next heq => rw [heq, h, Option.map_none]
    · rfl
  | some mutex =>
    rw [useMutex_some h]
    simp only [owner, HashMap.lookup_insert_eq, Option.map_some]
    split <;> rfl

@[simp] theorem useMutex_value (m : SyncManager) (id : LockId) (id' : SemaphoreId)
    (op : MutexLock → MutexResult × MutexLock) :
    (m.useMutex id op).2.value id' = m.value id' := by
  simp only [useMutex]
  split <;> rfl

@[simp] theorem useMutex_initial (m : SyncManager) (id : LockId) (id' : SemaphoreId)
    (op : MutexLock → MutexResult × MutexLock) :
    (m.useMutex id op).2.initial id' = m.initial id' := by
  simp only [useMutex]
  split <;> rfl

/-- An initial value has 32 bits. -/
theorem initial_le {m : SyncManager} (h : m.Sound) {id : SemaphoreId} {n : Nat}
    (hn : m.initial id = some n) : n ≤ u32Max := by
  obtain ⟨sem, hlook, rfl⟩ := Option.map_eq_some_iff.1 hn
  exact (h.semaphore id sem hlook).2.2

/-! ## The operations keep the primitives sound -/

/-- The identifiers in use stay below the next one when a present entry is replaced. -/
private theorem lookup_replaced {κ ν : Type} [DecidableEq κ] {m : HashMap κ ν} {k k' : κ} {v v' : ν}
    (h : m.lookup k = some v) (hnone : m.lookup k' = none) :
    AList.lookup k' (m.insert k v') = none := by
  rw [HashMap.lookup_insert_eq, if_neg]
  · exact hnone
  · rintro rfl
    rw [h] at hnone
    cases hnone

/-- A table stays sound under an operation that keeps each semaphore so, -/
theorem Sound.useSemaphore {m : SyncManager} (h : m.Sound) (id : SemaphoreId)
    {op : Semaphore → SemaphoreResult × Semaphore}
    (hop : ∀ sem, sem.valid = true ∧ sem.maxValue = u32Max ∧ sem.initialValue ≤ u32Max →
      (op sem).2.valid = true ∧ (op sem).2.maxValue = u32Max ∧
        (op sem).2.initialValue ≤ u32Max) :
    (m.useSemaphore id op).2.Sound := by
  cases hid : m.semaphores.lookup id with
  | none =>
    simp only [SyncManager.useSemaphore, hid]
    exact h
  | some sem =>
    rw [useSemaphore_some hid]
    refine ⟨?_, h.mutex, ?_, h.mutex_lt⟩
    · intro id' sem' hlook
      simp only [HashMap.lookup_insert_eq] at hlook
      split at hlook
      · cases hlook
        exact hop sem (h.semaphore id sem hid)
      · exact h.semaphore id' sem' hlook
    · intro id' hle
      exact lookup_replaced hid (h.semaphore_lt id' hle)

/-- or each lock. -/
theorem Sound.useMutex {m : SyncManager} (h : m.Sound) (id : LockId)
    {op : MutexLock → MutexResult × MutexLock}
    (hop : ∀ mutex, mutex.valid = true ∧ mutex.recursive = false ∧
      (mutex.owner ≠ unlocked → mutex.count = 1) →
      (op mutex).2.valid = true ∧ (op mutex).2.recursive = false ∧
        ((op mutex).2.owner ≠ unlocked → (op mutex).2.count = 1)) :
    (m.useMutex id op).2.Sound := by
  cases hid : m.mutexes.lookup id with
  | none =>
    simp only [SyncManager.useMutex, hid]
    exact h
  | some mutex =>
    rw [useMutex_some hid]
    refine ⟨h.semaphore, ?_, h.semaphore_lt, ?_⟩
    · intro id' mutex' hlook
      simp only [HashMap.lookup_insert_eq] at hlook
      split at hlook
      · cases hlook
        exact hop mutex (h.mutex id mutex hid)
      · exact h.mutex id' mutex' hlook
    · intro id' hle
      exact lookup_replaced hid (h.mutex_lt id' hle)

/-- Waits keep it sound, -/
theorem Sound.waitSemaphore {m : SyncManager} (h : m.Sound) (id : SemaphoreId) :
    (m.waitSemaphore id).2.Sound := by
  apply h.useSemaphore
  rintro sem ⟨hvalid, hmax, hle⟩
  rw [Semaphore.wait_valid hvalid]
  split
  · exact ⟨hvalid, hmax, hle⟩
  · exact ⟨hvalid, hmax, hle⟩

/-- signals, -/
theorem Sound.signalSemaphore {m : SyncManager} (h : m.Sound) (id : SemaphoreId) :
    (m.signalSemaphore id).2.Sound := by
  apply h.useSemaphore
  rintro sem ⟨hvalid, hmax, hle⟩
  rw [Semaphore.signal_unbounded hvalid hmax]
  exact ⟨hvalid, hmax, hle⟩

/-- attempts to take a lock, -/
theorem Sound.acquireMutex {m : SyncManager} (h : m.Sound) (id : LockId) (pid : Pid) :
    (m.acquireMutex id pid).2.Sound := by
  apply h.useMutex
  rintro mutex ⟨hvalid, hrec, hcount⟩
  rw [MutexLock.tryAcquire_plain hvalid hrec]
  split
  · exact ⟨hvalid, hrec, fun _ => rfl⟩
  split
  · exact ⟨hvalid, hrec, hcount⟩
  · exact ⟨hvalid, hrec, hcount⟩

/-- and locks that are given back. -/
theorem Sound.releaseMutex {m : SyncManager} (h : m.Sound) (id : LockId) (pid : Pid) :
    (m.releaseMutex id pid).2.Sound := by
  apply h.useMutex
  rintro mutex ⟨hvalid, hrec, hcount⟩
  rw [MutexLock.release_valid hvalid]
  split
  · exact ⟨hvalid, hrec, hcount⟩
  split
  · exact ⟨hvalid, hrec, fun hne => (hne rfl).elim⟩
  · next hne =>
    exact ⟨hvalid, hrec, fun howned => absurd (hcount howned) hne⟩

/-- New semaphores keep it sound, -/
theorem Sound.createSemaphore {m : SyncManager} (h : m.Sound) (pid : Pid) (initialValue : UInt32) :
    (m.createSemaphore pid initialValue).2.Sound := by
  refine ⟨?_, h.mutex, ?_, h.mutex_lt⟩
  · intro id sem hlook
    simp only [SyncManager.createSemaphore, HashMap.lookup_insert_eq] at hlook
    split at hlook
    · cases hlook
      refine ⟨rfl, rfl, ?_⟩
      have hlt := initialValue.toNat_lt
      simp only [Semaphore.new, u32Max]
      omega
    · exact h.semaphore id sem hlook
  · intro id hle
    have hlt : m.nextSemId + 1 ≤ id := hle
    simp only [SyncManager.createSemaphore]
    rw [HashMap.lookup_insert_eq, if_neg (Nat.ne_of_gt hlt)]
    exact h.semaphore_lt id (Nat.le_of_succ_le hlt)

/-- and so do new locks. -/
theorem Sound.createMutex {m : SyncManager} (h : m.Sound) (pid : Pid) :
    (m.createMutex pid false).2.Sound := by
  refine ⟨h.semaphore, ?_, h.semaphore_lt, ?_⟩
  · intro id mutex hlook
    simp only [SyncManager.createMutex, HashMap.lookup_insert_eq] at hlook
    split at hlook
    · cases hlook
      exact ⟨rfl, rfl, fun hne => (hne rfl).elim⟩
    · exact h.mutex id mutex hlook
  · intro id hle
    have hlt : m.nextMutexId + 1 ≤ id := hle
    simp only [SyncManager.createMutex]
    rw [HashMap.lookup_insert_eq, if_neg (Nat.ne_of_gt hlt)]
    exact h.mutex_lt id (Nat.le_of_succ_le hlt)

/-- The tables are sound at boot. -/
theorem sound_new : SyncManager.new.Sound := by
  have hempty : (⟨∅, ∅, 0, 0⟩ : SyncManager).Sound :=
    ⟨fun id sem h => by simp at h, fun id mutex h => by simp at h, fun id _ => by simp,
      fun id _ => by simp⟩
  exact (hempty.createSemaphore 0 1).createMutex 0

/-- What the end of a process puts back keeps them sound, -/
theorem Sound.releaseGlobalSemaphore {m : SyncManager} (h : m.Sound) :
    m.releaseGlobalSemaphore.Sound := by
  simp only [SyncManager.releaseGlobalSemaphore]
  split
  · exact h.signalSemaphore 0
  · exact h

/-- the lock as well. -/
theorem Sound.releaseGlobalMutex {m : SyncManager} (h : m.Sound) (pid : Pid) :
    (m.releaseGlobalMutex pid).Sound := by
  simp only [SyncManager.releaseGlobalMutex]
  split
  · exact h.releaseMutex 0 pid
  · exact h

/-! ## What the operations answer and change -/

/-- A wait succeeds exactly when there is a token. -/
theorem waitSemaphore_result {m : SyncManager} (h : m.Sound) (id : SemaphoreId) :
    (m.waitSemaphore id).1 = (m.value id).map fun v => if v = 0 then .wouldBlock else .acquired := by
  cases hid : m.semaphores.lookup id with
  | none => simp only [waitSemaphore, useSemaphore, hid, value, Option.map_none]
  | some sem =>
    obtain ⟨hvalid, -, -⟩ := h.semaphore id sem hid
    rw [waitSemaphore, useSemaphore_some hid, value, hid, Option.map_some,
      Semaphore.wait_valid hvalid]
    split
    · next hzero => simp [hzero]
    · next hpos => simp [hpos]

/-- A wait takes a token if there is one. -/
theorem waitSemaphore_value {m : SyncManager} (h : m.Sound) (id id' : SemaphoreId) :
    (m.waitSemaphore id).2.value id' =
      if id' = id then (m.value id).map fun v => v - 1 else m.value id' := by
  rw [waitSemaphore, useSemaphore_value]
  congr 1
  cases hid : m.semaphores.lookup id with
  | none => simp only [value, hid, Option.map_none]
  | some sem =>
    obtain ⟨hvalid, -, -⟩ := h.semaphore id sem hid
    rw [value, hid, Option.map_some, Option.map_some, Option.map_some,
      Semaphore.wait_valid hvalid]
    split
    · next hzero => rw [hzero]
    · rfl

/-- A signal is one token more, up to the bound of a word. -/
theorem signalSemaphore_value {m : SyncManager} (h : m.Sound) (id id' : SemaphoreId) :
    (m.signalSemaphore id).2.value id' =
      if id' = id then (m.value id).map fun v => min (v + 1) u32Max else m.value id' := by
  rw [signalSemaphore, useSemaphore_value]
  congr 1
  cases hid : m.semaphores.lookup id with
  | none => simp only [value, hid, Option.map_none]
  | some sem =>
    obtain ⟨hvalid, hmax, -⟩ := h.semaphore id sem hid
    rw [value, hid, Option.map_some, Option.map_some, Option.map_some,
      Semaphore.signal_unbounded hvalid hmax]

@[simp] theorem waitSemaphore_initial (m : SyncManager) (id id' : SemaphoreId) :
    (m.waitSemaphore id).2.initial id' = m.initial id' := by
  apply useSemaphore_initial
  intro sem
  simp only [Semaphore.wait]
  split
  · rfl
  split <;> rfl

@[simp] theorem signalSemaphore_initial (m : SyncManager) (id id' : SemaphoreId) :
    (m.signalSemaphore id).2.initial id' = m.initial id' := by
  apply useSemaphore_initial
  intro sem
  simp only [Semaphore.signal]
  split
  · rfl
  split <;> rfl

@[simp] theorem waitSemaphore_owner (m : SyncManager) (id : SemaphoreId) (id' : LockId) :
    (m.waitSemaphore id).2.owner id' = m.owner id' := useSemaphore_owner m id id' _

@[simp] theorem signalSemaphore_owner (m : SyncManager) (id : SemaphoreId) (id' : LockId) :
    (m.signalSemaphore id).2.owner id' = m.owner id' := useSemaphore_owner m id id' _

@[simp] theorem acquireMutex_value (m : SyncManager) (id : LockId) (pid : Pid)
    (id' : SemaphoreId) : (m.acquireMutex id pid).2.value id' = m.value id' :=
  useMutex_value m id id' _

@[simp] theorem releaseMutex_value (m : SyncManager) (id : LockId) (pid : Pid)
    (id' : SemaphoreId) : (m.releaseMutex id pid).2.value id' = m.value id' :=
  useMutex_value m id id' _

@[simp] theorem acquireMutex_initial (m : SyncManager) (id : LockId) (pid : Pid)
    (id' : SemaphoreId) : (m.acquireMutex id pid).2.initial id' = m.initial id' :=
  useMutex_initial m id id' _

@[simp] theorem releaseMutex_initial (m : SyncManager) (id : LockId) (pid : Pid)
    (id' : SemaphoreId) : (m.releaseMutex id pid).2.initial id' = m.initial id' :=
  useMutex_initial m id id' _

/-- A mutex is acquired exactly when it is unlocked. -/
theorem acquireMutex_result {m : SyncManager} (h : m.Sound) (id : LockId) (pid : Pid) :
    (m.acquireMutex id pid).1 = (m.owner id).map fun o =>
      if o = unlocked then .acquired else if o = pid then .deadlock else .wouldBlock := by
  cases hid : m.mutexes.lookup id with
  | none => simp only [acquireMutex, useMutex, hid, owner, Option.map_none]
  | some mutex =>
    obtain ⟨hvalid, hrec, -⟩ := h.mutex id mutex hid
    rw [acquireMutex, useMutex_some hid, owner, hid, Option.map_some, Option.map_some,
      MutexLock.tryAcquire_plain hvalid hrec]
    split
    · rfl
    split <;> rfl

/-- A lock that is free gets its owner. -/
theorem acquireMutex_owner {m : SyncManager} (h : m.Sound) (id id' : LockId) (pid : Pid) :
    (m.acquireMutex id pid).2.owner id' =
      if id' = id then (m.owner id).map fun o => if o = unlocked then pid else o
      else m.owner id' := by
  rw [acquireMutex, useMutex_owner]
  congr 1
  cases hid : m.mutexes.lookup id with
  | none => simp only [owner, hid, Option.map_none]
  | some mutex =>
    obtain ⟨hvalid, hrec, -⟩ := h.mutex id mutex hid
    rw [owner, hid, Option.map_some, Option.map_some, Option.map_some,
      MutexLock.tryAcquire_plain hvalid hrec]
    split
    · rfl
    split <;> rfl

/-- A release by the owner unlocks; by anybody else it does nothing. -/
theorem releaseMutex_owner {m : SyncManager} (h : m.Sound) (id id' : LockId) (pid : Pid) :
    (m.releaseMutex id pid).2.owner id' =
      if id' = id then (m.owner id).map fun o => if o = pid then unlocked else o
      else m.owner id' := by
  rw [releaseMutex, useMutex_owner]
  congr 1
  cases hid : m.mutexes.lookup id with
  | none => simp only [owner, hid, Option.map_none]
  | some mutex =>
    obtain ⟨hvalid, -, hcount⟩ := h.mutex id mutex hid
    rw [owner, hid, Option.map_some, Option.map_some, Option.map_some,
      MutexLock.release_valid hvalid]
    congr 1
    rcases eq_or_ne mutex.owner pid with heq | hne
    · rw [if_neg (not_not.2 heq), if_pos heq]
      split
      · rfl
      · next hone => exact not_not.1 fun hne => hone (hcount hne)
    · rw [if_pos hne, if_neg hne]

/-- A new semaphore has its initial value, -/
theorem createSemaphore_value (m : SyncManager) (pid : Pid) (initialValue : UInt32)
    (id : SemaphoreId) : (m.createSemaphore pid initialValue).2.value id =
      if id = m.nextSemId then some initialValue.toNat else m.value id := by
  simp only [createSemaphore, value, HashMap.lookup_insert_eq]
  split <;> rfl

/-- which is noted. -/
theorem createSemaphore_initial (m : SyncManager) (pid : Pid) (initialValue : UInt32)
    (id : SemaphoreId) : (m.createSemaphore pid initialValue).2.initial id =
      if id = m.nextSemId then some initialValue.toNat else m.initial id := by
  simp only [createSemaphore, initial, HashMap.lookup_insert_eq]
  split <;> rfl

@[simp] theorem createSemaphore_owner (m : SyncManager) (pid : Pid) (initialValue : UInt32)
    (id : LockId) : (m.createSemaphore pid initialValue).2.owner id = m.owner id := rfl

/-- A new lock has no owner. -/
theorem createMutex_owner (m : SyncManager) (pid : Pid) (recursive : Bool) (id : LockId) :
    (m.createMutex pid recursive).2.owner id =
      if id = m.nextMutexId then some unlocked else m.owner id := by
  simp only [createMutex, owner, HashMap.lookup_insert_eq]
  split <;> rfl

@[simp] theorem createMutex_value (m : SyncManager) (pid : Pid) (recursive : Bool)
    (id : SemaphoreId) : (m.createMutex pid recursive).2.value id = m.value id := rfl

@[simp] theorem createMutex_initial (m : SyncManager) (pid : Pid) (recursive : Bool)
    (id : SemaphoreId) : (m.createMutex pid recursive).2.initial id = m.initial id := rfl

/-- At boot there is semaphore 0 with one token, -/
theorem new_value (id : SemaphoreId) : new.value id = if id = 0 then some 1 else none := by
  rw [new, createMutex_value, createSemaphore_value]
  rfl

/-- which is its initial value, -/
theorem new_initial (id : SemaphoreId) : new.initial id = if id = 0 then some 1 else none := by
  rw [new, createMutex_initial, createSemaphore_initial]
  rfl

/-- and lock 0 without an owner. -/
theorem new_owner (id : LockId) : new.owner id = if id = 0 then some unlocked else none := by
  rw [new, createMutex_owner]
  rfl

/-- The clean-up of a termination makes the global semaphore available. -/
theorem releaseGlobalSemaphore_value {m : SyncManager} (h : m.Sound) (id : SemaphoreId) :
    m.releaseGlobalSemaphore.value id =
      if id = 0 ∧ m.value 0 = some 0 then some 1 else m.value id := by
  simp only [releaseGlobalSemaphore]
  split
  · next hzero =>
    rw [signalSemaphore_value h]
    by_cases hid : id = 0
    · simp [hid, hzero, u32Max]
    · simp [hid]
  · next hnot =>
    rw [if_neg (fun hand => hnot hand.2)]

@[simp] theorem releaseGlobalSemaphore_initial (m : SyncManager) (id : SemaphoreId) :
    m.releaseGlobalSemaphore.initial id = m.initial id := by
  simp only [releaseGlobalSemaphore]
  split
  · rw [signalSemaphore_initial]
  · rfl

@[simp] theorem releaseGlobalSemaphore_owner (m : SyncManager) (id : LockId) :
    m.releaseGlobalSemaphore.owner id = m.owner id := by
  simp only [releaseGlobalSemaphore]
  split
  · rw [signalSemaphore_owner]
  · rfl

/-- The end of a process frees lock 0, if it was its owner. -/
theorem releaseGlobalMutex_owner {m : SyncManager} (h : m.Sound) (pid : Pid) (id : LockId) :
    (m.releaseGlobalMutex pid).owner id =
      if id = 0 ∧ m.owner 0 = some pid then some unlocked else m.owner id := by
  simp only [releaseGlobalMutex]
  split
  · next hown =>
    rw [releaseMutex_owner h]
    by_cases hid : id = 0
    · simp [hid, hown.1]
    · simp [hid]
  · next hnot =>
    split
    · next hand =>
      -- only the sentinel itself is left: the mutex is unlocked already
      have hpid : pid = unlocked := by_contra fun hne => hnot ⟨hand.2, hne⟩
      rw [hand.1, hand.2, hpid]
    · rfl

@[simp] theorem releaseGlobalMutex_value (m : SyncManager) (pid : Pid) (id : SemaphoreId) :
    (m.releaseGlobalMutex pid).value id = m.value id := by
  simp only [releaseGlobalMutex]
  split
  · rw [releaseMutex_value]
  · rfl

@[simp] theorem releaseGlobalMutex_initial (m : SyncManager) (pid : Pid) (id : SemaphoreId) :
    (m.releaseGlobalMutex pid).initial id = m.initial id := by
  simp only [releaseGlobalMutex]
  split
  · rw [releaseMutex_initial]
  · rfl

end SyncManager

end GenshinOs.Process
