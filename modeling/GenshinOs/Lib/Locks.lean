import Mathlib.Data.Finset.Basic
import Mathlib.Data.Finset.Lattice.Lemmas
import Mathlib.Tactic.Tauto

/-!
# Locks of one thread

What a single thread does with mutexes that are not reentrant. `runOps` runs a list of operations
against the set of mutexes that the thread holds; a thread that locks a mutex which it holds already
waits for itself, and the run has no result. Programs whose guards live in scopes are call chains:
`CallChain.ops` lists their operations, and the lemmas about `Deadlocks` read off a chain whether it
waits for itself without running it. The rule behind them is `blocks_union`: a chain that runs under
further guards gets stuck only on its own or at one of these.
-/

set_option autoImplicit false

namespace GenshinOs.Lib

universe u v

variable {μ : Type u} {α : Type v}

/-- An operation on a mutex. -/
inductive LockOp (μ : Type u) where
  | lock (m : μ)
  | attempt (m : μ)
  | unlock (m : μ)

/-- The code of a call, as far as mutexes go: guards with their scopes, in the order of the code. -/
inductive CallChain (μ : Type u) where
  | done
  | andThen (first second : CallChain μ)
  | guard (m : μ) (scope : CallChain μ)
  | exchange (m n : μ) (scope : CallChain μ)
  | attempt (m : μ)

section Operations

variable [DecidableEq μ]

/-- One operation on the set of mutexes that are held; no result if the thread waits for itself. A
lock that is only attempted is given back at once, or it fails and the thread goes on. -/
def LockOp.step (held : Finset μ) : LockOp μ → Option (Finset μ)
  | .lock m => if m ∈ held then none else some (insert m held)
  | .attempt _ => some held
  | .unlock m => some (held.erase m)

/-- A list of operations. -/
def runOps : Finset μ → List (LockOp μ) → Option (Finset μ)
  | held, [] => some held
  | held, op :: ops =>
    match op.step held with
    | none => none
    | some held' => runOps held' ops

/-- A list of operations goes on where the list before it has ended. -/
theorem runOps_append (held : Finset μ) (ops ops' : List (LockOp μ)) :
    runOps held (ops ++ ops') =
      match runOps held ops with
      | none => none
      | some held' => runOps held' ops' := by
  induction ops generalizing held with
  | nil => rfl
  | cons op ops ih =>
    simp only [List.cons_append, runOps]
    cases op.step held with
    | none => rfl
    | some held' => exact ih held'

end Operations

namespace CallChain

instance : Append (CallChain μ) := ⟨andThen⟩

/-- A guard that is dropped as soon as the mutex is locked. -/
def touch (m : μ) : CallChain μ := guard m done

/-- One chain for each element of a list. -/
def each (f : α → CallChain μ) : List α → CallChain μ
  | [] => done
  | a :: l => f a ++ each f l

/-- One chain for each element of a list, up to the first that passes the test. -/
def scan (p : α → Bool) (f : α → CallChain μ) : List α → CallChain μ
  | [] => done
  | a :: l => f a ++ if p a then done else scan p f l

/-- The operations of a chain. In an exchange the first guard is dropped when the second mutex is
locked. -/
def ops : CallChain μ → List (LockOp μ)
  | done => []
  | andThen first second => first.ops ++ second.ops
  | guard m scope => .lock m :: (scope.ops ++ [.unlock m])
  | exchange m n scope => .lock m :: .lock n :: .unlock m :: (scope.ops ++ [.unlock n])
  | attempt m => [.attempt m]

/-- The mutexes that a chain locks, or waits for. -/
def locks : CallChain μ → List μ
  | done => []
  | andThen first second => first.locks ++ second.locks
  | guard m scope => m :: scope.locks
  | exchange m n scope => m :: n :: scope.locks
  | attempt _ => []

@[simp] theorem mem_locks_done (m : μ) : m ∉ (done : CallChain μ).locks := by
  simp [locks]

@[simp] theorem mem_locks_append (m : μ) (c d : CallChain μ) :
    m ∈ (c ++ d).locks ↔ m ∈ c.locks ∨ m ∈ d.locks :=
  List.mem_append

@[simp] theorem mem_locks_guard (m n : μ) (c : CallChain μ) :
    m ∈ (guard n c).locks ↔ m = n ∨ m ∈ c.locks :=
  List.mem_cons

@[simp] theorem mem_locks_touch (m n : μ) : m ∈ (touch n).locks ↔ m = n := by
  simp [touch]

@[simp] theorem mem_locks_exchange (m n n' : μ) (c : CallChain μ) :
    m ∈ (exchange n n' c).locks ↔ m = n ∨ m = n' ∨ m ∈ c.locks := by
  simp [locks]

@[simp] theorem mem_locks_attempt (m n : μ) : m ∉ (attempt n).locks := by
  simp [locks]

/-- A mutex is locked in the chains of a list if it is in one of them. -/
@[simp] theorem mem_locks_each (m : μ) (f : α → CallChain μ) (l : List α) :
    m ∈ (each f l).locks ↔ ∃ a ∈ l, m ∈ (f a).locks := by
  induction l with
  | nil => simp [each]
  | cons a l ih => simp [each, ih]

/-- What is locked up to an element of a list is locked in the chain of some element. -/
theorem mem_locks_scan {m : μ} {p : α → Bool} {f : α → CallChain μ} {l : List α}
    (h : m ∈ (scan p f l).locks) : ∃ a ∈ l, m ∈ (f a).locks := by
  induction l with
  | nil => simp [scan] at h
  | cons a l ih =>
    rw [scan, mem_locks_append] at h
    rcases h with h | h
    · exact ⟨a, List.mem_cons_self, h⟩
    · split at h
      · simp at h
      · obtain ⟨b, hb, hm⟩ := ih h
        exact ⟨b, List.mem_cons_of_mem a hb, hm⟩

section Blocking

variable [DecidableEq μ]

/-- The chain waits for a mutex that it holds, or that was held when it began. -/
def Blocks (held : Finset μ) (c : CallChain μ) : Prop := runOps held c.ops = none

instance (held : Finset μ) (c : CallChain μ) : Decidable (Blocks held c) :=
  inferInstanceAs (Decidable (runOps held c.ops = none))

/-- The chain waits for itself. -/
def Deadlocks (c : CallChain μ) : Prop := Blocks ∅ c

instance (c : CallChain μ) : Decidable c.Deadlocks :=
  inferInstanceAs (Decidable (Blocks ∅ c))

/-- A guard that was taken last is dropped. -/
theorem runOps_unlock (m : μ) {held : Finset μ} (h : m ∉ held) (ops : List (LockOp μ)) :
    runOps (insert m held) (.unlock m :: ops) = runOps held ops := by
  simp only [runOps, LockOp.step]
  rw [Finset.erase_insert h]

/-- A chain that comes to its end has dropped all its guards. -/
theorem runOps_ops (c : CallChain μ) (held : Finset μ) (h : ¬c.Blocks held) :
    runOps held c.ops = some held := by
  rw [Blocks] at h
  induction c generalizing held with
  | done => rfl
  | andThen c d ihc ihd =>
    rw [ops, runOps_append] at h ⊢
    cases hc : runOps held c.ops with
    | none =>
      rw [hc] at h
      exact absurd rfl h
    | some held' =>
      -- the first chain gives back what it took, so the second one starts as the whole does
      have hback : held' = held := by
        have hc' := ihc held (by simp [hc])
        rw [hc] at hc'
        exact Option.some.inj hc'
      rw [hc, hback] at h
      rw [hback]
      exact ihd held h
  | guard m c ih =>
    rw [ops, runOps, LockOp.step] at h ⊢
    by_cases hm : m ∈ held
    · simp [hm] at h
    · simp only [if_neg hm] at h ⊢
      rw [runOps_append] at h ⊢
      have hc : runOps (insert m held) c.ops = some (insert m held) := by
        refine ih _ fun hnone => h ?_
        rw [hnone]
      simp only [hc]
      exact runOps_unlock m hm []
  | exchange m n c ih =>
    simp only [ops, runOps, LockOp.step] at h ⊢
    by_cases hm : m ∈ held
    · simp [hm] at h
    by_cases hn : n ∈ insert m held
    · simp [hm, hn] at h
    have hmn : m ≠ n := by
      rintro rfl
      exact hn (Finset.mem_insert_self m held)
    have hn' : n ∉ held := fun h' => hn (Finset.mem_insert_of_mem h')
    -- the guards are exchanged: `n` is taken before `m` is dropped
    have herase : (insert n (insert m held)).erase m = insert n held := by
      rw [Finset.erase_insert_of_ne hmn.symm, Finset.erase_insert hm]
    simp only [if_neg hm, if_neg hn, herase] at h ⊢
    rw [runOps_append] at h ⊢
    have hc : runOps (insert n held) c.ops = some (insert n held) := by
      refine ih _ fun hnone => h ?_
      rw [hnone]
    simp only [hc]
    exact runOps_unlock n hn' []
  | attempt m => rfl

/-- Two chains in order get stuck if one of them does, for the first drops its guards. -/
theorem blocks_append (held : Finset μ) (c d : CallChain μ) :
    (c ++ d).Blocks held ↔ c.Blocks held ∨ d.Blocks held := by
  show runOps held (c.ops ++ d.ops) = none ↔ _
  rw [runOps_append]
  by_cases hc : c.Blocks held
  · rw [show runOps held c.ops = none from hc]
    simp [hc]
  · rw [runOps_ops c held hc]
    exact (or_iff_right hc).symm

/-- A guard gets stuck at its own mutex, or its scope does under it. -/
theorem blocks_guard (held : Finset μ) (m : μ) (c : CallChain μ) :
    (guard m c).Blocks held ↔ m ∈ held ∨ c.Blocks (insert m held) := by
  rw [Blocks, ops, runOps, LockOp.step]
  by_cases hm : m ∈ held
  · simp [hm]
  · rw [if_neg hm, or_iff_right hm]
    show runOps (insert m held) (c.ops ++ [.unlock m]) = none ↔ _
    rw [runOps_append, Blocks]
    cases runOps (insert m held) c.ops with
    | none => simp
    | some held' => simp [runOps, LockOp.step]

/-- An exchange gets stuck at one of its mutexes, or its scope does under the second. -/
theorem blocks_exchange (held : Finset μ) (m n : μ) (c : CallChain μ) :
    (exchange m n c).Blocks held ↔
      m ∈ held ∨ n ∈ insert m held ∨ c.Blocks (insert n held) := by
  rw [Blocks, ops, runOps, LockOp.step]
  by_cases hm : m ∈ held
  · simp [hm]
  rw [if_neg hm, or_iff_right hm]
  simp only [runOps, LockOp.step]
  by_cases hn : n ∈ insert m held
  · simp [hn]
  have hmn : n ≠ m := by
    rintro rfl
    exact hn (Finset.mem_insert_self n held)
  rw [if_neg hn, or_iff_right hn]
  -- the first guard is gone when the scope begins
  have herase : (insert n (insert m held)).erase m = insert n held := by
    rw [Finset.erase_insert_of_ne hmn, Finset.erase_insert hm]
  simp only [herase]
  rw [runOps_append, Blocks]
  cases runOps (insert n held) c.ops with
  | none => simp
  | some held' => simp [runOps, LockOp.step]

/-- A chain under further guards gets stuck on its own, or at one of these. -/
theorem blocks_union (c : CallChain μ) (held more : Finset μ) :
    c.Blocks (held ∪ more) ↔ c.Blocks held ∨ ∃ m ∈ c.locks, m ∈ more := by
  induction c generalizing held with
  | done => simp [Blocks, ops, runOps]
  | andThen c d ihc ihd =>
    show (c ++ d).Blocks _ ↔ (c ++ d).Blocks _ ∨ ∃ m ∈ (c ++ d).locks, _
    rw [blocks_append, blocks_append, ihc, ihd]
    simp only [mem_locks_append, or_and_right, exists_or]
    exact or_or_or_comm
  | guard m c ih =>
    rw [blocks_guard, blocks_guard, ← Finset.insert_union, ih]
    simp only [mem_locks_guard, or_and_right, exists_or, exists_eq_left, Finset.mem_union]
    tauto
  | exchange m n c ih =>
    rw [blocks_exchange, blocks_exchange, ← Finset.insert_union m, ← Finset.insert_union n, ih]
    simp only [mem_locks_exchange, or_and_right, exists_or, exists_eq_left, Finset.mem_union,
      Finset.mem_insert]
    tauto
  | attempt m => simp [Blocks, ops, runOps, LockOp.step]

/-! ## Chains that start with no guard -/

@[simp] theorem deadlocks_done : ¬(done : CallChain μ).Deadlocks := by
  simp [Deadlocks, Blocks, ops, runOps]

@[simp] theorem deadlocks_attempt (m : μ) : ¬(attempt m).Deadlocks := by
  simp [Deadlocks, Blocks, ops, runOps, LockOp.step]

/-- Two chains in order wait for themselves if one of them does. -/
@[simp] theorem deadlocks_append (c d : CallChain μ) :
    (c ++ d).Deadlocks ↔ c.Deadlocks ∨ d.Deadlocks :=
  blocks_append ∅ c d

/-- A guard waits for itself when its mutex is locked again in its scope. -/
@[simp] theorem deadlocks_guard (m : μ) (c : CallChain μ) :
    (guard m c).Deadlocks ↔ m ∈ c.locks ∨ c.Deadlocks := by
  have hscope : c.Blocks (insert m ∅) ↔ c.Deadlocks ∨ m ∈ c.locks := by
    have hunion := blocks_union c ∅ {m}
    rw [Finset.empty_union] at hunion
    simpa [Deadlocks] using hunion
  rw [Deadlocks, blocks_guard, hscope, or_comm (a := c.Deadlocks)]
  simp

@[simp] theorem deadlocks_touch (m : μ) : ¬(touch m).Deadlocks := by
  simp [touch]

/-- An exchange waits for itself when its mutexes are one, or the second is locked again. -/
@[simp] theorem deadlocks_exchange (m n : μ) (c : CallChain μ) :
    (exchange m n c).Deadlocks ↔ m = n ∨ n ∈ c.locks ∨ c.Deadlocks := by
  have hguard := deadlocks_guard n c
  rw [Deadlocks, blocks_guard] at hguard
  rw [Deadlocks, blocks_exchange]
  simp only [Finset.notMem_empty, false_or, Finset.mem_insert, or_false] at hguard ⊢
  rw [hguard, eq_comm]

/-- The chains of a list wait for themselves if one of them does. -/
@[simp] theorem deadlocks_each (f : α → CallChain μ) (l : List α) :
    (each f l).Deadlocks ↔ ∃ a ∈ l, (f a).Deadlocks := by
  induction l with
  | nil => simp [each]
  | cons a l ih => simp [each, ih]

/-- A search waits for itself at no element if none of its chains does. -/
theorem not_deadlocks_scan {p : α → Bool} {f : α → CallChain μ} {l : List α}
    (h : ∀ a ∈ l, ¬(f a).Deadlocks) : ¬(scan p f l).Deadlocks := by
  induction l with
  | nil => exact deadlocks_done
  | cons a l ih =>
    have htail := ih fun b hb => h b (List.mem_cons_of_mem a hb)
    rw [scan, deadlocks_append]
    rintro (ha | hl)
    · exact h a List.mem_cons_self ha
    · split at hl
      · exact deadlocks_done hl
      · exact htail hl

end Blocking

end CallChain

end GenshinOs.Lib
