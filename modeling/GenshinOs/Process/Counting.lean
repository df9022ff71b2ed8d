import GenshinOs.Lib.Trace
import GenshinOs.Process.Sync

/-!
# What semaphores and mutexes count

Sequences of operations on one semaphore or one mutex (`src/services/process/sync.rs`), against the
results that they gave. A semaphore counts its tokens right unless it is reset above its bound or signalled
at the last 32-bit number (`accounted_iff`), and its waiters unless it is signalled while nobody waits
(`counts_waiters_iff`). A mutex counts the nesting of its owner, and only the owner is nested
(`nesting_counted`).
-/

set_option autoImplicit false

namespace GenshinOs.Process

open GenshinOs.Lib

/-! ## Semaphores -/

/-- An operation on a semaphore. -/
inductive SemOp where
  | wait
  | tryWait
  | signal
  | reset
  deriving DecidableEq, Repr

namespace Semaphore

/-- An operation of the semaphore, with its result. -/
def perform (s : Semaphore) : SemOp → SemaphoreResult × Semaphore
  | .wait => s.wait
  | .tryWait => s.tryWait
  | .signal => s.signal
  | .reset => s.reset

/-- One operation with its transition. -/
def transition (s : Semaphore) (op : SemOp) : Semaphore × List (Transition Semaphore SemOp) :=
  ((s.perform op).2, [⟨s, op, (s.perform op).2⟩])

/-- The transitions of a sequence of operations. -/
def traceOf (s : Semaphore) (ops : List SemOp) : List (Transition Semaphore SemOp) :=
  (runTrace transition s ops).2

theorem traceOf_single (s : Semaphore) (ops : List SemOp) :
    Chain s (s.traceOf ops) (runTrace transition s ops).1 ∧
      ∀ t ∈ s.traceOf ops, t.post = (t.pre.perform t.act).2 :=
  runTrace_single (fun _ _ => rfl) s ops

variable {s : Semaphore}

/-! What the operations do to a semaphore that is not destroyed. -/

theorem tryWait_valid (h : s.valid = true) :
    s.tryWait = if s.value = 0 then (.wouldBlock, s) else (.acquired, { s with value := s.value - 1 }) := by
  rw [tryWait, if_neg (by rw [h]; decide)]

theorem reset_valid (h : s.valid = true) : s.reset = (.reset, { s with value := s.initialValue }) := by
  rw [reset, if_neg (by rw [h]; decide)]

/-- A signal is refused at the bound, unless the addition saturates there. -/
theorem signal_valid (h : s.valid = true) (hmax : s.maxValue ≤ u32Max) :
    s.signal = if s.value < s.maxValue ∨ s.maxValue = u32Max then
        (.released, { s with value := min (s.value + 1) u32Max, waitCount := wrappingPred s.waitCount })
      else (.overflow, s) := by
  -- the source compares the saturated sum with the bound
  have hrefused : s.maxValue < min (s.value + 1) u32Max ↔
      ¬(s.value < s.maxValue ∨ s.maxValue = u32Max) := by
    rw [Nat.lt_min]
    omega
  rw [signal, if_neg (by rw [h]; decide)]
  by_cases hroom : s.value < s.maxValue ∨ s.maxValue = u32Max
  · rw [if_pos hroom]
    exact if_neg fun hlt => hrefused.1 hlt hroom
  · rw [if_neg hroom]
    exact if_pos (hrefused.2 hroom)

end Semaphore

open Semaphore

/-! ## Tokens -/

/-- The value at the start or after the last reset, and the tokens put back and taken since then. -/
structure Account where
  base : Nat
  released : Nat
  acquired : Nat

/-- The account after a transition: its result is counted, and a reset starts it anew. -/
def Account.after (a : Account) (t : Transition Semaphore SemOp) : Account :=
  match (t.pre.perform t.act).1 with
  | .released => { a with released := a.released + 1 }
  | .acquired => { a with acquired := a.acquired + 1 }
  | .reset => ⟨t.post.value, 0, 0⟩
  | _ => a

/-- The value agrees with the account. -/
def Account.Balances (a : Account) (s : Semaphore) : Prop := s.value + a.acquired = a.base + a.released

/-- A transition stays within the bound and agrees with the account, and a signal overflows exactly at the
bound and changes nothing then. -/
structure Accounted (a : Account) (t : Transition Semaphore SemOp) : Prop where
  pre_le : t.pre.value ≤ t.pre.maxValue
  post_le : t.post.value ≤ t.post.maxValue
  balanced : (a.after t).Balances t.post
  overflow : t.act = .signal → (t.pre.signal.1 = .overflow ↔ t.pre.value = t.pre.maxValue) ∧
    (t.pre.signal.1 = .overflow → t.post = t.pre)

/-- No reset to a value above the bound, and no signal at the last number. -/
def Unsaturated (t : Transition Semaphore SemOp) : Prop :=
  (t.act = .reset → t.pre.initialValue ≤ t.pre.maxValue) ∧ (t.act = .signal → t.pre.value ≠ u32Max)

/-- Taking tokens saturates nothing. -/
theorem unsaturated_take {t : Transition Semaphore SemOp} (h : t.act = .wait ∨ t.act = .tryWait) :
    Unsaturated t := by
  constructor
  · intro hreset
    rw [hreset] at h
    rcases h with h | h
    · cases h
    · cases h
  · intro hsignal
    rw [hsignal] at h
    rcases h with h | h
    · cases h
    · cases h

/-- What the account of a sequence depends on. -/
structure Tallied (a : Account) (s : Semaphore) : Prop where
  valid : s.valid = true
  le_max : s.value ≤ s.maxValue
  max_le : s.maxValue ≤ u32Max
  balanced : a.Balances s

variable {a : Account} {s : Semaphore}

/-- A token is taken, or the value stays. -/
theorem take_cases (h : s.valid = true) {op : SemOp} (hop : op = .wait ∨ op = .tryWait) :
    (s.perform op).2.valid = true ∧ (s.perform op).2.maxValue = s.maxValue ∧
      ((s.perform op).1 = .wouldBlock ∧ (s.perform op).2.value = s.value ∨
        (s.perform op).1 = .acquired ∧ (s.perform op).2.value = s.value - 1 ∧ s.value ≠ 0) := by
  rcases hop with rfl | rfl
  · rw [perform, wait_valid h]
    split
    · exact ⟨h, rfl, Or.inl ⟨rfl, rfl⟩⟩
    · next hpos => exact ⟨h, rfl, Or.inr ⟨rfl, rfl, hpos⟩⟩
  · rw [perform, tryWait_valid h]
    split
    · exact ⟨h, rfl, Or.inl ⟨rfl, rfl⟩⟩
    · next hpos => exact ⟨h, rfl, Or.inr ⟨rfl, rfl, hpos⟩⟩

/-- Taking tokens keeps the account. -/
theorem accounted_take (h : Tallied a s) {op : SemOp} (hop : op = .wait ∨ op = .tryWait) :
    Accounted a ⟨s, op, (s.perform op).2⟩ ∧
      Tallied (a.after ⟨s, op, (s.perform op).2⟩) (s.perform op).2 := by
  obtain ⟨hvalid, hmax, hcases⟩ := take_cases h.valid hop
  have hbalanced : (a.after ⟨s, op, (s.perform op).2⟩).Balances (s.perform op).2 ∧
      (s.perform op).2.value ≤ s.value := by
    have hold := h.balanced
    rw [Account.Balances] at hold
    -- a blocked wait is in no account; a token that is taken leaves the value
    rcases hcases with ⟨hblocked, hsame⟩ | ⟨hacquired, hless, hpos⟩
    · rw [Account.after, hblocked, Account.Balances, hsame]
      exact ⟨hold, Nat.le_refl _⟩
    · rw [Account.after, hacquired, Account.Balances, hless]
      constructor
      · show s.value - 1 + (a.acquired + 1) = a.base + a.released
        omega
      · exact Nat.sub_le _ _
  have hle : (s.perform op).2.value ≤ (s.perform op).2.maxValue := by
    rw [hmax]
    exact Nat.le_trans hbalanced.2 h.le_max
  have hother : op ≠ .signal := by
    rcases hop with rfl | rfl
    · decide
    · decide
  exact ⟨⟨h.le_max, hle, hbalanced.1, fun hsignal => absurd hsignal hother⟩,
    ⟨hvalid, hle, hmax ▸ h.max_le, hbalanced.1⟩⟩

/-- A signal is refused at the bound, counted, or saturates at the last number. -/
theorem signal_cases (h : Tallied a s) :
    (s.value ≠ u32Max ∧ s.value = s.maxValue ∧ s.signal = (.overflow, s)) ∨
      (s.value ≠ u32Max ∧ s.value < s.maxValue ∧ s.signal = (.released, { s with
        value := s.value + 1
        waitCount := wrappingPred s.waitCount })) ∨
      s.value = u32Max ∧ s.signal = (.released, { s with
        value := u32Max
        waitCount := wrappingPred s.waitCount }) := by
  have hle := h.le_max
  have hmax := h.max_le
  rw [signal_valid h.valid hmax]
  by_cases hlast : s.value = u32Max
  -- at the last number the bound is the last number as well
  · right
    right
    rw [if_pos (Or.inr (by omega)), Nat.min_eq_right (by omega)]
    exact ⟨hlast, rfl⟩
  · by_cases hfull : s.value = s.maxValue
    · left
      rw [if_neg (by omega)]
      exact ⟨hlast, hfull, rfl⟩
    · right
      left
      rw [if_pos (Or.inl (by omega)), Nat.min_eq_left (by omega)]
      exact ⟨hlast, by omega, rfl⟩

theorem accounted_signal (h : Tallied a s) :
    (Accounted a ⟨s, .signal, s.signal.2⟩ ↔ Unsaturated ⟨s, .signal, s.signal.2⟩) ∧
      (Accounted a ⟨s, .signal, s.signal.2⟩ → Tallied (a.after ⟨s, .signal, s.signal.2⟩) s.signal.2) := by
  have hold := h.balanced
  have hle := h.le_max
  rw [Account.Balances] at hold
  have hgood : s.value ≠ u32Max → Unsaturated ⟨s, .signal, s.signal.2⟩ :=
    fun hlast => ⟨(fun hreset => by cases hreset), fun _ => hlast⟩
  -- refused, counted, saturated
  rcases signal_cases h with ⟨hlast, hfull, hsignal⟩ | ⟨hlast, hroom, hsignal⟩ | ⟨hlast, hsignal⟩
  · have hbalanced : (a.after ⟨s, .signal, s.signal.2⟩).Balances s := by
      rw [Account.after, perform, hsignal]
      exact h.balanced
    rw [hsignal] at hbalanced hgood ⊢
    have haccounted : Accounted a ⟨s, .signal, s⟩ := by
      refine ⟨hle, hle, hbalanced, ?_⟩
      intro _
      rw [hsignal]
      exact ⟨iff_of_true rfl hfull, fun _ => rfl⟩
    exact ⟨iff_of_true haccounted (hgood hlast), fun _ => ⟨h.valid, hle, h.max_le, hbalanced⟩⟩
  · have hbalanced : (a.after ⟨s, .signal, s.signal.2⟩).Balances s.signal.2 := by
      rw [Account.after, perform, hsignal, Account.Balances]
      simp only
      omega
    rw [hsignal] at hbalanced hgood ⊢
    have haccounted : Accounted a ⟨s, .signal, { s with
        value := s.value + 1
        waitCount := wrappingPred s.waitCount }⟩ := by
      refine ⟨hle, hroom, hbalanced, ?_⟩
      intro _
      rw [hsignal]
      exact ⟨iff_of_false (fun hover => by cases hover) (Nat.ne_of_lt hroom), fun hover => by cases hover⟩
    exact ⟨iff_of_true haccounted (hgood hlast), fun _ => ⟨h.valid, hroom, h.max_le, hbalanced⟩⟩
  · -- the value saturates, and the account goes on without it
    have hno : ¬Accounted a ⟨s, .signal, s.signal.2⟩ := by
      intro haccounted
      have hbalanced := haccounted.balanced
      rw [Account.after, perform, hsignal, Account.Balances] at hbalanced
      simp only at hbalanced
      omega
    exact ⟨iff_of_false hno fun hgood => hgood.2 rfl hlast, fun hyes => absurd hyes hno⟩

theorem accounted_reset (h : Tallied a s) :
    (Accounted a ⟨s, .reset, s.reset.2⟩ ↔ Unsaturated ⟨s, .reset, s.reset.2⟩) ∧
      (Accounted a ⟨s, .reset, s.reset.2⟩ → Tallied (a.after ⟨s, .reset, s.reset.2⟩) s.reset.2) := by
  have hreset := reset_valid h.valid
  have hbalanced : (a.after ⟨s, .reset, s.reset.2⟩).Balances s.reset.2 := by
    rw [Account.after, perform, hreset]
    rfl
  constructor
  · constructor
    · intro haccounted
      -- the value after the reset is the first one, whatever the bound is
      have hle := haccounted.post_le
      rw [hreset] at hle
      exact ⟨fun _ => hle, fun hsignal => by cases hsignal⟩
    · intro hgood
      refine ⟨h.le_max, ?_, hbalanced, fun hsignal => by cases hsignal⟩
      rw [hreset]
      exact hgood.1 rfl
  · intro haccounted
    refine ⟨?_, haccounted.post_le, ?_, hbalanced⟩
    · rw [hreset]
      exact h.valid
    · rw [hreset]
      exact h.max_le

/-- One operation keeps the account exactly where it is not saturated. -/
theorem accounted_step (h : Tallied a s) (op : SemOp) :
    (Accounted a ⟨s, op, (s.perform op).2⟩ ↔ Unsaturated ⟨s, op, (s.perform op).2⟩) ∧
      (Accounted a ⟨s, op, (s.perform op).2⟩ →
        Tallied (a.after ⟨s, op, (s.perform op).2⟩) (s.perform op).2) := by
  cases op with
  | wait =>
    have hop : SemOp.wait = .wait ∨ SemOp.wait = .tryWait := Or.inl rfl
    have htake := accounted_take h hop
    exact ⟨iff_of_true htake.1 (unsaturated_take hop), fun _ => htake.2⟩
  | tryWait =>
    have hop : SemOp.tryWait = .wait ∨ SemOp.tryWait = .tryWait := Or.inr rfl
    have htake := accounted_take h hop
    exact ⟨iff_of_true htake.1 (unsaturated_take hop), fun _ => htake.2⟩
  | signal => exact accounted_signal h
  | reset => exact accounted_reset h

/-- A sequence of operations. -/
theorem accounted_run (h : Tallied a s) (ops : List SemOp) :
    Along Account.after Accounted a (s.traceOf ops) ↔ ∀ t ∈ s.traceOf ops, Unsaturated t := by
  -- along the operations, as long as the account has been right so far
  apply (traceOf_single s ops).1.along_iff h
  intro t ht a hkept
  obtain ⟨pre, op, post⟩ := t
  have hpost : post = (pre.perform op).2 := (traceOf_single s ops).2 _ ht
  subst hpost
  exact accounted_step hkept op

/-- The tokens of a new semaphore are accounted for exactly as long as it is neither reset above its bound
nor signalled at the last number. -/
theorem accounted_iff (id : SemaphoreId) (ownerPid : Pid) (initialValue maxValue : UInt32)
    (ops : List SemOp) :
    (Along Account.after Accounted ⟨initialValue.toNat, 0, 0⟩
        ((Semaphore.new id ownerPid initialValue).traceOf ops) ↔
      ∀ t ∈ (Semaphore.new id ownerPid initialValue).traceOf ops, Unsaturated t) ∧
    (Along Account.after Accounted ⟨min initialValue.toNat maxValue.toNat, 0, 0⟩
        ((Semaphore.withMax id ownerPid initialValue maxValue).traceOf ops) ↔
      ∀ t ∈ (Semaphore.withMax id ownerPid initialValue maxValue).traceOf ops, Unsaturated t) := by
  have hinitial : initialValue.toNat ≤ u32Max := Nat.le_of_lt_succ initialValue.toNat_lt
  have hmax : maxValue.toNat ≤ u32Max := Nat.le_of_lt_succ maxValue.toNat_lt
  constructor
  · apply accounted_run
    exact ⟨rfl, hinitial, Nat.le_refl _, rfl⟩
  · apply accounted_run
    exact ⟨rfl, Nat.min_le_right _ _, hmax, rfl⟩

/-- A bound of 3 is cut off at the start and forgotten by the first reset. -/
theorem reset_above_bound :
    ¬Along Account.after Accounted ⟨3, 0, 0⟩ ((Semaphore.withMax 1 100 5 3).traceOf [.reset]) := by
  intro haccounted
  have hreset := haccounted.1.post_le
  exact absurd hreset (by decide)

/-! ## Waiters -/

/-- The blocked waits that no release has matched yet. A release matches one if there is any. -/
def outstanding (n : Nat) (t : Transition Semaphore SemOp) : Nat :=
  if t.act = .wait ∧ (t.pre.perform t.act).1 = .wouldBlock then n + 1
  else if (t.pre.perform t.act).1 = .released then n - 1
  else n

/-- The wait count after a transition is the number of outstanding waits. -/
def CountsWaiters (n : Nat) (t : Transition Semaphore SemOp) : Prop := t.post.waitCount = outstanding n t

/-- A signal that will release finds a waiter, and a wait that will block finds room in the count. -/
def Awaited (t : Transition Semaphore SemOp) : Prop :=
  (t.act = .signal → t.pre.value < t.pre.maxValue ∨ t.pre.maxValue = u32Max → t.pre.waitCount ≠ 0) ∧
    (t.act = .wait → t.pre.value = 0 → t.pre.waitCount ≠ u32Max)

/-- What the count of waiters depends on. -/
structure Waited (n : Nat) (s : Semaphore) : Prop where
  valid : s.valid = true
  max_le : s.maxValue ≤ u32Max
  count_eq : s.waitCount = n
  count_le : n ≤ u32Max

/-- The count after an operation is right exactly when the operation is awaited, if this is what its new
value says. -/
theorem waited_step {n k c : Nat} (h : Waited n s) {op : SemOp} {s' : Semaphore}
    (hkept : s'.valid = true ∧ s'.maxValue = s.maxValue ∧ s'.waitCount = c)
    (hout : outstanding n ⟨s, op, s'⟩ = k) (hright : c = k ↔ Awaited ⟨s, op, s'⟩)
    (hle : c = k → k ≤ u32Max) :
    (CountsWaiters n ⟨s, op, s'⟩ ↔ Awaited ⟨s, op, s'⟩) ∧
      (CountsWaiters n ⟨s, op, s'⟩ → Waited (outstanding n ⟨s, op, s'⟩) s') := by
  obtain ⟨hvalid, hmax, hcount⟩ := hkept
  have hcounts : CountsWaiters n ⟨s, op, s'⟩ ↔ c = k := by
    rw [CountsWaiters, hout, hcount]
  refine ⟨hcounts.trans hright, ?_⟩
  intro hyes
  have heq := hcounts.1 hyes
  rw [hout]
  exact ⟨hvalid, hmax ▸ h.max_le, hcount.trans heq, hle heq⟩

/-- Operations that leave the count alone. -/
theorem waited_same {n : Nat} (h : Waited n s) {op : SemOp} {s' : Semaphore}
    (hkept : s'.valid = true ∧ s'.maxValue = s.maxValue ∧ s'.waitCount = s.waitCount)
    (hsame : outstanding n ⟨s, op, s'⟩ = n) (hawaited : Awaited ⟨s, op, s'⟩) :
    (CountsWaiters n ⟨s, op, s'⟩ ↔ Awaited ⟨s, op, s'⟩) ∧
      (CountsWaiters n ⟨s, op, s'⟩ → Waited (outstanding n ⟨s, op, s'⟩) s') := by
  apply waited_step h hkept hsame (iff_of_true h.count_eq hawaited)
  intro _
  exact h.count_le

/-- One operation keeps the count of the waiters exactly where it does not wrap. -/
theorem counts_step {n : Nat} (h : Waited n s) (op : SemOp) :
    (CountsWaiters n ⟨s, op, (s.perform op).2⟩ ↔ Awaited ⟨s, op, (s.perform op).2⟩) ∧
      (CountsWaiters n ⟨s, op, (s.perform op).2⟩ →
        Waited (outstanding n ⟨s, op, (s.perform op).2⟩) (s.perform op).2) := by
  have hcount := h.count_eq
  have hle := h.count_le
  cases op with
  | wait =>
    have hwait := wait_valid h.valid
    by_cases hzero : s.value = 0
    · rw [if_pos hzero] at hwait
      -- the count wraps at the last number
      have hroom : (n + 1) % 2 ^ 32 = n + 1 ↔ n ≠ u32Max := by
        rw [u32Max] at hle ⊢
        omega
      apply waited_step (k := n + 1) (c := (n + 1) % 2 ^ 32) h
      · rw [perform, hwait, ← hcount]
        exact ⟨h.valid, rfl, rfl⟩
      · rw [outstanding, perform, hwait, if_pos ⟨rfl, rfl⟩]
      · rw [hroom, ← hcount]
        constructor
        · intro hlast
          exact ⟨(fun hsignal => by cases hsignal), fun _ _ => hlast⟩
        · intro hawaited
          exact hawaited.2 rfl hzero
      · intro heq
        have hlast := hroom.1 heq
        omega
    · rw [if_neg hzero] at hwait
      apply waited_same h
      · rw [perform, hwait]
        exact ⟨h.valid, rfl, rfl⟩
      · rw [outstanding, perform, hwait]
        rfl
      · exact ⟨(fun hsignal => by cases hsignal), fun _ hz => absurd hz hzero⟩
  | tryWait =>
    have htry := tryWait_valid h.valid
    -- a try does not count as a waiter, whether it succeeds or not
    have hresult : (s.perform .tryWait).1 ≠ .released ∧
        (s.perform .tryWait).2.valid = true ∧ (s.perform .tryWait).2.maxValue = s.maxValue ∧
          (s.perform .tryWait).2.waitCount = s.waitCount := by
      rw [perform, htry]
      split
      · exact ⟨(fun hrel => by cases hrel), h.valid, rfl, rfl⟩
      · exact ⟨(fun hrel => by cases hrel), h.valid, rfl, rfl⟩
    apply waited_same h hresult.2
    · rw [outstanding, if_neg (fun hw => by cases hw.1), if_neg hresult.1]
    · exact ⟨(fun hsignal => by cases hsignal), fun hwait => by cases hwait⟩
  | signal =>
    have hsignal := signal_valid h.valid h.max_le
    by_cases hroom : s.value < s.maxValue ∨ s.maxValue = u32Max
    · rw [if_pos hroom] at hsignal
      -- the count wraps below zero, where the number of outstanding waits stays at zero
      have hwaiter : wrappingPred n = n - 1 ↔ n ≠ 0 := by
        rw [wrappingPred, u32Max]
        split
        · omega
        · omega
      apply waited_step (k := n - 1) (c := wrappingPred n) h
      · rw [perform, hsignal, ← hcount]
        exact ⟨h.valid, rfl, rfl⟩
      · rw [outstanding, perform, hsignal]
        rfl
      · rw [hwaiter, ← hcount]
        constructor
        · intro hsome
          exact ⟨fun _ _ => hsome, fun hwait => by cases hwait⟩
        · intro hawaited
          exact hawaited.1 rfl hroom
      · intro _
        exact Nat.le_trans (Nat.sub_le _ _) hle
    · rw [if_neg hroom] at hsignal
      apply waited_same h
      · rw [perform, hsignal]
        exact ⟨h.valid, rfl, rfl⟩
      · rw [outstanding, perform, hsignal]
        rfl
      · exact ⟨fun _ hreleases => absurd hreleases hroom, fun hwait => by cases hwait⟩
  -- a reset forgets the tokens and keeps the waiters
  | reset =>
    have hreset := reset_valid h.valid
    apply waited_same h
    · rw [perform, hreset]
      exact ⟨h.valid, rfl, rfl⟩
    · rw [outstanding, perform, hreset]
      rfl
    · exact ⟨(fun hsignal => by cases hsignal), fun hwait => by cases hwait⟩

theorem counts_run {n : Nat} (h : Waited n s) (ops : List SemOp) :
    Along outstanding CountsWaiters n (s.traceOf ops) ↔ ∀ t ∈ s.traceOf ops, Awaited t := by
  apply (traceOf_single s ops).1.along_iff h
  intro t ht n hwaited
  obtain ⟨pre, op, post⟩ := t
  have hpost : post = (pre.perform op).2 := (traceOf_single s ops).2 _ ht
  subst hpost
  exact counts_step hwaited op

/-- The wait count of a new semaphore is the number of outstanding waits exactly as long as nobody
releases it without a waiter, and the waiters fit into the count. -/
theorem counts_waiters_iff (id : SemaphoreId) (ownerPid : Pid) (initialValue maxValue : UInt32)
    (ops : List SemOp) :
    (Along outstanding CountsWaiters 0 ((Semaphore.new id ownerPid initialValue).traceOf ops) ↔
      ∀ t ∈ (Semaphore.new id ownerPid initialValue).traceOf ops, Awaited t) ∧
    (Along outstanding CountsWaiters 0
        ((Semaphore.withMax id ownerPid initialValue maxValue).traceOf ops) ↔
      ∀ t ∈ (Semaphore.withMax id ownerPid initialValue maxValue).traceOf ops, Awaited t) := by
  have hmax : maxValue.toNat ≤ u32Max := Nat.le_of_lt_succ maxValue.toNat_lt
  constructor
  · apply counts_run
    exact ⟨rfl, Nat.le_refl _, rfl, Nat.zero_le _⟩
  · apply counts_run
    exact ⟨rfl, hmax, rfl, Nat.zero_le _⟩

/-- A signal without a waiter wraps the count. -/
theorem signal_wraps_count :
    ¬Along outstanding CountsWaiters 0 ((Semaphore.new 1 100 0).traceOf [.signal]) := by
  intro hcounts
  have hsignal : (Semaphore.new 1 100 0).signal.2.waitCount = 0 := hcounts.1
  exact absurd hsignal (by decide)

/-! ## Mutexes -/

/-- An operation of a process on a mutex. -/
inductive MutexOp where
  | tryAcquire (pid : Pid)
  | acquire (pid : Pid)
  | release (pid : Pid)
  deriving DecidableEq, Repr

/-- The process that calls. -/
def MutexOp.pid : MutexOp → Pid
  | .tryAcquire pid => pid
  | .acquire pid => pid
  | .release pid => pid

namespace MutexLock

/-- An operation of the lock, with its result. -/
def perform (m : MutexLock) : MutexOp → MutexResult × MutexLock
  | .tryAcquire pid => m.tryAcquire pid
  | .acquire pid => m.acquire pid
  | .release pid => m.release pid

/-- The owner, if there is one. -/
def ownerOf (m : MutexLock) : Option Pid := if m.owner = unlocked then none else some m.owner

/-- One operation with its transition. -/
def transition (m : MutexLock) (op : MutexOp) : MutexLock × List (Transition MutexLock MutexOp) :=
  ((m.perform op).2, [⟨m, op, (m.perform op).2⟩])

/-- The transitions of a list of operations. -/
def traceOf (m : MutexLock) (ops : List MutexOp) : List (Transition MutexLock MutexOp) :=
  (runTrace transition m ops).2

end MutexLock

/-- The successful acquires and releases of every process. -/
structure Nesting where
  acquired : Pid → Nat
  released : Pid → Nat

/-- The counts of each process after a transition. -/
def Nesting.after (n : Nesting) (t : Transition MutexLock MutexOp) : Nesting :=
  match (t.pre.perform t.act).1 with
  | .acquired => { n with acquired := Function.update n.acquired t.act.pid (n.acquired t.act.pid + 1) }
  | .released => { n with released := Function.update n.released t.act.pid (n.released t.act.pid + 1) }
  | _ => n

/-- How many acquires of a process are not released. -/
def Nesting.excess (n : Nesting) (pid : Pid) : Nat := n.acquired pid - n.released pid

/-- The process is no sentinel, and its nesting fits into the 32-bit count. -/
def Nestable (n : Nesting) (t : Transition MutexLock MutexOp) : Prop :=
  t.act.pid ≠ unlocked ∧ (n.after t).excess t.act.pid < 2 ^ 32

/-- Only the owner is nested, as often as the count says. -/
structure Nested (n : Nesting) (m : MutexLock) : Prop where
  owner : ∀ pid, m.owner = pid → pid ≠ unlocked → n.acquired pid = n.released pid + m.count
  others : ∀ pid, m.owner ≠ pid ∨ pid = unlocked → n.acquired pid = n.released pid
  count_pos : m.owner ≠ unlocked → 1 ≤ m.count
  count_zero : m.owner = unlocked → m.count = 0
  plain : m.recursive = false → m.count ≤ 1
  valid : m.valid = true

/-- What an operation of a process does to owner and count. -/
inductive MutexEffect (m : MutexLock) (pid : Pid) (result : MutexResult) (m' : MutexLock) : Prop
  | taken : m.owner = unlocked → result = .acquired → m'.owner = pid → m'.count = 1 →
      MutexEffect m pid result m'
  | nested : m.owner ≠ unlocked → m.owner = pid → m.recursive = true → result = .acquired →
      m'.owner = m.owner → m'.count = (m.count + 1) % 2 ^ 32 → MutexEffect m pid result m'
  | unlockedLast : m.owner = pid → m.count = 1 → result = .released → m'.owner = unlocked →
      m'.count = 0 → MutexEffect m pid result m'
  | unnested : m.owner = pid → m.count ≠ 1 → result = .released → m'.owner = m.owner →
      m'.count = wrappingPred m.count → MutexEffect m pid result m'
  | refused : result ≠ .acquired → result ≠ .released → m'.owner = m.owner → m'.count = m.count →
      MutexEffect m pid result m'

/-- An operation keeps the kind of the mutex and whether it is destroyed. -/
def SameKind (m m' : MutexLock) : Prop := m'.recursive = m.recursive ∧ m'.valid = m.valid

theorem tryAcquire_effect (m : MutexLock) (pid : Pid) :
    MutexEffect m pid (m.tryAcquire pid).1 (m.tryAcquire pid).2 ∧ SameKind m (m.tryAcquire pid).2 := by
  rw [MutexLock.tryAcquire]
  split
  · exact ⟨.refused (fun h => by cases h) (fun h => by cases h) rfl rfl, rfl, rfl⟩
  · split
    · next hfree => exact ⟨.taken hfree rfl rfl rfl, rfl, rfl⟩
    · next hheld =>
      split
      · next howner =>
        split
        · next hrec => exact ⟨.nested hheld howner hrec rfl rfl rfl, rfl, rfl⟩
        · exact ⟨.refused (fun h => by cases h) (fun h => by cases h) rfl rfl, rfl, rfl⟩
      · exact ⟨.refused (fun h => by cases h) (fun h => by cases h) rfl rfl, rfl, rfl⟩

/-- Only the count of the waiters tells an acquire from a try. -/
theorem acquire_eq (m : MutexLock) (pid : Pid) :
    (m.acquire pid).1 = (m.tryAcquire pid).1 ∧ (m.acquire pid).2.owner = (m.tryAcquire pid).2.owner ∧
      (m.acquire pid).2.count = (m.tryAcquire pid).2.count ∧
        SameKind (m.tryAcquire pid).2 (m.acquire pid).2 := by
  rw [MutexLock.acquire]
  split
  · next hvalid =>
    rw [MutexLock.tryAcquire, if_pos hvalid]
    exact ⟨rfl, rfl, rfl, rfl, rfl⟩
  · split
    -- the one result that counts a waiter
    · next hblocked =>
      rw [hblocked]
      exact ⟨rfl, rfl, rfl, rfl, rfl⟩
    · exact ⟨rfl, rfl, rfl, rfl, rfl⟩

theorem acquire_effect (m : MutexLock) (pid : Pid) :
    MutexEffect m pid (m.acquire pid).1 (m.acquire pid).2 ∧ SameKind m (m.acquire pid).2 := by
  obtain ⟨hresult, howner, hcount, hkind⟩ := acquire_eq m pid
  obtain ⟨heffect, hsame⟩ := tryAcquire_effect m pid
  refine ⟨?_, hkind.1.trans hsame.1, hkind.2.trans hsame.2⟩
  -- owner, count and result are those of the try
  cases heffect with
  | taken hfree hr ho hc => exact .taken hfree (hresult.trans hr) (howner.trans ho) (hcount.trans hc)
  | nested hheld hpid hrec hr ho hc =>
    exact .nested hheld hpid hrec (hresult.trans hr) (howner.trans ho) (hcount.trans hc)
  | unlockedLast hpid hone hr ho hc =>
    exact .unlockedLast hpid hone (hresult.trans hr) (howner.trans ho) (hcount.trans hc)
  | unnested hpid hmany hr ho hc =>
    exact .unnested hpid hmany (hresult.trans hr) (howner.trans ho) (hcount.trans hc)
  | refused hna hnr ho hc =>
    exact .refused (hresult ▸ hna) (hresult ▸ hnr) (howner.trans ho) (hcount.trans hc)

theorem release_effect (m : MutexLock) (pid : Pid) :
    MutexEffect m pid (m.release pid).1 (m.release pid).2 ∧ SameKind m (m.release pid).2 := by
  rw [MutexLock.release]
  split
  · exact ⟨.refused (fun h => by cases h) (fun h => by cases h) rfl rfl, rfl, rfl⟩
  · split
    · exact ⟨.refused (fun h => by cases h) (fun h => by cases h) rfl rfl, rfl, rfl⟩
    · next howner =>
      have hpid := not_not.1 howner
      split
      · next hone => exact ⟨.unlockedLast hpid hone rfl rfl rfl, rfl, rfl⟩
      · next hmany => exact ⟨.unnested hpid hmany rfl rfl rfl, rfl, rfl⟩

theorem perform_effect (m : MutexLock) (op : MutexOp) :
    MutexEffect m op.pid (m.perform op).1 (m.perform op).2 ∧ SameKind m (m.perform op).2 := by
  cases op with
  | tryAcquire pid => exact tryAcquire_effect m pid
  | acquire pid => exact acquire_effect m pid
  | release pid => exact release_effect m pid

/-- Results other than these two leave owner and count alone. -/
theorem kept_of_result (m : MutexLock) (op : MutexOp) (hacquired : (m.perform op).1 ≠ .acquired)
    (hreleased : (m.perform op).1 ≠ .released) :
    (m.perform op).2.owner = m.owner ∧ (m.perform op).2.count = m.count := by
  cases (perform_effect m op).1 with
  | taken _ hr _ _ => exact absurd hr hacquired
  | nested _ _ _ hr _ _ => exact absurd hr hacquired
  | unlockedLast _ _ hr _ _ => exact absurd hr hreleased
  | unnested _ _ hr _ _ => exact absurd hr hreleased
  | refused _ _ ho hc => exact ⟨ho, hc⟩

section Nesting

variable {n : Nesting} {m : MutexLock} {op : MutexOp}

/-- After an acquire, the process has one more, and all others have what they had. -/
theorem after_acquired (m' : MutexLock) (h : (m.perform op).1 = .acquired) (pid : Pid) :
    (n.after ⟨m, op, m'⟩).acquired pid = (if pid = op.pid then n.acquired pid + 1 else n.acquired pid) ∧
      (n.after ⟨m, op, m'⟩).released pid = n.released pid := by
  rw [Nesting.after, h]
  simp only [Function.update_apply]
  split
  · next heq =>
    subst heq
    exact ⟨rfl, trivial⟩
  · exact ⟨rfl, trivial⟩

theorem after_released (m' : MutexLock) (h : (m.perform op).1 = .released) (pid : Pid) :
    (n.after ⟨m, op, m'⟩).released pid = (if pid = op.pid then n.released pid + 1 else n.released pid) ∧
      (n.after ⟨m, op, m'⟩).acquired pid = n.acquired pid := by
  rw [Nesting.after, h]
  simp only [Function.update_apply]
  split
  · next heq =>
    subst heq
    exact ⟨rfl, trivial⟩
  · exact ⟨rfl, trivial⟩

theorem after_refused (m' : MutexLock) (hacquired : (m.perform op).1 ≠ .acquired)
    (hreleased : (m.perform op).1 ≠ .released) : n.after ⟨m, op, m'⟩ = n := by
  rw [Nesting.after]
  cases hresult : (m.perform op).1 with
  | acquired => exact absurd hresult hacquired
  | released => exact absurd hresult hreleased
  | wouldBlock => rfl
  | notOwner => rfl
  | deadlock => rfl
  | invalid => rfl

/-- Who is not the owner is not the process that is. -/
theorem ne_of_not_owner {owner : Nat} {pid pid' : Pid} (hnot : owner ≠ pid ∨ pid = unlocked)
    (howner : owner = pid') (hpid : pid' ≠ unlocked) : pid ≠ pid' := by
  rintro rfl
  rcases hnot with hnot | hnot
  · exact hnot howner
  · exact hpid hnot

/-- The owner is nested once more or once less, and stays the owner. -/
theorem Nested.recount (h : Nested n m) {n' : Nesting} {m' : MutexLock} {pid : Pid}
    (hpid : pid ≠ unlocked) (howner : m.owner = pid) (hsame : m'.owner = m.owner)
    (hmine : n'.acquired pid = n'.released pid + m'.count)
    (hothers : ∀ q, q ≠ pid → n'.acquired q = n.acquired q ∧ n'.released q = n.released q)
    (hpos : 1 ≤ m'.count) (hplain : m'.recursive = false → m'.count ≤ 1) (hvalid : m'.valid = true) :
    Nested n' m' := by
  have howner' := hsame.trans howner
  refine ⟨?_, ?_, fun _ => hpos, ?_, hplain, hvalid⟩
  · intro q hown _
    -- the owner is the process itself
    have heq : q = pid := hown.symm.trans howner'
    rw [heq]
    exact hmine
  · intro q hnot
    obtain ⟨hacquired, hreleased⟩ := hothers q (ne_of_not_owner hnot howner' hpid)
    rw [hacquired, hreleased]
    apply h.others q
    exact hnot.imp_left fun hne => hsame ▸ hne
  · intro hlocked
    exact absurd (howner'.symm.trans hlocked) hpid

/-- With no owner, nobody is nested. -/
theorem Nested.free (h : Nested n m) (hfree : m.owner = unlocked) (pid : Pid) :
    n.acquired pid = n.released pid := by
  by_cases hsentinel : pid = unlocked
  · exact h.others pid (Or.inr hsentinel)
  · exact h.others pid (Or.inl fun heq => hsentinel (heq.symm.trans hfree))

/-- A process becomes the owner, once. -/
theorem Nested.take (h : Nested n m) {n' : Nesting} {m' : MutexLock} {pid : Pid} (hpid : pid ≠ unlocked)
    (hfree : m.owner = unlocked) (howner : m'.owner = pid) (hcount : m'.count = 1)
    (hmine : n'.acquired pid = n.acquired pid + 1 ∧ n'.released pid = n.released pid)
    (hothers : ∀ q, q ≠ pid → n'.acquired q = n.acquired q ∧ n'.released q = n.released q)
    (hvalid : m'.valid = true) : Nested n' m' := by
  refine ⟨?_, ?_, ?_, ?_, ?_, hvalid⟩
  · intro q hown _
    have heq : q = pid := hown.symm.trans howner
    rw [heq, hmine.1, hmine.2, hcount, h.free hfree]
  · intro q hnot
    obtain ⟨hacquired, hreleased⟩ := hothers q (ne_of_not_owner hnot howner hpid)
    rw [hacquired, hreleased, h.free hfree]
  · intro _
    rw [hcount]
  · intro hlocked
    exact absurd (howner.symm.trans hlocked) hpid
  · intro _
    rw [hcount]

/-- The owner gives up its last one. -/
theorem Nested.leave (h : Nested n m) {n' : Nesting} {m' : MutexLock} {pid : Pid}
    (howner : m.owner = pid) (hfree : m'.owner = unlocked) (hcount : m'.count = 0)
    (hmine : n'.acquired pid = n'.released pid)
    (hothers : ∀ q, q ≠ pid → n'.acquired q = n.acquired q ∧ n'.released q = n.released q)
    (hvalid : m'.valid = true) : Nested n' m' := by
  refine ⟨?_, ?_, ?_, fun _ => hcount, ?_, hvalid⟩
  · intro q hown hsentinel
    exact absurd (hown.symm.trans hfree) hsentinel
  · intro q _
    by_cases hself : q = pid
    · rw [hself]
      exact hmine
    · obtain ⟨hacquired, hreleased⟩ := hothers q hself
      rw [hacquired, hreleased]
      exact h.others q (Or.inl fun heq => hself (heq.symm.trans howner))
  · intro hlocked
    exact absurd hfree hlocked
  · intro _
    rw [hcount]
    exact Nat.zero_le 1

/-- One operation keeps the nesting. -/
theorem nested_step (h : Nested n m) (hok : Nestable n ⟨m, op, (m.perform op).2⟩) :
    Nested (n.after ⟨m, op, (m.perform op).2⟩) (m.perform op).2 := by
  obtain ⟨heffect, hrec, hvalid⟩ := perform_effect m op
  obtain ⟨hpid, hword⟩ := hok
  have hstill := hvalid.trans h.valid
  cases heffect with
  | taken hfree hresult howner hcount =>
    have hafter := after_acquired (n := n) (m.perform op).2 hresult
    apply h.take hpid hfree howner hcount _ _ hstill
    · rw [(hafter op.pid).1, (hafter op.pid).2, if_pos rfl]
      exact ⟨rfl, rfl⟩
    · intro q hother
      rw [(hafter q).1, (hafter q).2, if_neg hother]
      exact ⟨rfl, rfl⟩
  | nested hheld howner hrecursive hresult hsame hcount =>
    have hafter := after_acquired (n := n) (m.perform op).2 hresult
    have hmine := h.owner op.pid howner hpid
    -- the nesting fits into the count, so that the count does not wrap
    have hfits : (m.perform op).2.count = m.count + 1 := by
      have hexcess : (n.after ⟨m, op, (m.perform op).2⟩).excess op.pid = m.count + 1 := by
        rw [Nesting.excess, (hafter op.pid).1, (hafter op.pid).2, if_pos rfl]
        omega
      rw [hcount]
      apply Nat.mod_eq_of_lt
      rw [← hexcess]
      exact hword
    apply h.recount hpid howner hsame _ _ _ _ hstill
    · rw [(hafter op.pid).1, (hafter op.pid).2, if_pos rfl, hfits, hmine]
      omega
    · intro q hother
      rw [(hafter q).1, (hafter q).2, if_neg hother]
      exact ⟨rfl, rfl⟩
    · rw [hfits]
      exact Nat.le_add_left 1 _
    · intro hplain
      rw [hrec, hrecursive] at hplain
      cases hplain
  | unlockedLast howner hone hresult hfree hcount =>
    have hafter := after_released (n := n) (m.perform op).2 hresult
    have hmine := h.owner op.pid howner hpid
    apply h.leave howner hfree hcount _ _ hstill
    · rw [(hafter op.pid).1, (hafter op.pid).2, if_pos rfl, hmine, hone]
    · intro q hother
      rw [(hafter q).1, (hafter q).2, if_neg hother]
      exact ⟨rfl, rfl⟩
  | unnested howner hmany hresult hsame hcount =>
    have hafter := after_released (n := n) (m.perform op).2 hresult
    have hmine := h.owner op.pid howner hpid
    have hpos := h.count_pos (howner ▸ hpid)
    -- the owner holds it more than once, so that nothing wraps
    have hless : (m.perform op).2.count = m.count - 1 := by
      rw [hcount, wrappingPred, if_neg (by omega)]
    apply h.recount hpid howner hsame _ _ _ _ hstill
    · rw [(hafter op.pid).1, (hafter op.pid).2, if_pos rfl, hless, hmine]
      omega
    · intro q hother
      rw [(hafter q).1, (hafter q).2, if_neg hother]
      exact ⟨rfl, rfl⟩
    · omega
    · intro hplain
      have hsmall := h.plain (hrec.symm.trans hplain)
      omega
  -- neither the history nor the mutex changes
  | refused hacquired hreleased howner hcount =>
    rw [after_refused _ hacquired hreleased]
    refine ⟨?_, ?_, ?_, ?_, ?_, hstill⟩
    · rw [howner, hcount]
      exact h.owner
    · rw [howner]
      exact h.others
    · rw [howner, hcount]
      exact h.count_pos
    · rw [howner, hcount]
      exact h.count_zero
    · rw [hrec, hcount]
      exact h.plain

theorem nested_new (id : LockId) (creatorPid : Pid) (recursive : Bool) :
    Nested ⟨fun _ => 0, fun _ => 0⟩ (MutexLock.new id creatorPid recursive) := by
  refine ⟨?_, fun _ _ => rfl, ?_, fun _ => rfl, fun _ => Nat.zero_le 1, rfl⟩
  · intro pid howner hpid
    exact absurd howner.symm hpid
  · intro hlocked
    exact absurd rfl hlocked

/-- The owner is the process with an excess, and the count is this excess. -/
theorem Nested.ownerOf_iff (h : Nested n m) (pid : Pid) :
    m.ownerOf = some pid ↔ n.released pid < n.acquired pid := by
  rw [MutexLock.ownerOf]
  split
  · next hfree =>
    -- nobody owns it, and nobody has an excess
    have hequal := h.free hfree pid
    apply iff_of_false
    · intro hsome
      cases hsome
    · rw [hequal]
      exact Nat.lt_irrefl _
  · next hheld =>
    constructor
    · intro howner
      cases howner
      have hmine := h.owner m.owner rfl hheld
      have hpos := h.count_pos hheld
      omega
    · intro hexcess
      by_contra hnot
      have hequal := h.others pid (Or.inl fun heq => hnot (congrArg some heq))
      omega

end Nesting

/-- A new mutex after some operations. -/
def lockAfter (id : LockId) (creatorPid : Pid) (recursive : Bool) (ops : List MutexOp) : MutexLock :=
  (runTrace MutexLock.transition (MutexLock.new id creatorPid recursive) ops).1

/-- The transitions on the way there. -/
def lockTrace (id : LockId) (creatorPid : Pid) (recursive : Bool) (ops : List MutexOp) :
    List (Transition MutexLock MutexOp) :=
  (MutexLock.new id creatorPid recursive).traceOf ops

/-- Nobody has acquired or released anything. -/
def Nesting.none : Nesting := ⟨fun _ => 0, fun _ => 0⟩

theorem nested_run (id : LockId) (creatorPid : Pid) (recursive : Bool) (ops : List MutexOp)
    (h : Along Nesting.after Nestable .none (lockTrace id creatorPid recursive ops)) :
    Nested (history Nesting.after .none (lockTrace id creatorPid recursive ops))
      (lockAfter id creatorPid recursive ops) := by
  have hsingle : Chain (MutexLock.new id creatorPid recursive) (lockTrace id creatorPid recursive ops)
      (lockAfter id creatorPid recursive ops) ∧
        ∀ t ∈ lockTrace id creatorPid recursive ops, t.post = (t.pre.perform t.act).2 :=
    runTrace_single (fun _ _ => rfl) _ ops
  have hstep : ∀ t ∈ lockTrace id creatorPid recursive ops, ∀ n : Nesting, Nestable n t →
      Nested n t.pre → Nested (n.after t) t.post := by
    intro t ht n hok hnested
    obtain ⟨pre, op, post⟩ := t
    have hpost : post = (pre.perform op).2 := hsingle.2 _ ht
    subst hpost
    exact nested_step hnested hok
  -- the history and the mutex go along together
  exact (hsingle.1.coupled (nested_new id creatorPid recursive) h hstep).1

/-- The owner is the one process whose acquires exceed its releases, and the count is the excess. -/
structure CountsNesting (n : Nesting) (m : MutexLock) : Prop where
  owner_iff : ∀ pid, m.ownerOf = some pid ↔ n.released pid < n.acquired pid
  count_eq : ∀ pid, m.ownerOf = some pid → n.acquired pid = n.released pid + m.count
  count_zero : m.ownerOf = none → m.count = 0
  one_owner : ∀ pid pid', n.released pid < n.acquired pid → n.released pid' < n.acquired pid' → pid = pid'

theorem Nested.countsNesting {n : Nesting} {m : MutexLock} (h : Nested n m) : CountsNesting n m := by
  refine ⟨h.ownerOf_iff, ?_, ?_, ?_⟩
  · intro pid howner
    rw [MutexLock.ownerOf] at howner
    split at howner
    · cases howner
    · next hheld =>
      cases howner
      exact h.owner _ rfl hheld
  · intro hnone
    apply h.count_zero
    rw [MutexLock.ownerOf] at hnone
    split at hnone
    · next hfree => exact hfree
    · cases hnone
  · intro pid pid' hexcess hexcess'
    have hmine := (h.ownerOf_iff pid).2 hexcess
    rw [(h.ownerOf_iff pid').2 hexcess'] at hmine
    cases hmine
    rfl

/-- Any operations on a new mutex are counted; a plain mutex is not nested; and the results other than
these two leave owner and count alone. -/
theorem nesting_counted (id : LockId) (creatorPid : Pid) (recursive : Bool) (ops : List MutexOp)
    (h : Along Nesting.after Nestable .none (lockTrace id creatorPid recursive ops)) :
    CountsNesting (history Nesting.after .none (lockTrace id creatorPid recursive ops))
        (lockAfter id creatorPid recursive ops) ∧
      (recursive = false → (lockAfter id creatorPid recursive ops).count ≤ 1) ∧
      ∀ t ∈ lockTrace id creatorPid recursive ops,
        (t.pre.perform t.act).1 ≠ .acquired → (t.pre.perform t.act).1 ≠ .released →
          (t.pre.perform t.act).2.owner = t.pre.owner ∧ (t.pre.perform t.act).2.count = t.pre.count := by
  have hnested := nested_run id creatorPid recursive ops h
  have hkind : (lockAfter id creatorPid recursive ops).recursive = recursive :=
    runTrace_invariant (I := fun m : MutexLock => m.recursive = recursive)
      (fun m op hm => (perform_effect m op).2.1.trans hm) rfl ops
  refine ⟨hnested.countsNesting, ?_, ?_⟩
  · intro hplain
    exact hnested.plain (hkind.trans hplain)
  · intro t _ hacquired hreleased
    exact kept_of_result t.pre t.act hacquired hreleased

/-- A process takes a recursive mutex twice while another one waits, and releases it once. -/
def takenTwice : List MutexOp := [.tryAcquire 100, .acquire 200, .tryAcquire 100, .release 100]

theorem takenTwice_counted :
    Along Nesting.after Nestable .none (lockTrace 1 100 true takenTwice) ∧
    CountsNesting (history Nesting.after .none (lockTrace 1 100 true takenTwice))
        (lockAfter 1 100 true takenTwice) ∧
      (true = false → (lockAfter 1 100 true takenTwice).count ≤ 1) ∧
      ∀ t ∈ lockTrace 1 100 true takenTwice,
        (t.pre.perform t.act).1 ≠ .acquired → (t.pre.perform t.act).1 ≠ .released →
          (t.pre.perform t.act).2.owner = t.pre.owner ∧ (t.pre.perform t.act).2.count = t.pre.count := by
  have hnest : Along Nesting.after Nestable .none (lockTrace 1 100 true takenTwice) := by
    refine ⟨⟨?_, ?_⟩, ⟨?_, ?_⟩, ⟨?_, ?_⟩, ⟨?_, ?_⟩, trivial⟩
    all_goals decide
  exact ⟨hnest, nesting_counted 1 100 true takenTwice hnest⟩

end GenshinOs.Process
