import Mathlib.Tactic

/-!
# Bitmaps and first fit

A bitmap is a list of 64-bit words; a set bit means that its number is in use. A number beyond the
words counts as free. `findRun` looks for the first run of free numbers of a given length, in one
pass; `findRun_spec`, `findRun_least` and `findRun_eq_none` say what it finds.
-/

set_option autoImplicit false

namespace GenshinOs.Lib

/-- Bits by number, 64 to a word. -/
abbrev Bitmap := List UInt64

namespace Bitmap

/-- The word with one bit set. -/
def bit (n : Nat) : UInt64 := (1 : UInt64) <<< UInt64.ofNat (n % 64)

/-- Set a bit. -/
def markUsed (b : Bitmap) (n : Nat) : Bitmap := b.modify (n / 64) (· ||| bit n)

/-- Clear a bit. -/
def markFree (b : Bitmap) (n : Nat) : Bitmap := b.modify (n / 64) (· &&& ~~~(bit n))

/-- The bit is clear. Behind the last word every bit is. -/
def isFree (b : Bitmap) (n : Nat) : Bool :=
  match b[n / 64]? with
  | none => true
  | some word => word &&& bit n == 0

/-- Set the bits of a range. -/
def markUsedRange (b : Bitmap) (start count : Nat) : Bitmap :=
  (List.range' start count).foldl markUsed b

/-- Clear the bits of a range, where `keep` allows it. -/
def markFreeRange (b : Bitmap) (keep : Nat → Bool) (start count : Nat) : Bitmap :=
  (List.range' start count).foldl (fun b n => if keep n then b else b.markFree n) b

theorem toBitVec_bit (n : Nat) : (bit n).toBitVec = BitVec.twoPow 64 (n % 64) := by
  have hall : ∀ k : Fin 64, ((1 : UInt64) <<< UInt64.ofNat k.val).toBitVec =
      BitVec.twoPow 64 k.val := by decide
  exact hall ⟨n % 64, Nat.mod_lt n (by decide)⟩

theorem getLsbD_bit (n i : Nat) : (bit n).toBitVec.getLsbD i = decide (i = n % 64) := by
  have hlt : n % 64 < 64 := Nat.mod_lt n (by decide)
  rw [toBitVec_bit, BitVec.getLsbD_twoPow]
  simp [hlt, eq_comm]

/-- A number is free when its bit is clear. -/
theorem isFree_eq (b : Bitmap) (n : Nat) :
    b.isFree n = ((b[n / 64]?).map fun word => !word.toBitVec.getLsbD (n % 64)).getD true := by
  rw [isFree]
  cases b[n / 64]? with
  | none => rfl
  | some word =>
    have hzero : word &&& bit n = 0 ↔ word.toBitVec.getLsbD (n % 64) = false := by
      rw [← UInt64.toBitVec_inj, UInt64.toBitVec_and, toBitVec_bit, BitVec.and_twoPow]
      constructor
      · intro h
        by_contra htrue
        rw [if_pos (by simpa using htrue)] at h
        have hbit := congrArg (fun x => x.getLsbD (n % 64)) h
        simp [Nat.mod_lt n (show 0 < 64 by decide)] at hbit
      · intro h
        rw [h]
        rfl
    by_cases hbit : word.toBitVec.getLsbD (n % 64) = false
    · simp [hzero.2 hbit, hbit]
    · have hne : word &&& bit n ≠ 0 := fun h => hbit (hzero.1 h)
      simp [hne, hbit]

/-- Two numbers with the same word and the same bit are the same. -/
theorem eq_of_word_bit {n k : Nat} (hword : n / 64 = k / 64) (hbit : n % 64 = k % 64) : n = k := by
  omega

theorem isFree_markUsed (b : Bitmap) (n k : Nat) :
    (b.markUsed n).isFree k = if k = n ∧ n / 64 < b.length then false else b.isFree k := by
  rw [isFree_eq, isFree_eq, markUsed, List.getElem?_modify]
  by_cases hword : n / 64 = k / 64
  · cases hget : b[k / 64]? with
    | none =>
      have hlen := List.getElem?_eq_none_iff.1 hget
      rw [if_neg (by omega)]
      simp
    | some word =>
      have hlen := (List.getElem?_eq_some_iff.1 hget).1
      by_cases hk : k = n
      · subst hk
        rw [if_pos ⟨rfl, hlen⟩]
        simp [getLsbD_bit]
      · have hbit : k % 64 ≠ n % 64 := fun h => hk (eq_of_word_bit hword.symm h)
        rw [if_neg (fun h => hk h.1)]
        simp [hword, getLsbD_bit, hbit]
  · rw [if_neg (by rintro ⟨rfl, -⟩; exact hword rfl)]
    simp [hword]

theorem isFree_markFree (b : Bitmap) (n k : Nat) :
    (b.markFree n).isFree k = if k = n then true else b.isFree k := by
  rw [isFree_eq, isFree_eq, markFree, List.getElem?_modify]
  by_cases hword : n / 64 = k / 64
  · cases hget : b[k / 64]? with
    | none => simp
    | some word =>
      by_cases hk : k = n
      · subst hk
        rw [if_pos rfl]
        simp [getLsbD_bit]
      · have hbit : k % 64 ≠ n % 64 := fun h => hk (eq_of_word_bit hword.symm h)
        have hlt : ¬64 ≤ k % 64 := Nat.not_le.2 (Nat.mod_lt k (by decide))
        rw [if_neg hk]
        simp [hword, getLsbD_bit, hbit, hlt]
  · rw [if_neg (by rintro rfl; exact hword rfl)]
    simp [hword]

theorem length_markUsed (b : Bitmap) (n : Nat) : (b.markUsed n).length = b.length := by
  simp [markUsed]

theorem length_markFree (b : Bitmap) (n : Nat) : (b.markFree n).length = b.length := by
  simp [markFree]

theorem length_markUsedRange (b : Bitmap) (start count : Nat) :
    (b.markUsedRange start count).length = b.length := by
  rw [markUsedRange]
  induction List.range' start count generalizing b with
  | nil => rfl
  | cons n ns ih => rw [List.foldl_cons, ih, length_markUsed]

theorem length_markFreeRange (b : Bitmap) (keep : Nat → Bool) (start count : Nat) :
    (b.markFreeRange keep start count).length = b.length := by
  rw [markFreeRange]
  induction List.range' start count generalizing b with
  | nil => rfl
  | cons n ns ih =>
    rw [List.foldl_cons, ih]
    split
    · rfl
    · exact length_markFree b n

/-- Exactly the numbers of the range become used. -/
theorem isFree_markUsedRange (b : Bitmap) {start count : Nat} (k : Nat)
    (hlen : ∀ n, start ≤ n → n < start + count → n / 64 < b.length) :
    (b.markUsedRange start count).isFree k =
      if start ≤ k ∧ k < start + count then false else b.isFree k := by
  induction count generalizing start b with
  | zero =>
    rw [if_neg (by omega)]
    rfl
  | succ count ih =>
    have hstep : b.markUsedRange start (count + 1) =
        (b.markUsed start).markUsedRange (start + 1) count := rfl
    rw [hstep, ih (b.markUsed start) (by
      intro n hn hlt
      rw [length_markUsed]
      exact hlen n (by omega) (by omega)), isFree_markUsed]
    have hfirst := hlen start (Nat.le_refl _) (by omega)
    by_cases hin : start + 1 ≤ k ∧ k < start + 1 + count
    · rw [if_pos hin, if_pos (by omega)]
    · rw [if_neg hin]
      by_cases hk : k = start
      · rw [if_pos ⟨hk, hfirst⟩, if_pos (by omega)]
      · rw [if_neg (fun h => hk h.1), if_neg (by omega)]

/-- Exactly the numbers of the range that are not kept become free. -/
theorem isFree_markFreeRange (b : Bitmap) (keep : Nat → Bool) (start count k : Nat) :
    (b.markFreeRange keep start count).isFree k =
      if start ≤ k ∧ k < start + count ∧ keep k = false then true else b.isFree k := by
  induction count generalizing start b with
  | zero =>
    rw [if_neg (by omega)]
    rfl
  | succ count ih =>
    have hstep : b.markFreeRange keep start (count + 1) =
        (if keep start then b else b.markFree start).markFreeRange keep (start + 1) count := rfl
    have hfirst : (if keep start then b else b.markFree start).isFree k =
        if k = start ∧ keep start = false then true else b.isFree k := by
      cases hkeep : keep start with
      | true => simp
      | false =>
        rw [if_neg (by simp), isFree_markFree]
        simp
    rw [hstep, ih, hfirst]
    by_cases hin : start + 1 ≤ k ∧ k < start + 1 + count ∧ keep k = false
    · rw [if_pos hin, if_pos ⟨by omega, by omega, hin.2.2⟩]
    · rw [if_neg hin]
      by_cases hk : k = start ∧ keep start = false
      · rw [if_pos hk, if_pos ⟨by omega, by omega, by rw [hk.1]; exact hk.2⟩]
      · rw [if_neg hk, if_neg]
        rintro ⟨hle, hlt, hkeep⟩
        rcases Nat.eq_or_lt_of_le hle with heq | hlt'
        · exact hk ⟨heq.symm, by rw [heq]; exact hkeep⟩
        · exact hin ⟨hlt', by omega, hkeep⟩

end Bitmap

/-! ## First fit -/

/-- One pass over `n` numbers from `s` on; the current run of free numbers began at `runStart` and has
`runLen` of them so far. -/
def findRun (free : Nat → Bool) (count : Nat) : Nat → Nat → Nat → Nat → Option Nat
  | 0, _, _, _ => none
  | n + 1, s, runStart, runLen =>
    if free s then
      let runStart := if runLen = 0 then s else runStart
      if runLen + 1 ≥ count then some runStart
      else findRun free count n (s + 1) runStart (runLen + 1)
    else findRun free count n (s + 1) runStart 0

/-- A run of free numbers. -/
def FreeRun (free : Nat → Bool) (start count : Nat) : Prop :=
  ∀ n, start ≤ n → n < start + count → free n = true

section findRun

variable {free : Nat → Bool} {count : Nat}

theorem findRun_free {n s runStart runLen : Nat} (h : free s = true) :
    findRun free count (n + 1) s runStart runLen =
      if runLen + 1 ≥ count then some (if runLen = 0 then s else runStart)
      else findRun free count n (s + 1) (if runLen = 0 then s else runStart) (runLen + 1) := by
  simp only [findRun, h, if_true]

theorem findRun_used {n s runStart runLen : Nat} (h : ¬free s = true) :
    findRun free count (n + 1) s runStart runLen = findRun free count n (s + 1) runStart 0 := by
  simp only [findRun, h, if_false, Bool.false_eq_true]

/-- What is found is a free run inside the range. -/
theorem findRun_spec {n s runStart runLen r : Nat} (hrun : FreeRun free runStart runLen)
    (hend : 0 < runLen → runStart + runLen = s) (h : findRun free count n s runStart runLen = some r) :
    FreeRun free r count ∧ r + count ≤ s + n ∧ (if runLen = 0 then s ≤ r else runStart ≤ r) := by
  induction n generalizing s runStart runLen with
  | zero => cases h
  | succ n ih =>
    by_cases hfree : free s = true
    · rw [findRun_free hfree] at h
      -- the run grows by `s`
      have hgrown : FreeRun free (if runLen = 0 then s else runStart) (runLen + 1) := by
        intro k hle hlt
        split at hle
        · next hzero =>
          rw [if_pos hzero] at hlt
          rw [show k = s by omega]
          exact hfree
        · next hpos =>
          rw [if_neg hpos] at hlt
          rcases Nat.lt_or_ge k (runStart + runLen) with hk | hk
          · exact hrun k hle hk
          · rw [show k = s by have := hend (by omega); omega]
            exact hfree
      have hstart : (if runLen = 0 then s else runStart) + (runLen + 1) = s + 1 := by
        split
        · omega
        · have := hend (by omega)
          omega
      by_cases hcount : runLen + 1 ≥ count
      · rw [if_pos hcount] at h
        cases h
        refine ⟨fun k hle hlt => hgrown k hle (by omega), by omega, ?_⟩
        split
        · exact Nat.le_refl _
        · exact Nat.le_refl _
      · rw [if_neg hcount] at h
        obtain ⟨hr, hle, hlow⟩ := ih hgrown (fun _ => hstart) h
        rw [if_neg (by omega)] at hlow
        refine ⟨hr, by omega, ?_⟩
        split
        · next hzero => rwa [if_pos hzero] at hlow
        · next hpos => rwa [if_neg hpos] at hlow
    · rw [findRun_used hfree] at h
      have hempty : FreeRun free runStart 0 := by
        intro k hle hlt
        omega
      obtain ⟨hr, hle, hlow⟩ := ih hempty (by omega) h
      rw [if_pos rfl] at hlow
      refine ⟨hr, by omega, ?_⟩
      split
      · omega
      · have := hend (by omega)
        omega

/-- When nothing is found, there is no such run in the range. -/
theorem findRun_eq_none {n s runStart runLen : Nat} (hcount : 0 < count) (hlen : runLen < count)
    (hend : 0 < runLen → runStart + runLen = s)
    (h : findRun free count n s runStart runLen = none) {r : Nat}
    (hlow : if runLen = 0 then s ≤ r else runStart ≤ r) (hfit : r + count ≤ s + n) :
    ¬FreeRun free r count := by
  induction n generalizing s runStart runLen with
  | zero =>
    split at hlow
    · omega
    · have := hend (by omega)
      omega
  | succ n ih =>
    by_cases hfree : free s = true
    · rw [findRun_free hfree] at h
      by_cases hshort : runLen + 1 ≥ count
      · rw [if_pos hshort] at h
        cases h
      · rw [if_neg hshort] at h
        refine ih (by omega) ?_ h ?_ (by omega)
        · intro _
          split
          · omega
          · have := hend (by omega)
            omega
        · rw [if_neg (by omega)]
          split
          · next hzero => rwa [if_pos hzero] at hlow
          · next hpos => rwa [if_neg hpos] at hlow
    · rw [findRun_used hfree] at h
      -- a run that begins before `s + 1` would contain `s`
      rcases Nat.lt_or_ge s r with hr | hr
      · exact ih hcount (by omega) h (by rw [if_pos rfl]; exact hr) (by omega)
      · intro hrun
        refine hfree (hrun s hr ?_)
        split at hlow
        · omega
        · have := hend (by omega)
          omega

/-- No free run of the range begins before the one that is found. -/
theorem findRun_least {n s runStart runLen r : Nat} (hlen : runLen < count)
    (hend : 0 < runLen → runStart + runLen = s) (h : findRun free count n s runStart runLen = some r)
    {r' : Nat} (hlow : if runLen = 0 then s ≤ r' else runStart ≤ r') (hrun : FreeRun free r' count) :
    r ≤ r' := by
  induction n generalizing s runStart runLen with
  | zero => cases h
  | succ n ih =>
    by_cases hfree : free s = true
    · rw [findRun_free hfree] at h
      have hstart : (if runLen = 0 then s else runStart) ≤ r' := by
        split
        · next hzero => rwa [if_pos hzero] at hlow
        · next hpos => rwa [if_neg hpos] at hlow
      by_cases hcount : runLen + 1 ≥ count
      · rw [if_pos hcount] at h
        cases h
        exact hstart
      · rw [if_neg hcount] at h
        apply ih (by omega) _ h
        · rw [if_neg (Nat.succ_ne_zero runLen)]
          exact hstart
        · intro _
          split
          · omega
          · have := hend (by omega)
            omega
    · rw [findRun_used hfree] at h
      -- a run that began before `s + 1` would contain `s`
      have hlater : s < r' := by
        by_contra hle
        apply hfree
        apply hrun s (Nat.not_lt.1 hle)
        split at hlow
        · omega
        · have := hend (by omega)
          omega
      exact ih (by omega) (by omega) h (by rw [if_pos rfl]; exact hlater)

end findRun

end GenshinOs.Lib
