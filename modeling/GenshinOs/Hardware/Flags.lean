import GenshinOs.Hardware.Cpu

/-!
# Condition flags

What the flags say after an addition, a subtraction, a comparison or a multiplication
(`CPUFlags::from_result` in `src/hardware/cpu.rs`), next to the exact results on integers. Zero and sign
are always right. Carry and overflow come from one rule, which is that of additions: it is right for all
additions, for a subtraction or a comparison only when nothing is subtracted, and for some
multiplications. `flags_mean_iff` says for which operands.
-/

set_option autoImplicit false

namespace GenshinOs.Hardware

open GenshinOs.Lib

/-! ## Exact results -/

/-- Instructions whose flags are looked at. -/
inductive ArithOp where
  | add
  | sub
  | cmp
  | mul
  deriving DecidableEq

/-- A word as a signed number. -/
def signed (x : UInt64) : Int := x.toInt64.toInt

/-- The number is one of 64 bits without sign. -/
def FitsUnsigned (n : Int) : Prop := 0 ≤ n ∧ n < 2 ^ 64

/-- The number is one of 64 bits with sign. -/
def FitsSigned (n : Int) : Prop := -2 ^ 63 ≤ n ∧ n < 2 ^ 63

instance (n : Int) : Decidable (FitsUnsigned n) := inferInstanceAs (Decidable (_ ∧ _))

instance (n : Int) : Decidable (FitsSigned n) := inferInstanceAs (Decidable (_ ∧ _))

namespace ArithOp

/-- The instruction that computes the operation. -/
def instruction : ArithOp → Register → Operand → Instruction
  | add => .add
  | sub => .sub
  | cmp => .cmp
  | mul => .mul

/-- The exact result. -/
def exact : ArithOp → Int → Int → Int
  | add, a, b => a + b
  | sub, a, b => a - b
  | cmp, a, b => a - b
  | mul, a, b => a * b

/-- The 64 bits that the CPU computes. -/
def result : ArithOp → UInt64 → UInt64 → UInt64
  | add, a, b => a + b
  | sub, a, b => a - b
  | cmp, a, b => a - b
  | mul, a, b => a * b

end ArithOp

/-- The flags mean what they say about the exact result. -/
structure FlagsMean (op : ArithOp) (a b : UInt64) (flags : CPUFlags) : Prop where
  zero : flags.zero = true ↔ op.exact a.toNat b.toNat % 2 ^ 64 = 0
  sign : flags.sign = true ↔ 2 ^ 63 ≤ op.exact a.toNat b.toNat % 2 ^ 64
  carry : flags.carry = true ↔ ¬FitsUnsigned (op.exact a.toNat b.toNat)
  overflow : flags.overflow = true ↔ ¬FitsSigned (op.exact (signed a) (signed b))

/-- The carry of `b` additions of `a` is the carry of the last one. -/
def CarriesLast (a b : Nat) : Prop := a * b < 2 ^ 64 ∧ (b = 0 → a = 0) ∨ a * (b - 1) / 2 ^ 64 < a * b / 2 ^ 64

/-- A product overflows as the rule for sums says. Numbers of different signs never do by that rule,
others do when the sign bit of the product is not theirs. -/
def OverflowsLikeSum (a b : Int) : Prop :=
  (0 ≤ a → 0 ≤ b → a * b < 2 ^ 63 ∨ 2 ^ 63 ≤ a * b % 2 ^ 64) ∧
    (a < 0 → b < 0 → 2 ^ 63 ≤ a * b ∧ a * b % 2 ^ 64 < 2 ^ 63) ∧
    ((0 ≤ a ↔ b < 0) → -2 ^ 63 ≤ a * b)

/-- Operands for which all flags are right. -/
def ArithOp.Told : ArithOp → UInt64 → UInt64 → Prop
  | add, _, _ => True
  | sub, _, b => b = 0
  | cmp, _, b => b = 0
  | mul, a, b => CarriesLast a.toNat b.toNat ∧ OverflowsLikeSum (signed a) (signed b)

/-! ## The computed word -/

theorem signed_eq (x : UInt64) :
    signed x = if isNegative x = true then (x.toNat : Int) - 2 ^ 64 else (x.toNat : Int) := by
  have hint : signed x = if 2 * x.toNat < 2 ^ 64 then (x.toNat : Int) else (x.toNat : Int) - 2 ^ 64 :=
    BitVec.toInt_eq_toNat_cond x.toBitVec
  rw [hint, isNegative]
  by_cases hx : 2 ^ 63 ≤ x.toNat
  · rw [if_neg (by omega), if_pos (decide_eq_true hx)]
  · rw [if_pos (by omega), if_neg (by simpa using hx)]

theorem isNegative_iff (x : UInt64) : isNegative x = true ↔ signed x < 0 := by
  have hx := x.toNat_lt
  rw [signed_eq]
  split
  · next h =>
    refine iff_of_true h ?_
    omega
  · next h =>
    refine iff_of_false h ?_
    omega

/-- Signed or not, a word has the same 64 bits. -/
theorem signed_modEq (x : UInt64) : signed x ≡ x.toNat [ZMOD 2 ^ 64] := by
  rw [signed_eq]
  split
  · exact Int.sub_emod_right _ _
  · rfl

theorem exact_signed (op : ArithOp) (a b : UInt64) :
    op.exact (signed a) (signed b) ≡ op.exact a.toNat b.toNat [ZMOD 2 ^ 64] := by
  cases op with
  | add => exact (signed_modEq a).add (signed_modEq b)
  | sub => exact (signed_modEq a).sub (signed_modEq b)
  | cmp => exact (signed_modEq a).sub (signed_modEq b)
  | mul => exact (signed_modEq a).mul (signed_modEq b)

theorem toNat_result (op : ArithOp) (a b : UInt64) :
    ((op.result a b).toNat : Int) = op.exact a.toNat b.toNat % 2 ^ 64 := by
  have hb := b.toNat_lt
  have hsub : ((a - b).toNat : Int) = ((a.toNat : Int) - b.toNat) % 2 ^ 64 := by
    rw [UInt64.toNat_sub]
    omega
  cases op with
  | add =>
    rw [ArithOp.result, UInt64.toNat_add]
    rfl
  | sub => exact hsub
  | cmp => exact hsub
  | mul =>
    rw [ArithOp.result, UInt64.toNat_mul]
    push_cast
    rfl

theorem executed_flags (op : ArithOp) (cpu : VirtualCPU) (m : MMU) (dst : Register) (src : Operand) :
    (cpu.executeInstruction m (op.instruction dst src)).cpu.flags =
      CPUFlags.fromResult (op.result (cpu.readRegister dst) (cpu.readOperand src)) (cpu.readRegister dst)
        (cpu.readOperand src) := by
  cases op <;> rfl

/-! ## The rules -/

section rules

variable (op : ArithOp) (a b : UInt64)

theorem zero_iff : (CPUFlags.fromResult (op.result a b) a b).zero = true ↔
    op.exact a.toNat b.toNat % 2 ^ 64 = 0 := by
  rw [← toNat_result]
  simp [CPUFlags.fromResult, ← UInt64.toNat_inj]

theorem sign_iff : (CPUFlags.fromResult (op.result a b) a b).sign = true ↔
    2 ^ 63 ≤ op.exact a.toNat b.toNat % 2 ^ 64 := by
  rw [← toNat_result]
  simp only [CPUFlags.fromResult, isNegative, decide_eq_true_eq]
  omega

/-- The rule for the carry, on the numbers. -/
theorem carry_iff : (CPUFlags.fromResult (op.result a b) a b).carry = true ↔
    op.exact a.toNat b.toNat % 2 ^ 64 < a.toNat := by
  rw [← toNat_result]
  simp only [CPUFlags.fromResult, decide_eq_true_eq, UInt64.lt_iff_toNat_lt]
  omega

/-- The rule for the overflow, on the numbers. -/
theorem overflow_iff : (CPUFlags.fromResult (op.result a b) a b).overflow = true ↔
    (0 ≤ signed a ∧ 0 ≤ signed b ∧ 2 ^ 63 ≤ op.exact (signed a) (signed b) % 2 ^ 64) ∨
      (signed a < 0 ∧ signed b < 0 ∧ op.exact (signed a) (signed b) % 2 ^ 64 < 2 ^ 63) := by
  have hsign : isNegative (op.result a b) = true ↔ 2 ^ 63 ≤ op.exact (signed a) (signed b) % 2 ^ 64 := by
    rw [show op.exact (signed a) (signed b) % 2 ^ 64 = _ from exact_signed op a b]
    exact sign_iff op a b
  simp only [CPUFlags.fromResult, Bool.or_eq_true, Bool.and_eq_true, Bool.not_eq_true', ← Bool.not_eq_true,
    hsign, isNegative_iff, not_lt, not_le, and_assoc]

end rules

/-! ## Which operands -/

theorem signed_bounds (x : UInt64) : -2 ^ 63 ≤ signed x ∧ signed x < 2 ^ 63 := by
  have hx := x.toNat_lt
  rw [signed_eq, isNegative]
  split
  · next h =>
    have hle := of_decide_eq_true h
    omega
  · next h =>
    have hlt := of_decide_eq_false (eq_false_of_ne_true h)
    omega

/-- The rule for the carry is right for sums. -/
theorem add_carries {a b : Nat} (ha : a < 2 ^ 64) (hb : b < 2 ^ 64) :
    (a + b : Int) % 2 ^ 64 < a ↔ ¬FitsUnsigned (a + b) := by
  rw [FitsUnsigned]
  omega

/-- It is never right for a difference, except from nothing. -/
theorem sub_carries_iff {a b : Nat} (ha : a < 2 ^ 64) (hb : b < 2 ^ 64) :
    ((a - b : Int) % 2 ^ 64 < a ↔ ¬FitsUnsigned (a - b)) ↔ b = 0 := by
  rw [FitsUnsigned]
  omega

theorem mul_carries_iff {a b : Nat} (ha : a < 2 ^ 64) :
    ((a * b : Int) % 2 ^ 64 < a ↔ ¬FitsUnsigned (a * b)) ↔ CarriesLast a b := by
  rw [FitsUnsigned, CarriesLast, Nat.mul_sub_one]
  rw [show (a * b : Int) = ((a * b : Nat) : Int) by push_cast; rfl]
  cases b with
  | zero => simp
  | succ b =>
    have hle : a ≤ a * (b + 1) := Nat.le_mul_of_pos_right a (Nat.succ_pos b)
    generalize a * (b + 1) = product at hle ⊢
    omega

/-- The rule for the overflow is right for sums. -/
theorem add_overflows {a b : Int} (ha : -2 ^ 63 ≤ a ∧ a < 2 ^ 63) (hb : -2 ^ 63 ≤ b ∧ b < 2 ^ 63) :
    (0 ≤ a ∧ 0 ≤ b ∧ 2 ^ 63 ≤ (a + b) % 2 ^ 64) ∨ (a < 0 ∧ b < 0 ∧ (a + b) % 2 ^ 64 < 2 ^ 63) ↔
      ¬FitsSigned (a + b) := by
  rw [FitsSigned]
  omega

theorem mul_overflows_iff {a b : Int} :
    ((0 ≤ a ∧ 0 ≤ b ∧ 2 ^ 63 ≤ (a * b) % 2 ^ 64) ∨ (a < 0 ∧ b < 0 ∧ (a * b) % 2 ^ 64 < 2 ^ 63) ↔
      ¬FitsSigned (a * b)) ↔ OverflowsLikeSum a b := by
  rw [FitsSigned, OverflowsLikeSum]
  rcases le_or_gt 0 a with ha | ha
  · rcases le_or_gt 0 b with hb | hb
    · have hproduct : 0 ≤ a * b := mul_nonneg ha hb
      generalize a * b = product at hproduct ⊢
      omega
    · have hproduct : a * b ≤ 0 := mul_nonpos_of_nonneg_of_nonpos ha hb.le
      generalize a * b = product at hproduct ⊢
      omega
  · rcases le_or_gt 0 b with hb | hb
    · have hproduct : a * b ≤ 0 := mul_nonpos_of_nonpos_of_nonneg ha.le hb
      generalize a * b = product at hproduct ⊢
      omega
    · have hproduct : 0 < a * b := mul_pos_of_neg_of_neg ha hb
      generalize a * b = product at hproduct ⊢
      omega

/-- Nothing is subtracted, so that nothing can go wrong. -/
theorem sub_nothing {a : Int} (ha : -2 ^ 63 ≤ a ∧ a < 2 ^ 63) :
    (0 ≤ a ∧ 0 ≤ (0 : Int) ∧ 2 ^ 63 ≤ (a - 0) % 2 ^ 64) ∨
      (a < 0 ∧ (0 : Int) < 0 ∧ (a - 0) % 2 ^ 64 < 2 ^ 63) ↔ ¬FitsSigned (a - 0) := by
  rw [FitsSigned]
  omega

/-- Zero and sign are right for all operands. -/
theorem flagsMean_iff (op : ArithOp) (a b : UInt64) :
    FlagsMean op a b (CPUFlags.fromResult (op.result a b) a b) ↔
      (op.exact a.toNat b.toNat % 2 ^ 64 < a.toNat ↔ ¬FitsUnsigned (op.exact a.toNat b.toNat)) ∧
      ((0 ≤ signed a ∧ 0 ≤ signed b ∧ 2 ^ 63 ≤ op.exact (signed a) (signed b) % 2 ^ 64) ∨
        (signed a < 0 ∧ signed b < 0 ∧ op.exact (signed a) (signed b) % 2 ^ 64 < 2 ^ 63) ↔
          ¬FitsSigned (op.exact (signed a) (signed b))) := by
  rw [← carry_iff, ← overflow_iff]
  constructor
  · intro h
    exact ⟨h.carry, h.overflow⟩
  · rintro ⟨hcarry, hoverflow⟩
    exact ⟨zero_iff op a b, sign_iff op a b, hcarry, hoverflow⟩

theorem difference_told_iff (a b : UInt64) :
    (((a.toNat - b.toNat : Int) % 2 ^ 64 < a.toNat ↔ ¬FitsUnsigned (a.toNat - b.toNat)) ∧
      ((0 ≤ signed a ∧ 0 ≤ signed b ∧ 2 ^ 63 ≤ (signed a - signed b) % 2 ^ 64) ∨
        (signed a < 0 ∧ signed b < 0 ∧ (signed a - signed b) % 2 ^ 64 < 2 ^ 63) ↔
          ¬FitsSigned (signed a - signed b))) ↔ b = 0 := by
  rw [sub_carries_iff a.toNat_lt b.toNat_lt, show b.toNat = 0 ↔ b = 0 from UInt64.toNat_inj (b := 0)]
  constructor
  · rintro ⟨hb, -⟩
    exact hb
  · rintro rfl
    exact ⟨rfl, sub_nothing (signed_bounds a)⟩

/-- The flags after an instruction are right exactly for these operands. -/
theorem flags_mean_iff (op : ArithOp) (cpu : VirtualCPU) (m : MMU) (dst : Register) (src : Operand) :
    FlagsMean op (cpu.readRegister dst) (cpu.readOperand src)
        (cpu.executeInstruction m (op.instruction dst src)).cpu.flags ↔
      op.Told (cpu.readRegister dst) (cpu.readOperand src) := by
  rw [executed_flags, flagsMean_iff]
  generalize cpu.readRegister dst = a
  generalize cpu.readOperand src = b
  cases op with
  | add =>
    refine iff_of_true ⟨?_, ?_⟩ trivial
    · exact add_carries a.toNat_lt b.toNat_lt
    · exact add_overflows (signed_bounds a) (signed_bounds b)
  | sub => exact difference_told_iff a b
  | cmp => exact difference_told_iff a b
  | mul => exact and_congr (mul_carries_iff a.toNat_lt) mul_overflows_iff

/-- A comparison that borrows does not carry, one that does not borrow does, and minus one times minus one
overflows. -/
theorem flags_mean_otherwise :
    let m : MMU := ⟨∅, ⟨fun _ => 0, 0⟩, PageSize.fourK⟩
    let cpu := (VirtualCPU.new 1).writeRegister .r1 0xFFFFFFFFFFFFFFFF
    ¬FlagsMean .cmp 0 1 (cpu.executeInstruction m (.cmp .r0 (.imm 1))).cpu.flags ∧
      ¬FlagsMean .sub 0xFFFFFFFFFFFFFFFF 1 (cpu.executeInstruction m (.sub .r1 (.imm 1))).cpu.flags ∧
      ¬FlagsMean .mul 0xFFFFFFFFFFFFFFFF 0xFFFFFFFFFFFFFFFF
        (cpu.executeInstruction m (.mul .r1 (.reg .r1))).cpu.flags := by
  intro m cpu
  refine ⟨?_, ?_, ?_⟩
  · intro h
    exact absurd (h.carry.2 (by decide)) (by decide)
  · intro h
    exact absurd h.carry.1 (by decide)
  · intro h
    exact absurd h.overflow.1 (by decide)

end GenshinOs.Hardware
