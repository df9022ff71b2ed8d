import Mathlib.Tactic

/-!
# Page arithmetic on 64-bit addresses

A page size is a power of two. Rounding an address down to its page clears the low bits, and every
address is its page plus an offset below the page size. The lemmas restate this on natural numbers,
where `omega` takes over.
-/

set_option autoImplicit false

namespace GenshinOs.Lib

/-- A power-of-two page size. -/
structure PageSize where
  bytes : UInt64
  shift : Nat
  bytes_eq : bytes.toNat = 2 ^ shift

/-- Pages of 4096 bytes. -/
def PageSize.fourK : PageSize := ⟨4096, 12, by decide⟩

namespace PageSize

/-- Round an address down to its page: clear the bits below the page size. -/
def alignDown (ps : PageSize) (addr : UInt64) : UInt64 :=
  addr &&& ~~~(ps.bytes - 1)

theorem one_le_bytes (ps : PageSize) : 1 ≤ ps.bytes.toNat := by
  rw [ps.bytes_eq]
  exact Nat.one_le_two_pow

theorem toNat_mask (ps : PageSize) : (ps.bytes - 1).toNat = 2 ^ ps.shift - 1 := by
  have h1 := ps.one_le_bytes
  rw [UInt64.toNat_sub_of_le, ps.bytes_eq]
  · rfl
  · exact UInt64.le_iff_toNat_le.2 (by simpa using h1)

/-- A word is the sum of its bits outside a mask and its bits inside, without a carry. -/
theorem toNat_split_mask (a m : UInt64) : (a &&& ~~~m).toNat + (a &&& m).toNat = a.toNat := by
  have hdisj : (a &&& ~~~m).toBitVec &&& (a &&& m).toBitVec = 0#64 := by
    rw [UInt64.toBitVec_and, UInt64.toBitVec_and, UInt64.toBitVec_not]
    ext i hi
    simp only [BitVec.getElem_and, BitVec.getElem_not, BitVec.getElem_zero]
    cases a.toBitVec[i] <;> simp
  have hor : (a &&& ~~~m).toBitVec ||| (a &&& m).toBitVec = a.toBitVec := by
    rw [UInt64.toBitVec_and, UInt64.toBitVec_and, UInt64.toBitVec_not]
    ext i hi
    simp only [BitVec.getElem_or, BitVec.getElem_and, BitVec.getElem_not]
    cases a.toBitVec[i] <;> simp
  have hsum := BitVec.toNat_add_of_and_eq_zero hdisj
  rw [BitVec.add_eq_or_of_and_eq_zero _ _ hdisj, hor] at hsum
  exact hsum.symm

/-- An address is its page plus its offset. -/
theorem alignDown_add_offset (ps : PageSize) (addr : UInt64) :
    (ps.alignDown addr).toNat + addr.toNat % 2 ^ ps.shift = addr.toNat := by
  have hmask : (addr &&& (ps.bytes - 1)).toNat = addr.toNat % 2 ^ ps.shift := by
    rw [UInt64.toNat_and, ps.toNat_mask, Nat.and_two_pow_sub_one_eq_mod]
  rw [← hmask]
  exact toNat_split_mask addr (ps.bytes - 1)

theorem toNat_alignDown (ps : PageSize) (addr : UInt64) :
    (ps.alignDown addr).toNat = addr.toNat - addr.toNat % 2 ^ ps.shift := by
  have h := ps.alignDown_add_offset addr
  omega

theorem alignDown_mod (ps : PageSize) (addr : UInt64) :
    (ps.alignDown addr).toNat % 2 ^ ps.shift = 0 := by
  rw [toNat_alignDown]
  exact Nat.sub_mod_eq_zero_of_mod_eq (Nat.mod_mod _ _).symm

theorem alignDown_alignDown (ps : PageSize) (addr : UInt64) :
    ps.alignDown (ps.alignDown addr) = ps.alignDown addr := by
  apply UInt64.toNat_inj.1
  rw [toNat_alignDown ps (ps.alignDown addr), alignDown_mod, Nat.sub_zero]

theorem toNat_sub_alignDown (ps : PageSize) (addr : UInt64) :
    (addr - ps.alignDown addr).toNat = addr.toNat % 2 ^ ps.shift := by
  have h := ps.alignDown_add_offset addr
  have hle : ps.alignDown addr ≤ addr := UInt64.le_iff_toNat_le.2 (by omega)
  rw [UInt64.toNat_sub_of_le _ _ hle]
  omega

/-- A page start plus an offset inside the page does not overflow. -/
theorem toNat_page_add (ps : PageSize) {page i : UInt64} (hpage : page.toNat % 2 ^ ps.shift = 0)
    (hshift : ps.shift ≤ 64) (hi : i.toNat < 2 ^ ps.shift) :
    (page + i).toNat = page.toNat + i.toNat := by
  rw [UInt64.toNat_add]
  apply Nat.mod_eq_of_lt
  obtain ⟨q, hq⟩ := Nat.dvd_of_mod_eq_zero hpage
  obtain ⟨d, hd⟩ := Nat.exists_eq_add_of_le hshift
  have hlt : page.toNat < 2 ^ 64 := page.toNat_lt
  have hpow : 2 ^ 64 = 2 ^ ps.shift * 2 ^ d := by rw [hd, Nat.pow_add]
  rw [hq, hpow] at hlt
  have hqd : q < 2 ^ d := Nat.lt_of_mul_lt_mul_left hlt
  calc page.toNat + i.toNat < 2 ^ ps.shift * q + 2 ^ ps.shift := by omega
    _ = 2 ^ ps.shift * (q + 1) := by ring
    _ ≤ 2 ^ ps.shift * 2 ^ d := Nat.mul_le_mul_left _ hqd
    _ = 2 ^ 64 := hpow.symm

theorem shift_le (ps : PageSize) : ps.shift ≤ 64 := by
  have h : ps.bytes.toNat < 2 ^ 64 := ps.bytes.toNat_lt
  rw [ps.bytes_eq] at h
  exact le_of_lt ((Nat.pow_lt_pow_iff_right (by omega)).1 h)

/-- Every address inside a page rounds down to the page. -/
theorem alignDown_page_add (ps : PageSize) {page i : UInt64} (hpage : ps.alignDown page = page)
    (hi : i.toNat < 2 ^ ps.shift) : ps.alignDown (page + i) = page := by
  have hmod : page.toNat % 2 ^ ps.shift = 0 := by
    rw [← hpage]
    exact ps.alignDown_mod page
  apply UInt64.toNat_inj.1
  rw [toNat_alignDown, ps.toNat_page_add hmod ps.shift_le hi, Nat.add_mod, hmod]
  have : i.toNat % 2 ^ ps.shift = i.toNat := Nat.mod_eq_of_lt hi
  rw [Nat.zero_add, Nat.mod_mod, this]
  omega

/-- Going on inside a page. -/
theorem add_in_page (ps : PageSize) {addr i : UInt64}
    (hi : addr.toNat % 2 ^ ps.shift + i.toNat < 2 ^ ps.shift) :
    ps.alignDown (addr + i) = ps.alignDown addr ∧
      (addr + i).toNat % 2 ^ ps.shift = addr.toNat % 2 ^ ps.shift + i.toNat := by
  have hoff := ps.toNat_sub_alignDown addr
  have hpow : 2 ^ ps.shift ≤ 2 ^ 64 := Nat.pow_le_pow_right (by omega) ps.shift_le
  have hsum : (addr - ps.alignDown addr + i).toNat = addr.toNat % 2 ^ ps.shift + i.toNat := by
    rw [UInt64.toNat_add, hoff]
    exact Nat.mod_eq_of_lt (by omega)
  have hsplit : addr + i = ps.alignDown addr + (addr - ps.alignDown addr + i) := by
    rw [← UInt64.add_assoc, UInt64.add_comm (ps.alignDown addr), UInt64.sub_add_cancel]
  have hlt : (addr - ps.alignDown addr + i).toNat < 2 ^ ps.shift := by
    rw [hsum]
    exact hi
  rw [hsplit]
  refine ⟨ps.alignDown_page_add (ps.alignDown_alignDown addr) hlt, ?_⟩
  rw [ps.toNat_page_add (ps.alignDown_mod addr) ps.shift_le hlt, Nat.add_mod, ps.alignDown_mod,
    Nat.zero_add, Nat.mod_mod, Nat.mod_eq_of_lt hlt, hsum]

end PageSize

end GenshinOs.Lib
