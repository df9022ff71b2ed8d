import Mathlib.Data.List.Basic

/-!
# Lossy decoding of UTF-8

A byte string is read as UTF-8; every maximal ill-formed part becomes one replacement character. Bytes
that encode characters are read back as these characters: `fromUtf8Lossy_toUTF8`.
-/

set_option autoImplicit false

namespace GenshinOs.Lib

/-- The character that stands for an ill-formed part. -/
def replacementChar : Char := '\uFFFD'

/-- Range of the second byte and number of further bytes after a lead byte, with the bits that the
lead byte contributes. -/
def utf8Lead (lead : Nat) : Option (Nat × Nat × Nat × Nat) :=
  if 0xC2 ≤ lead ∧ lead ≤ 0xDF then some (0x80, 0xBF, 1, lead - 0xC0)
  else if lead = 0xE0 then some (0xA0, 0xBF, 2, 0)
  else if lead = 0xED then some (0x80, 0x9F, 2, 0xD)
  else if 0xE1 ≤ lead ∧ lead ≤ 0xEF then some (0x80, 0xBF, 2, lead - 0xE0)
  else if lead = 0xF0 then some (0x90, 0xBF, 3, 0)
  else if 0xF1 ≤ lead ∧ lead ≤ 0xF3 then some (0x80, 0xBF, 3, lead - 0xF0)
  else if lead = 0xF4 then some (0x80, 0x8F, 3, 4)
  else none

/-- Read the continuation bytes. The rest starts at the first byte that does not fit. -/
def utf8Tail (low high : Nat) : Nat → Nat → List UInt8 → Char × List UInt8
  | 0, code, rest => (Char.ofNat code, rest)
  | _ + 1, _, [] => (replacementChar, [])
  | n + 1, code, b :: rest =>
    if low ≤ b.toNat ∧ b.toNat ≤ high then
      utf8Tail 0x80 0xBF n (code * 64 + (b.toNat - 0x80)) rest
    else (replacementChar, b :: rest)

/-- The first character of a byte string, and what follows it. -/
def utf8Next (lead : UInt8) (rest : List UInt8) : Char × List UInt8 :=
  if lead.toNat < 0x80 then (Char.ofNat lead.toNat, rest)
  else
    match utf8Lead lead.toNat with
    | none => (replacementChar, rest)
    | some (low, high, count, code) => utf8Tail low high count code rest

/-- Decode at most `n` characters. -/
def utf8Chars : Nat → List UInt8 → List Char
  | 0, _ => []
  | _ + 1, [] => []
  | n + 1, lead :: rest => (utf8Next lead rest).1 :: utf8Chars n (utf8Next lead rest).2

/-- `String::from_utf8_lossy`: every character takes at least one byte. -/
def fromUtf8Lossy (bytes : List UInt8) : String := String.ofList (utf8Chars bytes.length bytes)

example : fromUtf8Lossy [0x68, 0xE2, 0x82, 0xAC, 0xC3, 0x28, 0xE2, 0x82] =
    String.ofList ['h', '€', replacementChar, '(', replacementChar] := by decide

/-! ## Decoding of encoded characters -/

/-- A byte made of a small number is that number. -/
theorem toNat_ofNat_byte {n : Nat} (h : n < 256) : (UInt8.ofNat n).toNat = n :=
  Nat.mod_eq_of_lt h

/-- One continuation byte with six bits is read when it is in range. -/
theorem utf8Tail_cons {low high bits : Nat} (n code : Nat) (rest : List UInt8) (hbits : bits < 64)
    (hlow : low ≤ bits + 0x80) (hhigh : bits + 0x80 ≤ high) :
    utf8Tail low high (n + 1) code (UInt8.ofNat (bits + 0x80) :: rest) =
      utf8Tail 0x80 0xBF n (code * 64 + bits) rest := by
  have hbyte : (UInt8.ofNat (bits + 0x80)).toNat = bits + 0x80 := toNat_ofNat_byte (by omega)
  rw [utf8Tail, hbyte, if_pos ⟨hlow, hhigh⟩, Nat.add_sub_cancel]

/-- A lead byte with its range, its count and its bits is followed by continuation bytes. -/
theorem utf8Next_lead {lead low high count code : Nat} (rest : List UInt8) (hbyte : lead < 256)
    (hascii : 0x80 ≤ lead) (hlead : utf8Lead lead = some (low, high, count, code)) :
    utf8Next (UInt8.ofNat lead) rest = utf8Tail low high count code rest := by
  rw [utf8Next, toNat_ofNat_byte hbyte, if_neg (by omega), hlead]

/-- Two bytes: the lead byte has the upper five bits. -/
theorem utf8Next_two {v : Nat} (hlow : 0x80 ≤ v) (hhigh : v < 0x800) (rest : List UInt8) :
    utf8Next (UInt8.ofNat (v / 64 + 0xC0)) (UInt8.ofNat (v % 64 + 0x80) :: rest) = (Char.ofNat v, rest) := by
  have hlead : utf8Lead (v / 64 + 0xC0) = some (0x80, 0xBF, 1, v / 64) := by
    rw [utf8Lead, if_pos (by omega), Nat.add_sub_cancel]
  have hcode : v / 64 * 64 + v % 64 = v := by omega
  rw [utf8Next_lead _ (by omega) (by omega) hlead, utf8Tail_cons 0 _ rest (by omega) (by omega) (by omega),
    hcode, utf8Tail]

/-- Three bytes: the first continuation byte is bounded so that no shorter form and no surrogate is read. -/
theorem utf8Next_three {v : Nat} (hlow : 0x800 ≤ v) (hhigh : v < 0x10000)
    (hvalid : v < 0xD800 ∨ 0xDFFF < v) (rest : List UInt8) :
    utf8Next (UInt8.ofNat (v / 4096 + 0xE0))
        (UInt8.ofNat (v / 64 % 64 + 0x80) :: UInt8.ofNat (v % 64 + 0x80) :: rest) =
      (Char.ofNat v, rest) := by
  obtain ⟨low, high, hlead, hfrom, hto⟩ : ∃ low high,
      utf8Lead (v / 4096 + 0xE0) = some (low, high, 2, v / 4096) ∧
        low ≤ v / 64 % 64 + 0x80 ∧ v / 64 % 64 + 0x80 ≤ high := by
    rw [utf8Lead, if_neg (by omega)]
    by_cases hzero : v / 4096 = 0
    · rw [if_pos (by omega), hzero]
      exact ⟨_, _, rfl, by omega, by omega⟩
    · rw [if_neg (by omega)]
      by_cases hthirteen : v / 4096 = 13
      · rw [if_pos (by omega), hthirteen]
        exact ⟨_, _, rfl, by omega, by omega⟩
      · rw [if_neg (by omega), if_pos (by omega), Nat.add_sub_cancel]
        exact ⟨_, _, rfl, by omega, by omega⟩
  have hcode : (v / 4096 * 64 + v / 64 % 64) * 64 + v % 64 = v := by omega
  rw [utf8Next_lead _ (by omega) (by omega) hlead, utf8Tail_cons 1 _ _ (by omega) hfrom hto,
    utf8Tail_cons 0 _ rest (by omega) (by omega) (by omega), hcode, utf8Tail]

/-- Four bytes: the first continuation byte is bounded by the range of the characters. -/
theorem utf8Next_four {v : Nat} (hlow : 0x10000 ≤ v) (hhigh : v < 0x110000) (rest : List UInt8) :
    utf8Next (UInt8.ofNat (v / 262144 + 0xF0)) (UInt8.ofNat (v / 4096 % 64 + 0x80) ::
        UInt8.ofNat (v / 64 % 64 + 0x80) :: UInt8.ofNat (v % 64 + 0x80) :: rest) =
      (Char.ofNat v, rest) := by
  obtain ⟨low, high, hlead, hfrom, hto⟩ : ∃ low high,
      utf8Lead (v / 262144 + 0xF0) = some (low, high, 3, v / 262144) ∧
        low ≤ v / 4096 % 64 + 0x80 ∧ v / 4096 % 64 + 0x80 ≤ high := by
    rw [utf8Lead, if_neg (by omega), if_neg (by omega), if_neg (by omega), if_neg (by omega)]
    by_cases hzero : v / 262144 = 0
    · rw [if_pos (by omega), hzero]
      exact ⟨_, _, rfl, by omega, by omega⟩
    · rw [if_neg (by omega)]
      by_cases hfour : v / 262144 = 4
      · rw [if_neg (by omega), if_pos (by omega), hfour]
        exact ⟨_, _, rfl, by omega, by omega⟩
      · rw [if_pos (by omega), Nat.add_sub_cancel]
        exact ⟨_, _, rfl, by omega, by omega⟩
  have hcode : ((v / 262144 * 64 + v / 4096 % 64) * 64 + v / 64 % 64) * 64 + v % 64 = v := by omega
  rw [utf8Next_lead _ (by omega) (by omega) hlead, utf8Tail_cons 2 _ _ (by omega) hfrom hto,
    utf8Tail_cons 1 _ _ (by omega) (by omega) (by omega),
    utf8Tail_cons 0 _ rest (by omega) (by omega) (by omega), hcode, utf8Tail]

/-- Decoding the bytes of a character gives it back, whatever follows them. -/
theorem utf8Next_encode (c : Char) (rest : List UInt8) :
    ∃ lead tail, String.utf8EncodeChar c = lead :: tail ∧ utf8Next lead (tail ++ rest) = (c, rest) := by
  have hvalid : c.toNat < 0xD800 ∨ 0xDFFF < c.toNat ∧ c.toNat < 0x110000 := c.valid
  have hback : Char.ofNat c.toNat = c := Char.ofNat_toNat c
  rw [String.utf8EncodeChar]
  generalize hv : c.val.toNat = v
  rw [show c.toNat = v from hv] at hvalid hback
  split
  · refine ⟨_, _, rfl, ?_⟩
    rw [utf8Next, toNat_ofNat_byte (by omega), if_pos (by omega), hback]
    rfl
  · split
    · refine ⟨_, _, rfl, ?_⟩
      rw [Nat.mod_eq_of_lt (show v / 64 < 0x20 by omega), ← hback]
      exact utf8Next_two (by omega) (by omega) rest
    · split
      · refine ⟨_, _, rfl, ?_⟩
        rw [Nat.mod_eq_of_lt (show v / 4096 < 0x10 by omega), ← hback]
        exact utf8Next_three (by omega) (by omega) (by omega) rest
      · refine ⟨_, _, rfl, ?_⟩
        rw [Nat.mod_eq_of_lt (show v / 262144 < 0x08 by omega), ← hback]
        exact utf8Next_four (by omega) (by omega) rest

/-- Decoding the bytes of characters gives them back. -/
theorem utf8Chars_encode (cs : List Char) : ∀ n, (cs.flatMap String.utf8EncodeChar).length ≤ n →
    utf8Chars n (cs.flatMap String.utf8EncodeChar) = cs := by
  induction cs with
  | nil =>
    intro n hn
    cases n with
    | zero => rfl
    | succ n => rfl
  | cons c cs ih =>
    intro n hn
    obtain ⟨lead, tail, hbytes, hnext⟩ := utf8Next_encode c (cs.flatMap String.utf8EncodeChar)
    rw [List.flatMap_cons, hbytes, List.cons_append] at hn ⊢
    cases n with
    | zero => exact absurd hn (Nat.not_succ_le_zero _)
    | succ n =>
      rw [List.length_cons, List.length_append] at hn
      rw [utf8Chars, hnext, ih n (by omega)]

/-- Bytes of a string in UTF-8. -/
theorem fromUtf8Lossy_toUTF8 (s : String) : fromUtf8Lossy s.toUTF8.data.toList = s := by
  have hbytes : s.toUTF8.data.toList = s.toList.flatMap String.utf8EncodeChar := by
    rw [String.toUTF8, ← String.utf8Encode_toList, List.utf8Encode, List.data_toByteArray]
  rw [fromUtf8Lossy, hbytes, utf8Chars_encode s.toList _ (Nat.le_refl _), String.ofList_toList]

end GenshinOs.Lib
