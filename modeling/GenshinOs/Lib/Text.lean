import Mathlib.Data.List.DropRight
import Mathlib.Tactic

/-!
# Text as lists of characters

The string functions of Rust that a line parser uses: white space, words, lines, upper case and numbers.
A text that is put together from words is taken apart into the same words (`splitWhitespace_words`), one
from lines into the same lines (`lines_joined`), and a number that is printed in some base is read back
(`fromStrRadix_toDigits`).
-/

set_option autoImplicit false

namespace GenshinOs.Lib

/-! ## Parts between separators -/

/-- The parts of a list between separators have none. -/
theorem not_mem_of_mem_splitOn {α : Type*} [BEq α] [LawfulBEq α] {a : α} {xs part : List α}
    (h : part ∈ xs.splitOn a) : a ∉ part := by
  induction xs generalizing part with
  | nil =>
    rw [List.splitOn_nil, List.mem_singleton] at h
    rw [h]
    exact List.not_mem_nil
  | cons x xs ih =>
    rw [List.splitOn_cons_eq_if_modifyHead] at h
    split at h
    · rcases List.mem_cons.1 h with rfl | hmem
      · exact List.not_mem_nil
      · exact ih hmem
    · next hx =>
      -- the element goes to the front of the first part
      cases hparts : xs.splitOn a with
      | nil => exact absurd hparts (List.splitOn_ne_nil a xs)
      | cons first rest =>
        rw [hparts] at h ih
        rcases List.mem_cons.1 h with rfl | hmem
        · intro hin
          rcases List.mem_cons.1 hin with rfl | hin
          · exact hx (beq_self_eq_true _)
          · exact ih List.mem_cons_self hin
        · exact ih (List.mem_cons_of_mem first hmem)

/-! ## White space -/

/-- Unicode white space. -/
def isWhitespace (c : Char) : Bool :=
  (0x09 ≤ c.toNat && c.toNat ≤ 0x0D) || c.toNat == 0x20 || c.toNat == 0x85 || c.toNat == 0xA0 ||
    c.toNat == 0x1680 || (0x2000 ≤ c.toNat && c.toNat ≤ 0x200A) || c.toNat == 0x2028 ||
    c.toNat == 0x2029 || c.toNat == 0x202F || c.toNat == 0x205F || c.toNat == 0x3000

/-- Without the white space at both ends. -/
def trim (s : List Char) : List Char := (s.dropWhile isWhitespace).rdropWhile isWhitespace

/-- The words between white space. -/
def splitWhitespace (s : List Char) : List (List Char) :=
  (s.splitOnP isWhitespace).filter (· ≠ [])

/-- A text without white space, and not empty. -/
structure Word (s : List Char) : Prop where
  ne_nil : s ≠ []
  solid : ∀ c ∈ s, isWhitespace c = false

theorem mem_of_mem_trim {s : List Char} {c : Char} (h : c ∈ trim s) : c ∈ s :=
  (List.dropWhile_sublist isWhitespace).subset ((List.rdropWhile_prefix isWhitespace _).subset h)

theorem dropWhile_append_cons {p : Char → Bool} {c : Char} (hc : p c = false) (u w : List Char) :
    (u ++ c :: w).dropWhile p = u.dropWhile p ++ c :: w := by
  induction u with
  | nil => simp [hc]
  | cons b u ih =>
    rw [List.cons_append, List.dropWhile_cons, List.dropWhile_cons, ih]
    split
    · rfl
    · rfl

/-- White space is only removed before and behind a character that is none. -/
theorem trim_append_cons {c : Char} (hc : isWhitespace c = false) (u w : List Char) :
    trim (u ++ c :: w) = u.dropWhile isWhitespace ++ c :: w.rdropWhile isWhitespace := by
  have hreverse : (u.dropWhile isWhitespace ++ c :: w).reverse =
      w.reverse ++ c :: (u.dropWhile isWhitespace).reverse := by
    simp
  rw [trim, dropWhile_append_cons hc, List.rdropWhile, hreverse, dropWhile_append_cons hc]
  simp [List.rdropWhile]

/-- Every piece of a text is free of the characters that it is cut at. -/
theorem of_mem_splitOnP {p : Char → Bool} {s piece : List Char} (h : piece ∈ s.splitOnP p) {c : Char}
    (hc : c ∈ piece) : p c = false := by
  induction s generalizing piece with
  | nil =>
    cases List.mem_singleton.1 h
    cases hc
  | cons b s ih =>
    rw [List.splitOnP_cons_eq_if_modifyHead] at h
    split at h
    · rcases List.mem_cons.1 h with rfl | h
      · cases hc
      · exact ih h hc
    · next hb =>
      obtain ⟨first, rest, hpieces⟩ := List.exists_cons_of_ne_nil (List.splitOnP_ne_nil p s)
      rw [hpieces, List.modifyHead_cons] at h
      rcases List.mem_cons.1 h with rfl | h
      · rcases List.mem_cons.1 hc with rfl | hc
        · exact eq_false_of_ne_true hb
        · exact ih (by rw [hpieces]; exact List.mem_cons_self) hc
      · exact ih (by rw [hpieces]; exact List.mem_cons_of_mem first h) hc

/-- A text that neither begins nor ends with white space stays as it is. -/
theorem trim_eq_self {s : List Char} (hhead : ∀ c, s.head? = some c → isWhitespace c = false)
    (hlast : ∀ c, s.getLast? = some c → isWhitespace c = false) : trim s = s := by
  have hleft : s.dropWhile isWhitespace = s := by
    cases s with
    | nil => rfl
    | cons c s => simp [hhead c rfl]
  rw [trim, hleft, List.rdropWhile_eq_self_iff]
  intro hne
  rw [hlast _ (List.getLast?_eq_some_getLast hne)]
  exact Bool.false_ne_true

theorem Word.trim_eq {s : List Char} (h : Word s) : trim s = s :=
  trim_eq_self (fun c hc => h.solid c (List.mem_of_head? hc))
    (fun c hc => h.solid c (List.mem_of_getLast? hc))

/-- Words with single blanks between them. -/
def joinWords (words : List (List Char)) : List Char := [' '].intercalate words

theorem joinWords_cons {word : List Char} {words : List (List Char)} (h : words ≠ []) :
    joinWords (word :: words) = word ++ ' ' :: joinWords words := by
  cases words with
  | nil => exact absurd rfl h
  | cons word' words => simp [joinWords, List.intercalate]

theorem splitWhitespace_words {words : List (List Char)} (hsome : words ≠ [])
    (h : ∀ word ∈ words, Word word) : splitWhitespace (joinWords words) = words := by
  induction words with
  | nil => exact absurd rfl hsome
  | cons word words ih =>
    have hword := h word List.mem_cons_self
    by_cases hrest : words = []
    · subst hrest
      simp [splitWhitespace, joinWords, List.intercalate, List.splitOnP_eq_singleton hword.solid,
        hword.ne_nil]
    · have hih := ih hrest fun word' hword' => h word' (List.mem_cons_of_mem word hword')
      rw [joinWords_cons hrest, splitWhitespace,
        List.splitOnP_append_cons_of_forall_mem hword.solid ' ' (by decide),
        List.filter_cons_of_pos (by simpa using hword.ne_nil)]
      exact congrArg (word :: ·) hih

theorem head?_joinWords {word : List Char} (h : Word word) (words : List (List Char)) :
    (joinWords (word :: words)).head? = word.head? := by
  by_cases hrest : words = []
  · subst hrest
    simp [joinWords, List.intercalate]
  · rw [joinWords_cons hrest, List.head?_append_of_ne_nil _ h.ne_nil]

/-- The last character belongs to a word. -/
theorem getLast?_joinWords {words : List (List Char)} (h : ∀ word ∈ words, Word word) {c : Char}
    (hc : (joinWords words).getLast? = some c) : ∃ word ∈ words, c ∈ word := by
  induction words with
  | nil => cases hc
  | cons word words ih =>
    by_cases hrest : words = []
    · subst hrest
      refine ⟨word, List.mem_cons_self, ?_⟩
      simp only [joinWords, List.intercalate, List.intersperse_singleton, List.flatten_cons,
        List.flatten_nil, List.append_nil] at hc
      exact List.mem_of_getLast? hc
    · have hjoined : joinWords words ≠ [] := by
        obtain ⟨word', words', rfl⟩ := List.exists_cons_of_ne_nil hrest
        have hword' := h word' (by simp)
        intro hnil
        have hhead := head?_joinWords hword' words'
        rw [hnil] at hhead
        exact hword'.ne_nil (List.head?_eq_none_iff.1 hhead.symm)
      rw [joinWords_cons hrest, List.getLast?_append_of_ne_nil _ (List.cons_ne_nil _ _),
        List.getLast?_cons_of_ne_nil hjoined] at hc
      obtain ⟨word', hword', hmem⟩ := ih (fun w hw => h w (List.mem_cons_of_mem word hw)) hc
      exact ⟨word', List.mem_cons_of_mem word hword', hmem⟩

theorem trim_joinWords {words : List (List Char)} (h : ∀ word ∈ words, Word word) :
    trim (joinWords words) = joinWords words := by
  apply trim_eq_self
  · intro c hc
    cases words with
    | nil => cases hc
    | cons word words =>
      have hword := h word List.mem_cons_self
      rw [head?_joinWords hword] at hc
      exact hword.solid c (List.mem_of_head? hc)
  · intro c hc
    obtain ⟨word, hword, hmem⟩ := getLast?_joinWords h hc
    exact (h word hword).solid c hmem

theorem mem_joinWords {words : List (List Char)} {c : Char} (h : c ∈ joinWords words) :
    c = ' ' ∨ ∃ word ∈ words, c ∈ word := by
  induction words with
  | nil => cases h
  | cons word words ih =>
    by_cases hrest : words = []
    · subst hrest
      simp only [joinWords, List.intercalate, List.intersperse_singleton, List.flatten_cons,
        List.flatten_nil, List.append_nil] at h
      exact Or.inr ⟨word, List.mem_cons_self, h⟩
    · rw [joinWords_cons hrest, List.mem_append, List.mem_cons] at h
      rcases h with hword | rfl | hrest'
      · exact Or.inr ⟨word, List.mem_cons_self, hword⟩
      · exact Or.inl rfl
      · exact (ih hrest').imp_right fun ⟨w, hw, hc⟩ => ⟨w, List.mem_cons_of_mem word hw, hc⟩

/-! ## Lines -/

/-- Without one carriage return at the end. -/
def stripReturn (line : List Char) : List Char :=
  if line.getLast? = some '\r' then line.dropLast else line

/-- The lines of the parts between line feeds: the last part is a line only if there is something in it,
and keeps its carriage return. -/
def linesOf : List (List Char) → List (List Char)
  | [] => []
  | [last] => if last = [] then [] else [last]
  | line :: rest => stripReturn line :: linesOf rest

/-- `str::lines`. -/
def lines (s : List Char) : List (List Char) := linesOf (s.splitOn '\n')

theorem linesOf_eq_self {parts : List (List Char)} (hne : ∀ part ∈ parts, part ≠ [])
    (hreturn : ∀ part ∈ parts, part.getLast? ≠ some '\r') : linesOf parts = parts := by
  induction parts with
  | nil => rfl
  | cons part parts ih =>
    have hpart := hne part List.mem_cons_self
    cases parts with
    | nil => rw [linesOf, if_neg hpart]
    | cons part' parts =>
      rw [linesOf, stripReturn, if_neg (hreturn part List.mem_cons_self),
        ih (fun p hp => hne p (List.mem_cons_of_mem part hp))
          (fun p hp => hreturn p (List.mem_cons_of_mem part hp))]
      exact List.cons_ne_nil _ _

/-- Lines that are joined with line feeds come apart again. -/
theorem lines_joined {texts : List (List Char)} (hsome : texts ≠ []) (hne : ∀ t ∈ texts, t ≠ [])
    (hfeed : ∀ t ∈ texts, '\n' ∉ t) (hreturn : ∀ t ∈ texts, t.getLast? ≠ some '\r') :
    lines (['\n'].intercalate texts) = texts := by
  rw [lines, List.splitOn_intercalate '\n' hfeed hsome]
  exact linesOf_eq_self hne hreturn

/-! ## Upper case -/

/-- The upper case mapping of Unicode, of which only the ASCII part is fixed here. -/
structure CaseMap where
  upper : Char → List Char
  upper_ascii : ∀ c, c.toNat < 128 → upper c = [c.toUpper]

/-- The mapping that changes ASCII letters only. -/
def CaseMap.ascii : CaseMap where
  upper c := [c.toUpper]
  upper_ascii _ _ := rfl

/-- A text with every letter in upper case. -/
def toUppercase (cm : CaseMap) (s : List Char) : List Char := s.flatMap cm.upper

theorem toUppercase_ascii (cm : CaseMap) {s : List Char} (h : ∀ c ∈ s, c.toNat < 128) :
    toUppercase cm s = s.map Char.toUpper := by
  induction s with
  | nil => rfl
  | cons c s ih =>
    have hrest := ih fun c' hc' => h c' (List.mem_cons_of_mem c hc')
    rw [toUppercase, List.flatMap_cons, cm.upper_ascii c (h c List.mem_cons_self)]
    exact congrArg (c.toUpper :: ·) hrest

/-! ## Numbers -/

/-- `char::to_digit`. -/
def toDigit (radix : Nat) (c : Char) : Option Nat :=
  let value :=
    if '0' ≤ c ∧ c ≤ '9' then some (c.toNat - '0'.toNat)
    else if 'a' ≤ c ∧ c ≤ 'z' then some (c.toNat - 'a'.toNat + 10)
    else if 'A' ≤ c ∧ c ≤ 'Z' then some (c.toNat - 'A'.toNat + 10)
    else none
  value.filter (· < radix)

/-- The digits after the value `acc`, as long as they fit into 64 bits. -/
def parseDigits (radix : Nat) : List Char → Nat → Option Nat
  | [], acc => some acc
  | c :: rest, acc =>
    match toDigit radix c with
    | none => none
    | some d => if acc * radix + d < 2 ^ 64 then parseDigits radix rest (acc * radix + d) else none

/-- `u64::from_str_radix`: at least one digit, a plus sign may stand before them. -/
def fromStrRadix (radix : Nat) (s : List Char) : Option UInt64 :=
  let digits := if s.head? = some '+' then s.tail else s
  if digits = [] then none else (parseDigits radix digits 0).map UInt64.ofNat

/-- The value of digits after the value `acc`, without a bound. -/
def digitsValue (radix : Nat) : List Char → Nat → Option Nat
  | [], acc => some acc
  | c :: rest, acc => (toDigit radix c).bind fun d => digitsValue radix rest (acc * radix + d)

/-- The number that a text stands for, of any size: at least one digit, a plus sign may stand before
them. -/
def numeral (radix : Nat) (s : List Char) : Option Nat :=
  let digits := if s.head? = some '+' then s.tail else s
  if digits = [] then none else digitsValue radix digits 0

/-- Digits never make a value smaller. -/
theorem le_of_digitsValue {radix : Nat} (hradix : 0 < radix) {s : List Char} {acc n : Nat}
    (h : digitsValue radix s acc = some n) : acc ≤ n := by
  induction s generalizing acc with
  | nil => exact Nat.le_of_eq (Option.some.inj h)
  | cons c s ih =>
    obtain ⟨d, -, hrest⟩ := Option.bind_eq_some_iff.1 h
    have hle := ih hrest
    have hmul := Nat.le_mul_of_pos_right acc hradix
    omega

/-- The parser of 64-bit numbers reads the numbers that have 64 bits. -/
theorem parseDigits_eq {radix : Nat} (hradix : 0 < radix) (s : List Char) {acc : Nat}
    (hacc : acc < 2 ^ 64) :
    parseDigits radix s acc = (digitsValue radix s acc).filter fun n => decide (n < 2 ^ 64) := by
  induction s generalizing acc with
  | nil => rw [parseDigits, digitsValue, Option.filter_some, if_pos (decide_eq_true hacc)]
  | cons c s ih =>
    rw [parseDigits, digitsValue]
    cases toDigit radix c with
    | none => rfl
    | some d =>
      simp only [Option.bind_some]
      by_cases hfits : acc * radix + d < 2 ^ 64
      · rw [if_pos hfits]
        exact ih hfits
      · -- the value is too large already, and the remaining digits do not change that
        rw [if_neg hfits]
        symm
        rw [Option.filter_eq_none_iff]
        intro n hn
        have hle := le_of_digitsValue hradix hn
        rw [decide_eq_true_eq]
        omega

theorem fromStrRadix_eq {radix : Nat} (hradix : 0 < radix) (s : List Char) :
    fromStrRadix radix s = ((numeral radix s).filter fun n => decide (n < 2 ^ 64)).map UInt64.ofNat := by
  rw [fromStrRadix, numeral]
  by_cases hnone : (if s.head? = some '+' then s.tail else s) = []
  · simp only [if_pos hnone]
    rfl
  · simp only [if_neg hnone]
    rw [parseDigits_eq hradix _ (by decide)]

theorem toDigit_digitChar {radix d : Nat} (hd : d < radix) (hradix : radix ≤ 16) :
    toDigit radix d.digitChar = some d := by
  have hvalue : toDigit 16 d.digitChar = some d := by
    have hlt : d < 16 := Nat.lt_of_lt_of_le hd hradix
    interval_cases d <;> decide
  simp only [toDigit, Option.filter_eq_some_iff] at hvalue ⊢
  exact ⟨hvalue.1, by simpa using hd⟩

theorem parseDigits_append (radix : Nat) (s t : List Char) (acc : Nat) :
    parseDigits radix (s ++ t) acc = (parseDigits radix s acc).bind (parseDigits radix t) := by
  induction s generalizing acc with
  | nil => rfl
  | cons c s ih =>
    simp only [List.cons_append, parseDigits]
    split
    · rfl
    · split
      · exact ih _
      · rfl

theorem parseDigits_toDigits {radix : Nat} (hlow : 1 < radix) (hhigh : radix ≤ 16) {n : Nat}
    (hn : n < 2 ^ 64) : parseDigits radix (Nat.toDigits radix n) 0 = some n := by
  induction n using Nat.base_induction radix hlow with
  | single d hd =>
    rw [Nat.toDigits_of_lt_base hd]
    simp only [parseDigits, toDigit_digitChar hd hhigh, Nat.zero_mul, Nat.zero_add, hn, if_true]
  | digit m d hd hm ih =>
    have hm' : m < 2 ^ 64 := by nlinarith
    rw [← Nat.toDigits_append_toDigits hlow hm hd, parseDigits_append, ih hm', Option.bind_some,
      Nat.toDigits_of_lt_base hd]
    rw [Nat.mul_comm] at hn ⊢
    simp only [parseDigits, toDigit_digitChar hd hhigh, hn, if_true]

/-- The characters of a printed number. -/
theorem mem_toDigits {radix : Nat} (hlow : 1 < radix) (hhigh : radix ≤ 16) {n : Nat} {c : Char}
    (hc : c ∈ Nat.toDigits radix n) : ∃ d < 16, c = Nat.digitChar d := by
  induction n using Nat.base_induction radix hlow with
  | single d hd =>
    rw [Nat.toDigits_of_lt_base hd, List.mem_singleton] at hc
    exact ⟨d, Nat.lt_of_lt_of_le hd hhigh, hc⟩
  | digit m d hd hm ih =>
    rw [← Nat.toDigits_append_toDigits hlow hm hd, List.mem_append] at hc
    rcases hc with hc | hc
    · exact ih hc
    · rw [Nat.toDigits_of_lt_base hd, List.mem_singleton] at hc
      exact ⟨d, Nat.lt_of_lt_of_le hd hhigh, hc⟩

/-- A number that is printed is read back. -/
theorem fromStrRadix_toDigits {radix : Nat} (hlow : 1 < radix) (hhigh : radix ≤ 16) (n : UInt64) :
    fromStrRadix radix (Nat.toDigits radix n.toNat) = some n := by
  have hplus : (Nat.toDigits radix n.toNat).head? ≠ some '+' := by
    intro hhead
    obtain ⟨d, hd, hchar⟩ := mem_toDigits hlow hhigh (List.mem_of_head? hhead)
    interval_cases d <;> exact absurd hchar (by decide)
  rw [fromStrRadix, if_neg hplus]
  simp only [Nat.toDigits_ne_nil, if_false, parseDigits_toDigits hlow hhigh n.toNat_lt, Option.map_some,
    UInt64.ofNat_toNat]

end GenshinOs.Lib
