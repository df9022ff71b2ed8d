import GenshinOs.Shell.Parser

/-!
# Escaping

A word is escaped by a backslash before every space, every quote and every backslash in it. Outside of
quotes the tokenizer takes the character after a backslash as it is. So on an escaped word it never goes
inside of quotes and never ends the token (`foldl_escape`), and the words of a line in which escaped words
are joined by spaces are read back as they were (`tokenize_escaped`).
-/

set_option autoImplicit false

namespace GenshinOs.Shell

/-! ## Escaped lines -/

/-- Characters that the tokenizer does not take as they are. -/
def isSpecial (ch : Char) : Bool :=
  ch == separator || ch == singleQuote || ch == doubleQuote || ch == backslash

/-- A word with a backslash before each special character. -/
def escape : List Char → List Char
  | [] => []
  | ch :: rest => if isSpecial ch then backslash :: ch :: escape rest else ch :: escape rest

/-- Words on a line, with one or more spaces between each and the next. -/
inductive Joined : List (List Char) → List Char → Prop where
  | last (word : List Char) : Joined [word] word
  | more {words : List (List Char)} {line : List Char} (word : List Char) (n : Nat)
      (rest : Joined words line) :
      Joined (word :: words) (word ++ List.replicate (n + 1) separator ++ line)

/-! ## The tokenizer outside of quotes -/

namespace Tokenizer

/-- Neither inside of quotes nor after a backslash. -/
def outside (tokens : List (List Char)) (current : List Char) : Tokenizer := ⟨.start, tokens, current⟩

section outside

variable (tokens : List (List Char)) (current : List Char)

theorem outside_escapeNext : (outside tokens current).escapeNext = false := rfl

theorem outside_inQuotes : (outside tokens current).inQuotes = false := rfl

/-- Other characters are taken as they are. -/
theorem outside_plain {ch : Char} (hplain : isSpecial ch = false) :
    (outside tokens current).step ch = outside tokens (current ++ [ch]) := by
  simp only [isSpecial, Bool.or_eq_false_iff, beq_eq_false_iff_ne] at hplain
  obtain ⟨⟨⟨hseparator, hsingle⟩, hdouble⟩, hbackslash⟩ := hplain
  rw [step, outside_escapeNext, if_neg Bool.false_ne_true, if_neg hbackslash, if_neg, if_neg]
  · rfl
  · intro hspace
    exact hseparator hspace.1
  · rintro (hquote | hquote)
    · exact hdouble hquote
    · exact hsingle hquote

/-- After a backslash every character is taken as it is. -/
theorem outside_escaped (ch : Char) :
    ((outside tokens current).step backslash).step ch = outside tokens (current ++ [ch]) := rfl

/-- A space ends the token. -/
theorem outside_separator (hcurrent : current ≠ []) :
    (outside tokens current).step separator = outside (tokens ++ [current]) [] := by
  rw [step, outside_escapeNext, outside_inQuotes, if_neg Bool.false_ne_true,
    if_neg (show separator ≠ backslash by decide),
    if_neg (show ¬(separator = doubleQuote ∨ separator = singleQuote) by decide), if_pos ⟨rfl, rfl⟩]
  exact if_pos hcurrent

/-- Further spaces change nothing. -/
theorem outside_gap (n : Nat) :
    (List.replicate n separator).foldl step (outside tokens []) = outside tokens [] := by
  induction n with
  | zero => rfl
  | succ n ih =>
    rw [List.replicate_succ, List.foldl_cons]
    exact ih

/-- An escaped word is added to the token, whatever its characters are. -/
theorem foldl_escape (word : List Char) :
    (escape word).foldl step (outside tokens current) = outside tokens (current ++ word) := by
  induction word generalizing current with
  | nil =>
    rw [List.append_nil]
    rfl
  | cons ch word ih =>
    rw [List.append_cons, ← ih, escape]
    cases hspecial : isSpecial ch with
    | false =>
      rw [if_neg Bool.false_ne_true, List.foldl_cons, outside_plain tokens current hspecial]
    | true =>
      rw [if_pos rfl, List.foldl_cons, List.foldl_cons, outside_escaped]

end outside

/-- The words of a line become tokens after those that are there. -/
theorem foldl_joined {pieces : List (List Char)} {line : List Char} (h : Joined pieces line)
    {words : List (List Char)} (hpieces : words.map escape = pieces)
    (hsolid : ∀ word ∈ words, word ≠ []) (tokens : List (List Char)) :
    (line.foldl step (outside tokens [])).finish = tokens ++ words := by
  induction h generalizing words tokens with
  | last piece =>
    obtain ⟨word, rfl, rfl⟩ := List.map_eq_singleton_iff.1 hpieces
    rw [foldl_escape]
    -- the end of the line ends the last token
    exact if_pos (hsolid word (List.mem_singleton_self word))
  | more piece n rest ih =>
    obtain ⟨word, words, rfl, rfl, hrest⟩ := List.map_eq_cons_iff.1 hpieces
    have hword : word ≠ [] := hsolid word List.mem_cons_self
    -- the word, the space that ends it, and the other spaces
    rw [List.foldl_append, List.foldl_append, foldl_escape, List.nil_append, List.replicate_succ,
      List.foldl_cons, outside_separator tokens word hword, outside_gap, List.append_cons tokens word words]
    apply ih hrest
    intro word' hword'
    exact hsolid word' (List.mem_cons_of_mem word hword')

end Tokenizer

/-! ## Round trip -/

/-- Words that are escaped and joined by spaces are the tokens of the line. -/
theorem tokenize_escaped {words : List (List Char)} {line : List Char}
    (h : Joined (words.map escape) line) (hsolid : ∀ word ∈ words, word ≠ []) :
    tokenize line = some words := by
  have htokens : (line.foldl Tokenizer.step .start).finish = words :=
    Tokenizer.foldl_joined h rfl hsolid []
  -- a line has at least one word
  have hsome : words ≠ [] := by
    rintro rfl
    cases h
  rw [tokenize, htokens]
  exact if_neg hsome

theorem tokenize_escaped_echo :
    tokenize "echo  hello\\ world".toList = some ["echo".toList, "hello world".toList] := by
  have hjoined : Joined (["echo".toList, "hello world".toList].map escape) "echo  hello\\ world".toList :=
    .more "echo".toList 1 (.last "hello\\ world".toList)
  exact tokenize_escaped hjoined (by decide)

end GenshinOs.Shell
