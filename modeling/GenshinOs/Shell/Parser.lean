import GenshinOs.Lib.Text

/-!
# Shell parser

The parser of command lines (`src/ui/shell/parser.rs`). The tokenizer goes through a line character by
character and remembers whether it is inside quotes, of which kind, and whether the last character was a
backslash that escapes this one. The splitter for several commands on a line looks for separators only.

A separator that is quoted or escaped should be a part of its command (`pipeline`). The splitter cuts there
all the same, so that it is right exactly for the lines without such a separator (`parsePipeline_iff`).
-/

set_option autoImplicit false

namespace GenshinOs.Shell

open GenshinOs.Lib

/-! ## Model -/

/-- Parsed command. -/
structure Command where
  name : String
  args : List String
  options : List String
  deriving DecidableEq

/-- The character between words. -/
def separator : Char := ' '

/-- The escape. -/
def backslash : Char := '\x5c'

/-- One quote, -/
def doubleQuote : Char := '\x22'

/-- and the other. -/
def singleQuote : Char := '\x27'

/-- What the tokenizer remembers about quotes and escapes. -/
structure Quoting where
  inQuotes : Bool
  escapeNext : Bool
  quoteChar : Char
  deriving DecidableEq

/-- The tokenizer within a line: the finished tokens, and the one it is at. -/
structure Tokenizer extends Quoting where
  tokens : List (List Char)
  current : List Char

/-- Outside of quotes. -/
def Quoting.start : Quoting := ⟨false, false, ' '⟩

/-- Nothing has been read. -/
def Tokenizer.start : Tokenizer := ⟨.start, [], []⟩

namespace Tokenizer

/-- One character. -/
def step (t : Tokenizer) (ch : Char) : Tokenizer :=
  if t.escapeNext then { t with current := t.current ++ [ch], escapeNext := false }
  else if ch = backslash then { t with escapeNext := true }
  else if ch = doubleQuote ∨ ch = singleQuote then
    if !t.inQuotes then { t with inQuotes := true, quoteChar := ch }
    else if ch = t.quoteChar then { t with inQuotes := false, quoteChar := ' ' }
    else { t with current := t.current ++ [ch] }
  else if ch = separator ∧ !t.inQuotes then
    if t.current ≠ [] then { t with tokens := t.tokens ++ [t.current], current := [] } else t
  else { t with current := t.current ++ [ch] }

/-- All tokens at the end of the line. -/
def finish (t : Tokenizer) : List (List Char) := if t.current ≠ [] then t.tokens ++ [t.current] else t.tokens

end Tokenizer

/-- The tokens of a line, if there are any. -/
def tokenize (line : List Char) : Option (List (List Char)) :=
  let tokens := (line.foldl Tokenizer.step .start).finish
  if tokens = [] then none else some tokens

/-- A token is an option if it begins with a hyphen. -/
def isOption (token : List Char) : Bool := token.head? = some '-'

/-- The command of a line, if there is one. -/
def parse (line : List Char) : Option Command :=
  let line := trim line
  if line = [] then none
  else
    match tokenize line with
    | none => none
    | some [] => none
    | some (name :: rest) => some {
        name := String.ofList name
        args := (rest.filter fun token => !isOption token).map String.ofList
        options := (rest.filter fun token => isOption token).map String.ofList }

/-- Characters between commands. -/
def isSeparator (ch : Char) : Bool := ch == ';' || ch == '|'

/-- One character of a line: the commands parsed so far, and the text of the one that is read. -/
def pipelineStep (acc : List Command × List Char) (ch : Char) : List Command × List Char :=
  if isSeparator ch then (acc.1 ++ (parse acc.2).toList, []) else (acc.1, acc.2 ++ [ch])

/-- The commands of a line, cut at the separators. -/
def parsePipeline (line : List Char) : List Command :=
  let result := line.foldl pipelineStep ([], [])
  result.1 ++ (parse result.2).toList

/-! ## Quoting -/

namespace Quoting

/-- One character. -/
def step (q : Quoting) (ch : Char) : Quoting :=
  if q.escapeNext then { q with escapeNext := false }
  else if ch = backslash then { q with escapeNext := true }
  else if ch = doubleQuote ∨ ch = singleQuote then
    if !q.inQuotes then { q with inQuotes := true, quoteChar := ch }
    else if ch = q.quoteChar then { q with inQuotes := false, quoteChar := ' ' }
    else q
  else q

/-- The next character is inside quotes or escaped. -/
def protects (q : Quoting) : Bool := q.inQuotes || q.escapeNext

/-- Outside of quotes there is no kind of quote. -/
def Settled (q : Quoting) : Prop := q.inQuotes = false → q.quoteChar = ' '

end Quoting

/-- Tokenizer and quoting go together. -/
theorem Tokenizer.toQuoting_step (t : Tokenizer) (ch : Char) :
    (t.step ch).toQuoting = t.toQuoting.step ch := by
  unfold step Quoting.step
  split
  · rfl
  split
  · rfl
  split
  · split
    · rfl
    split
    · rfl
    · rfl
  split
  · split
    · rfl
    · rfl
  · rfl

theorem Tokenizer.toQuoting_foldl (t : Tokenizer) (line : List Char) :
    (line.foldl step t).toQuoting = line.foldl Quoting.step t.toQuoting := by
  induction line generalizing t with
  | nil => rfl
  | cons ch line ih => rw [List.foldl_cons, ih, toQuoting_step, List.foldl_cons]

/-! ## Cutting -/

/-- The line, cut at the separators that are neither quoted nor escaped. -/
def cut (q : Quoting) : List Char → List (List Char)
  | [] => [[]]
  | ch :: rest =>
    if isSeparator ch ∧ !q.protects then [] :: cut (q.step ch) rest
    else (cut (q.step ch) rest).modifyHead (ch :: ·)

/-- What the commands of a line should be. -/
def pipeline (line : List Char) : List Command := (cut .start line).filterMap parse

/-- No separator is quoted or escaped. -/
def Exposed (q : Quoting) : List Char → Prop
  | [] => True
  | ch :: rest => (isSeparator ch = true → q.protects = false) ∧ Exposed (q.step ch) rest

theorem cut_cons_separator {q : Quoting} {ch : Char} (hsep : isSeparator ch = true)
    (hprotects : q.protects = false) (rest : List Char) :
    cut q (ch :: rest) = [] :: cut (q.step ch) rest := by
  rw [cut, if_pos ⟨hsep, by rw [hprotects]; rfl⟩]

theorem cut_cons_other {q : Quoting} {ch : Char} (h : isSeparator ch = true → q.protects = true)
    (rest : List Char) : cut q (ch :: rest) = (cut (q.step ch) rest).modifyHead (ch :: ·) := by
  rw [cut, if_neg]
  rintro ⟨hsep, hprotects⟩
  rw [h hsep] at hprotects
  cases hprotects

/-- Where no separator is protected, all of them are cut at. -/
theorem cut_eq_splitOnP {q : Quoting} {line : List Char} (h : Exposed q line) :
    cut q line = line.splitOnP isSeparator := by
  induction line generalizing q with
  | nil => rfl
  | cons ch line ih =>
    obtain ⟨hhere, hrest⟩ := h
    rw [List.splitOnP_cons_eq_if_modifyHead]
    by_cases hsep : isSeparator ch = true
    · rw [cut_cons_separator hsep (hhere hsep), ih hrest, if_pos hsep]
    · rw [cut_cons_other fun hyes => absurd hyes hsep, ih hrest, if_neg hsep]

theorem modifyHead_nil_append (pieces : List (List Char)) : pieces.modifyHead ([] ++ ·) = pieces := by
  cases pieces with
  | nil => rfl
  | cons piece pieces => rfl

/-- Commands so far, and a first piece that has been begun. -/
theorem foldl_pipelineStep (line : List Char) (commands : List Command) (current : List Char) :
    (line.foldl pipelineStep (commands, current)).1 ++
        (parse (line.foldl pipelineStep (commands, current)).2).toList =
      commands ++ ((line.splitOnP isSeparator).modifyHead (current ++ ·)).filterMap parse := by
  induction line generalizing commands current with
  | nil =>
    cases hparse : parse current with
    | none => simp [hparse]
    | some command => simp [hparse]
  | cons ch line ih =>
    rw [List.foldl_cons, List.splitOnP_cons_eq_if_modifyHead, pipelineStep]
    by_cases hsep : isSeparator ch = true
    · rw [if_pos hsep, if_pos hsep, ih, modifyHead_nil_append]
      cases hparse : parse current with
      | none => simp [hparse]
      | some command => simp [hparse]
    · rw [if_neg hsep, if_neg hsep, ih, List.modifyHead_modifyHead]
      congr 3
      funext segment
      simp

/-- The splitter cuts at every separator. -/
theorem parsePipeline_eq (line : List Char) :
    parsePipeline line = (line.splitOnP isSeparator).filterMap parse := by
  rw [parsePipeline, foldl_pipelineStep, modifyHead_nil_append]
  rfl

/-! ## What ends up in the tokens -/

namespace Tokenizer

/-- A character is in a finished token or in the current one. -/
def Has (t : Tokenizer) (ch : Char) : Prop := (∃ token ∈ t.tokens, ch ∈ token) ∨ ch ∈ t.current

theorem has_finish {t : Tokenizer} {ch : Char} : t.Has ch ↔ ∃ token ∈ t.finish, ch ∈ token := by
  rw [finish, Has]
  by_cases hcurrent : t.current = []
  · simp [hcurrent]
  · rw [if_pos hcurrent]
    simp [or_and_right, exists_or]

/-- What a step does to the tokens: nothing, a character more, or the end of a token. -/
theorem step_cases (t : Tokenizer) (ch : Char) :
    ((t.step ch).current = t.current ∧ (t.step ch).tokens = t.tokens) ∨
      ((t.step ch).current = t.current ++ [ch] ∧ (t.step ch).tokens = t.tokens) ∨
      ((t.step ch).current = [] ∧ (t.step ch).tokens = t.tokens ++ [t.current]) := by
  unfold step
  split
  · exact Or.inr (Or.inl ⟨rfl, rfl⟩)
  split
  · exact Or.inl ⟨rfl, rfl⟩
  split
  · split
    · exact Or.inl ⟨rfl, rfl⟩
    split
    · exact Or.inl ⟨rfl, rfl⟩
    · exact Or.inr (Or.inl ⟨rfl, rfl⟩)
  split
  · split
    · exact Or.inr (Or.inr ⟨rfl, rfl⟩)
    · exact Or.inl ⟨rfl, rfl⟩
  · exact Or.inr (Or.inl ⟨rfl, rfl⟩)

/-- A character that is in a token stays in one. -/
theorem Has.step {t : Tokenizer} {ch : Char} (h : t.Has ch) (next : Char) : (t.step next).Has ch := by
  rcases t.step_cases next with ⟨hcurrent, htokens⟩ | ⟨hcurrent, htokens⟩ | ⟨hcurrent, htokens⟩
  · rw [Has, hcurrent, htokens]
    exact h
  · rw [Has, hcurrent, htokens]
    exact h.imp_right (List.mem_append_left _)
  · left
    rw [htokens]
    rcases h with ⟨token, htoken, hch⟩ | hch
    · exact ⟨token, List.mem_append_left _ htoken, hch⟩
    · exact ⟨t.current, List.mem_append_right _ (List.mem_singleton_self _), hch⟩

theorem Has.foldl {t : Tokenizer} {ch : Char} (h : t.Has ch) (line : List Char) :
    (line.foldl Tokenizer.step t).Has ch := by
  induction line generalizing t with
  | nil => exact h
  | cons next line ih => exact ih (h.step next)

/-- A character in a token was there before or has been read. -/
theorem has_foldl {t : Tokenizer} {ch : Char} {line : List Char} (h : (line.foldl Tokenizer.step t).Has ch) :
    t.Has ch ∨ ch ∈ line := by
  induction line generalizing t with
  | nil => exact Or.inl h
  | cons next line ih =>
    rcases ih h with hhas | hch
    · rcases t.step_cases next with ⟨hcurrent, htokens⟩ | ⟨hcurrent, htokens⟩ | ⟨hcurrent, htokens⟩
      · rw [Has, hcurrent, htokens] at hhas
        exact Or.inl hhas
      · rw [Has, hcurrent, htokens] at hhas
        rcases hhas with htoken | hch
        · exact Or.inl (Or.inl htoken)
        · rcases List.mem_append.1 hch with hch | hch
          · exact Or.inl (Or.inr hch)
          · exact Or.inr (List.mem_cons.2 (Or.inl (List.mem_singleton.1 hch)))
      · rw [Has, hcurrent, htokens] at hhas
        rcases hhas with ⟨token, htoken, hch⟩ | hch
        · rcases List.mem_append.1 htoken with htoken | htoken
          · exact Or.inl (Or.inl ⟨token, htoken, hch⟩)
          · cases List.mem_singleton.1 htoken
            exact Or.inl (Or.inr hch)
        · cases hch
    · exact Or.inr (List.mem_cons_of_mem next hch)

theorem separator_cases {ch : Char} (h : isSeparator ch = true) : ch = ';' ∨ ch = '|' := by
  simpa [isSeparator] using h

/-- A protected separator becomes a part of its token. -/
theorem has_protected {t : Tokenizer} {ch : Char} (hsep : isSeparator ch = true)
    (hprotects : t.toQuoting.protects = true) : (t.step ch).Has ch := by
  have hplain : ch ≠ backslash ∧ ¬(ch = doubleQuote ∨ ch = singleQuote) := by
    rcases separator_cases hsep with rfl | rfl
    · decide
    · decide
  have hcurrent : (t.step ch).current = t.current ++ [ch] := by
    rw [step]
    by_cases hescape : t.escapeNext = true
    · rw [if_pos hescape]
    · have hquotes : t.inQuotes = true := by
        simpa [Quoting.protects, hescape] using hprotects
      rw [if_neg hescape, if_neg hplain.1, if_neg hplain.2, if_neg (by simp [hquotes])]
  right
  rw [hcurrent]
  exact List.mem_append_right _ (List.mem_singleton_self ch)

end Tokenizer

namespace Quoting

/-- White space at the beginning of a line changes nothing. -/
theorem start_step_whitespace {ch : Char} (h : isWhitespace ch = true) : start.step ch = start := by
  have hplain : ch ≠ backslash ∧ ¬(ch = doubleQuote ∨ ch = singleQuote) := by
    refine ⟨?_, ?_⟩
    · rintro rfl
      revert h
      decide
    · rintro (rfl | rfl)
      · revert h
        decide
      · revert h
        decide
  rw [step, if_neg (by decide), if_neg hplain.1, if_neg hplain.2]

theorem foldl_dropWhile (u : List Char) :
    (u.dropWhile isWhitespace).foldl step start = u.foldl step start := by
  induction u with
  | nil => rfl
  | cons ch u ih =>
    rw [List.dropWhile_cons]
    split
    · next hch => rw [ih, List.foldl_cons, start_step_whitespace hch]
    · rfl

theorem settled_step {q : Quoting} (h : q.Settled) (ch : Char) : (q.step ch).Settled := by
  unfold step
  split
  · exact h
  split
  · exact h
  split
  · split
    · exact fun hout => Bool.noConfusion hout
    split
    · exact fun _ => rfl
    · exact h
  · exact h

theorem settled_foldl (line : List Char) : (line.foldl step start).Settled := by
  have hall : ∀ q : Quoting, q.Settled → (line.foldl step q).Settled := by
    induction line with
    | nil => exact fun q hq => hq
    | cons ch line ih => exact fun q hq => ih (q.step ch) (settled_step hq ch)
  exact hall start fun _ => rfl

/-- An unprotected separator leaves the tokenizer as at the start of a line. -/
theorem step_separator {q : Quoting} (hsettled : q.Settled) {ch : Char} (hsep : isSeparator ch = true)
    (hprotects : q.protects = false) : q.step ch = start := by
  obtain ⟨inQuotes, escapeNext, quoteChar⟩ := q
  obtain ⟨rfl, rfl⟩ : inQuotes = false ∧ escapeNext = false := by
    simpa [protects] using hprotects
  cases hsettled rfl
  rcases Tokenizer.separator_cases hsep with rfl | rfl
  · rfl
  · rfl

end Quoting

/-! ## Commands -/

/-- The texts of a command. -/
def Command.texts (command : Command) : List String := command.name :: (command.args ++ command.options)

theorem parse_some {line : List Char} {command : Command} (h : parse line = some command) :
    trim line ≠ [] ∧ ∃ tokens, tokenize (trim line) = some tokens ∧
      ∀ ch, (∃ text ∈ command.texts, ch ∈ text.toList) ↔ ∃ token ∈ tokens, ch ∈ token := by
  rw [parse] at h
  by_cases hline : trim line = []
  · simp [hline] at h
  refine ⟨hline, ?_⟩
  simp only [if_neg hline] at h
  split at h
  · cases h
  · cases h
  · next name rest htokens =>
    cases h
    refine ⟨_, htokens, fun ch => ?_⟩
    simp only [Command.texts, List.exists_mem_cons_iff, List.mem_append, List.mem_map, List.mem_filter]
    constructor
    · rintro (hname | ⟨text, ⟨token, ⟨htoken, -⟩, rfl⟩ | ⟨token, ⟨htoken, -⟩, rfl⟩, hch⟩)
      · exact Or.inl (by simpa using hname)
      · exact Or.inr ⟨token, htoken, by simpa using hch⟩
      · exact Or.inr ⟨token, htoken, by simpa using hch⟩
    · rintro (hname | ⟨token, htoken, hch⟩)
      · exact Or.inl (by simpa using hname)
      · right
        refine ⟨String.ofList token, ?_, by simpa using hch⟩
        cases hoption : isOption token with
        | false => exact Or.inl ⟨token, ⟨htoken, by simp [hoption]⟩, rfl⟩
        | true => exact Or.inr ⟨token, ⟨htoken, hoption⟩, rfl⟩

/-- A command has only characters of its line. -/
theorem mem_of_parse {line : List Char} {command : Command} (h : parse line = some command)
    {text : String} (htext : text ∈ command.texts) {ch : Char} (hch : ch ∈ text.toList) : ch ∈ line := by
  obtain ⟨-, tokens, htokens, hall⟩ := parse_some h
  obtain ⟨token, htoken, hch⟩ := (hall ch).1 ⟨text, htext, hch⟩
  simp only [tokenize] at htokens
  split at htokens
  · cases htokens
  · cases htokens
    rcases Tokenizer.has_foldl (Tokenizer.has_finish.2 ⟨token, htoken, hch⟩) with hhas | hline
    · rcases hhas with ⟨_, hnone, -⟩ | hnone
      · cases hnone
      · cases hnone
    · exact mem_of_mem_trim hline

/-- A line with a protected separator is a command that has it. -/
theorem parse_protected {u : List Char} {ch : Char} (hsep : isSeparator ch = true)
    (hprotects : (u.foldl Quoting.step .start).protects = true) (w : List Char) :
    ∃ command, parse (u ++ ch :: w) = some command ∧ ∃ text ∈ command.texts, ch ∈ text.toList := by
  have hsolid : isWhitespace ch = false := by
    rcases Tokenizer.separator_cases hsep with rfl | rfl
    · decide
    · decide
  -- a separator is no space, so trimming stays away from it
  have htrim := trim_append_cons hsolid u w
  -- the tokenizer keeps a protected character
  have hhas : ((trim (u ++ ch :: w)).foldl Tokenizer.step .start).Has ch := by
    rw [htrim, List.foldl_append, List.foldl_cons]
    refine (Tokenizer.has_protected hsep ?_).foldl _
    rw [Tokenizer.toQuoting_foldl]
    show (List.foldl Quoting.step Quoting.start _).protects = true
    rw [Quoting.foldl_dropWhile]
    exact hprotects
  obtain ⟨token, htoken, hch⟩ := Tokenizer.has_finish.1 hhas
  have htokens : tokenize (trim (u ++ ch :: w)) =
      some ((trim (u ++ ch :: w)).foldl Tokenizer.step .start).finish :=
    if_neg (List.ne_nil_of_mem htoken)
  have hline : trim (u ++ ch :: w) ≠ [] := by
    rw [htrim]
    simp
  -- so there is a token, and the line is a command
  cases hparse : parse (u ++ ch :: w) with
  | none =>
    exfalso
    simp only [parse, if_neg hline, htokens] at hparse
    split at hparse
    · next heq => cases heq
    · next heq =>
      rw [Option.some.inj heq] at htoken
      cases htoken
    · cases hparse
  | some command =>
    obtain ⟨-, tokens, htokens', hall⟩ := parse_some hparse
    cases htokens.symm.trans htokens'
    exact ⟨command, rfl, (hall ch).2 ⟨token, htoken, hch⟩⟩

theorem cut_ne_nil (q : Quoting) (line : List Char) : cut q line ≠ [] := by
  induction line generalizing q with
  | nil => exact List.cons_ne_nil _ _
  | cons ch line ih =>
    rw [cut]
    split
    · exact List.cons_ne_nil _ _
    · obtain ⟨first, rest, hpieces⟩ := List.exists_cons_of_ne_nil (ih (q.step ch))
      rw [hpieces]
      exact List.cons_ne_nil _ _

/-- A protected separator is inside one of the pieces, of which the first has been begun. -/
theorem exists_protected {current line : List Char}
    (h : ¬Exposed (current.foldl Quoting.step .start) line) :
    ∃ piece ∈ (cut (current.foldl Quoting.step .start) line).modifyHead (current ++ ·),
      ∃ u ch w, piece = u ++ ch :: w ∧ isSeparator ch = true ∧
        (u.foldl Quoting.step .start).protects = true := by
  induction line generalizing current with
  | nil => exact absurd trivial h
  | cons ch line ih =>
    have hnext : (current ++ [ch]).foldl Quoting.step .start =
        (current.foldl Quoting.step .start).step ch := by
      rw [List.foldl_append]
      rfl
    -- the pieces of the rest, if the line is not cut here
    have hpieces : ∀ pieces : List (List Char), (pieces.modifyHead (ch :: ·)).modifyHead (current ++ ·) =
        pieces.modifyHead (current ++ [ch] ++ ·) := by
      intro pieces
      rw [List.modifyHead_modifyHead]
      congr 1
      funext piece
      simp
    by_cases hsep : isSeparator ch = true
    · cases hprotects : (current.foldl Quoting.step .start).protects with
      | true =>
        -- this is it
        rw [cut_cons_other fun _ => hprotects, hpieces]
        obtain ⟨first, rest, hrest⟩ := List.exists_cons_of_ne_nil (cut_ne_nil _ line)
        rw [hrest]
        exact ⟨_, List.mem_cons_self, current, ch, first, by simp, hsep, hprotects⟩
      | false =>
        rw [cut_cons_separator hsep hprotects]
        have hstart := Quoting.step_separator (Quoting.settled_foldl current) hsep hprotects
        have hlater : ¬Exposed (([] : List Char).foldl Quoting.step .start) line := by
          intro hexposed
          refine h ⟨fun _ => hprotects, ?_⟩
          rw [hstart]
          exact hexposed
        obtain ⟨piece, hpiece, hfound⟩ := ih hlater
        rw [modifyHead_nil_append] at hpiece
        rw [hstart]
        exact ⟨piece, List.mem_cons_of_mem _ hpiece, hfound⟩
    · rw [cut_cons_other fun hyes => absurd hyes hsep, hpieces, ← hnext]
      apply ih
      rw [hnext]
      intro hexposed
      exact h ⟨fun hyes => absurd hyes hsep, hexposed⟩

/-- The splitter is right exactly for the lines in which no separator is quoted or escaped. -/
theorem parsePipeline_iff (line : List Char) :
    parsePipeline line = pipeline line ↔ Exposed .start line := by
  rw [parsePipeline_eq, pipeline]
  constructor
  · intro heq
    by_contra hexposed
    -- a command with a separator, which the splitter never makes
    obtain ⟨piece, hpiece, u, ch, w, rfl, hsep, hprotects⟩ := @exists_protected [] line hexposed
    rw [modifyHead_nil_append] at hpiece
    obtain ⟨command, hparse, text, htext, hch⟩ := parse_protected hsep hprotects w
    have hcommand : command ∈ (line.splitOnP isSeparator).filterMap parse := by
      rw [heq]
      exact List.mem_filterMap.2 ⟨_, hpiece, hparse⟩
    obtain ⟨segment, hsegment, hparse'⟩ := List.mem_filterMap.1 hcommand
    have hfree := of_mem_splitOnP hsegment (mem_of_parse hparse' htext hch)
    rw [hsep] at hfree
    cases hfree
  · intro hexposed
    rw [cut_eq_splitOnP hexposed]

/-- A quoted separator is cut at. -/
theorem quoted_separator_cut :
    let line := "echo \"a;b\"".toList
    parsePipeline line = [⟨"echo", ["a"], []⟩, ⟨"b", [], []⟩] ∧
      pipeline line = [⟨"echo", ["a;b"], []⟩] ∧ parsePipeline line ≠ pipeline line := by
  decide +kernel

end GenshinOs.Shell
