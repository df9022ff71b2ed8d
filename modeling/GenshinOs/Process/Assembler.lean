import GenshinOs.Lib.Text
import GenshinOs.Hardware.Cpu

/-!
# Assembler

The texts of the instructions (`Display` in `src/hardware/cpu.rs`) and the assembler that reads them
(`src/services/process/assembler.rs`). A line that cannot be read is reported on standard error, which is
left out, and skipped. Printer, line parser, encoder and decoder are independent descriptions of one
instruction set; `assemble_displayed` and `fetch_assembled` say that they agree: a program that is
printed, assembled and stored is fetched again, instruction by instruction.
-/

set_option autoImplicit false

namespace GenshinOs.Hardware

open GenshinOs.Lib

/-! ## Texts of instructions -/

/-- The name of a register. -/
def Register.display : Register → String
  | .r0 => "R0"
  | .r1 => "R1"
  | .r2 => "R2"
  | .r3 => "R3"

/-- A number with its base, in lower case. -/
def displayHex (value : Nat) : String := "0x" ++ String.ofList (Nat.toDigits 16 value)

/-- An operand as it is printed. -/
def Operand.display : Operand → String
  | .reg r => r.display
  | .imm value => "#" ++ displayHex value.toNat

/-- An instruction as it is printed. -/
def Instruction.display : Instruction → String
  | .mov dst src => "MOV " ++ dst.display ++ ", " ++ src.display
  | .add dst src => "ADD " ++ dst.display ++ ", " ++ src.display
  | .sub dst src => "SUB " ++ dst.display ++ ", " ++ src.display
  | .mul dst src => "MUL " ++ dst.display ++ ", " ++ src.display
  | .div dst src => "DIV " ++ dst.display ++ ", " ++ src.display
  | .jmp addr => "JMP " ++ displayHex addr.toNat
  | .load dst addr => "LOAD " ++ dst.display ++ ", [" ++ addr.display ++ "]"
  | .store src addr => "STORE [" ++ addr.display ++ "], " ++ src.display
  | .int vector => "INT " ++ displayHex vector.toNat
  | .cmp dst src => "CMP " ++ dst.display ++ ", " ++ src.display
  | .jz addr => "JZ " ++ displayHex addr.toNat
  | .jnz addr => "JNZ " ++ displayHex addr.toNat
  | .halt => "HALT"

end GenshinOs.Hardware

namespace GenshinOs.Process

open GenshinOs.Lib GenshinOs.Hardware

/-! ## Parsing -/

/-- The operand is a register. -/
def srcReg : UInt8 := 0

/-- The operand is a number. -/
def srcImm : UInt8 := 1

/-- The number of a register, by its name in either case. -/
def regIndex (cm : CaseMap) (name : List Char) : Option UInt8 :=
  match String.ofList (toUppercase cm name) with
  | "R0" => some 0
  | "R1" => some 1
  | "R2" => some 2
  | "R3" => some 3
  | _ => none

/-- A number, in base 16 after `0x`. -/
def parseNumber (s : List Char) : Option UInt64 :=
  match ("0x".toList.isPrefixOf? s).or ("0X".toList.isPrefixOf? s) with
  | some hex => fromStrRadix 16 hex
  | none => fromStrRadix 10 s

/-- An operand: a number after `#`, or a register. -/
def parseOperand (cm : CaseMap) (s : List Char) : Option (UInt8 × UInt64) :=
  match ['#'].isPrefixOf? (trim s) with
  | some stripped => (parseNumber stripped).map fun value => (srcImm, value)
  | none => (regIndex cm (trim s)).map fun index => (srcReg, index.toUInt64)

/-- A number, with the sign for it or without. -/
def parseImmediate (s : List Char) : Option UInt64 := parseNumber ((trim s).dropWhile (· == '#'))

/-- A register or an address in brackets. -/
def parseMemOperand (cm : CaseMap) (s : List Char) : Option (UInt8 × UInt64) :=
  match (['['].isPrefixOf? (trim s)).bind fun rest => [']'].isSuffixOf? rest with
  | none => none
  | some inner =>
    match regIndex cm inner with
    | some index => some (srcReg, index.toUInt64)
    | none => (parseImmediate inner).map fun value => (srcImm, value)

/-- Encode one instruction into 8 bytes; the value is cut to 32 bits. -/
def encode (opcode dstReg srcType : UInt8) (value : UInt64) : List UInt8 :=
  [opcode, dstReg, srcType, 0x00, value.toUInt32.toUInt8, (value.toUInt32 >>> 8).toUInt8,
    (value.toUInt32 >>> 16).toUInt8, (value.toUInt32 >>> 24).toUInt8]

/-- Without the commas at the end. -/
def trimComma (s : List Char) : List Char := s.rdropWhile (· == ',')

/-- An instruction with a register and an operand. -/
def parseBinary (cm : CaseMap) (opcode : UInt8) : List (List Char) → Option (List UInt8)
  | dst :: src :: _ => do
    let dst ← regIndex cm (trimComma dst)
    let (srcType, value) ← parseOperand cm src
    return encode opcode dst srcType value
  | _ => none

/-- An instruction with an address or a vector. -/
def parseUnary (opcode : UInt8) : List (List Char) → Option (List UInt8)
  | addr :: _ => do
    let value ← parseImmediate addr
    return encode opcode 0 srcImm value
  | _ => none

/-- A load: a register and an operand for the address. -/
def parseLoad (cm : CaseMap) : List (List Char) → Option (List UInt8)
  | dst :: addr :: _ => do
    let dst ← regIndex cm (trimComma dst)
    let (addrType, value) ← parseMemOperand cm addr
    return encode 0x06 dst addrType value
  | _ => none

/-- The address comes first. -/
def parseStore (cm : CaseMap) : List (List Char) → Option (List UInt8)
  | addr :: src :: _ => do
    let src ← regIndex cm (trimComma src)
    let (addrType, value) ← parseMemOperand cm (trimComma addr)
    return encode 0x07 src addrType value
  | _ => none

/-- The words of a line. -/
def parseWords (cm : CaseMap) (mnemonic : List Char) (operands : List (List Char)) :
    Option (List UInt8) :=
  match String.ofList (toUppercase cm mnemonic) with
  | "HALT" => some (encode 0xFF 0 0 0)
  | "MOV" => parseBinary cm 0x01 operands
  | "ADD" => parseBinary cm 0x02 operands
  | "SUB" => parseBinary cm 0x03 operands
  | "MUL" => parseBinary cm 0x04 operands
  | "DIV" => parseBinary cm 0x05 operands
  | "JMP" => parseUnary 0x10 operands
  | "CMP" => parseBinary cm 0x11 operands
  | "JZ" => parseUnary 0x12 operands
  | "JE" => parseUnary 0x12 operands
  | "JNZ" => parseUnary 0x13 operands
  | "JNE" => parseUnary 0x13 operands
  | "LOAD" => parseLoad cm operands
  | "STORE" => parseStore cm operands
  | "INT" => parseUnary 0x80 operands
  | _ => none

/-- Without the comment at the end. -/
def removeComment (line : List Char) : List Char :=
  if ';' ∈ line then trim (line.takeWhile (· ≠ ';')) else line

/-- Parse a single line. Empty lines and comments give nothing, and neither do errors. -/
def parseLine (cm : CaseMap) (line : List Char) : Option (List UInt8) :=
  let line := trim line
  if line = [] ∨ line.head? = some ';' ∨ "//".toList.isPrefixOf line then none
  else
    match splitWhitespace (removeComment line) with
    | [] => none
    | mnemonic :: operands => parseWords cm mnemonic operands

/-- The code of all lines that are instructions; lines that are not leave none. -/
def assemble (cm : CaseMap) (source : String) : Except String (List UInt8) :=
  let code := (lines source.toList).flatMap fun line => (parseLine cm line).getD []
  if code = [] then .error "no instructions generated" else .ok code

/-! ## Printed instructions are read back -/

/-- Printable characters that mean nothing to the line parser. -/
def Plain (s : List Char) : Prop := ∀ c ∈ s, c.toNat < 128 ∧ isWhitespace c = false ∧ c ≠ ';'

-- the quantifier is decided over the list; characters are finitely many, but far too many to try
instance Plain.decidable (s : List Char) : Decidable (Plain s) := List.decidableBAll _ s

theorem Plain.append {s t : List Char} (hs : Plain s) (ht : Plain t) : Plain (s ++ t) := by
  intro c hc
  rcases List.mem_append.1 hc with hc | hc
  · exact hs c hc
  · exact ht c hc

theorem Plain.word {s : List Char} (h : Plain s) (hne : s ≠ []) : Word s :=
  ⟨hne, fun c hc => (h c hc).2.1⟩

theorem plain_register (r : Register) : Plain r.display.toList := by
  cases r <;> decide

theorem toList_displayHex (value : Nat) :
    (displayHex value).toList = '0' :: 'x' :: Nat.toDigits 16 value := by
  simp [displayHex]

theorem plain_displayHex (value : Nat) : Plain (displayHex value).toList := by
  rw [toList_displayHex]
  apply Plain.append (s := ['0', 'x'])
  · decide
  · intro c hc
    obtain ⟨d, hd, rfl⟩ := mem_toDigits (by decide) (Nat.le_refl 16) hc
    interval_cases d <;> decide

theorem plain_operand (o : Operand) : Plain o.display.toList := by
  cases o with
  | reg r => exact plain_register r
  | imm value =>
    rw [Operand.display, String.toList_append]
    exact Plain.append (by decide) (plain_displayHex value.toNat)

/-- The number of a register in the code. -/
def registerIndex : Register → UInt8
  | .r0 => 0
  | .r1 => 1
  | .r2 => 2
  | .r3 => 3

/-- Type and value of an operand, as an instruction has them. -/
def operandCode : Operand → UInt8 × UInt64
  | .reg r => (srcReg, (registerIndex r).toUInt64)
  | .imm value => (srcImm, value)

section Operands

variable (cm : CaseMap)

theorem regIndex_display (r : Register) : regIndex cm r.display.toList = some (registerIndex r) := by
  have hupper := toUppercase_ascii cm fun c hc => (plain_register r c hc).1
  rw [regIndex, hupper]
  cases r <;> rfl

/-- Only names that begin with an R are registers. -/
theorem regIndex_eq_none {s : List Char} (h : (toUppercase cm s).head? ≠ some 'R') :
    regIndex cm s = none := by
  have hname : ∀ name : String, name.toList.head? = some 'R' →
      String.ofList (toUppercase cm s) ≠ name := by
    rintro name hhead rfl
    rw [String.toList_ofList] at hhead
    exact h hhead
  unfold regIndex
  split
  · next heq => exact absurd heq (hname "R0" (by decide))
  · next heq => exact absurd heq (hname "R1" (by decide))
  · next heq => exact absurd heq (hname "R2" (by decide))
  · next heq => exact absurd heq (hname "R3" (by decide))
  · rfl

theorem parseNumber_displayHex (value : UInt64) :
    parseNumber (displayHex value.toNat).toList = some value := by
  rw [toList_displayHex, parseNumber]
  exact fromStrRadix_toDigits (by decide) (Nat.le_refl 16) value

theorem word_displayHex (value : Nat) : Word (displayHex value).toList :=
  (plain_displayHex value).word (by rw [toList_displayHex]; exact List.cons_ne_nil _ _)

theorem parseImmediate_displayHex (value : UInt64) :
    parseImmediate (displayHex value.toNat).toList = some value := by
  have hkept : (displayHex value.toNat).toList.dropWhile (· == '#') =
      (displayHex value.toNat).toList := by
    rw [toList_displayHex]
    rfl
  rw [parseImmediate, (word_displayHex value.toNat).trim_eq, hkept, parseNumber_displayHex]

/-- A number operand, as it is printed. -/
theorem toList_imm (value : UInt64) :
    (Operand.imm value).display.toList = '#' :: (displayHex value.toNat).toList := by
  simp [Operand.display]

theorem word_operand (o : Operand) : Word o.display.toList := by
  apply (plain_operand o).word
  cases o with
  | reg r => cases r <;> decide
  | imm value =>
    rw [toList_imm]
    exact List.cons_ne_nil _ _

theorem parseImmediate_operand (value : UInt64) :
    parseImmediate (Operand.imm value).display.toList = some value := by
  have hrest := parseImmediate_displayHex value
  rw [parseImmediate, (word_displayHex value.toNat).trim_eq] at hrest
  rw [parseImmediate, (word_operand _).trim_eq, toList_imm]
  exact hrest

theorem parseOperand_display (o : Operand) :
    parseOperand cm o.display.toList = some (operandCode o) := by
  rw [parseOperand, (word_operand o).trim_eq]
  cases o with
  | reg r =>
    have hnone : ['#'].isPrefixOf? r.display.toList = none := by
      cases r <;> rfl
    rw [show (Operand.reg r).display = r.display from rfl, hnone]
    simp only [regIndex_display, Option.map_some]
    rfl
  | imm value =>
    rw [toList_imm]
    have hstripped : ['#'].isPrefixOf? ('#' :: (displayHex value.toNat).toList) =
        some (displayHex value.toNat).toList := rfl
    rw [hstripped]
    simp only [parseNumber_displayHex, Option.map_some]
    rfl

/-- A number in brackets is no register. -/
theorem regIndex_imm (value : UInt64) : regIndex cm (Operand.imm value).display.toList = none := by
  apply regIndex_eq_none
  rw [toUppercase_ascii cm fun c hc => (plain_operand (.imm value) c hc).1, toList_imm]
  simp

theorem parseMemOperand_display (o : Operand) :
    parseMemOperand cm ('[' :: (o.display.toList ++ [']'])) = some (operandCode o) := by
  have hplain : Plain ('[' :: (o.display.toList ++ [']'])) :=
    Plain.append (s := ['[']) (by decide)
      ((plain_operand o).append (by decide))
  have hinner : ((['['].isPrefixOf? ('[' :: (o.display.toList ++ [']']))).bind
      fun rest => [']'].isSuffixOf? rest) = some o.display.toList := by
    simp [List.isPrefixOf?, List.isSuffixOf?]
  rw [parseMemOperand, (hplain.word (List.cons_ne_nil _ _)).trim_eq, hinner]
  simp only
  cases o with
  | reg r =>
    rw [show (Operand.reg r).display = r.display from rfl, regIndex_display]
    rfl
  | imm value =>
    rw [regIndex_imm, parseImmediate_operand]
    rfl

theorem regIndex_comma (r : Register) :
    regIndex cm (trimComma (r.display.toList ++ [','])) = some (registerIndex r) := by
  have htrimmed : trimComma (r.display.toList ++ [',']) = r.display.toList := by
    cases r <;> rfl
  rw [htrimmed, regIndex_display]

theorem regIndex_bare (r : Register) :
    regIndex cm (trimComma r.display.toList) = some (registerIndex r) := by
  have htrimmed : trimComma r.display.toList = r.display.toList := by
    cases r <;> rfl
  rw [htrimmed, regIndex_display]

theorem trimComma_bracket (s : List Char) :
    trimComma ('[' :: (s ++ [']', ','])) = '[' :: (s ++ [']']) := by
  have hsplit : '[' :: (s ++ [']', ',']) = (('[' :: s) ++ [']']) ++ [','] := by simp
  rw [trimComma, hsplit, List.rdropWhile_concat_pos _ _ _ (by decide),
    List.rdropWhile_concat_neg _ _ _ (by decide)]
  rfl

end Operands

/-! ## Lines -/

/-- Mnemonic of an instruction. -/
def mnemonicOf : Instruction → String
  | .mov _ _ => "MOV"
  | .add _ _ => "ADD"
  | .sub _ _ => "SUB"
  | .mul _ _ => "MUL"
  | .div _ _ => "DIV"
  | .load _ _ => "LOAD"
  | .store _ _ => "STORE"
  | .jmp _ => "JMP"
  | .cmp _ _ => "CMP"
  | .jz _ => "JZ"
  | .jnz _ => "JNZ"
  | .int _ => "INT"
  | .halt => "HALT"

/-- A mnemonic is written in capital letters. -/
theorem mnemonicOf_capital (i : Instruction) : (mnemonicOf i).toList ≠ [] ∧
    (∀ c ∈ (mnemonicOf i).toList, 'A' ≤ c ∧ c ≤ 'Z') ∧
    (mnemonicOf i).toList.map Char.toUpper = (mnemonicOf i).toList := by
  have hall : ∀ name ∈ ["MOV", "ADD", "SUB", "MUL", "DIV", "LOAD", "STORE", "JMP", "CMP", "JZ", "JNZ",
      "INT", "HALT"], name.toList ≠ [] ∧ name.toList.all (fun c => decide ('A' ≤ c ∧ c ≤ 'Z')) = true ∧
      name.toList.map Char.toUpper = name.toList := by
    decide
  obtain ⟨hne, hletters, hupper⟩ := hall (mnemonicOf i) (by cases i <;> simp [mnemonicOf])
  exact ⟨hne, fun c hc => of_decide_eq_true (List.all_eq_true.1 hletters c hc), hupper⟩

/-- Operands of an instruction, as they are printed between blanks. -/
def operandsOf : Instruction → List (List Char)
  | .mov dst src => [dst.display.toList ++ [','], src.display.toList]
  | .add dst src => [dst.display.toList ++ [','], src.display.toList]
  | .sub dst src => [dst.display.toList ++ [','], src.display.toList]
  | .mul dst src => [dst.display.toList ++ [','], src.display.toList]
  | .div dst src => [dst.display.toList ++ [','], src.display.toList]
  | .load dst addr => [dst.display.toList ++ [','], '[' :: (addr.display.toList ++ [']'])]
  | .store src addr => ['[' :: (addr.display.toList ++ [']', ',']), src.display.toList]
  | .jmp addr => [(displayHex addr.toNat).toList]
  | .cmp dst src => [dst.display.toList ++ [','], src.display.toList]
  | .jz addr => [(displayHex addr.toNat).toList]
  | .jnz addr => [(displayHex addr.toNat).toList]
  | .int vector => [(displayHex vector.toNat).toList]
  | .halt => []

theorem toList_display (i : Instruction) :
    i.display.toList = joinWords ((mnemonicOf i).toList :: operandsOf i) := by
  cases i <;> simp [Instruction.display, mnemonicOf, operandsOf, joinWords, List.intercalate]

theorem plain_capital {c : Char} (h : 'A' ≤ c ∧ c ≤ 'Z') :
    c.toNat < 128 ∧ isWhitespace c = false ∧ c ≠ ';' := by
  have hlow : 65 ≤ c.toNat := h.1
  have hhigh : c.toNat ≤ 90 := h.2
  refine ⟨by omega, ?_, ?_⟩
  · simp only [isWhitespace, Bool.or_eq_false_iff, Bool.and_eq_false_iff, decide_eq_false_iff_not,
      beq_eq_false_iff_ne]
    omega
  · rintro rfl
    exact absurd hlow (by decide)

theorem plain_words (i : Instruction) : ∀ word ∈ (mnemonicOf i).toList :: operandsOf i,
    Plain word ∧ word ≠ [] := by
  have hregister : ∀ r : Register, Plain (r.display.toList ++ [',']) ∧ r.display.toList ++ [','] ≠ [] :=
    fun r => ⟨(plain_register r).append (by decide), by simp⟩
  have hbare : ∀ r : Register, Plain r.display.toList ∧ r.display.toList ≠ [] :=
    fun r => ⟨plain_register r, (word_operand (.reg r)).ne_nil⟩
  have hoperand : ∀ o : Operand, Plain o.display.toList ∧ o.display.toList ≠ [] :=
    fun o => ⟨plain_operand o, (word_operand o).ne_nil⟩
  have hbracket : ∀ (o : Operand) (tail : List Char), Plain tail →
      Plain ('[' :: (o.display.toList ++ tail)) ∧ '[' :: (o.display.toList ++ tail) ≠ [] :=
    fun o tail htail => ⟨Plain.append (s := ['[']) (by decide)
      ((plain_operand o).append htail), List.cons_ne_nil _ _⟩
  have hhex : ∀ value, Plain (displayHex value).toList ∧ (displayHex value).toList ≠ [] :=
    fun value => ⟨plain_displayHex value, (word_displayHex value).ne_nil⟩
  have hmnemonic : Plain (mnemonicOf i).toList ∧ (mnemonicOf i).toList ≠ [] :=
    ⟨fun c hc => plain_capital ((mnemonicOf_capital i).2.1 c hc), (mnemonicOf_capital i).1⟩
  have hone : ∀ {a : List Char}, (Plain a ∧ a ≠ []) → ∀ word ∈ [a], Plain word ∧ word ≠ [] :=
    fun ha => List.forall_mem_singleton.2 ha
  have htwo : ∀ {a b : List Char}, (Plain a ∧ a ≠ []) → (Plain b ∧ b ≠ []) →
      ∀ word ∈ [a, b], Plain word ∧ word ≠ [] :=
    fun ha hb => List.forall_mem_cons.2 ⟨ha, hone hb⟩
  -- by the form of the operands: each word is a register, an operand, an address in brackets or a number
  refine List.forall_mem_cons.2 ⟨hmnemonic, ?_⟩
  cases i with
  | mov dst src => exact htwo (hregister dst) (hoperand src)
  | add dst src => exact htwo (hregister dst) (hoperand src)
  | sub dst src => exact htwo (hregister dst) (hoperand src)
  | mul dst src => exact htwo (hregister dst) (hoperand src)
  | div dst src => exact htwo (hregister dst) (hoperand src)
  | cmp dst src => exact htwo (hregister dst) (hoperand src)
  | load dst addr => exact htwo (hregister dst) (hbracket addr [']'] (by decide))
  | store src addr => exact htwo (hbracket addr [']', ','] (by decide)) (hbare src)
  | jmp addr => exact hone (hhex addr.toNat)
  | jz addr => exact hone (hhex addr.toNat)
  | jnz addr => exact hone (hhex addr.toNat)
  | int vector => exact hone (hhex vector.toNat)
  | halt => exact fun word hword => absurd hword List.not_mem_nil

/-- The eight bytes of an instruction. -/
def encoded : Instruction → List UInt8
  | .mov dst src => encode 0x01 (registerIndex dst) (operandCode src).1 (operandCode src).2
  | .add dst src => encode 0x02 (registerIndex dst) (operandCode src).1 (operandCode src).2
  | .sub dst src => encode 0x03 (registerIndex dst) (operandCode src).1 (operandCode src).2
  | .mul dst src => encode 0x04 (registerIndex dst) (operandCode src).1 (operandCode src).2
  | .div dst src => encode 0x05 (registerIndex dst) (operandCode src).1 (operandCode src).2
  | .load dst addr => encode 0x06 (registerIndex dst) (operandCode addr).1 (operandCode addr).2
  | .store src addr => encode 0x07 (registerIndex src) (operandCode addr).1 (operandCode addr).2
  | .jmp addr => encode 0x10 0 srcImm addr
  | .cmp dst src => encode 0x11 (registerIndex dst) (operandCode src).1 (operandCode src).2
  | .jz addr => encode 0x12 0 srcImm addr
  | .jnz addr => encode 0x13 0 srcImm addr
  | .int vector => encode 0x80 0 srcImm vector.toUInt64
  | .halt => encode 0xFF 0 0 0

theorem parseBinary_printed (cm : CaseMap) (opcode : UInt8) (dst : Register) (src : Operand) :
    parseBinary cm opcode [dst.display.toList ++ [','], src.display.toList] =
      some (encode opcode (registerIndex dst) (operandCode src).1 (operandCode src).2) := by
  simp only [parseBinary, regIndex_comma, parseOperand_display, bind, Option.bind, pure]

theorem parseUnary_printed (opcode : UInt8) (value : UInt64) :
    parseUnary opcode [(displayHex value.toNat).toList] = some (encode opcode 0 srcImm value) := by
  simp only [parseUnary, parseImmediate_displayHex, bind, Option.bind, pure]

/-- The words of an instruction give its bytes. -/
theorem parseWords_printed (cm : CaseMap) (i : Instruction) :
    parseWords cm (mnemonicOf i).toList (operandsOf i) = some (encoded i) := by
  have hupper : String.ofList (toUppercase cm (mnemonicOf i).toList) = mnemonicOf i := by
    have hascii := (plain_words i _ List.mem_cons_self).1
    rw [toUppercase_ascii cm fun c hc => (hascii c hc).1, (mnemonicOf_capital i).2.2,
      String.ofList_toList]
  rw [parseWords, hupper]
  cases i with
  | mov dst src => exact parseBinary_printed cm 0x01 dst src
  | add dst src => exact parseBinary_printed cm 0x02 dst src
  | sub dst src => exact parseBinary_printed cm 0x03 dst src
  | mul dst src => exact parseBinary_printed cm 0x04 dst src
  | div dst src => exact parseBinary_printed cm 0x05 dst src
  | cmp dst src => exact parseBinary_printed cm 0x11 dst src
  | load dst addr =>
    simp only [mnemonicOf, operandsOf, parseLoad, regIndex_comma, parseMemOperand_display, bind,
      Option.bind, pure]
    rfl
  | store src addr =>
    simp only [mnemonicOf, operandsOf, parseStore, regIndex_bare, trimComma_bracket,
      parseMemOperand_display, bind, Option.bind, pure]
    rfl
  | jmp addr => exact parseUnary_printed 0x10 addr
  | jz addr => exact parseUnary_printed 0x12 addr
  | jnz addr => exact parseUnary_printed 0x13 addr
  | int vector => exact parseUnary_printed 0x80 vector.toUInt64
  | halt => rfl

theorem parseLine_display (cm : CaseMap) (i : Instruction) :
    parseLine cm i.display.toList = some (encoded i) := by
  have hwords : ∀ word ∈ (mnemonicOf i).toList :: operandsOf i, Word word :=
    fun word hword => (plain_words i word hword).1.word (plain_words i word hword).2
  have htrim := trim_joinWords hwords
  -- no printed word has a semicolon
  have hcomment : ';' ∉ joinWords ((mnemonicOf i).toList :: operandsOf i) := by
    intro hmem
    rcases mem_joinWords hmem with hblank | ⟨word, hword, hc⟩
    · exact absurd hblank (by decide)
    · exact ((plain_words i word hword).1 ';' hc).2.2 rfl
  -- the line begins with a capital letter, so it is no comment
  have hhead : ∃ c rest, joinWords ((mnemonicOf i).toList :: operandsOf i) = c :: rest ∧ c ≠ ';' ∧
      c ≠ '/' := by
    have hfirst := head?_joinWords (hwords _ List.mem_cons_self) (operandsOf i)
    obtain ⟨hne, hcapital, -⟩ := mnemonicOf_capital i
    obtain ⟨c, rest, hletters⟩ := List.exists_cons_of_ne_nil hne
    rw [hletters] at hfirst hcapital ⊢
    obtain ⟨rest', hjoined⟩ := List.head?_eq_some_iff.1 hfirst
    obtain ⟨hlow, -⟩ := hcapital c List.mem_cons_self
    refine ⟨c, rest', hjoined, ?_, ?_⟩
    · rintro rfl
      exact absurd hlow (by decide)
    · rintro rfl
      exact absurd hlow (by decide)
  obtain ⟨c, rest, hjoined, hsemicolon, hslash⟩ := hhead
  have hparsed : ¬(joinWords ((mnemonicOf i).toList :: operandsOf i) = [] ∨
      (joinWords ((mnemonicOf i).toList :: operandsOf i)).head? = some ';' ∨
      "//".toList.isPrefixOf (joinWords ((mnemonicOf i).toList :: operandsOf i))) := by
    rw [hjoined]
    simp [hsemicolon, Ne.symm hslash]
  rw [toList_display, parseLine, htrim, if_neg hparsed, removeComment, if_neg hcomment,
    splitWhitespace_words (List.cons_ne_nil _ _) hwords]
  exact parseWords_printed cm i

/-! ## Programs -/

theorem length_encoded (i : Instruction) : (encoded i).length = 8 := by
  cases i <;> rfl

/-- The text of a program, one instruction a line. -/
def programText (program : List Instruction) : String :=
  String.intercalate "\n" (program.map Instruction.display)

theorem lines_programText {program : List Instruction} (hsome : program ≠ []) :
    lines (programText program).toList = program.map fun i => i.display.toList := by
  have htexts : (programText program).toList =
      ['\n'].intercalate (program.map fun i => i.display.toList) := by
    rw [programText, String.toList_intercalate, List.map_map]
    rfl
  have hletter : ∀ i : Instruction, ∀ c ∈ i.display.toList, c = ' ' ∨ isWhitespace c = false := by
    intro i c hc
    rw [toList_display] at hc
    exact (mem_joinWords hc).imp_right fun ⟨word, hword, hmem⟩ => ((plain_words i word hword).1 c hmem).2.1
  rw [htexts]
  apply lines_joined (by simpa using hsome)
  · intro t ht
    obtain ⟨i, -, rfl⟩ := List.mem_map.1 ht
    intro hnil
    have hfirst := head?_joinWords
      (Plain.word (plain_words i _ List.mem_cons_self).1 (plain_words i _ List.mem_cons_self).2) (operandsOf i)
    rw [← toList_display, hnil] at hfirst
    exact (mnemonicOf_capital i).1 (List.head?_eq_none_iff.1 hfirst.symm)
  · intro t ht hmem
    obtain ⟨i, -, rfl⟩ := List.mem_map.1 ht
    rcases hletter i '\n' hmem with hblank | hsolid
    · exact absurd hblank (by decide)
    · exact absurd hsolid (by decide)
  · intro t ht hlast
    obtain ⟨i, -, rfl⟩ := List.mem_map.1 ht
    rcases hletter i '\r' (List.mem_of_getLast? hlast) with hblank | hsolid
    · exact absurd hblank (by decide)
    · exact absurd hsolid (by decide)

/-- A printed program is assembled into the bytes of its instructions. -/
theorem assemble_programText (cm : CaseMap) {program : List Instruction} (hsome : program ≠ []) :
    assemble cm (programText program) = .ok (program.flatMap encoded) := by
  have hcode : (lines (programText program).toList).flatMap (fun line => (parseLine cm line).getD []) =
      program.flatMap encoded := by
    rw [lines_programText hsome, List.flatMap_map]
    congr 1
    funext i
    rw [parseLine_display]
    rfl
  have hne : program.flatMap encoded ≠ [] := by
    obtain ⟨i, rest, rfl⟩ := List.exists_cons_of_ne_nil hsome
    intro hnil
    rw [List.flatMap_cons] at hnil
    have hlength := congrArg List.length (List.append_eq_nil_iff.1 hnil).1
    rw [length_encoded] at hlength
    cases hlength
  simp only [assemble, hcode, hne, if_false]

theorem length_flatMap_encoded (program : List Instruction) :
    (program.flatMap encoded).length = 8 * program.length := by
  induction program with
  | nil => rfl
  | cons i program ih =>
    rw [List.flatMap_cons, List.length_append, length_encoded, ih, List.length_cons]
    omega

/-- Byte `j` of instruction `k`. -/
theorem getElem?_flatMap_encoded {program : List Instruction} {k : Nat} {i : Instruction}
    (hi : program[k]? = some i) {j : Nat} (hj : j < 8) :
    (program.flatMap encoded)[8 * k + j]? = (encoded i)[j]? := by
  induction program generalizing k with
  | nil => cases hi
  | cons i' program ih =>
    rw [List.flatMap_cons]
    cases k with
    | zero =>
      cases hi
      rw [Nat.mul_zero, Nat.zero_add, List.getElem?_append_left (by rw [length_encoded]; exact hj)]
    | succ k =>
      rw [List.getElem?_append_right (by rw [length_encoded]; omega), length_encoded,
        show 8 * (k + 1) + j - 8 = 8 * k + j by omega]
      exact ih hi

/-! ## Fetching -/

/-- A byte is in memory at a virtual address, in whatever frame its page is mapped to. -/
def HoldsByte (m : MMU) (pid : Pid) (vaddr : VirtAddr) (b : UInt8) : Prop :=
  ∃ entry, m.mapped pid (m.alignDown vaddr) = some entry ∧ entry.flags.present = true ∧
    m.alignDown entry.frame = entry.frame ∧
    m.memory.InBounds (entry.frame.toNat + vaddr.toNat % 2 ^ m.pageSize.shift) 1 ∧
    m.memory.data (entry.frame.toNat + vaddr.toNat % 2 ^ m.pageSize.shift) = b

/-- Code is stored from virtual address 0 on. -/
def HoldsCode (m : MMU) (pid : Pid) (code : List UInt8) : Prop :=
  ∀ j b, code[j]? = some b → HoldsByte m pid (UInt64.ofNat j) b

theorem HoldsByte.readU8 {m : MMU} {pid : Pid} {vaddr : VirtAddr} {b : UInt8}
    (h : HoldsByte m pid vaddr b) : m.readU8 pid vaddr = .ok b := by
  obtain ⟨entry, hmap, hpres, hframe, hbounds, hdata⟩ := h
  exact (MMU.readU8_of_mapped hmap hpres hframe b).2 ⟨hbounds, hdata⟩

/-- Four bytes make a word. -/
def wordOf (b₀ b₁ b₂ b₃ : UInt8) : UInt32 :=
  b₀.toUInt32 ||| (b₁.toUInt32 <<< 8) ||| (b₂.toUInt32 <<< 16) ||| (b₃.toUInt32 <<< 24)

theorem wordOf_bytes (v : UInt32) :
    wordOf v.toUInt8 (v >>> 8).toUInt8 (v >>> 16).toUInt8 (v >>> 24).toUInt8 = v := by
  rw [wordOf, ← UInt32.toBitVec_inj]
  simp only [UInt32.toBitVec_or, UInt32.toBitVec_shiftLeft, UInt8.toBitVec_toUInt32,
    UInt32.toBitVec_toUInt8, UInt32.toBitVec_shiftRight]
  ext i hi
  interval_cases i <;> simp

/-- A further byte in the same page lies in the same frame. -/
theorem HoldsByte.next {m : MMU} {pid : Pid} {vaddr i : VirtAddr} {b : UInt8} {entry : PageTableEntry}
    (h : HoldsByte m pid (vaddr + i) b) (hmap : m.mapped pid (m.alignDown vaddr) = some entry)
    (hi : vaddr.toNat % 2 ^ m.pageSize.shift + i.toNat < 2 ^ m.pageSize.shift) :
    m.memory.InBounds (entry.frame.toNat + vaddr.toNat % 2 ^ m.pageSize.shift + i.toNat) 1 ∧
      m.memory.data (entry.frame.toNat + vaddr.toNat % 2 ^ m.pageSize.shift + i.toNat) = b := by
  obtain ⟨entry', hmap', -, -, hbounds, hdata⟩ := h
  obtain ⟨hpage, hoff⟩ := m.pageSize.add_in_page hi
  rw [MMU.alignDown, hpage] at hmap'
  cases hmap.symm.trans hmap'
  rw [hoff, ← Nat.add_assoc] at hbounds hdata
  exact ⟨hbounds, hdata⟩

/-- An aligned word lies in one page, so that its bytes lie in one frame. -/
theorem readU32_of_bytes {m : MMU} {pid : Pid} {vaddr : VirtAddr} {b₀ b₁ b₂ b₃ : UInt8}
    (hsize : 2 ≤ m.pageSize.shift) (haligned : vaddr.toNat % 4 = 0) (h₀ : HoldsByte m pid vaddr b₀)
    (h₁ : HoldsByte m pid (vaddr + 1) b₁) (h₂ : HoldsByte m pid (vaddr + 2) b₂)
    (h₃ : HoldsByte m pid (vaddr + 3) b₃) : m.readU32 pid vaddr = .ok (wordOf b₀ b₁ b₂ b₃) := by
  obtain ⟨entry, hmap, hpres, hframe, -, hdata₀⟩ := h₀
  have hfour : 4 ∣ 2 ^ m.pageSize.shift := pow_dvd_pow 2 hsize
  have hoff : vaddr.toNat % 2 ^ m.pageSize.shift % 4 = 0 := by
    rw [Nat.mod_mod_of_dvd _ hfour]
    exact haligned
  -- four divides the size of a page
  have hroom : vaddr.toNat % 2 ^ m.pageSize.shift + 3 < 2 ^ m.pageSize.shift := by
    have hlt := Nat.mod_lt vaddr.toNat (Nat.two_pow_pos m.pageSize.shift)
    omega
  obtain ⟨-, hdata₁⟩ := h₁.next hmap (show _ + 1 < _ by omega)
  obtain ⟨-, hdata₂⟩ := h₂.next hmap (show _ + 2 < _ by omega)
  obtain ⟨hbounds, hdata₃⟩ := h₃.next hmap (show _ + 3 < _ from hroom)
  have htrans : m.translate pid vaddr .read = .ok (entry.frame + (vaddr - m.alignDown vaddr)) :=
    (m.translate_read_eq_ok_iff pid vaddr _).2 ⟨entry, hmap, hpres, rfl⟩
  -- the word is aligned in its frame as in its page
  have hphys : (entry.frame.toNat + vaddr.toNat % 2 ^ m.pageSize.shift) % 4 = 0 := by
    have hpage : entry.frame.toNat % 2 ^ m.pageSize.shift = 0 := by
      rw [← hframe]
      exact m.pageSize.alignDown_mod entry.frame
    have hdvd : 4 ∣ entry.frame.toNat := hfour.trans (Nat.dvd_of_mod_eq_zero hpage)
    omega
  have hword : m.memory.InBounds (entry.frame.toNat + vaddr.toNat % 2 ^ m.pageSize.shift) 4 :=
    ⟨hbounds.1, hbounds.2⟩
  have hread : m.memory.readU32 (entry.frame.toNat + vaddr.toNat % 2 ^ m.pageSize.shift) =
      .ok (wordOf b₀ b₁ b₂ b₃) := by
    simp only [PhysicalMemory.readU32, PhysicalMemory.checkAlignment, hphys, if_true,
      PhysicalMemory.checkBounds, hword, hdata₀]
    rw [wordOf, ← hdata₁, ← hdata₂, ← hdata₃]
    rfl
  rw [MMU.readU32, htrans]
  simp only [m.toNat_frame_add hframe, hread]

open VirtualCPU in
theorem run_byte_bind {β : Type} {m : MMU} {cpu : VirtualCPU} {b : UInt8} {f : UInt8 → Fetch β}
    (h : HoldsByte m cpu.currentPid cpu.pc b) :
    (fetchByte m >>= f).run.run cpu = (f b).run.run (cpu.setPc (cpu.pc + 1)) := by
  rw [run_bind, run_fetchByte, h.readU8]

/-- Eight bytes, fetched one after the other. -/
theorem run_fetchBytes {m : MMU} {cpu : VirtualCPU} (hsize : 2 ≤ m.pageSize.shift)
    (haligned : cpu.pc.toNat % 4 = 0) {opcode dstReg srcType pad b₀ b₁ b₂ b₃ : UInt8}
    (hbytes : ∀ j b, [opcode, dstReg, srcType, pad, b₀, b₁, b₂, b₃][j]? = some b →
      HoldsByte m cpu.currentPid (cpu.pc + UInt64.ofNat j) b) :
    (VirtualCPU.fetchEncoded m).run.run cpu =
      (.ok ⟨opcode, dstReg, srcType, (wordOf b₀ b₁ b₂ b₃).toUInt64⟩, cpu.setPc (cpu.pc + 8)) := by
  -- the program counter moves by one four times, then by four
  have hfrom : ∀ k i n : UInt64, k + i = n → cpu.pc + k + i = cpu.pc + n := by
    rintro k i n rfl
    rw [UInt64.add_assoc]
  have h₀ : HoldsByte m cpu.currentPid cpu.pc opcode := by
    simpa using hbytes 0 opcode rfl
  have h₁ : HoldsByte m cpu.currentPid (cpu.pc + 1) dstReg := hbytes 1 dstReg rfl
  have h₂ : HoldsByte m cpu.currentPid (cpu.pc + 1 + 1) srcType := by
    rw [hfrom 1 1 2 rfl]
    exact hbytes 2 srcType rfl
  have h₃ : HoldsByte m cpu.currentPid (cpu.pc + 1 + 1 + 1) pad := by
    rw [hfrom 1 1 2 rfl, hfrom 2 1 3 rfl]
    exact hbytes 3 pad rfl
  have hpc : cpu.pc + 1 + 1 + 1 + 1 = cpu.pc + 4 := by
    rw [hfrom 1 1 2 rfl, hfrom 2 1 3 rfl, hfrom 3 1 4 rfl]
  have hword : m.readU32 cpu.currentPid (cpu.pc + 1 + 1 + 1 + 1) = .ok (wordOf b₀ b₁ b₂ b₃) := by
    -- the second half is read as one aligned word
    have hfour : (cpu.pc + 4).toNat % 4 = 0 := by
      rw [UInt64.toNat_add, show (4 : UInt64).toNat = 4 from rfl]
      omega
    rw [hpc]
    apply readU32_of_bytes hsize hfour (hbytes 4 _ rfl)
    · rw [hfrom 4 1 5 rfl]
      exact hbytes 5 _ rfl
    · rw [hfrom 4 2 6 rfl]
      exact hbytes 6 _ rfl
    · rw [hfrom 4 3 7 rfl]
      exact hbytes 7 _ rfl
  rw [VirtualCPU.fetchEncoded, run_byte_bind h₀, run_byte_bind h₁, run_byte_bind h₂, run_byte_bind h₃,
    VirtualCPU.run_bind, VirtualCPU.run_fetchQword]
  simp only [VirtualCPU.setPc, hword]
  rw [hpc, hfrom 4 4 8 rfl]
  rfl

/-- Bytes of an encoded instruction, fetched one after the other. -/
theorem run_fetchEncoded {m : MMU} {cpu : VirtualCPU} (hsize : 2 ≤ m.pageSize.shift)
    (haligned : cpu.pc.toNat % 4 = 0) {opcode dstReg srcType : UInt8} {value : UInt64}
    (hbytes : ∀ j b, (encode opcode dstReg srcType value)[j]? = some b →
      HoldsByte m cpu.currentPid (cpu.pc + UInt64.ofNat j) b) :
    (VirtualCPU.fetchEncoded m).run.run cpu =
      (.ok ⟨opcode, dstReg, srcType, value.toUInt32.toUInt64⟩, cpu.setPc (cpu.pc + 8)) := by
  rw [run_fetchBytes hsize haligned hbytes, wordOf_bytes]

/-- The number in an operand has at most 32 bits. -/
def OperandFits : Operand → Prop
  | .reg _ => True
  | .imm value => value.toNat < 2 ^ 32

/-- The number in an instruction has at most 32 bits. -/
def Fits : Instruction → Prop
  | .mov _ src => OperandFits src
  | .add _ src => OperandFits src
  | .sub _ src => OperandFits src
  | .mul _ src => OperandFits src
  | .div _ src => OperandFits src
  | .load _ addr => OperandFits addr
  | .store _ addr => OperandFits addr
  | .jmp addr => addr.toNat < 2 ^ 32
  | .cmp _ src => OperandFits src
  | .jz addr => addr.toNat < 2 ^ 32
  | .jnz addr => addr.toNat < 2 ^ 32
  | .int _ => True
  | .halt => True

theorem toUInt64_toUInt32 {value : UInt64} (h : value.toNat < 2 ^ 32) :
    value.toUInt32.toUInt64 = value := by
  apply UInt64.toNat_inj.1
  rw [UInt32.toNat_toUInt64, UInt64.toNat_toUInt32]
  exact Nat.mod_eq_of_lt h

/-- The decoder reads register and operand of an encoding. -/
theorem decodeBinary_encoded (opcode : UInt8) (dst : Register) {src : Operand} (h : OperandFits src)
    (make : Register → Operand → Instruction) :
    VirtualCPU.decodeBinary ⟨opcode, registerIndex dst, (operandCode src).1,
      (operandCode src).2.toUInt32.toUInt64⟩ make = .ok (make dst src) := by
  have hdst : VirtualCPU.decodeRegister (registerIndex dst).toNat = .ok dst := by
    cases dst <;> rfl
  have hsrc : VirtualCPU.decodeOperand ⟨opcode, registerIndex dst, (operandCode src).1,
      (operandCode src).2.toUInt32.toUInt64⟩ = .ok src := by
    cases src with
    | reg r => cases r <;> rfl
    | imm value =>
      rw [operandCode, toUInt64_toUInt32 h]
      rfl
  simp only [VirtualCPU.decodeBinary, hdst, hsrc, bind, Except.bind, pure, Except.pure]

/-- The fields of an instruction, and that the decoder makes it out of them. -/
theorem encoded_fields {i : Instruction} (h : Fits i) : ∃ opcode dstReg srcType value,
    encoded i = encode opcode dstReg srcType value ∧
      ∀ pc, VirtualCPU.decode ⟨opcode, dstReg, srcType, value.toUInt32.toUInt64⟩ pc = .ok i := by
  cases i with
  | mov dst src => exact ⟨_, _, _, _, rfl, fun _ => decodeBinary_encoded 0x01 dst h .mov⟩
  | add dst src => exact ⟨_, _, _, _, rfl, fun _ => decodeBinary_encoded 0x02 dst h .add⟩
  | sub dst src => exact ⟨_, _, _, _, rfl, fun _ => decodeBinary_encoded 0x03 dst h .sub⟩
  | mul dst src => exact ⟨_, _, _, _, rfl, fun _ => decodeBinary_encoded 0x04 dst h .mul⟩
  | div dst src => exact ⟨_, _, _, _, rfl, fun _ => decodeBinary_encoded 0x05 dst h .div⟩
  | load dst addr => exact ⟨_, _, _, _, rfl, fun _ => decodeBinary_encoded 0x06 dst h .load⟩
  | store src addr => exact ⟨_, _, _, _, rfl, fun _ => decodeBinary_encoded 0x07 src h .store⟩
  | cmp dst src => exact ⟨_, _, _, _, rfl, fun _ => decodeBinary_encoded 0x11 dst h .cmp⟩
  | jmp addr =>
    refine ⟨_, _, _, _, rfl, fun _ => ?_⟩
    rw [toUInt64_toUInt32 h]
    rfl
  | jz addr =>
    refine ⟨_, _, _, _, rfl, fun _ => ?_⟩
    rw [toUInt64_toUInt32 h]
    rfl
  | jnz addr =>
    refine ⟨_, _, _, _, rfl, fun _ => ?_⟩
    rw [toUInt64_toUInt32 h]
    rfl
  | int vector =>
    refine ⟨_, _, _, _, rfl, fun _ => ?_⟩
    have hsmall : vector.toUInt64.toNat < 2 ^ 32 := by
      rw [UInt8.toNat_toUInt64]
      exact Nat.lt_trans vector.toNat_lt (by decide)
    rw [toUInt64_toUInt32 hsmall]
    exact congrArg (fun v => Except.ok (Instruction.int v)) (by simp)
  | halt => exact ⟨_, _, _, _, rfl, fun _ => rfl⟩

/-- Printing, assembling and fetching. The pages of the code may be mapped to any frames; a mapping
request rounds frame addresses down to pages, which have at least four bytes. -/
theorem fetch_assembled (cm : CaseMap) {program : List Instruction} (hsome : program ≠ [])
    (hfits : ∀ i ∈ program, Fits i) :
    ∃ code, assemble cm (programText program) = .ok code ∧ code.length = 8 * program.length ∧
      ∀ (m : MMU) (cpu : VirtualCPU), 2 ≤ m.pageSize.shift → HoldsCode m cpu.currentPid code →
        ∀ k i, program[k]? = some i → cpu.pc = UInt64.ofNat (8 * k) →
          VirtualCPU.fetchInstruction m cpu = (.ok i, { cpu with pc := UInt64.ofNat (8 * k + 8) }) := by
  refine ⟨_, assemble_programText cm hsome, length_flatMap_encoded program, ?_⟩
  intro m cpu hsize hholds k i hi hpc
  obtain ⟨opcode, dstReg, srcType, value, hencoded, hdecode⟩ :=
    encoded_fields (hfits i (List.mem_of_getElem? hi))
  have haligned : cpu.pc.toNat % 4 = 0 := by
    rw [hpc, UInt64.toNat_ofNat']
    omega
  have hbytes : ∀ j b, (encode opcode dstReg srcType value)[j]? = some b →
      HoldsByte m cpu.currentPid (cpu.pc + UInt64.ofNat j) b := by
    intro j b hb
    have hj : j < 8 := (List.getElem?_eq_some_iff.1 hb).1
    have hbyte := hholds (8 * k + j) b (by
      rw [getElem?_flatMap_encoded hi hj, hencoded]
      exact hb)
    rw [hpc, ← UInt64.ofNat_add]
    exact hbyte
  have hnext : cpu.pc + 8 = UInt64.ofNat (8 * k + 8) := by
    rw [hpc, UInt64.ofNat_add]
    rfl
  rw [VirtualCPU.fetchInstruction, run_fetchEncoded hsize haligned hbytes, hnext]
  simp only [hdecode]
  rfl

/-- A store and a halt, in the second frame of the memory. -/
theorem fetch_assembled_store :
    let m : MMU := ⟨AList.insert 1 (AList.insert 0 ⟨0x1000, .presentWritable⟩ ∅) ∅,
      ⟨fun a => [7, 1, 1, 0, 0, 2, 0, 0, 255].getD (a - 0x1000) 0, 0x2000⟩, PageSize.fourK⟩
    assemble .ascii (programText [.store .r1 (.imm 0x200), .halt]) =
        .ok [7, 1, 1, 0, 0, 2, 0, 0, 255, 0, 0, 0, 0, 0, 0, 0] ∧
      VirtualCPU.fetchInstruction m ((VirtualCPU.new 1).setPc 8) =
        (.ok .halt, (VirtualCPU.new 1).setPc 16) := by
  intro m
  have hfits : ∀ i ∈ [Instruction.store .r1 (.imm 0x200), .halt], Fits i :=
    List.forall_mem_cons.2 ⟨show (0x200 : UInt64).toNat < 2 ^ 32 by decide,
      List.forall_mem_singleton.2 trivial⟩
  obtain ⟨code, hcode, -, hfetch⟩ := fetch_assembled .ascii (List.cons_ne_nil _ _) hfits
  have hbytes : code = [7, 1, 1, 0, 0, 2, 0, 0, 255, 0, 0, 0, 0, 0, 0, 0] := by
    rw [assemble_programText .ascii (List.cons_ne_nil _ _)] at hcode
    exact (Except.ok.inj hcode).symm
  subst hbytes
  refine ⟨hcode, hfetch m ((VirtualCPU.new 1).setPc 8) (by decide) ?_ 1 .halt rfl rfl⟩
  intro j b hb
  have hj : j < 16 := (List.getElem?_eq_some_iff.1 hb).1
  refine ⟨⟨0x1000, .presentWritable⟩, ?_, rfl, by decide +kernel, ?_, ?_⟩
  · interval_cases j <;> decide +kernel
  · interval_cases j <;> decide +kernel
  · interval_cases j <;> (cases hb; decide +kernel)

end GenshinOs.Process
