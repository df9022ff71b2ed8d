import GenshinOs.Process.Assembler

/-!
# What the assembler makes of a text

A line of a program that is neither blank nor a comment should be one instruction
(`src/services/process/assembler.rs`). `written` says what is written on it: a mnemonic and its operands,
with numbers of any size, and nothing else. `Faithful` says that the assembler fails or makes one
instruction of eight bytes out of each of these lines, which is decoded to what is written.

The assembler is not faithful in general. It skips a line that it cannot read, it looks only at the words
that it needs, and it cuts numbers to 32 bits, of which the decoder keeps eight for a vector.
`assemble_faithful_iff` says for which texts it is.
-/

set_option autoImplicit false

namespace GenshinOs.Process

open GenshinOs.Lib GenshinOs.Hardware

/-! ## What is written -/

/-- Instructions with a register and an operand. -/
inductive BinaryOp where
  | mov
  | add
  | sub
  | mul
  | div
  | load
  | store
  | cmp
  deriving DecidableEq

/-- Instructions with an address or a vector. -/
inductive UnaryOp where
  | jmp
  | jz
  | jnz
  | int
  deriving DecidableEq

/-- The word that an instruction starts with. -/
inductive Mnemonic where
  | halt
  | unary (op : UnaryOp)
  | binary (op : BinaryOp)
  deriving DecidableEq

/-- An operand as it is written. -/
inductive WrittenOperand where
  | reg (r : Register)
  | num (value : Nat)
  deriving DecidableEq

/-- An instruction as it is written. -/
inductive Written where
  | halt
  | unary (op : UnaryOp) (value : Nat)
  | binary (op : BinaryOp) (r : Register) (operand : WrittenOperand)
  deriving DecidableEq

/-- The mnemonic with this name. -/
def mnemonicNamed (name : String) : Option Mnemonic :=
  match name with
  | "HALT" => some .halt
  | "MOV" => some (.binary .mov)
  | "ADD" => some (.binary .add)
  | "SUB" => some (.binary .sub)
  | "MUL" => some (.binary .mul)
  | "DIV" => some (.binary .div)
  | "JMP" => some (.unary .jmp)
  | "CMP" => some (.binary .cmp)
  | "JZ" => some (.unary .jz)
  | "JE" => some (.unary .jz)
  | "JNZ" => some (.unary .jnz)
  | "JNE" => some (.unary .jnz)
  | "LOAD" => some (.binary .load)
  | "STORE" => some (.binary .store)
  | "INT" => some (.unary .int)
  | _ => none

/-- Number of operands. -/
def Mnemonic.arity : Mnemonic → Nat
  | .halt => 0
  | .unary _ => 1
  | .binary _ => 2

/-- The register with this name, in either case. -/
def registerNamed (cm : CaseMap) (name : List Char) : Option Register :=
  match String.ofList (toUppercase cm name) with
  | "R0" => some .r0
  | "R1" => some .r1
  | "R2" => some .r2
  | "R3" => some .r3
  | _ => none

/-- A number, in base 16 after `0x`. -/
def numberWritten (s : List Char) : Option Nat :=
  match ("0x".toList.isPrefixOf? s).or ("0X".toList.isPrefixOf? s) with
  | some hex => numeral 16 hex
  | none => numeral 10 s

/-- A number after `#`, or a register. -/
def operandWritten (cm : CaseMap) (s : List Char) : Option WrittenOperand :=
  match ['#'].isPrefixOf? (trim s) with
  | some stripped => (numberWritten stripped).map .num
  | none => (registerNamed cm (trim s)).map .reg

/-- A number as it is written, with the sign for it or without. -/
def addressWritten (s : List Char) : Option Nat := numberWritten ((trim s).dropWhile (· == '#'))

/-- A register or an address in brackets. -/
def memoryWritten (cm : CaseMap) (s : List Char) : Option WrittenOperand :=
  match (['['].isPrefixOf? (trim s)).bind fun rest => [']'].isSuffixOf? rest with
  | none => none
  | some inner =>
    match registerNamed cm inner with
    | some r => some (.reg r)
    | none => (addressWritten inner).map .num

/-- The two operands of an instruction. A store has its address first. -/
def operandsWritten (cm : CaseMap) (op : BinaryOp) (first second : List Char) :
    Option (Register × WrittenOperand) :=
  match op with
  | .store => do
    let src ← registerNamed cm (trimComma second)
    let addr ← memoryWritten cm (trimComma first)
    return (src, addr)
  | .load => do
    let dst ← registerNamed cm (trimComma first)
    let addr ← memoryWritten cm second
    return (dst, addr)
  | _ => do
    let dst ← registerNamed cm (trimComma first)
    let src ← operandWritten cm second
    return (dst, src)

/-- A mnemonic with exactly its operands. -/
def writtenWith (cm : CaseMap) : Mnemonic → List (List Char) → Option Written
  | .halt, [] => some .halt
  | .unary op, [addr] => (addressWritten addr).map (.unary op)
  | .binary op, [first, second] =>
    (operandsWritten cm op first second).map fun operands => .binary op operands.1 operands.2
  | _, _ => none

/-- The instruction that the words are. Either further words may follow it, or nothing may. -/
def written (cm : CaseMap) (further : Bool) : List (List Char) → Option Written
  | [] => none
  | mnemonic :: operands =>
    (mnemonicNamed (String.ofList (toUppercase cm mnemonic))).bind fun m =>
      writtenWith cm m (if further then operands.take m.arity else operands)

/-- The words of a line, without its comment. -/
def lineWords (line : List Char) : List (List Char) := splitWhitespace (removeComment (trim line))

/-- The line is blank or a comment. -/
def BlankOrComment (line : List Char) : Prop :=
  trim line = [] ∨ (trim line).head? = some ';' ∨ "//".toList.isPrefixOf (trim line)

instance (line : List Char) : Decidable (BlankOrComment line) := inferInstanceAs (Decidable (_ ∨ _))

/-- The lines that should be instructions. -/
def instructionLines (source : String) : List (List Char) :=
  (lines source.toList).filter fun line => decide ¬BlankOrComment line

namespace Written

/-- The number in an instruction, 0 if there is none. -/
def value : Written → Nat
  | .halt => 0
  | .unary _ value => value
  | .binary _ _ (.num value) => value
  | .binary _ _ (.reg _) => 0

/-- Numbers have 32 bits in the encoding, vectors eight. -/
def limit : Written → Nat
  | .unary .int _ => 2 ^ 8
  | _ => 2 ^ 32

/-- The number is within the limit. -/
def Fits (w : Written) : Prop := w.value < w.limit

instance (w : Written) : Decidable w.Fits := inferInstanceAs (Decidable (_ < _))

end Written

/-- An operand as it is written. -/
def spellOperand : Operand → WrittenOperand
  | .reg r => .reg r
  | .imm value => .num value.toNat

/-- How a decoded instruction is written. -/
def spell : Instruction → Written
  | .mov dst src => .binary .mov dst (spellOperand src)
  | .add dst src => .binary .add dst (spellOperand src)
  | .sub dst src => .binary .sub dst (spellOperand src)
  | .mul dst src => .binary .mul dst (spellOperand src)
  | .div dst src => .binary .div dst (spellOperand src)
  | .load dst addr => .binary .load dst (spellOperand addr)
  | .store src addr => .binary .store src (spellOperand addr)
  | .jmp addr => .unary .jmp addr.toNat
  | .cmp dst src => .binary .cmp dst (spellOperand src)
  | .jz addr => .unary .jz addr.toNat
  | .jnz addr => .unary .jnz addr.toNat
  | .int vector => .unary .int vector.toNat
  | .halt => .halt

/-! ## Decoding -/

/-- The instruction that eight bytes are decoded to. -/
def decodeBytes : List UInt8 → Option Instruction
  | [opcode, dstReg, srcType, _, b₀, b₁, b₂, b₃] =>
    (VirtualCPU.decode ⟨opcode, dstReg, srcType, (wordOf b₀ b₁ b₂ b₃).toUInt64⟩ 0).toOption
  | _ => none

theorem decodeBytes_some {bytes : List UInt8} {i : Instruction} (h : decodeBytes bytes = some i) :
    ∃ opcode dstReg srcType pad b₀ b₁ b₂ b₃, bytes = [opcode, dstReg, srcType, pad, b₀, b₁, b₂, b₃] ∧
      VirtualCPU.decode ⟨opcode, dstReg, srcType, (wordOf b₀ b₁ b₂ b₃).toUInt64⟩ 0 = .ok i := by
  unfold decodeBytes at h
  split at h
  · next opcode dstReg srcType pad b₀ b₁ b₂ b₃ =>
    refine ⟨opcode, dstReg, srcType, pad, b₀, b₁, b₂, b₃, rfl, ?_⟩
    cases hd : VirtualCPU.decode ⟨opcode, dstReg, srcType, (wordOf b₀ b₁ b₂ b₃).toUInt64⟩ 0 with
    | error e =>
      rw [hd] at h
      cases h
    | ok j =>
      rw [hd] at h
      exact congrArg Except.ok (Option.some.inj h)
  · cases h

theorem decodeBinary_ok {e : VirtualCPU.Encoded} {make : Register → Operand → Instruction} {i : Instruction}
    (h : VirtualCPU.decodeBinary e make = .ok i) :
    ∃ dst src, VirtualCPU.decodeOperand e = .ok src ∧ i = make dst src := by
  rw [VirtualCPU.decodeBinary] at h
  cases hdst : VirtualCPU.decodeRegister e.dstReg.toNat with
  | error err =>
    rw [hdst] at h
    cases h
  | ok dst =>
    rw [hdst] at h
    cases hsrc : VirtualCPU.decodeOperand e with
    | error err =>
      rw [hsrc] at h
      cases h
    | ok src =>
      rw [hsrc] at h
      cases h
      exact ⟨dst, src, rfl, rfl⟩

/-- A number is decoded from the whole word. -/
theorem imm_of_decodeOperand {e : VirtualCPU.Encoded} {value : UInt64}
    (h : VirtualCPU.decodeOperand e = .ok (.imm value)) : value = e.srcValue := by
  rw [VirtualCPU.decodeOperand] at h
  split at h
  · cases hregister : VirtualCPU.decodeRegister e.srcValue.toNat with
    | error err =>
      rw [hregister] at h
      cases h
    | ok r =>
      rw [hregister] at h
      cases h
  · cases h
    rfl

theorem fits_binary (op : BinaryOp) (dst : Register) {src : Operand}
    (h : ∀ value, src = .imm value → value.toNat < 2 ^ 32) :
    (Written.binary op dst (spellOperand src)).Fits := by
  cases src with
  | reg r => exact Nat.two_pow_pos 32
  | imm value => exact h value rfl

/-- What is decoded has a number within the limit. -/
theorem fits_of_decodeBytes {bytes : List UInt8} {i : Instruction} (h : decodeBytes bytes = some i) :
    (spell i).Fits := by
  obtain ⟨opcode, dstReg, srcType, pad, b₀, b₁, b₂, b₃, -, hdecoded⟩ := decodeBytes_some h
  generalize hword : wordOf b₀ b₁ b₂ b₃ = word at hdecoded
  have hsmall : word.toUInt64.toNat < 2 ^ 32 := by
    rw [UInt32.toNat_toUInt64]
    exact word.toNat_lt
  -- an operand is a register or the word
  have hbinary : ∀ {make : Register → Operand → Instruction} {o : BinaryOp},
      (∀ dst src, spell (make dst src) = .binary o dst (spellOperand src)) →
      VirtualCPU.decodeBinary ⟨opcode, dstReg, srcType, word.toUInt64⟩ make = .ok i → (spell i).Fits := by
    intro make o hmake hd
    obtain ⟨dst, src, hsrc, rfl⟩ := decodeBinary_ok hd
    rw [hmake]
    apply fits_binary
    rintro value rfl
    rw [imm_of_decodeOperand hsrc]
    exact hsmall
  rw [VirtualCPU.decode] at hdecoded
  split at hdecoded
  · exact hbinary (o := .mov) (fun _ _ => rfl) hdecoded
  · exact hbinary (o := .add) (fun _ _ => rfl) hdecoded
  · exact hbinary (o := .sub) (fun _ _ => rfl) hdecoded
  · exact hbinary (o := .mul) (fun _ _ => rfl) hdecoded
  · exact hbinary (o := .div) (fun _ _ => rfl) hdecoded
  · exact hbinary (o := .load) (fun _ _ => rfl) hdecoded
  · exact hbinary (o := .store) (fun _ _ => rfl) hdecoded
  · cases hdecoded
    exact hsmall
  · exact hbinary (o := .cmp) (fun _ _ => rfl) hdecoded
  · cases hdecoded
    exact hsmall
  · cases hdecoded
    exact hsmall
  · cases hdecoded
    exact (UInt64.toUInt8 _).toNat_lt
  · cases hdecoded
    exact Nat.two_pow_pos 32
  · cases hdecoded

/-! ## Encoding -/

/-- The opcode of an instruction with two operands. -/
def BinaryOp.opcode : BinaryOp → UInt8
  | .mov => 0x01
  | .add => 0x02
  | .sub => 0x03
  | .mul => 0x04
  | .div => 0x05
  | .load => 0x06
  | .store => 0x07
  | .cmp => 0x11

/-- The opcode of an instruction with one operand. -/
def UnaryOp.opcode : UnaryOp → UInt8
  | .jmp => 0x10
  | .jz => 0x12
  | .jnz => 0x13
  | .int => 0x80

/-- Type and value of an operand. -/
def WrittenOperand.code : WrittenOperand → UInt8 × UInt64
  | .reg r => (srcReg, (registerIndex r).toUInt64)
  | .num value => (srcImm, UInt64.ofNat value)

/-- The bytes that the assembler makes of an instruction whose number has at most 64 bits. -/
def Written.bytes : Written → List UInt8
  | .halt => encode 0xFF 0 0 0
  | .unary op value => encode op.opcode 0 srcImm (UInt64.ofNat value)
  | .binary op r operand => encode op.opcode (registerIndex r) operand.code.1 operand.code.2

theorem Written.length_bytes (w : Written) : w.bytes.length = 8 := by
  cases w with
  | halt => rfl
  | unary op value => rfl
  | binary op r operand => rfl

theorem toNat_ofNat_word {value : Nat} (h : value < 2 ^ 32) : (UInt64.ofNat value).toNat = value :=
  UInt64.toNat_ofNat_of_lt' (Nat.lt_trans h (by decide))

/-- The operand of an instruction that is written so. -/
theorem exists_operand {operand : WrittenOperand} (h : ∀ value, operand = .num value → value < 2 ^ 32) :
    ∃ o, spellOperand o = operand ∧ operandCode o = operand.code ∧ OperandFits o := by
  cases operand with
  | reg r => exact ⟨.reg r, rfl, rfl, trivial⟩
  | num value =>
    have hvalue := toNat_ofNat_word (h value rfl)
    refine ⟨.imm (UInt64.ofNat value), by rw [spellOperand, hvalue], rfl, ?_⟩
    rw [OperandFits, hvalue]
    exact h value rfl

/-- Within the limits it is the spelling of an instruction that the encoder and the decoder agree on. -/
theorem exists_spelled {w : Written} (h : w.Fits) : ∃ i, spell i = w ∧ encoded i = w.bytes ∧ Fits i := by
  cases w with
  | halt => exact ⟨.halt, rfl, rfl, trivial⟩
  | unary op value =>
    cases op with
    | int =>
      -- vectors are bytes
      have hsmall : value < 2 ^ 8 := h
      have hbyte : (UInt8.ofNat value).toNat = value := UInt8.toNat_ofNat_of_lt' hsmall
      have hwide : (UInt8.ofNat value).toUInt64 = UInt64.ofNat value := by
        apply UInt64.toNat_inj.1
        rw [UInt8.toNat_toUInt64, hbyte, toNat_ofNat_word (Nat.lt_trans hsmall (by decide))]
      refine ⟨.int (UInt8.ofNat value), by rw [spell, hbyte], ?_, trivial⟩
      rw [encoded, hwide]
      rfl
    | jmp =>
      have hvalue := toNat_ofNat_word (show value < 2 ^ 32 from h)
      exact ⟨.jmp (UInt64.ofNat value), by rw [spell, hvalue], rfl, by rw [Fits, hvalue]; exact h⟩
    | jz =>
      have hvalue := toNat_ofNat_word (show value < 2 ^ 32 from h)
      exact ⟨.jz (UInt64.ofNat value), by rw [spell, hvalue], rfl, by rw [Fits, hvalue]; exact h⟩
    | jnz =>
      have hvalue := toNat_ofNat_word (show value < 2 ^ 32 from h)
      exact ⟨.jnz (UInt64.ofNat value), by rw [spell, hvalue], rfl, by rw [Fits, hvalue]; exact h⟩
  | binary op r operand =>
    have hnumber : ∀ value, operand = .num value → value < 2 ^ 32 := by
      rintro value rfl
      exact h
    obtain ⟨o, rfl, hcode, hfits⟩ := exists_operand hnumber
    rw [Written.bytes, ← hcode]
    cases op with
    | mov => exact ⟨.mov r o, rfl, rfl, hfits⟩
    | add => exact ⟨.add r o, rfl, rfl, hfits⟩
    | sub => exact ⟨.sub r o, rfl, rfl, hfits⟩
    | mul => exact ⟨.mul r o, rfl, rfl, hfits⟩
    | div => exact ⟨.div r o, rfl, rfl, hfits⟩
    | load => exact ⟨.load r o, rfl, rfl, hfits⟩
    | store => exact ⟨.store r o, rfl, rfl, hfits⟩
    | cmp => exact ⟨.cmp r o, rfl, rfl, hfits⟩

/-- Within the limits an instruction is encoded and decoded without loss. -/
theorem decodeBytes_bytes {w : Written} (h : w.Fits) : ∃ i, decodeBytes w.bytes = some i ∧ spell i = w := by
  obtain ⟨i, hspell, hencoded, hfits⟩ := exists_spelled h
  obtain ⟨opcode, dstReg, srcType, value, hfields, hdecode⟩ := encoded_fields hfits
  refine ⟨i, ?_, hspell⟩
  rw [← hencoded, hfields, encode, decodeBytes, wordOf_bytes, hdecode]
  rfl

/-! ## Parsing -/

section parsing

variable (cm : CaseMap)

theorem regIndex_eq (name : List Char) : regIndex cm name = (registerNamed cm name).map registerIndex := by
  unfold regIndex registerNamed
  generalize String.ofList (toUppercase cm name) = upper
  split
  case h_5 =>
    -- other names are no registers
    simp [*]
  all_goals rfl

theorem parseNumber_eq (s : List Char) : parseNumber s =
    ((numberWritten s).filter fun n => decide (n < 2 ^ 64)).map UInt64.ofNat := by
  rw [parseNumber, numberWritten]
  cases ("0x".toList.isPrefixOf? s).or ("0X".toList.isPrefixOf? s) with
  | some hex => exact fromStrRadix_eq (show 0 < 16 by decide) hex
  | none => exact fromStrRadix_eq (show 0 < 10 by decide) s

/-- The operand has at most 64 bits. -/
def WrittenOperand.narrow : WrittenOperand → Bool
  | .reg _ => true
  | .num value => decide (value < 2 ^ 64)

/-- A number as an operand. -/
theorem map_parseNumber (s : List Char) : ((parseNumber s).map fun value => (srcImm, value)) =
    (((numberWritten s).map WrittenOperand.num).filter WrittenOperand.narrow).map WrittenOperand.code := by
  rw [parseNumber_eq, Option.filter_map, Option.map_map, Option.map_map]
  rfl

theorem parseOperand_eq (s : List Char) : parseOperand cm s =
    ((operandWritten cm s).filter WrittenOperand.narrow).map WrittenOperand.code := by
  rw [parseOperand, operandWritten]
  cases ['#'].isPrefixOf? (trim s) with
  | none =>
    simp only [regIndex_eq]
    cases registerNamed cm (trim s) with
    | none => rfl
    | some r => rfl
  | some stripped => exact map_parseNumber stripped

theorem parseMemOperand_eq (s : List Char) : parseMemOperand cm s =
    ((memoryWritten cm s).filter WrittenOperand.narrow).map WrittenOperand.code := by
  rw [parseMemOperand, memoryWritten]
  cases (['['].isPrefixOf? (trim s)).bind fun rest => [']'].isSuffixOf? rest with
  | none => rfl
  | some inner =>
    simp only [regIndex_eq]
    cases registerNamed cm inner with
    | some r => rfl
    | none => exact map_parseNumber _

/-- The number has at most 64 bits. -/
def Written.narrow (w : Written) : Bool := decide (w.value < 2 ^ 64)

/-- The parser of the operands of a mnemonic. -/
def parseOperands : Mnemonic → List (List Char) → Option (List UInt8)
  | .halt, _ => some (encode 0xFF 0 0 0)
  | .unary op, operands => parseUnary op.opcode operands
  | .binary .load, operands => parseLoad cm operands
  | .binary .store, operands => parseStore cm operands
  | .binary op, operands => parseBinary cm op.opcode operands

theorem parseWords_eq (mnemonic : List Char) (operands : List (List Char)) :
    parseWords cm mnemonic operands =
      (mnemonicNamed (String.ofList (toUppercase cm mnemonic))).bind fun m =>
        parseOperands cm m operands := by
  unfold parseWords mnemonicNamed
  generalize String.ofList (toUppercase cm mnemonic) = upper
  split
  case h_16 =>
    -- other names are no mnemonics
    simp [*]
  all_goals rfl

/-- A register and an operand, parsed one after the other. -/
theorem parsed_binary (op : BinaryOp) (reg : Option Register) (operand : Option WrittenOperand) :
    ((reg.map registerIndex).bind fun dst =>
      ((operand.filter WrittenOperand.narrow).map WrittenOperand.code).bind fun code =>
        some (encode op.opcode dst code.1 code.2)) =
    (((reg.bind fun r => operand.bind fun o => some (r, o)).map fun operands =>
      Written.binary op operands.1 operands.2).filter Written.narrow).map Written.bytes := by
  cases reg with
  | none => rfl
  | some r =>
    cases operand with
    | none => rfl
    | some o =>
      have hnarrow : (Written.binary op r o).narrow = o.narrow := by
        cases o with
        | reg r => rfl
        | num value => rfl
      simp only [Option.map_some, Option.bind_some, Option.filter_some, hnarrow]
      by_cases ho : o.narrow
      · rw [if_pos ho, if_pos ho]
        rfl
      · rw [if_neg ho, if_neg ho]
        rfl

theorem parseBinary_eq {op : BinaryOp} {first second : List Char} (rest : List (List Char))
    (h : operandsWritten cm op first second =
      (registerNamed cm (trimComma first)).bind fun r => (operandWritten cm second).bind fun o => some (r, o)) :
    parseBinary cm op.opcode (first :: second :: rest) =
      (((operandsWritten cm op first second).map fun operands =>
        Written.binary op operands.1 operands.2).filter Written.narrow).map Written.bytes := by
  rw [h, parseBinary, regIndex_eq, parseOperand_eq]
  exact parsed_binary op _ _

/-- A mnemonic is parsed with its operands, whatever follows them. -/
theorem parseOperands_eq (m : Mnemonic) (operands : List (List Char)) : parseOperands cm m operands =
    ((writtenWith cm m (operands.take m.arity)).filter Written.narrow).map Written.bytes := by
  cases m with
  | halt => rfl
  | unary op =>
    cases operands with
    | nil => rfl
    | cons addr rest =>
      -- one operand, a number
      have hparsed : parseOperands cm (.unary op) (addr :: rest) =
          (parseNumber ((trim addr).dropWhile (· == '#'))).map fun value =>
            encode op.opcode 0 srcImm value := by
        rw [Option.map_eq_bind]
        rfl
      rw [hparsed, parseNumber_eq, Option.map_map]
      simp only [Mnemonic.arity, List.take_succ_cons, List.take_zero, writtenWith, addressWritten]
      rw [Option.filter_map, Option.map_map]
      rfl
  | binary op =>
    -- two operands; words behind them are not looked at
    rcases operands with _ | ⟨first, _ | ⟨second, rest⟩⟩
    · cases op <;> rfl
    · cases op <;> rfl
    · simp only [Mnemonic.arity, List.take_succ_cons, List.take_zero, writtenWith]
      cases op with
      | load =>
        rw [parseOperands, parseLoad, regIndex_eq, parseMemOperand_eq]
        exact parsed_binary .load _ _
      | store =>
        rw [parseOperands, parseStore, regIndex_eq, parseMemOperand_eq]
        exact parsed_binary .store _ _
      | mov => exact parseBinary_eq cm rest rfl
      | add => exact parseBinary_eq cm rest rfl
      | sub => exact parseBinary_eq cm rest rfl
      | mul => exact parseBinary_eq cm rest rfl
      | div => exact parseBinary_eq cm rest rfl
      | cmp => exact parseBinary_eq cm rest rfl

/-- What the line parser makes of a line. -/
theorem parseLine_eq {line : List Char} (h : ¬BlankOrComment line) : parseLine cm line =
    ((written cm true (lineWords line)).filter Written.narrow).map Written.bytes := by
  have hparsed : parseLine cm line = if BlankOrComment line then none else
      match splitWhitespace (removeComment (trim line)) with
      | [] => none
      | mnemonic :: operands => parseWords cm mnemonic operands := rfl
  rw [hparsed, if_neg h, lineWords]
  cases splitWhitespace (removeComment (trim line)) with
  | nil => rfl
  | cons mnemonic operands =>
    simp only [parseWords_eq, written]
    cases mnemonicNamed (String.ofList (toUppercase cm mnemonic)) with
    | none => rfl
    | some m => exact parseOperands_eq cm m operands

theorem parseLine_blank {line : List Char} (h : BlankOrComment line) : parseLine cm line = none := by
  exact if_pos h

/-- An instruction with nothing after it is one with anything after it. -/
theorem written_further {further : Bool} {words : List (List Char)} {w : Written}
    (h : written cm further words = some w) : written cm true words = some w := by
  cases further with
  | true => exact h
  | false =>
    cases words with
    | nil => cases h
    | cons mnemonic operands =>
      simp only [written] at h ⊢
      cases hm : mnemonicNamed (String.ofList (toUppercase cm mnemonic)) with
      | none =>
        rw [hm] at h
        cases h
      | some m =>
        rw [hm] at h
        -- there are as many operands as the mnemonic needs
        have harity : operands.take m.arity = operands := by
          simp only [Option.bind_some] at h
          cases m with
          | halt =>
            cases operands with
            | nil => rfl
            | cons _ _ => cases h
          | unary op =>
            rcases operands with _ | ⟨addr, _ | ⟨_, _⟩⟩
            · cases h
            · rfl
            · cases h
          | binary op =>
            rcases operands with _ | ⟨first, _ | ⟨second, _ | ⟨_, _⟩⟩⟩
            · cases h
            · cases h
            · rfl
            · cases h
        simp only [Option.bind_some, if_true, harity]
        exact h

end parsing

/-! ## Programs -/

/-- The bytes are one instruction and it is the one that is written on the line. -/
def Instructs (cm : CaseMap) (further : Bool) (line : List Char) (bytes : List UInt8) : Prop :=
  bytes.length = 8 ∧ ∃ i, decodeBytes bytes = some i ∧ written cm further (lineWords line) = some (spell i)

/-- The assembler fails or makes one instruction out of each line, in their order. -/
def Faithful (cm : CaseMap) (further : Bool) (source : String) : Prop :=
  ∀ code, assemble cm source = .ok code →
    ∃ chunks, code = chunks.flatten ∧ List.Forall₂ (Instructs cm further) (instructionLines source) chunks

/-- No line begins with an instruction, or all those that do have a number of more than 64 bits. -/
def Unreadable (cm : CaseMap) (source : String) : Prop :=
  ∀ line ∈ instructionLines source, ∀ w, written cm true (lineWords line) = some w → 2 ^ 64 ≤ w.value

/-- Each line is an instruction with a number within the limit. -/
def Exact (cm : CaseMap) (further : Bool) (source : String) : Prop :=
  ∀ line ∈ instructionLines source, ∃ w, written cm further (lineWords line) = some w ∧ w.Fits

/-- The bytes of a line. -/
def lineCode (cm : CaseMap) (line : List Char) : List UInt8 := (parseLine cm line).getD []

/-- Blank lines and comments do not matter. -/
theorem flatMap_lineCode (cm : CaseMap) (source : String) :
    (lines source.toList).flatMap (lineCode cm) = (instructionLines source).flatMap (lineCode cm) := by
  rw [instructionLines]
  induction lines source.toList with
  | nil => rfl
  | cons line rest ih =>
    rw [List.flatMap_cons, ih]
    by_cases hblank : BlankOrComment line
    · rw [List.filter_cons_of_neg (by simpa using hblank), lineCode, parseLine_blank cm hblank]
      rfl
    · rw [List.filter_cons_of_pos (by simpa using hblank), List.flatMap_cons]

theorem assemble_eq_ok_iff {cm : CaseMap} {source : String} {code : List UInt8} :
    assemble cm source = .ok code ↔
      (instructionLines source).flatMap (lineCode cm) = code ∧ code ≠ [] := by
  have hassemble : assemble cm source =
      if (instructionLines source).flatMap (lineCode cm) = [] then .error "no instructions generated"
      else .ok ((instructionLines source).flatMap (lineCode cm)) := by
    rw [← flatMap_lineCode]
    rfl
  rw [hassemble]
  constructor
  · intro h
    split at h
    · cases h
    · next hne =>
      cases h
      exact ⟨rfl, hne⟩
  · rintro ⟨rfl, hne⟩
    rw [if_neg hne]

theorem not_blank_of_mem {source : String} {line : List Char} (h : line ∈ instructionLines source) :
    ¬BlankOrComment line := by
  simpa using (List.mem_filter.1 h).2

/-- Within the limit a line is assembled to the bytes of what is written. -/
theorem instructs_lineCode {cm : CaseMap} {further : Bool} {line : List Char} {w : Written}
    (hline : ¬BlankOrComment line) (hw : written cm further (lineWords line) = some w) (hfits : w.Fits) :
    Instructs cm further line (lineCode cm line) := by
  have hnarrow : w.narrow = true := by
    apply decide_eq_true
    apply Nat.lt_of_lt_of_le hfits
    unfold Written.limit
    split <;> decide
  have hcode : lineCode cm line = w.bytes := by
    rw [lineCode, parseLine_eq cm hline, written_further cm hw, Option.filter_some_pos hnarrow]
    rfl
  obtain ⟨i, hdecoded, hspell⟩ := decodeBytes_bytes hfits
  rw [hcode]
  refine ⟨w.length_bytes, i, hdecoded, ?_⟩
  rw [hspell]
  exact hw

/-- What is assembled faithfully is written within the limits. -/
theorem exact_of_faithful {cm : CaseMap} {further : Bool} {source : String} (h : Faithful cm further source)
    (hreadable : ¬Unreadable cm source) : Exact cm further source := by
  simp only [Unreadable, not_forall, Nat.not_le] at hreadable
  obtain ⟨line, hline, w, hw, hvalue⟩ := hreadable
  have hnarrow : w.narrow = true := decide_eq_true hvalue
  have hcode : lineCode cm line = w.bytes := by
    rw [lineCode, parseLine_eq cm (not_blank_of_mem hline), hw, Option.filter_some_pos hnarrow]
    rfl
  -- one line is assembled, so that something comes out
  have hsome : (instructionLines source).flatMap (lineCode cm) ≠ [] := by
    intro hnil
    have hlength := congrArg List.length (List.flatMap_eq_nil_iff.1 hnil line hline)
    rw [hcode, w.length_bytes] at hlength
    cases hlength
  obtain ⟨chunks, -, hchunks⟩ := h _ (assemble_eq_ok_iff.2 ⟨rfl, hsome⟩)
  -- what is decoded is within the limit
  have hall : List.Forall₂ (fun line bytes =>
      (∃ w, written cm further (lineWords line) = some w ∧ w.Fits) ∧ Instructs cm further line bytes)
      (instructionLines source) chunks := by
    refine hchunks.imp ?_
    rintro line bytes ⟨hlength, i, hdecoded, hwritten⟩
    exact ⟨⟨spell i, hwritten, fits_of_decodeBytes hdecoded⟩, hlength, i, hdecoded, hwritten⟩
  exact ((List.forall₂_and_left _ _).1 hall).1

/-- Exactly when the assembler is faithful: either it fails, or each line is an instruction with a number
of at most 32 bits, at most eight for a vector. This is so whether further words may follow an instruction
or not. -/
theorem assemble_faithful_iff (cm : CaseMap) (further : Bool) (source : String) :
    Faithful cm further source ↔ Unreadable cm source ∨ Exact cm further source := by
  constructor
  · intro hfaithful
    by_cases hunreadable : Unreadable cm source
    · exact Or.inl hunreadable
    · exact Or.inr (exact_of_faithful hfaithful hunreadable)
  · rintro (hunreadable | hexact) code hcode
    · obtain ⟨rfl, hsome⟩ := assemble_eq_ok_iff.1 hcode
      -- nothing is assembled
      refine absurd (List.flatMap_eq_nil_iff.2 ?_) hsome
      intro line hline
      rw [lineCode, parseLine_eq cm (not_blank_of_mem hline)]
      cases hw : written cm true (lineWords line) with
      | none => rfl
      | some w =>
        have hwide : w.narrow = false := decide_eq_false (Nat.not_lt.2 (hunreadable line hline w hw))
        rw [Option.filter_some_neg hwide]
        rfl
    · obtain ⟨rfl, -⟩ := assemble_eq_ok_iff.1 hcode
      refine ⟨(instructionLines source).map (lineCode cm), rfl, ?_⟩
      rw [List.forall₂_map_right_iff, List.forall₂_same]
      intro line hline
      obtain ⟨w, hw, hfits⟩ := hexact line hline
      exact instructs_lineCode (not_blank_of_mem hline) hw hfits

/-- A line that cannot be read is skipped, and a number is cut to 32 bits. -/
theorem assembled_otherwise : ¬Faithful .ascii true "FOO\nHALT\n" ∧
    ¬Faithful .ascii true "MOV R0, #4294967296\nHALT\n" := by
  -- the second line is read in both
  have hreadable : ∀ source, "HALT".toList ∈ instructionLines source → ¬Unreadable .ascii source := by
    intro source hmem hunreadable
    have hwide := hunreadable _ hmem .halt (by decide +kernel)
    exact absurd hwide (by decide)
  constructor
  · intro hfaithful
    obtain ⟨w, hw, -⟩ := exact_of_faithful hfaithful (hreadable _ (by decide +kernel)) "FOO".toList
      (by decide +kernel)
    have hnone : written .ascii true (lineWords "FOO".toList) = none := by decide +kernel
    rw [hnone] at hw
    cases hw
  · intro hfaithful
    obtain ⟨w, hw, hfits⟩ := exact_of_faithful hfaithful (hreadable _ (by decide +kernel))
      "MOV R0, #4294967296".toList (by decide +kernel)
    have hmov : written .ascii true (lineWords "MOV R0, #4294967296".toList) =
        some (.binary .mov .r0 (.num 4294967296)) := by
      decide +kernel
    cases hmov.symm.trans hw
    exact absurd hfits (by decide)

end GenshinOs.Process
