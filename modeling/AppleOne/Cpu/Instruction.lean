/-!
The instruction set of the 6502: 56 operations, 13 addressing modes and the 151 documented
opcodes. The opcode table is data, one row per operation; `decode` looks an opcode up in it, and
`decode_eq_lookup` says so.
-/

namespace AppleOne

/-- How an instruction names its operand. -/
inductive AddressMode where
  | implied
  | accumulator
  | immediate
  | zeroPage
  | zeroPageX
  | zeroPageY
  | absolute
  | absoluteX
  | absoluteY
  /-- Through a pointer anywhere in memory; only a jump uses it. -/
  | indirect
  /-- Through a pointer in page zero whose place is indexed by X. -/
  | indexedIndirect
  /-- Through a pointer in page zero, the address being indexed by Y. -/
  | indirectIndexed
  | relative
  deriving DecidableEq, Repr

/-- Operand bytes that follow the opcode. -/
def AddressMode.operandLength : AddressMode → Nat
  | .implied | .accumulator => 0
  | .absolute | .absoluteX | .absoluteY | .indirect => 2
  | .immediate | .zeroPage | .zeroPageX | .zeroPageY
  | .indexedIndirect | .indirectIndexed | .relative => 1

/-- The usual name of the mode, `X` and `Y` standing for the index register. -/
def AddressMode.name : AddressMode → String
  | .implied => "Implied"
  | .accumulator => "Accumulator"
  | .immediate => "Immediate"
  | .zeroPage => "ZeroPage"
  | .zeroPageX => "ZeroPageX"
  | .zeroPageY => "ZeroPageY"
  | .absolute => "Absolute"
  | .absoluteX => "AbsoluteX"
  | .absoluteY => "AbsoluteY"
  | .indirect => "Indirect"
  | .indexedIndirect => "IndirectX"
  | .indirectIndexed => "IndirectY"
  | .relative => "Relative"

/-- The documented operations, named by their mnemonics. -/
inductive Operation where
  | adc | and | asl | bcc | bcs | beq | bit | bmi | bne | bpl | brk | bvc | bvs | clc
  | cld | cli | clv | cmp | cpx | cpy | dec | dex | dey | eor | inc | inx | iny | jmp
  | jsr | lda | ldx | ldy | lsr | nop | ora | pha | php | pla | plp | rol | ror | rti
  | rts | sbc | sec | sed | sei | sta | stx | sty | tax | tay | tsx | txa | txs | tya
  deriving DecidableEq, Repr

def Operation.mnemonic : Operation → String
  | .adc => "ADC" | .and => "AND" | .asl => "ASL" | .bcc => "BCC" | .bcs => "BCS" | .beq => "BEQ"
  | .bit => "BIT" | .bmi => "BMI" | .bne => "BNE" | .bpl => "BPL" | .brk => "BRK" | .bvc => "BVC"
  | .bvs => "BVS" | .clc => "CLC" | .cld => "CLD" | .cli => "CLI" | .clv => "CLV" | .cmp => "CMP"
  | .cpx => "CPX" | .cpy => "CPY" | .dec => "DEC" | .dex => "DEX" | .dey => "DEY" | .eor => "EOR"
  | .inc => "INC" | .inx => "INX" | .iny => "INY" | .jmp => "JMP" | .jsr => "JSR" | .lda => "LDA"
  | .ldx => "LDX" | .ldy => "LDY" | .lsr => "LSR" | .nop => "NOP" | .ora => "ORA" | .pha => "PHA"
  | .php => "PHP" | .pla => "PLA" | .plp => "PLP" | .rol => "ROL" | .ror => "ROR" | .rti => "RTI"
  | .rts => "RTS" | .sbc => "SBC" | .sec => "SEC" | .sed => "SED" | .sei => "SEI" | .sta => "STA"
  | .stx => "STX" | .sty => "STY" | .tax => "TAX" | .tay => "TAY" | .tsx => "TSX" | .txa => "TXA"
  | .txs => "TXS" | .tya => "TYA"

/-- A decoded opcode. The cycles are those without penalties. -/
structure Instruction where
  operation : Operation
  mode : AddressMode
  cycles : Nat
  deriving DecidableEq, Repr

/-- The opcode table: each operation with the opcode, the mode and the cycles of its forms. -/
def opcodeTable : List (Operation × List (UInt8 × AddressMode × Nat)) := [
  (.adc, [(0x69, .immediate, 2), (0x65, .zeroPage, 3), (0x75, .zeroPageX, 4), (0x6D, .absolute, 4),
    (0x7D, .absoluteX, 4), (0x79, .absoluteY, 4), (0x61, .indexedIndirect, 6), (0x71, .indirectIndexed, 5)]),
  (.and, [(0x29, .immediate, 2), (0x25, .zeroPage, 3), (0x35, .zeroPageX, 4), (0x2D, .absolute, 4),
    (0x3D, .absoluteX, 4), (0x39, .absoluteY, 4), (0x21, .indexedIndirect, 6), (0x31, .indirectIndexed, 5)]),
  (.asl, [(0x0A, .accumulator, 2), (0x06, .zeroPage, 5), (0x16, .zeroPageX, 6), (0x0E, .absolute, 6),
    (0x1E, .absoluteX, 7)]),
  (.bcc, [(0x90, .relative, 2)]),
  (.bcs, [(0xB0, .relative, 2)]),
  (.beq, [(0xF0, .relative, 2)]),
  (.bit, [(0x24, .zeroPage, 3), (0x2C, .absolute, 4)]),
  (.bmi, [(0x30, .relative, 2)]),
  (.bne, [(0xD0, .relative, 2)]),
  (.bpl, [(0x10, .relative, 2)]),
  (.brk, [(0x00, .implied, 7)]),
  (.bvc, [(0x50, .relative, 2)]),
  (.bvs, [(0x70, .relative, 2)]),
  (.clc, [(0x18, .implied, 2)]),
  (.cld, [(0xD8, .implied, 2)]),
  (.cli, [(0x58, .implied, 2)]),
  (.clv, [(0xB8, .implied, 2)]),
  (.cmp, [(0xC9, .immediate, 2), (0xC5, .zeroPage, 3), (0xD5, .zeroPageX, 4), (0xCD, .absolute, 4),
    (0xDD, .absoluteX, 4), (0xD9, .absoluteY, 4), (0xC1, .indexedIndirect, 6), (0xD1, .indirectIndexed, 5)]),
  (.cpx, [(0xE0, .immediate, 2), (0xE4, .zeroPage, 3), (0xEC, .absolute, 4)]),
  (.cpy, [(0xC0, .immediate, 2), (0xC4, .zeroPage, 3), (0xCC, .absolute, 4)]),
  (.dec, [(0xC6, .zeroPage, 5), (0xD6, .zeroPageX, 6), (0xCE, .absolute, 6), (0xDE, .absoluteX, 7)]),
  (.dex, [(0xCA, .implied, 2)]),
  (.dey, [(0x88, .implied, 2)]),
  (.eor, [(0x49, .immediate, 2), (0x45, .zeroPage, 3), (0x55, .zeroPageX, 4), (0x4D, .absolute, 4),
    (0x5D, .absoluteX, 4), (0x59, .absoluteY, 4), (0x41, .indexedIndirect, 6), (0x51, .indirectIndexed, 5)]),
  (.inc, [(0xE6, .zeroPage, 5), (0xF6, .zeroPageX, 6), (0xEE, .absolute, 6), (0xFE, .absoluteX, 7)]),
  (.inx, [(0xE8, .implied, 2)]),
  (.iny, [(0xC8, .implied, 2)]),
  (.jmp, [(0x4C, .absolute, 3), (0x6C, .indirect, 5)]),
  (.jsr, [(0x20, .absolute, 6)]),
  (.lda, [(0xA9, .immediate, 2), (0xA5, .zeroPage, 3), (0xB5, .zeroPageX, 4), (0xAD, .absolute, 4),
    (0xBD, .absoluteX, 4), (0xB9, .absoluteY, 4), (0xA1, .indexedIndirect, 6), (0xB1, .indirectIndexed, 5)]),
  (.ldx, [(0xA2, .immediate, 2), (0xA6, .zeroPage, 3), (0xB6, .zeroPageY, 4), (0xAE, .absolute, 4),
    (0xBE, .absoluteY, 4)]),
  (.ldy, [(0xA0, .immediate, 2), (0xA4, .zeroPage, 3), (0xB4, .zeroPageX, 4), (0xAC, .absolute, 4),
    (0xBC, .absoluteX, 4)]),
  (.lsr, [(0x4A, .accumulator, 2), (0x46, .zeroPage, 5), (0x56, .zeroPageX, 6), (0x4E, .absolute, 6),
    (0x5E, .absoluteX, 7)]),
  (.nop, [(0xEA, .implied, 2)]),
  (.ora, [(0x09, .immediate, 2), (0x05, .zeroPage, 3), (0x15, .zeroPageX, 4), (0x0D, .absolute, 4),
    (0x1D, .absoluteX, 4), (0x19, .absoluteY, 4), (0x01, .indexedIndirect, 6), (0x11, .indirectIndexed, 5)]),
  (.pha, [(0x48, .implied, 3)]),
  (.php, [(0x08, .implied, 3)]),
  (.pla, [(0x68, .implied, 4)]),
  (.plp, [(0x28, .implied, 4)]),
  (.rol, [(0x2A, .accumulator, 2), (0x26, .zeroPage, 5), (0x36, .zeroPageX, 6), (0x2E, .absolute, 6),
    (0x3E, .absoluteX, 7)]),
  (.ror, [(0x6A, .accumulator, 2), (0x66, .zeroPage, 5), (0x76, .zeroPageX, 6), (0x6E, .absolute, 6),
    (0x7E, .absoluteX, 7)]),
  (.rti, [(0x40, .implied, 6)]),
  (.rts, [(0x60, .implied, 6)]),
  (.sbc, [(0xE9, .immediate, 2), (0xE5, .zeroPage, 3), (0xF5, .zeroPageX, 4), (0xED, .absolute, 4),
    (0xFD, .absoluteX, 4), (0xF9, .absoluteY, 4), (0xE1, .indexedIndirect, 6), (0xF1, .indirectIndexed, 5)]),
  (.sec, [(0x38, .implied, 2)]),
  (.sed, [(0xF8, .implied, 2)]),
  (.sei, [(0x78, .implied, 2)]),
  (.sta, [(0x85, .zeroPage, 3), (0x95, .zeroPageX, 4), (0x8D, .absolute, 4), (0x9D, .absoluteX, 5),
    (0x99, .absoluteY, 5), (0x81, .indexedIndirect, 6), (0x91, .indirectIndexed, 6)]),
  (.stx, [(0x86, .zeroPage, 3), (0x96, .zeroPageY, 4), (0x8E, .absolute, 4)]),
  (.sty, [(0x84, .zeroPage, 3), (0x94, .zeroPageX, 4), (0x8C, .absolute, 4)]),
  (.tax, [(0xAA, .implied, 2)]),
  (.tay, [(0xA8, .implied, 2)]),
  (.tsx, [(0xBA, .implied, 2)]),
  (.txa, [(0x8A, .implied, 2)]),
  (.txs, [(0x9A, .implied, 2)]),
  (.tya, [(0x98, .implied, 2)])]

/-- Every documented opcode with its instruction. -/
def documented : List (UInt8 × Instruction) :=
  opcodeTable.flatMap fun (operation, forms) =>
    forms.map fun (opcode, mode, cycles) => (opcode, ⟨operation, mode, cycles⟩)

/-- The table laid out by opcode, so that decoding is one access. -/
def instructionAt : Vector (Option Instruction) 256 :=
  Vector.ofFn fun opcode => documented.lookup (UInt8.ofNat opcode)

/-- The instruction of an opcode, if it is a documented one. -/
def decode (opcode : UInt8) : Option Instruction :=
  have := opcode.toNat_lt
  instructionAt[opcode.toNat]

theorem decode_eq_lookup (opcode : UInt8) : decode opcode = documented.lookup opcode := by
  simp [decode, instructionAt]

/-- No two rows of the table claim one opcode. -/
theorem documented_nodup : (documented.map Prod.fst).Nodup := by
  -- Of all pairs of rows; numbers are compared faster than bytes.
  have apart : documented.Pairwise fun row other => Nat.beq row.1.toNat other.1.toNat = false := by
    decide +kernel
  refine List.pairwise_map.mpr (apart.imp fun differ same => ?_)
  rw [same, Nat.beq_refl] at differ
  cases differ

/-- Cycles of an opcode without penalties; an undefined one idles for two. -/
def baseCycles (opcode : UInt8) : Nat :=
  match decode opcode with
  | some instruction => instruction.cycles
  | none => 2

end AppleOne
