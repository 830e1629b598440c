import AppleOne.Cpu.Arithmetic
import AppleOne.Cpu.Instruction
import AppleOne.Cpu.Registers

/-!
What each operation does, sorted by the accesses it makes. The work on the registers is pure; the
accesses and the addressing are those of the action's kind, so that every instruction of one kind has
the same bus behaviour.
-/

namespace AppleOne

/-- An operation by its kind of access. -/
inductive Action where
  /-- Reads the operand. A `penalised` operation pays one cycle when indexing crosses a page. -/
  | load (penalised : Bool) (apply : Cpu → UInt8 → Cpu)
  /-- Writes the operand. -/
  | store (value : Cpu → UInt8)
  /-- Replaces the operand, which may be the accumulator. -/
  | modify (apply : Status → UInt8 → UInt8 × Status)
  /-- Works on the registers alone. -/
  | inner (apply : Cpu → Cpu)
  | push (value : Cpu → UInt8)
  | pull (apply : Cpu → UInt8 → Cpu)
  | branch (taken : Status → Bool)
  | jump
  | call
  | ret
  | interruptReturn
  | softwareBreak

namespace Cpu

def loadA (cpu : Cpu) (value : UInt8) : Cpu := { cpu with a := value, status := cpu.status.test value }

def loadX (cpu : Cpu) (value : UInt8) : Cpu := { cpu with x := value, status := cpu.status.test value }

def loadY (cpu : Cpu) (value : UInt8) : Cpu := { cpu with y := value, status := cpu.status.test value }

/-- Whether arithmetic is decimal: the flag counts only while the switch is on. -/
def decimalMode (cpu : Cpu) : Bool := cpu.decimalEnabled && cpu.status.decimal

/-- Replaces accumulator and status by a result of the arithmetic unit. -/
def accumulate (cpu : Cpu) (result : UInt8 × Status) : Cpu :=
  { cpu with a := result.1, status := result.2 }

def addWithCarry (cpu : Cpu) (value : UInt8) : Cpu :=
  cpu.accumulate <|
    if cpu.decimalMode then Arithmetic.addDecimal cpu.status cpu.a value
    else Arithmetic.add cpu.status cpu.a value

def subtractWithBorrow (cpu : Cpu) (value : UInt8) : Cpu :=
  cpu.accumulate <|
    if cpu.decimalMode then Arithmetic.subtractDecimal cpu.status cpu.a value
    else Arithmetic.subtract cpu.status cpu.a value

/-- Compares a register with a value. -/
def compareWith (register : UInt8) (cpu : Cpu) (value : UInt8) : Cpu :=
  { cpu with status := Arithmetic.compare cpu.status register value }

/-- Tests the accumulator's bits against a value, whose two high bits become sign and overflow. -/
def testBits (cpu : Cpu) (value : UInt8) : Cpu :=
  { cpu with
    status := { cpu.status with
      zero := cpu.a &&& value == 0
      negative := value &&& 0x80 != 0
      overflow := value &&& 0x40 != 0 } }

/-- Changes the status alone. -/
def withStatus (f : Status → Status) (cpu : Cpu) : Cpu := { cpu with status := f cpu.status }

end Cpu

/-- What an operation does. -/
def Operation.action : Operation → Action
  | .lda => .load true Cpu.loadA
  | .ldx => .load true Cpu.loadX
  | .ldy => .load true Cpu.loadY
  | .ora => .load true fun cpu value => cpu.loadA (cpu.a ||| value)
  | .and => .load true fun cpu value => cpu.loadA (cpu.a &&& value)
  | .eor => .load true fun cpu value => cpu.loadA (cpu.a ^^^ value)
  | .adc => .load true Cpu.addWithCarry
  | .sbc => .load true Cpu.subtractWithBorrow
  | .cmp => .load true fun cpu value => Cpu.compareWith cpu.a cpu value
  | .cpx => .load false fun cpu value => Cpu.compareWith cpu.x cpu value
  | .cpy => .load false fun cpu value => Cpu.compareWith cpu.y cpu value
  | .bit => .load false Cpu.testBits
  | .sta => .store (·.a)
  | .stx => .store (·.x)
  | .sty => .store (·.y)
  | .asl => .modify Arithmetic.shiftLeft
  | .lsr => .modify Arithmetic.shiftRight
  | .rol => .modify Arithmetic.rotateLeft
  | .ror => .modify Arithmetic.rotateRight
  | .inc => .modify Arithmetic.increment
  | .dec => .modify Arithmetic.decrement
  | .inx => .inner fun cpu => cpu.loadX (cpu.x + 1)
  | .iny => .inner fun cpu => cpu.loadY (cpu.y + 1)
  | .dex => .inner fun cpu => cpu.loadX (cpu.x - 1)
  | .dey => .inner fun cpu => cpu.loadY (cpu.y - 1)
  | .tax => .inner fun cpu => cpu.loadX cpu.a
  | .tay => .inner fun cpu => cpu.loadY cpu.a
  | .txa => .inner fun cpu => cpu.loadA cpu.x
  | .tya => .inner fun cpu => cpu.loadA cpu.y
  | .tsx => .inner fun cpu => cpu.loadX cpu.sp
  | .txs => .inner fun cpu => { cpu with sp := cpu.x }
  | .clc => .inner (Cpu.withStatus ({ · with carry := false }))
  | .sec => .inner (Cpu.withStatus ({ · with carry := true }))
  | .cli => .inner (Cpu.withStatus ({ · with interruptsOff := false }))
  | .sei => .inner (Cpu.withStatus ({ · with interruptsOff := true }))
  | .cld => .inner (Cpu.withStatus ({ · with decimal := false }))
  | .sed => .inner (Cpu.withStatus ({ · with decimal := true }))
  | .clv => .inner (Cpu.withStatus ({ · with overflow := false }))
  | .nop => .inner id
  | .pha => .push (·.a)
  | .php => .push fun cpu => (cpu.status.pushed true).toByte
  | .pla => .pull Cpu.loadA
  | .plp => .pull fun cpu value => { cpu with status := .pulled value }
  | .bpl => .branch (!·.negative)
  | .bmi => .branch (·.negative)
  | .bvc => .branch (!·.overflow)
  | .bvs => .branch (·.overflow)
  | .bcc => .branch (!·.carry)
  | .bcs => .branch (·.carry)
  | .bne => .branch (!·.zero)
  | .beq => .branch (·.zero)
  | .jmp => .jump
  | .jsr => .call
  | .rts => .ret
  | .rti => .interruptReturn
  | .brk => .softwareBreak

end AppleOne
