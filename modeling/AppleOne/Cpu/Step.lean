import AppleOne.Bus.Transaction
import AppleOne.Cpu.Action

/-!
One step of the processor as a bus transaction: an interrupt entry if one is due, else one whole
instruction. There are no accesses besides those of the instruction itself: nothing is read ahead,
and a byte that is replaced is written once.
-/

namespace AppleOne

/-- The word of a low and a high byte. -/
def wordOf (low high : UInt8) : UInt16 := high.toUInt16 <<< 8 ||| low.toUInt16

/-- Whether two addresses lie in different pages. -/
def crossesPage (a b : UInt16) : Bool := (a ^^^ b) &&& 0xFF00 != 0

namespace Cpu

open Transaction (byteAt store report)

/-- Cycles of an interrupt entry. -/
def interruptCycles : Nat := 7

/-- Cycles of an undefined opcode, which does nothing else. -/
def undefinedCycles : Nat := 2

/-- The word at an address, low byte first. -/
def readWord (address : UInt16) : Transaction UInt16 := do
  let low ← byteAt address
  let high ← byteAt (address + 1)
  return wordOf low high

/-- The word at a place in page zero; its high byte stays in page zero. -/
def readPageZeroWord (place : UInt8) : Transaction UInt16 := do
  let low ← byteAt place.toUInt16
  let high ← byteAt (place + 1).toUInt16
  return wordOf low high

/-- The target of an indirect jump; the pointer's high byte stays in the page of its low byte. -/
def readJumpTarget (pointer : UInt16) : Transaction UInt16 := do
  let low ← byteAt pointer
  let high ← byteAt (pointer &&& 0xFF00 ||| (pointer + 1) &&& 0x00FF)
  return wordOf low high

/-- The byte at the program counter, which moves on. -/
def fetch (cpu : Cpu) : Transaction (UInt8 × Cpu) := do
  let value ← byteAt cpu.pc
  return (value, { cpu with pc := cpu.pc + 1 })

def fetchWord (cpu : Cpu) : Transaction (UInt16 × Cpu) := do
  let (low, cpu) ← cpu.fetch
  let (high, cpu) ← cpu.fetch
  return (wordOf low high, cpu)

/-- Where the stack byte `sp` lies. -/
def stackAddress (sp : UInt8) : UInt16 := 0x0100 ||| sp.toUInt16

def pushByte (cpu : Cpu) (value : UInt8) : Transaction Cpu := do
  store (stackAddress cpu.sp) value
  return { cpu with sp := cpu.sp - 1 }

def pullByte (cpu : Cpu) : Transaction (UInt8 × Cpu) := do
  let cpu := { cpu with sp := cpu.sp + 1 }
  let value ← byteAt (stackAddress cpu.sp)
  return (value, cpu)

/-- Pushes a word, high byte first. -/
def pushWord (cpu : Cpu) (value : UInt16) : Transaction Cpu := do
  let cpu ← cpu.pushByte (value >>> 8).toUInt8
  cpu.pushByte value.toUInt8

def pullWord (cpu : Cpu) : Transaction (UInt16 × Cpu) := do
  let (low, cpu) ← cpu.pullByte
  let (high, cpu) ← cpu.pullByte
  return (wordOf low high, cpu)

/-- An operand in memory. -/
structure Operand where
  address : UInt16
  /-- Whether indexing left the page of the base address. -/
  crossed : Bool

/-- The operand at an index from a base address. -/
def indexed (base : UInt16) (index : UInt8) : Operand :=
  let address := base + index.toUInt16
  ⟨address, crossesPage base address⟩

/-- Finds the operand. An immediate operand is the byte after the opcode itself; the modes without a
memory operand find nothing, and no instruction that looks for one has them. -/
def locate (cpu : Cpu) : AddressMode → Transaction (Operand × Cpu)
  | .immediate => return (⟨cpu.pc, false⟩, { cpu with pc := cpu.pc + 1 })
  | .zeroPage => do
    let (place, cpu) ← cpu.fetch
    return (⟨place.toUInt16, false⟩, cpu)
  | .zeroPageX => do
    let (place, cpu) ← cpu.fetch
    return (⟨(place + cpu.x).toUInt16, false⟩, cpu)
  | .zeroPageY => do
    let (place, cpu) ← cpu.fetch
    return (⟨(place + cpu.y).toUInt16, false⟩, cpu)
  | .absolute => do
    let (address, cpu) ← cpu.fetchWord
    return (⟨address, false⟩, cpu)
  | .absoluteX => do
    let (base, cpu) ← cpu.fetchWord
    return (indexed base cpu.x, cpu)
  | .absoluteY => do
    let (base, cpu) ← cpu.fetchWord
    return (indexed base cpu.y, cpu)
  | .indirect => do
    let (pointer, cpu) ← cpu.fetchWord
    let address ← readJumpTarget pointer
    return (⟨address, false⟩, cpu)
  | .indexedIndirect => do
    let (place, cpu) ← cpu.fetch
    let address ← readPageZeroWord (place + cpu.x)
    return (⟨address, false⟩, cpu)
  | .indirectIndexed => do
    let (place, cpu) ← cpu.fetch
    let base ← readPageZeroWord place
    return (indexed base cpu.y, cpu)
  | .implied | .accumulator | .relative => return (⟨0, false⟩, cpu)

/-- A signed displacement, extended to a word. -/
def displacement (offset : UInt8) : UInt16 := offset.toInt8.toInt16.toUInt16

/-- Runs an action in a mode; the result is the penalty on top of the base cycles. -/
def act (cpu : Cpu) (mode : AddressMode) : Action → Transaction (Nat × Cpu)
  | .load penalised apply => do
    let (operand, cpu) ← cpu.locate mode
    let value ← byteAt operand.address
    return ((penalised && operand.crossed).toNat, apply cpu value)
  | .store value => do
    let (operand, cpu) ← cpu.locate mode
    store operand.address (value cpu)
    return (0, cpu)
  | .modify apply =>
    if mode = .accumulator then
      return (0, cpu.accumulate (apply cpu.status cpu.a))
    else do
      let (operand, cpu) ← cpu.locate mode
      let value ← byteAt operand.address
      let (result, status) := apply cpu.status value
      store operand.address result
      return (0, { cpu with status := status })
  | .inner apply => return (0, apply cpu)
  | .push value => do
    let cpu ← cpu.pushByte (value cpu)
    return (0, cpu)
  | .pull apply => do
    let (value, cpu) ← cpu.pullByte
    return (0, apply cpu value)
  | .branch taken => do
    let (offset, cpu) ← cpu.fetch
    if taken cpu.status then
      let target := cpu.pc + displacement offset
      return (if crossesPage target cpu.pc then 2 else 1, { cpu with pc := target })
    else
      return (0, cpu)
  | .jump => do
    let (operand, cpu) ← cpu.locate mode
    return (0, { cpu with pc := operand.address })
  | .call => do
    let (target, cpu) ← cpu.fetchWord
    let cpu ← cpu.pushWord (cpu.pc - 1)
    return (0, { cpu with pc := target })
  | .ret => do
    let (last, cpu) ← cpu.pullWord
    return (0, { cpu with pc := last + 1 })
  | .interruptReturn => do
    let (status, cpu) ← cpu.pullByte
    let (pc, cpu) ← pullWord { cpu with status := .pulled status }
    return (0, { cpu with pc := pc })
  | .softwareBreak => do
    let start := cpu.pc - 1
    let cpu ← cpu.pushWord (cpu.pc + 1)
    let cpu ← cpu.pushByte (cpu.status.pushed true).toByte
    let handler ← readWord Interrupt.irq.vector
    report (.broke start handler)
    return (0, { cpu with pc := handler, status := { cpu.status with interruptsOff := true } })

/-- Saves program counter and status and continues at the handler of an interrupt. -/
def enterInterrupt (cpu : Cpu) (source : Interrupt) : Transaction Cpu := do
  let start := cpu.pc
  let cpu ← cpu.pushWord cpu.pc
  let cpu ← cpu.pushByte (cpu.status.pushed false).toByte
  let handler ← readWord source.vector
  report (.interrupted source start handler)
  return { cpu with pc := handler, status := { cpu.status with interruptsOff := true } }

/-- Fetches and runs one instruction; the result is its cycles. -/
def instruction (cpu : Cpu) : Transaction (Nat × Cpu) := do
  let start := cpu.pc
  let (opcode, cpu) ← cpu.fetch
  match decode opcode with
  | some instruction =>
    let (penalty, cpu) ← cpu.act instruction.mode instruction.operation.action
    return (instruction.cycles + penalty, cpu)
  | none =>
    report (.undefined opcode start cpu.registers)
    return (undefinedCycles, cpu)

/-- An interrupt entry or an instruction, whichever is due; a pending non-maskable interrupt goes
first. -/
def advance (cpu : Cpu) : Transaction (Nat × Cpu) :=
  if cpu.nmiPending then do
    let cpu ← enterInterrupt { cpu with nmiPending := false } .nmi
    return (interruptCycles, cpu)
  else if cpu.irqLine && !cpu.status.interruptsOff then do
    let cpu ← cpu.enterInterrupt .irq
    return (interruptCycles, cpu)
  else
    cpu.instruction

/-- One step; the result is the cycles it took, which are counted. -/
def step (cpu : Cpu) : Transaction (Nat × Cpu) := do
  let (cycles, cpu) ← cpu.advance
  return (cycles, { cpu with cycles := cpu.cycles + UInt64.ofNat cycles })

/-- The reset button. The interrupt line keeps its level, and the decimal switch its position. -/
def reset (cpu : Cpu) : Transaction Cpu := do
  let start ← readWord resetVector
  report (.reset start)
  return { cpu with
    toRegisters := { Registers.initial with pc := start }
    cycles := 0
    nmiPending := false }

end Cpu

end AppleOne
