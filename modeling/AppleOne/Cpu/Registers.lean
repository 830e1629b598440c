import AppleOne.Cpu.Status

/-!
The programmer's registers, and the processor as the host sees it: registers, cycle counter, interrupt
inputs and the decimal switch.
-/

namespace AppleOne

/-- The two interrupt inputs: a latched edge that cannot be masked, and a level that can. -/
inductive Interrupt where
  | nmi
  | irq
  deriving DecidableEq, Repr

/-- Where the address of an interrupt's handler stands. A break instruction shares the handler of
the request line. -/
def Interrupt.vector : Interrupt → UInt16
  | .nmi => 0xFFFA
  | .irq => 0xFFFE

def Interrupt.name : Interrupt → String
  | .nmi => "NMI"
  | .irq => "IRQ"

/-- Where the address of the first instruction after a reset stands. -/
def resetVector : UInt16 := 0xFFFC

/-- The registers that programs work with. The stack lies in page one, `sp` pointing to its next
free byte. -/
structure Registers where
  a : UInt8
  x : UInt8
  y : UInt8
  sp : UInt8
  status : Status
  pc : UInt16
  deriving DecidableEq, Repr

/-- Registers after power-on. -/
def Registers.initial : Registers where
  a := 0
  x := 0
  y := 0
  sp := 0xFD
  status := .initial
  pc := 0

/-- The processor between two steps. -/
structure Cpu extends Registers where
  /-- Cycles since the last reset, modulo `2 ^ 64`. -/
  cycles : UInt64
  /-- Level of the interrupt request line. -/
  irqLine : Bool
  /-- A non-maskable interrupt that the next step will take. -/
  nmiPending : Bool
  /-- Whether additions and subtractions honour the decimal flag. -/
  decimalEnabled : Bool
  deriving DecidableEq, Repr

namespace Cpu

/-- A processor as it is made, before its first reset. -/
def initial : Cpu where
  toRegisters := .initial
  cycles := 0
  irqLine := false
  nmiPending := false
  decimalEnabled := false

def registers (cpu : Cpu) : Registers := cpu.toRegisters

/-- Restores a register snapshot; bit 5 of the status is always on. -/
def setRegisters (cpu : Cpu) (regs : Registers) : Cpu :=
  { cpu with toRegisters := { regs with status := { regs.status with bit5 := true } } }

def setIrq (cpu : Cpu) (level : Bool) : Cpu := { cpu with irqLine := level }

/-- Latches a non-maskable interrupt. -/
def nmi (cpu : Cpu) : Cpu := { cpu with nmiPending := true }

def setDecimal (cpu : Cpu) (enabled : Bool) : Cpu := { cpu with decimalEnabled := enabled }

end Cpu

end AppleOne
