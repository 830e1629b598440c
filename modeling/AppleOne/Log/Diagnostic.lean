import AppleOne.Cpu.Registers
import AppleOne.Hex
import AppleOne.Log.Level

/-!
What the emulated components report to the log. A diagnostic is data; its text is made only when it
is written.
-/

namespace AppleOne.Log

inductive Diagnostic where
  /-- A reset that starts at `pc`. -/
  | reset (pc : UInt16)
  /-- An interrupt taken before the instruction at `pc`. -/
  | interrupted (source : Interrupt) (pc handler : UInt16)
  /-- A break instruction at `pc`. -/
  | broke (pc handler : UInt16)
  /-- An undefined opcode at `pc`, with the registers at the time. -/
  | undefined (opcode : UInt8) (pc : UInt16) (registers : Registers)
  /-- A key that was replaced before it was read. -/
  | keyLost (lost code : UInt8)
  /-- A value delivered by the keyboard register. -/
  | keyRead (value : UInt8)
  /-- A write to a register that takes none. -/
  | writeIgnored (value : UInt8) (address : UInt16)
  /-- A character code written to the display, which is `busy` afterwards or not. -/
  | displayed (code : UInt8) (busy : Bool)
  /-- A write to an address that takes none. -/
  | writeDiscarded (value : UInt8) (address : UInt16)
  /-- An image copied into RAM by the host. -/
  | imageLoaded (length : Nat) (address : UInt16)
  deriving DecidableEq, Repr

namespace Diagnostic

def category : Diagnostic → Category
  | reset .. | broke .. => .cpu
  | interrupted .. => .interrupts
  | undefined .. => .stubs
  | keyLost .. | keyRead .. | writeIgnored .. | displayed .. => .pia
  | writeDiscarded .. | imageLoaded .. => .bus

def level : Diagnostic → Level
  | reset .. | undefined .. => .debug
  | imageLoaded .. => .info
  | interrupted .. | broke .. | keyLost .. | keyRead .. | writeIgnored .. | displayed ..
  | writeDiscarded .. => .trace

open Hex in
def text : Diagnostic → String
  | reset pc => s!"CPU: reset, PC={word pc}"
  | interrupted source pc handler =>
    s!"CPU: {source.name} at PC={word pc}, handler {word handler}"
  | broke pc handler => s!"CPU: BRK at PC={word pc}, handler {word handler}"
  | undefined opcode pc r =>
    s!"CPU: undefined opcode {byte opcode} at PC={word pc} a={byte r.a} x={byte r.x} y={byte r.y} " ++
      s!"sp={byte r.sp} p={byte r.status.toByte}"
  | keyLost lost code => s!"PIA: key {byte lost} overwritten by {byte code}"
  | keyRead value => s!"PIA: KBD read {byte value}"
  | writeIgnored value address => s!"PIA: ignored write {byte value} to {word address}"
  | displayed code busy =>
    let time := if busy then "1.7µs" else "0ns"
    s!"PIA: DSP write {byte code}, busy for {time}"
  | writeDiscarded value address => s!"Bus: discarded write {byte value} to {word address}"
  | imageLoaded length address => s!"Loaded {length} bytes at {word address}"

end Diagnostic

end AppleOne.Log
