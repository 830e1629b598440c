import AppleOne.Cpu.Snapshot
import AppleOne.Machine

/-!
Save states as JSON: registers, cycle counter, request line, RAM and the waiting key. The state of
the display is not part of one.
-/

namespace AppleOne.Machine

/-- The version of save states that is written, and the only one that is read. -/
def stateVersion : Nat := 1

/-- The machine that a save state names. -/
def stateSystem : String := "apple1"

/-- The present state, with the members in the order of their names. -/
def saveState (machine : Machine) : Json :=
  let board := machine.board
  .object [
    ("cpu", machine.cpu.registers.toJson),
    ("cycles", .natural machine.cpu.cycles.toNat),
    ("irq", .bool machine.cpu.irqLine),
    ("key", match board.pia.key with
      | some code => .natural code.toNat
      | none => .null),
    ("ram", .array (board.ram.toList.map fun value => .natural value.toNat)),
    ("system", .string stateSystem),
    ("version", .natural stateVersion)]

/-- What a save state holds. -/
structure SavedState where
  cycles : UInt64
  irqLine : Bool
  registers : Registers
  ram : Array UInt8
  key : Option UInt8

namespace SavedState

/-- The version that a value gives: zero unless it is a natural number. -/
def versionOf (value : Json) : Nat :=
  match value.member "version" with
  | .number (.integer n) => n.toNat
  | _ => 0

/-- The system that a value names: none unless it is a string. -/
def systemOf (value : Json) : String :=
  match value.member "system" with
  | .string name => name
  | _ => ""

/-- A part of a state, or why it does not do. -/
def part {α : Type} (decoded : Json.Decoded α) : Except Error α :=
  decoded.mapError fun cause => .invalidState cause.message

def byteOf (value : Json) : Json.Decoded UInt8 := Nat.toUInt8 <$> value.toUnsigned .byte

/-- Reads a state for a machine with `ramSize` bytes of RAM. The checks run in the order of the
statements. -/
def ofJson (ramSize : Nat) (value : Json) : Except Error SavedState := do
  let version := versionOf value
  if version ≠ stateVersion then
    throw (.invalidState s!"unsupported version {version}")
  let system := systemOf value
  if system ≠ stateSystem then
    throw (.invalidState s!"state is for system '{system}'")
  let cycles ← part ((value.member "cycles").toUnsigned .quad)
  let irqLine ← part (value.member "irq").toBoolean
  let registers ← part (Registers.ofJson (value.member "cpu"))
  let ram ← part ((value.member "ram").toList byteOf)
  let ram := ram.toArray
  if ram.size ≠ ramSize then
    throw (.invalidState
      s!"RAM size {Hex.size ram.size} does not match machine ({Hex.size ramSize})")
  let key ← part ((value.member "key").toOption byteOf)
  return { cycles := cycles.toUInt64, irqLine, registers, ram, key }

end SavedState

/-- Takes over a saved state. The latch for non-maskable interrupts, the display and the
clock stay as they are. -/
def restore (saved : SavedState) (machine : Machine) : Machine where
  cpu := { machine.cpu.setRegisters saved.registers with
    cycles := saved.cycles
    irqLine := saved.irqLine }
  config := machine.config
  board := { machine.board with
    ram := saved.ram
    pia := machine.board.pia.restore saved.key }

/-- Takes over a saved state. -/
def loadState (value : Json) (machine : Machine) : Except Error Machine := do
  let saved ← SavedState.ofJson machine.ramSize value
  return machine.restore saved

end AppleOne.Machine
