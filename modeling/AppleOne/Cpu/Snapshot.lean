import AppleOne.Cpu.Registers
import AppleOne.Json.Record

/-!
The registers as JSON.
-/

namespace AppleOne.Registers

/-- All six fields are needed. -/
def shape : Json.Shape Registers where
  name := "struct Registers6502"
  fields := [
    .unsigned "a" .byte fun n r => { r with a := n.toUInt8 },
    .unsigned "x" .byte fun n r => { r with x := n.toUInt8 },
    .unsigned "y" .byte fun n r => { r with y := n.toUInt8 },
    .unsigned "sp" .byte fun n r => { r with sp := n.toUInt8 },
    .unsigned "status" .byte fun n r => { r with status := .ofByte n.toUInt8 },
    .unsigned "pc" .word fun n r => { r with pc := n.toUInt16 }]
  initial := .initial
  optional := false

/-- Reads the registers from JSON text. -/
def read (text : String) : Json.Reading Registers := shape.readText text

/-- The registers that a JSON value stands for. -/
def ofJson (value : Json) : Json.Decoded Registers := shape.ofValue value

/-- The members in the order of the fields. -/
def members (r : Registers) : List (String × Json) := [
  ("a", .natural r.a.toNat),
  ("x", .natural r.x.toNat),
  ("y", .natural r.y.toNat),
  ("sp", .natural r.sp.toNat),
  ("status", .natural r.status.toByte.toNat),
  ("pc", .natural r.pc.toNat)]

/-- The registers as JSON text. -/
def text (r : Registers) : String := (Json.object r.members).compact

/-- The members in the order of their names. -/
def toJson (r : Registers) : Json :=
  .object (r.members.foldl (fun sorted (name, value) => Json.insert name value sorted) [])

end AppleOne.Registers
