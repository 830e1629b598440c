import AppleOne.Json.Record

/-!
The configuration of a machine, and its form as JSON.
-/

namespace AppleOne

structure Config where
  /-- Bytes of RAM, from address zero on. -/
  ramSize : UInt64
  /-- Cycles that one tick runs at least. -/
  cyclesPerTick : UInt32
  /-- Whether the processor honours its decimal flag. -/
  decimalMode : Bool
  deriving DecidableEq, Repr

namespace Config

/-- Sixteen kilobytes, and a tick of a sixtieth of a second. -/
def standard : Config where
  ramSize := 16384
  cyclesPerTick := 17050
  decimalMode := true

/-- RAM in whole kilobytes. -/
def kilobytes (config : Config) : Nat := config.ramSize.toNat / 1024

/-- Every field may be left out. -/
def shape : Json.Shape Config where
  name := "struct Apple1Config"
  fields := [
    .unsigned "ram_size" .size fun n config => { config with ramSize := n.toUInt64 },
    .unsigned "cycles_per_tick" .double fun n config => { config with cyclesPerTick := n.toUInt32 },
    .boolean "decimal_mode" fun b config => { config with decimalMode := b }]
  initial := standard
  optional := true

/-- Reads a configuration from JSON text. -/
def read (text : String) : Json.Reading Config := shape.readText text

def toJson (config : Config) : Json :=
  .object [
    ("ram_size", .natural config.ramSize.toNat),
    ("cycles_per_tick", .natural config.cyclesPerTick.toNat),
    ("decimal_mode", .bool config.decimalMode)]

/-- The configuration as JSON on several lines. -/
def text (config : Config) : String := config.toJson.pretty

end Config

end AppleOne
