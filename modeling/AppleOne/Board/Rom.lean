/-!
The two read-only memories: one page with the monitor and four kilobytes with BASIC.
-/

namespace AppleOne

structure Roms where
  monitor : Vector UInt8 256
  basic : Vector UInt8 4096

/-- An image of the wrong length. -/
structure RomError where
  /-- The memory it was meant for. -/
  window : String
  expected : Nat
  actual : Nat
  deriving DecidableEq, Repr

def RomError.message (e : RomError) : String :=
  s!"{e.window} ROM must be {e.expected} bytes, got {e.actual}"

namespace Roms

/-- Zero bytes only. -/
def blank : Roms where
  monitor := .replicate 256 0
  basic := .replicate 4096 0

/-- An image of the length that a window takes. -/
def checkImage (window : String) (length : Nat) (image : Array UInt8) :
    Except RomError (Vector UInt8 length) :=
  if h : image.size = length then .ok ⟨image, h⟩ else .error ⟨window, length, image.size⟩

/-- Two images of the right lengths. -/
def ofImages (monitor basic : Array UInt8) : Except RomError Roms := do
  let monitor ← checkImage "Monitor" 256 monitor
  let basic ← checkImage "BASIC" 4096 basic
  return { monitor := monitor, basic := basic }

/-- Where the reset vector always points: the start of the monitor. -/
def resetTarget : UInt16 := 0xFF00

/-- What the bus gives beyond RAM and the interface adapter: BASIC at `E000`, the monitor up to
`FFFB`, a fixed reset vector, and zero wherever nothing answers. -/
def read (roms : Roms) (address : UInt16) : UInt8 :=
  let place := address.toNat
  if h : 0xE000 ≤ place ∧ place ≤ 0xEFFF then roms.basic[place - 0xE000]
  else if h : 0xFF00 ≤ place ∧ place ≤ 0xFFFB then roms.monitor[place - 0xFF00]
  else if place = 0xFFFC then resetTarget.toUInt8
  else if place = 0xFFFD then (resetTarget >>> 8).toUInt8
  else 0

end Roms

end AppleOne
