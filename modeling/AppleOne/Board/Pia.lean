import AppleOne.Host.Terminal
import AppleOne.Log.Diagnostic
import AppleOne.Time.Duration

/-!
The interface adapter between the bus and the two ends of the terminal: a latch for one key, and the
display with its timer. Operations give back what they report to the log.
-/

namespace AppleOne

open Log (Diagnostic)

structure Pia where
  /-- The key that waits to be read. -/
  key : Option UInt8
  /-- The display is busy up to and at this time. -/
  readyAt : Option Duration
  deriving DecidableEq

namespace Pia

/-! ### Registers -/

/-- Key code with bit 7 on; reading it takes the key. -/
def keyboardData : UInt16 := 0xD010

/-- Bit 7 tells whether a key waits. -/
def keyboardControl : UInt16 := 0xD011

/-- Takes a character; bit 7 tells whether the display is busy. -/
def displayData : UInt16 := 0xD012

/-- Bit 7 tells whether the display is busy. -/
def displayControl : UInt16 := 0xD013

/-- Whether an address is one of the registers. -/
def covers (address : UInt16) : Bool :=
  decide (keyboardData ≤ address) && decide (address ≤ displayControl)

/-! ### Operations -/

/-- No key waits, and nothing was ever displayed. -/
def initial : Pia where
  key := none
  readyAt := none

/-- A code without its top bit. -/
def sevenBits (code : UInt8) : UInt8 := code &&& 0x7F

/-- A byte whose top bit alone carries a meaning. -/
def flag (on : Bool) : UInt8 := if on then 0x80 else 0x00

/-- Latches a key. One that was not read yet is lost. -/
def press (pia : Pia) (code : UInt8) : Pia × Option Diagnostic :=
  ({ pia with key := some (sevenBits code) }, pia.key.map (.keyLost · (sevenBits code)))

/-- Sets the latch without a report. -/
def restore (pia : Pia) (key : Option UInt8) : Pia := { pia with key := key.map sevenBits }

def keyPending (pia : Pia) : Bool := pia.key.isSome

def busy (pia : Pia) (now : Duration) : Bool :=
  match pia.readyAt with
  | some ready => now ≤ ready
  | none => false

def read (pia : Pia) (now : Duration) (address : UInt16) : UInt8 × Pia × Option Diagnostic :=
  if address = keyboardData then
    match pia.key with
    | some code => (code ||| 0x80, { pia with key := none }, some (.keyRead (code ||| 0x80)))
    | none => (0, pia, none)
  else if address = keyboardControl then (flag pia.keyPending, pia, none)
  else if address = displayData ∨ address = displayControl then (flag (pia.busy now), pia, none)
  else (0, pia, none)

/-- What a code shows; most control codes and the codes past the upper-case letters show nothing. -/
def shown? (code : UInt8) : Option Terminal.Event :=
  if code = 0x0D then some .newLine
  else if 0x20 ≤ code ∧ code ≤ 0x5F then some (.char code)
  else none

/-- How long the display is busy with a character. A waiting key cuts it to nothing. -/
def busyTime (pia : Pia) : Duration := if pia.keyPending then .zero else ⟨1700, by decide⟩

/-- What a write brings about. -/
structure Written where
  pia : Pia
  shown : Option Terminal.Event
  report : Diagnostic

/-- Only the display's data register takes a write. None is possible at the very end of time. -/
def write? (pia : Pia) (now : Duration) (address : UInt16) (value : UInt8) : Option Written :=
  if address = displayData then
    match now.add? pia.busyTime with
    | some ready =>
      some {
        pia := { pia with readyAt := some ready }
        shown := shown? (sevenBits value)
        report := .displayed (sevenBits value) !pia.keyPending }
    | none => none
  else
    some { pia := pia, shown := none, report := .writeIgnored value address }

end Pia

end AppleOne
