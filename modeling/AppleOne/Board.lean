import AppleOne.Board.Pia
import AppleOne.Board.Rom
import AppleOne.Bus.Transaction
import AppleOne.Log.Journal

/-!
The main board as the processor sees it: RAM from address zero on, the interface adapter, the
read-only memories, and a log. Time stands still unless the host moves it.
-/

namespace AppleOne

/-- The one thing that can go wrong while the machine runs. -/
inductive Fault where
  /-- A time past the last one there is. -/
  | endOfTime
  deriving DecidableEq, Repr

structure Board where
  ram : Array UInt8
  roms : Roms
  pia : Pia
  terminal : Terminal
  /-- What the clock shows. -/
  time : Duration
  journal : Log.Journal

namespace Board

/-- The most RAM there is room for below the interface adapter. -/
def maxRam : Nat := 0xD00F

/-- Whether the display is busy at the present time. -/
def displayBusy (board : Board) : Bool := board.pia.busy board.time

/-- A read by the processor or the host. Only the keyboard's data register is changed by it. -/
def read (address : UInt16) : EStateM Fault Board UInt8 := fun board =>
  if h : address.toNat < board.ram.size then .ok board.ram[address.toNat] board
  else if Pia.covers address then
    let ⟨ram, roms, pia, terminal, time, journal⟩ := board
    let (value, pia, report) := pia.read time address
    .ok value ⟨ram, roms, pia, terminal, time, journal.noteAny report⟩
  else .ok (board.roms.read address) board

/-- A write by the processor or the host. Where nothing takes it, it is only logged. -/
def write (address : UInt16) (value : UInt8) : EStateM Fault Board Unit :=
  fun ⟨ram, roms, pia, terminal, time, journal⟩ =>
    if h : address.toNat < ram.size then
      .ok () ⟨ram.set address.toNat value h, roms, pia, terminal, time, journal⟩
    else if Pia.covers address then
      match pia.write? time address value with
      | some written =>
        let terminal := match written.shown with
          | some event => terminal.put event
          | none => terminal
        .ok () ⟨ram, roms, written.pia, terminal, time, journal.note written.report⟩
      | none => .error .endOfTime ⟨ram, roms, pia, terminal, time, journal⟩
    else
      .ok () ⟨ram, roms, pia, terminal, time, journal.note (.writeDiscarded value address)⟩

/-- Reports to the log. -/
def note (diagnostic : Log.Diagnostic) : EStateM Fault Board Unit :=
  fun ⟨ram, roms, pia, terminal, time, journal⟩ =>
    .ok () ⟨ram, roms, pia, terminal, time, journal.note diagnostic⟩

instance : Device (EStateM Fault Board) where
  read := read
  write := write
  note := note

/-- Latches a key from the host. -/
def press (code : UInt8) : Board → Board
  | ⟨ram, roms, pia, terminal, time, journal⟩ =>
    let (pia, report) := pia.press code
    ⟨ram, roms, pia, terminal, time, journal.noteAny report⟩

end Board

end AppleOne
