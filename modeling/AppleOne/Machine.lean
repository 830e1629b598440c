import AppleOne.Board
import AppleOne.Machine.Config
import AppleOne.Cpu.Step
import AppleOne.Host.Keyboard

/-!
The whole machine, and what a host can do with it. Operations that run the machine may meet the end
of time; the others either succeed or refuse with an error and change nothing.
-/

namespace AppleOne

structure Machine where
  cpu : Cpu
  config : Config
  board : Board

namespace Machine

/-- What the host is told when a machine cannot be built or refuses a request. -/
inductive Error where
  | ramTooLarge (requested : UInt64)
  | rom (cause : RomError)
  | zeroTickBudget
  | tickBudgetTooLarge (requested : UInt32)
  | outsideRam (address : UInt16) (ramSize : Nat)
  | imageTooLarge (length : Nat) (address : UInt16) (ramSize : Nat)
  | emptyRegion (start last : UInt16)
  | invalidState (reason : String)
  deriving DecidableEq, Repr

/-- The largest budget of a tick: it leaves room for the last instruction to run over. -/
def maxTickBudget : UInt32 := 4294967288

namespace Error

open Hex in
def message : Error → String
  | ramTooLarge requested => s!"RAM size {size requested.toNat} exceeds maximum {size Board.maxRam}"
  | rom cause => s!"ROM error: {cause.message}"
  | zeroTickBudget => "Cycles per tick must be non-zero"
  | tickBudgetTooLarge requested => s!"Cycles per tick {requested} exceeds maximum {maxTickBudget}"
  | outsideRam address ramSize => s!"Address {word address} is outside RAM ({size ramSize} bytes)"
  | imageTooLarge length address ramSize =>
    s!"Image of {length} bytes at {word address} does not fit in RAM ({size ramSize} bytes)"
  | emptyRegion start last => s!"Region {word start}-{word last} is empty"
  | invalidState reason => s!"Invalid save state: {reason}"

/-- The error behind an error, if there is one. -/
def cause : Error → Option String
  | rom cause => some cause.message
  | _ => none

end Error

/-! ### Running -/

/-- Runs the machine. The state at a fault is kept. -/
abbrev Run := EStateM Fault Machine

/-- Lets the processor act on the board. -/
@[specialize] def perform {α : Type} (act : Cpu → Transaction (α × Cpu)) : Run α :=
  fun ⟨cpu, config, board⟩ =>
    match ((act cpu).perform : EStateM Fault Board (α × Cpu)) board with
    | .ok (result, cpu) board => .ok result ⟨cpu, config, board⟩
    | .error fault board => .error fault ⟨cpu, config, board⟩

/-- One step of the processor; the result is its cycles. -/
def step : Run Nat := perform Cpu.step

/-- The largest count that a run returns. -/
def maxCount : Nat := 0xFFFFFFFF

/-- Repeats a step until its cycles add up to `budget`, and at most `fuel` times. -/
@[specialize] def repeatWithin {m : Type → Type} [Monad m] (step : m Nat) :
    (fuel : Nat) → (budget executed : Nat) → m Nat
  | 0, _, executed => pure executed
  | fuel + 1, budget, executed =>
    if executed < budget then do
      let cycles ← step
      repeatWithin step fuel budget (min maxCount (executed + cycles))
    else
      pure executed

/-- Repeats a step until at least `budget` cycles have run; the result is the cycles that were run.
A step takes more than one cycle, so there are fewer steps than cycles in the budget. -/
@[inline] def repeatStep {m : Type → Type} [Monad m] (step : m Nat) (budget : UInt32) : m Nat :=
  repeatWithin step budget.toNat budget.toNat 0

/-- Runs for at least `budget` cycles; the result is the cycles that were run. -/
def runCycles (budget : UInt32) : Run Nat := repeatStep step budget

/-- Runs for one tick. -/
def tick : Run Nat := fun machine => runCycles machine.config.cyclesPerTick machine

/-- The reset button, which acts on the processor alone. It only reads, so there is no fault. -/
def reset : Machine → Machine
  | ⟨cpu, config, board⟩ =>
    match (cpu.reset.perform : EStateM Fault Board Cpu) board with
    | .ok cpu board => ⟨cpu, config, board⟩
    | .error _ board => ⟨cpu, config, board⟩

/-- A write by the host. -/
def poke (address : UInt16) (value : UInt8) : Run Unit := fun ⟨cpu, config, board⟩ =>
  match board.write address value with
  | .ok () board => .ok () ⟨cpu, config, board⟩
  | .error fault board => .error fault ⟨cpu, config, board⟩

/-- A read by the host, with all its effects. -/
def peek (address : UInt16) : Run UInt8 := fun ⟨cpu, config, board⟩ =>
  match board.read address with
  | .ok value board => .ok value ⟨cpu, config, board⟩
  | .error fault board => .error fault ⟨cpu, config, board⟩

/-- Moves the clock forward. -/
def advance (step : Duration) : Run Unit := fun machine =>
  match machine.board.time.add? step with
  | some time => .ok () { machine with board := { machine.board with time := time } }
  | none => .error .endOfTime machine

/-- Moves the clock to a time, unless it is later already. -/
def setTime (time : Duration) : Machine → Machine
  | ⟨cpu, config, ⟨ram, roms, pia, terminal, now, journal⟩⟩ =>
    ⟨cpu, config, ⟨ram, roms, pia, terminal, now.longer time, journal⟩⟩

/-! ### Building -/

/-- A machine with zeroed RAM after its first reset. -/
def build (config : Config) (roms : Roms) (terminal : Terminal) (journal : Log.Journal) :
    Except Error Machine :=
  if config.cyclesPerTick = 0 then .error .zeroTickBudget
  else if maxTickBudget < config.cyclesPerTick then
    .error (.tickBudgetTooLarge config.cyclesPerTick)
  else if Board.maxRam < config.ramSize.toNat then .error (.ramTooLarge config.ramSize)
  else .ok <| reset {
    cpu := Cpu.initial.setDecimal config.decimalMode
    config := config
    board := {
      ram := .replicate config.ramSize.toNat 0
      roms := roms
      pia := .initial
      terminal := terminal
      time := .zero
      journal := journal } }

/-- Builds a machine from images, whose lengths are checked first. -/
def ofImages (config : Config) (monitor basic : Array UInt8) (terminal : Terminal)
    (journal : Log.Journal) : Except Error Machine :=
  match Roms.ofImages monitor basic with
  | .ok roms => build config roms terminal journal
  | .error cause => .error (.rom cause)

/-! ### Lines and keys -/

def setIrq (level : Bool) (machine : Machine) : Machine :=
  { machine with cpu := machine.cpu.setIrq level }

def nmi (machine : Machine) : Machine := { machine with cpu := machine.cpu.nmi }

/-- Latches a key code. -/
def press (code : UInt8) : Machine → Machine
  | ⟨cpu, config, board⟩ => ⟨cpu, config, board.press code⟩

/-- Does what a key action says. -/
def act (action : KeyAction) (machine : Machine) : Machine :=
  match action with
  | .key code => machine.press code
  | .reset => machine.reset

/-- Takes a key from the host. -/
def handleKey (key : HostKey) (machine : Machine) : Machine :=
  match key.action with
  | some action => machine.act action
  | none => machine

/-! ### RAM images -/

def ramSize (machine : Machine) : Nat := machine.board.ram.size

/-- Puts bytes into RAM in place of those from a place on. -/
def overlay (ram image : Array UInt8) (start : Nat) : Array UInt8 :=
  ram.extract 0 start ++ image ++ ram.extract (start + image.size) ram.size

theorem size_overlay {ram image : Array UInt8} {start : Nat} (h : start + image.size ≤ ram.size) :
    (overlay ram image start).size = ram.size := by
  simp only [overlay, Array.size_append, Array.size_extract]
  omega

/-- Copies an image into RAM. -/
def loadImage (address : UInt16) (image : Array UInt8) (machine : Machine) : Except Error Machine :=
  if machine.ramSize ≤ address.toNat then .error (.outsideRam address machine.ramSize)
  else if machine.ramSize < address.toNat + image.size then
    .error (.imageTooLarge image.size address machine.ramSize)
  else
    .ok { machine with board := { machine.board with
      ram := overlay machine.board.ram image address.toNat
      journal := machine.board.journal.note (.imageLoaded image.size address) } }

/-- The bytes of RAM from `start` to `last`. -/
def saveRegion (start last : UInt16) (machine : Machine) : Except Error (Array UInt8) :=
  if last ≤ start then .error (.emptyRegion start last)
  else if machine.ramSize ≤ last.toNat then .error (.outsideRam last machine.ramSize)
  else .ok (machine.board.ram.extract start.toNat (last.toNat + 1))

/-! ### Looking at a machine -/

/-- What a debugger shows. -/
structure DebugInfo where
  registers : Registers
  cycles : UInt64
  ramSize : Nat
  keyPending : Bool
  displayBusy : Bool
  deriving DecidableEq, Repr

def debugInfo (machine : Machine) : DebugInfo where
  registers := machine.cpu.registers
  cycles := machine.cpu.cycles
  ramSize := machine.ramSize
  keyPending := machine.board.pia.keyPending
  displayBusy := machine.board.displayBusy

end Machine

end AppleOne
