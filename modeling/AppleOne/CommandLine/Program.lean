import AppleOne.CommandLine.Arguments
import AppleOne.CommandLine.Host
import AppleOne.Machine.SaveState
import AppleOne.Machine.Typing

/-!
The program without a screen: builds a machine from files, types into it while it runs, and saves what
is left.
-/

namespace AppleOne.CommandLine

/-- Why a run failed. -/
structure Failure where
  message : String
  cause : Option String
  deriving DecidableEq, Repr

namespace Failure

/-- A failure to use a file, told by what was tried. -/
def ofFile (tried : String) (e : FileError) : Failure := ⟨tried, some e.message⟩

def ofMachine (e : Machine.Error) : Failure := ⟨e.message, e.cause⟩

/-- The lines that tell of a failure. -/
def lines (f : Failure) : List String :=
  ("Error: " ++ f.message) ::
    match f.cause with
    | some cause => ["", "Caused by:", "    " ++ cause]
    | none => []

end Failure

/-- How the program is called. -/
def usage : String := "\n".intercalate [
  "Usage: apple1 [OPTIONS]",
  "",
  "  --monitor FILE         monitor image of 256 bytes",
  "  --basic FILE           BASIC image of 4096 bytes",
  "  --ram BYTES            RAM size, in place of the configured one",
  "  --config FILE          machine configuration in JSON",
  "  --load ADDR:FILE       load a file into RAM (may be repeated)",
  "  --save START:END:FILE  save a region of RAM after the run",
  "  --ticks COUNT          ticks to run (600 if not given)",
  "  --input TEXT           text to type, at most one key a tick",
  "  --realtime             sixty ticks a second",
  "  --log-level LEVEL      off, error, warn, info, debug or trace",
  "  --log-file FILE        log to a file",
  "  --state FILE           save the state after the run in JSON",
  "  -h, --help             show this text",
  ""]

variable {m : Type → Type} [Monad m] [Host m]

/-- A part of a run, which may fail. -/
abbrev Attempt (m : Type → Type) := ExceptT Failure m

/-- The result of a file operation, or the failure it means. -/
def orFail {α : Type} (tried : String) (operation : m (Except FileError α)) : Attempt m α := do
  match ← operation with
  | .ok result => return result
  | .error e => throw (.ofFile tried e)

/-- The result of a request to the machine, or the failure it means. -/
def orRefuse {α : Type} : Except Machine.Error α → Attempt m α
  | .ok result => pure result
  | .error e => throw (.ofMachine e)

/-- The bytes of a file. -/
def readBytes (what path : String) : Attempt m (Array UInt8) :=
  orFail s!"reading {what}{path}" (Host.readFile path)

/-- Opens the log as the arguments say. -/
def openJournal (args : Arguments) : Attempt m Log.Journal := do
  let journal := Log.Journal.initial.setGlobalLevel args.logLevel
  match args.logFile with
  | none => return journal
  | some path =>
    let (opened, journal) := journal.attachOpened path (← Host.openLog (m := m) path)
    orFail s!"opening log file {path}" (pure opened : m (Except FileError Unit))
    return journal

/-- The configuration of a file, or the standard one. -/
def readConfig (args : Arguments) : Attempt m Config := do
  let config ← match args.config with
    | none => pure .standard
    | some path =>
      let data ← readBytes "config " path
      match String.fromUTF8? ⟨data⟩ with
      | none => throw (.ofFile s!"reading config {path}" .notText)
      | some text =>
        match Config.read text with
        | .ok config => pure config
        | .error failure => throw ⟨failure.message text, none⟩
  return { config with ramSize := args.ram.getD config.ramSize }

/-- A memory image; zero bytes if there is no file. -/
def readImage (name : String) (length : Nat) : Option String → Attempt m (Array UInt8)
  | some path => readBytes s!"{name} ROM " path
  | none => pure (.replicate length 0)

/-- Passes on what the machine displayed and logged since the last time. -/
def flush : Machine → m Machine
  | ⟨cpu, config, ⟨ram, roms, pia, terminal, time, journal⟩⟩ => do
    let (events, terminal) := terminal.take
    let (lines, journal) := journal.takeLines
    if !events.isEmpty then
      Host.print (Terminal.textOf events.toList)
    for (sink, line) in lines do
      Host.writeLine sink line
    return ⟨cpu, config, ⟨ram, roms, pia, terminal, time, journal⟩⟩

/-- Loads images into RAM, in order. -/
def loadAll : List LoadRequest → Machine → Attempt m Machine
  | [], machine => pure machine
  | request :: rest, machine => do
    let image ← readBytes "" request.file
    let machine ← orRefuse (machine.loadImage request.address image)
    let machine ← flush (m := m) machine
    loadAll rest machine

/-- One step at the present time. -/
def timedStep : StateT Machine (Attempt m) Nat := fun machine => do
  let now ← Host.now (m := m)
  match Machine.step (machine.setTime now) with
  | .ok cycles machine => return (cycles, machine)
  | .error .endOfTime _ => throw ⟨"the clock is at its end", none⟩

/-- The length of a tick in real time, a sixtieth of a second. -/
def tickNanoseconds : Nat := 16667000

/-- Waits until so many ticks are over in real time, if they keep pace with it. -/
def keepPace (realtime : Bool) (start : Duration) (ticks : Nat) : m Unit := do
  if realtime then
    match Duration.ofNanoseconds? (start.nanoseconds + tickNanoseconds * ticks) with
    | some due => Host.waitUntil due
    | none => pure ()

/-- Runs `left` more ticks after `done` ones. -/
def runTicks (realtime : Bool) (start : Duration) :
    (left done : Nat) → List HostKey → Machine → Attempt m Machine
  | 0, _, _, machine => pure machine
  | left + 1, done, keys, machine => do
    let (keys, machine) := machine.offerKey keys
    let (_, machine) ← Machine.repeatStep timedStep machine.config.cyclesPerTick machine
    let machine ← flush (m := m) machine
    keepPace (m := m) realtime start (done + 1)
    runTicks realtime start left (done + 1) keys machine

/-- Saves a region of RAM. -/
def saveRegion (machine : Machine) (request : SaveRequest) : Attempt m Unit := do
  let data ← orRefuse (machine.saveRegion request.start request.last)
  orFail s!"writing {request.file}" (Host.writeFile request.file data)

/-- Saves the state of the machine. -/
def saveState (machine : Machine) (path : String) : Attempt m Unit := do
  match ← Host.writeFile (m := m) path machine.saveState.pretty.toUTF8.data with
  | .ok () => return
  | .error e => throw ⟨e.message, none⟩

/-- A whole run. -/
def execute (args : Arguments) : Attempt m Unit := do
  let journal ← openJournal args
  let config ← readConfig args
  let monitor ← readImage "monitor" 256 args.monitor
  let basic ← readImage "BASIC" 4096 args.basic
  let machine ← orRefuse (Machine.ofImages config monitor basic .recorder journal)
  let machine ← flush (m := m) machine
  Host.print (m := m) s!"{config.kilobytes}K RAM\n"
  let machine ← loadAll args.loads machine
  let start ← Host.now (m := m)
  let keys := HostKey.ofText (args.input.getD "")
  let machine ← runTicks args.realtime start args.ticks.toNat 0 keys machine
  Host.print (m := m) "\n"
  args.save.forM (saveRegion machine)
  args.state.forM (saveState machine)

/-- The program; the result is its exit code. -/
def run (arguments : List String) : m UInt32 := do
  match Arguments.parse arguments with
  | .error .helpAsked =>
    Host.print usage
    return 0
  | .error _ =>
    Host.writeLine .standardError "error: bad arguments, see --help"
    return 2
  | .ok args =>
    match ← (execute args).run with
    | .ok () => return 0
    | .error failure =>
      for line in failure.lines do
        Host.writeLine .standardError line
      return 1

end AppleOne.CommandLine
