import AppleOne.Log.Diagnostic
import AppleOne.Log.Limiter

/-!
The log itself: levels, rate limit, the route that lines take and the lines written so far. All of it
happens within one second, so nothing that the limiter counts expires.
-/

namespace AppleOne.Log

/-- Where a line goes. -/
inductive Sink where
  | standardError
  | file (name : String)
  deriving DecidableEq, Repr

structure Journal where
  globalLevel : Level
  /-- A category's own level; `off` leaves the decision to the global one. -/
  levels : PerCategory Level
  /-- Messages of one category that may pass in a second. -/
  rateLimit : Nat
  windows : PerCategory Window
  /-- Whether lines go to a log file. -/
  fileLogging : Bool
  /-- The channel to the log file in use, by the file's name. -/
  sender : Option String
  /-- All lines written so far, each with the sink that took it. -/
  lines : Array (Sink × String)

namespace Journal

/-- Everything off, sixty messages a second, no log file. -/
def initial : Journal where
  globalLevel := .off
  levels := .const .off
  rateLimit := 60
  windows := .const .initial
  fileLogging := false
  sender := none
  lines := #[]

def setGlobalLevel (j : Journal) (level : Level) : Journal := { j with globalLevel := level }

def setLevel (j : Journal) (category : Category) (level : Level) : Journal :=
  { j with levels := j.levels.set category level }

def setRateLimit (j : Journal) (limit : Nat) : Journal := { j with rateLimit := limit }

/-- Switches every level off. -/
def resetLevels (j : Journal) : Journal := { j with globalLevel := .off, levels := .const .off }

/-- Sends later lines to a file that was opened for appending. -/
def attach (j : Journal) (name : String) : Journal := { j with sender := some name, fileLogging := true }

/-- Sends later lines to a file if it could be opened; else they go where they went before. -/
def attachOpened {ε : Type} (j : Journal) (name : String) (opened : Except ε Unit) :
    Except ε Unit × Journal :=
  match opened with
  | .ok () => (.ok (), j.attach name)
  | .error e => (.error e, j)

/-- Sends later lines to standard error. -/
def detach (j : Journal) : Journal := { j with sender := none, fileLogging := false }

/-- Whether messages of a category and level are wanted. -/
def enabled (j : Journal) (category : Category) (level : Level) : Bool :=
  level != .off &&
    decide (level ≤ if j.levels.get category = .off then j.globalLevel else j.levels.get category)

/-- The sink in use. -/
def sink (j : Journal) : Sink :=
  if j.fileLogging then
    match j.sender with
    | some name => .file name
    | none => .standardError
  else .standardError

def write (j : Journal) (line : String) : Journal := { j with lines := j.lines.push (j.sink, line) }

/-- The line that reports refused messages. -/
def dropWarning (category : Category) (count : Nat) : String :=
  s!"[{category.name}] WARNING: Rate limit exceeded, {count} log message(s) dropped in the last second"

/-- Offers a message and says whether its text was written. A report of refused messages comes
first. -/
def offer (j : Journal) (category : Category) (level : Level) (text : Unit → String) :
    Bool × Journal :=
  if j.enabled category level then
    let (verdict, window) := (j.windows.get category).judge j.rateLimit
    let j := { j with windows := j.windows.set category window }
    let j := match verdict.report with
      | some count => j.write (dropWarning category count)
      | none => j
    (verdict.allowed, if verdict.allowed then j.write (text ()) else j)
  else
    (false, j)

/-- Offers a diagnostic. -/
def note (j : Journal) (d : Diagnostic) : Journal :=
  (j.offer d.category d.level fun _ => d.text).2

/-- Offers a diagnostic, if there is one. -/
def noteAny (j : Journal) : Option Diagnostic → Journal
  | some d => j.note d
  | none => j

/-- Takes away the lines written so far. -/
def takeLines (j : Journal) : Array (Sink × String) × Journal := (j.lines, { j with lines := #[] })

/-- The lines that one sink took, in order. -/
def linesOf (j : Journal) (sink : Sink) : List String :=
  j.lines.toList.filterMap fun (target, line) => if target = sink then some line else none

end Journal

end AppleOne.Log
