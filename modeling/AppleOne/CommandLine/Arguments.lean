import AppleOne.CommandLine.Address
import AppleOne.Log.Level

/-!
The arguments of the program. An option's value follows it or is attached with an equals sign. A value
that follows is judged only when the next option begins or the arguments end, so an unknown option
after it is noticed first.
-/

namespace AppleOne.CommandLine

structure Arguments where
  monitor : Option String
  basic : Option String
  /-- Bytes of RAM, in place of what the configuration says. -/
  ram : Option UInt64
  config : Option String
  loads : List LoadRequest
  save : Option SaveRequest
  ticks : UInt32
  input : Option String
  /-- Whether ticks keep pace with real time. -/
  realtime : Bool
  logLevel : Log.Level
  logFile : Option String
  /-- Where the state after the run is saved. -/
  state : Option String

def Arguments.default : Arguments where
  monitor := none
  basic := none
  ram := none
  config := none
  loads := []
  save := none
  ticks := 600
  input := none
  realtime := false
  logLevel := .off
  logFile := none
  state := none

/-- What is wrong with the arguments; asking for help ends them too. -/
inductive UsageError where
  | unknownArgument
  | invalidValue
  | valueRefused (reason : String)
  | repeated
  | tooManyValues
  | helpAsked
  deriving DecidableEq, Repr

/-- An option that takes a value. -/
inductive Setting where
  | monitor | basic | ram | config | load | save | ticks | input | logLevel | logFile | state
  deriving DecidableEq, Repr

/-- An option without a value. -/
inductive Flag where
  | realtime
  | help
  deriving DecidableEq, Repr

/-- The setting of a name. -/
def Setting.ofName? : String → Option Setting
  | "monitor" => some monitor
  | "basic" => some basic
  | "ram" => some ram
  | "config" => some config
  | "load" => some load
  | "save" => some save
  | "ticks" => some ticks
  | "input" => some input
  | "log-level" => some logLevel
  | "log-file" => some logFile
  | "state" => some state
  | _ => none

def Flag.ofName? : String → Option Flag
  | "realtime" => some realtime
  | "help" => some help
  | _ => none

/-- A path must not be empty. -/
def parsePath (value : String) : Except UsageError (Option String) :=
  if value.isEmpty then .error .invalidValue else .ok (some value)

/-- A count of ticks of 32 bits. -/
def parseTicks (value : String) : Except UsageError UInt32 :=
  match Text.parseSigned value.toList with
  | .error e => .error (.valueRefused e.message)
  | .ok n =>
    if 0 ≤ n ∧ n < 0x100000000 then .ok n.toNat.toUInt32
    else .error (.valueRefused s!"{n} is not in 0..=4294967295")

/-- Takes over the value of a setting. -/
def Arguments.assign (args : Arguments) (setting : Setting) (value : String) :
    Except UsageError Arguments := do
  match setting with
  | .monitor => return { args with monitor := ← parsePath value }
  | .basic => return { args with basic := ← parsePath value }
  | .config => return { args with config := ← parsePath value }
  | .logFile => return { args with logFile := ← parsePath value }
  | .state => return { args with state := ← parsePath value }
  | .input => return { args with input := some value }
  | .ticks => return { args with ticks := ← parseTicks value }
  | .ram =>
    match Text.parseNatural 10 0xFFFFFFFFFFFFFFFF value.toList with
    | .ok n => return { args with ram := some n.toUInt64 }
    | .error e => throw (.valueRefused e.message)
  | .load =>
    match LoadRequest.parse value with
    | .ok request => return { args with loads := args.loads ++ [request] }
    | .error reason => throw (.valueRefused reason)
  | .save =>
    match SaveRequest.parse value with
    | .ok request => return { args with save := some request }
    | .error reason => throw (.valueRefused reason)
  | .logLevel =>
    match Log.Level.ofText? value with
    | some level => return { args with logLevel := level }
    | none => throw (.valueRefused (Log.Level.unknownMessage value))

/-- A setting whose value is not taken over yet. -/
inductive Pending where
  | nothing
  /-- The value comes next. -/
  | awaited (setting : Setting)
  | given (setting : Setting) (value : String)

/-- The arguments read so far. -/
structure Parsing where
  arguments : Arguments
  /-- Settings that were taken over, none of which but `load` may come again. -/
  seen : List Setting
  pending : Pending

namespace Parsing

def initial : Parsing where
  arguments := .default
  seen := []
  pending := .nothing

/-- Takes over a setting. That it comes again weighs more than a bad value. -/
def take (p : Parsing) (setting : Setting) (value : String) : Except UsageError Parsing :=
  if setting ≠ .load ∧ setting ∈ p.seen then .error .repeated
  else do
    let arguments ← p.arguments.assign setting value
    return { arguments, seen := setting :: p.seen, pending := .nothing }

/-- Takes over the setting that is pending. -/
def settle (p : Parsing) : Except UsageError Parsing :=
  match p.pending with
  | .nothing => .ok p
  | .awaited _ => .error .invalidValue
  | .given setting value => p.take setting value

/-- A long option, with the value attached to it. -/
def long (p : Parsing) (name : String) (value : Option String) : Except UsageError Parsing :=
  match Setting.ofName? name, Flag.ofName? name with
  | some setting, _ => do
    let p ← p.settle
    match value with
    | some value => p.take setting value
    | none => return { p with pending := .awaited setting }
  | none, some flag =>
    if value.isSome then .error .tooManyValues
    else do
      let p ← p.settle
      match flag with
      | .help => throw .helpAsked
      | .realtime =>
        if p.arguments.realtime then throw .repeated
        return { p with arguments := { p.arguments with realtime := true } }
  | none, none => .error .unknownArgument

/-- A cluster of short options, of which there is only one. -/
def short (p : Parsing) : List Char → Except UsageError Parsing
  | 'h' :: _ => do
    let _ ← p.settle
    throw .helpAsked
  | _ => .error .unknownArgument

/-- An argument that is no option: the awaited value, or one too many. -/
def plain (p : Parsing) (text : String) : Except UsageError Parsing :=
  match p.pending with
  | .awaited setting => .ok { p with pending := .given setting text }
  | _ => .error .unknownArgument

/-- The name and the attached value of a long option. -/
def splitEquals (text : List Char) : String × Option String :=
  match text.span (· != '=') with
  | (name, []) => (String.ofList name, none)
  | (name, _ :: value) => (String.ofList name, some (String.ofList value))

/-- Reads arguments. After two dashes there are no more options, nor values of earlier ones. -/
def read (p : Parsing) : List String → Except UsageError Parsing
  | [] => p.settle
  | argument :: rest =>
    match argument.toList with
    | ['-', '-'] => if rest.isEmpty then p.settle else .error .unknownArgument
    | '-' :: '-' :: option => do
      let (name, value) := splitEquals option
      let p ← p.long name value
      p.read rest
    | '-' :: c :: cluster => do
      let p ← p.short (c :: cluster)
      p.read rest
    | _ => do
      let p ← p.plain argument
      p.read rest

end Parsing

/-- The arguments that a command line stands for. -/
def Arguments.parse (arguments : List String) : Except UsageError Arguments := do
  let p ← Parsing.initial.read arguments
  return p.arguments

end AppleOne.CommandLine
