import AppleOne.CommandLine.Host
import AppleOne.CommandLine.Path

/-!
What every system has outside the working directory: the directories right under the root, and devices,
which stand among the files but keep nothing.
-/

namespace AppleOne.CommandLine

/-- The directories right under the root. -/
def systemDirectories : List String :=
  ["bin", "boot", "dev", "etc", "home", "lib", "media", "mnt", "opt", "proc", "root", "run", "sbin",
    "srv", "sys", "tmp", "usr", "var"]

/-- The directories below which no file can be made, each with what comes of it. -/
def closedDirectories : List (List String × FileError) :=
  [(["proc"], .notFound), (["dev", "fd"], .notFound), (["sys"], .permissionDenied)]

/-- Why no file can be made at a place, if none can. -/
def closedAt? (place : Place) : Option FileError :=
  if place.origin = .root then (closedDirectories.find? (·.1.isPrefixOf place.names)).map Prod.snd
  else none

inductive Device where
  /-- Takes everything, and is empty. -/
  | null
  /-- Takes everything, and never ends. -/
  | endless
  /-- Has no room, and never ends. -/
  | full
  | standardOutput
  | standardError
  /-- A terminal, which no one sits at. -/
  | terminal
  deriving DecidableEq, Repr

namespace Device

/-- What a program can read from a device. -/
def contents : Device → Except FileError (Array UInt8)
  | .endless | .full => .error .outOfMemory
  | .terminal => .error .noSuchDevice
  | _ => .ok #[]

/-- The three streams of a program under their numbers. Its input is empty. -/
def streams : List (String × Device) :=
  [("0", .null), ("1", .standardOutput), ("2", .standardError)]

/-- Every device, under names from the root on. -/
def table : List (List String × Device) :=
  [("null", .null), ("zero", .endless), ("random", .endless), ("urandom", .endless), ("full", .full),
    ("stdin", .null), ("stdout", .standardOutput), ("stderr", .standardError),
    ("tty", .terminal)].map (fun (name, device) => (["dev", name], device)) ++
  streams.map (fun (name, device) => (["dev", "fd", name], device)) ++
  streams.map fun (name, device) => (["proc", "self", "fd", name], device)

/-- The device at a place. -/
def at? (place : Place) : Option Device :=
  if place.origin = .root then table.lookup place.names else none

end Device

end AppleOne.CommandLine
