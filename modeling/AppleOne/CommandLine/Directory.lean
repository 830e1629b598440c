import AppleOne.CommandLine.Device
import AppleOne.Text.Utf8

/-!
A host in memory: a working directory with files in it, what every system has around it, and what was
printed. Its clock moves on by a microsecond with each look at it.
-/

namespace AppleOne.CommandLine

structure Directory where
  /-- Each file at its place. -/
  files : List (Place × Array UInt8)
  /-- What the two streams show. -/
  output : String
  errors : String
  time : Duration

namespace Directory

/-- What the file at a place holds. -/
def find? (d : Directory) (place : Place) : Option (Array UInt8) := d.files.lookup place

/-- Puts a file at a place, instead of the one there. -/
def put (d : Directory) (place : Place) (data : Array UInt8) : Directory :=
  { d with files := (place, data) :: d.files.filter (·.1 != place) }

/-- A directory of files, before anything is printed. -/
def ofFiles (files : List (String × Array UInt8)) : Directory :=
  files.foldl (fun d (name, data) => d.put (Path.ofText name).place data)
    { files := [], output := "", errors := "", time := .zero }

/-- Whether a place is a directory: an origin, one that every system has, or one with a file or device
below it. -/
def isDirectory (d : Directory) (place : Place) : Bool :=
  let below (names : List String) := place.names.isPrefixOf names && place.names != names
  place.names.isEmpty ||
    (place.origin == .root &&
      (systemDirectories.any (place.names == [·]) || Device.table.any (below ·.1))) ||
    d.files.any fun (file, _) => file.origin == place.origin && below file.names

/-- Whether there is anything at a place. -/
def occupied (d : Directory) (place : Place) : Bool :=
  d.isDirectory place || (Device.at? place).isSome || (d.find? place).isSome

/-- Makes a step. Only a directory can be left, and only what is there can be reached. -/
def walk (d : Directory) (place : Place) (step : PathStep) : Except FileError Place :=
  if !d.isDirectory place then .error .notADirectory
  else if step.tooLong then .error .nameTooLong
  else if d.occupied (place.after step) then .ok (place.after step)
  else .error .notFound

/-- Takes a path apart, unless no path is written so. -/
def parsePath (text : String) : Except FileError Path :=
  if text.isEmpty then .error .notFound
  else if longestPath < text.utf8ByteSize then .error .nameTooLong
  else .ok (Path.ofText text)

/-- Reads a file. -/
def locate (d : Directory) (text : String) : Except FileError (Array UInt8) := do
  let path ← parsePath text
  let place ← path.steps.foldlM d.walk ⟨path.start, []⟩
  if d.isDirectory place then .error .isADirectory
  else if path.slashed then .error .notADirectory
  else
    match Device.at? place, d.find? place with
    | some device, _ => device.contents
    | none, some data => .ok data
    | none, none => .error .notFound

/-- Opens a place in a directory for writing. -/
def openIn (d : Directory) (place : Place) : Except FileError Place :=
  if d.isDirectory place then .error .isADirectory
  else if Device.at? place = some .terminal then .error .noSuchDevice
  else if d.occupied place then .ok place
  else
    match closedAt? place with
    | some e => .error e
    | none => .ok place

/-- The place of a file to be written, which may have to be made. -/
def target (d : Directory) (text : String) : Except FileError Place := do
  let path ← parsePath text
  let parent ← path.steps.dropLast.foldlM d.walk ⟨path.start, []⟩
  if !d.isDirectory parent then .error .notADirectory
  else
    match path.steps.getLast? with
    | some (.into name) =>
      if path.slashed then .error .isADirectory
      else if (PathStep.into name).tooLong then .error .nameTooLong
      else d.openIn (parent.after (.into name))
    | _ => .error .isADirectory

/-- What the file of a name holds. -/
def contents? (d : Directory) (name : String) : Option (Array UInt8) := (d.locate name).toOption

/-- Writes to a place after bytes that stay. A device takes the new ones only. -/
def write (d : Directory) (place : Place) (kept data : Array UInt8) : Except FileError Directory :=
  match Device.at? place with
  | none => .ok (d.put place (kept ++ data))
  | some .standardOutput => .ok { d with output := d.output ++ Text.shown data }
  | some .standardError => .ok { d with errors := d.errors ++ Text.shown data }
  | some .full => if data.isEmpty then .ok d else .error .noSpace
  | some _ => .ok d

/-- Replaces what a file holds. -/
def replace (d : Directory) (text : String) (data : Array UInt8) : Except FileError Directory := do
  let place ← d.target text
  d.write place #[] data

/-- Adds to what a file holds. -/
def append (d : Directory) (text : String) (data : Array UInt8) : Except FileError Directory := do
  let place ← d.target text
  d.write place ((d.find? place).getD #[]) data

/-- A change that may fail, as an action. -/
def attempt (change : Directory → Except FileError Directory) :
    StateM Directory (Except FileError Unit) := fun d =>
  match change d with
  | .ok d => (.ok (), d)
  | .error e => (.error e, d)

instance : Host (StateM Directory) where
  readFile path := fun d => (d.locate path, d)
  writeFile path data := attempt fun d => d.replace path data
  openLog path := attempt fun d => d.append path #[]
  writeLine
    | .standardError, line => fun ⟨files, output, errors, time⟩ =>
      ((), ⟨files, output, errors ++ line ++ "\n", time⟩)
    | .file path, line => fun d =>
      ((), (d.append path (line ++ "\n").toUTF8.data).toOption.getD d)
  print text := fun ⟨files, output, errors, time⟩ => ((), ⟨files, output ++ text, errors, time⟩)
  now := fun ⟨files, output, errors, time⟩ =>
    (time, ⟨files, output, errors, (time.add? ⟨1000, by decide⟩).getD time⟩)
  waitUntil due := fun ⟨files, output, errors, time⟩ =>
    ((), ⟨files, output, errors, time.longer due⟩)

end Directory

end AppleOne.CommandLine
