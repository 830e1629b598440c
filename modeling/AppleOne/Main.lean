import AppleOne.CommandLine.Program

/-!
The program on a real host.
-/

namespace AppleOne.CommandLine

/-- The failure that an error of the file system means. -/
def fileError : IO.Error → FileError
  | .noFileOrDirectory .. => .notFound
  | .noSuchThing _ 6 _ => .noSuchDevice
  | .noSuchThing .. => .notFound
  | .permissionDenied .. => .permissionDenied
  | .inappropriateType _ 20 _ => .notADirectory
  | .inappropriateType _ 21 _ => .isADirectory
  | .invalidArgument _ 36 _ => .nameTooLong
  | .resourceExhausted _ 28 _ => .noSpace
  | e => .other (toString e)

/-- An action, with its error as a result. -/
def guarded {α : Type} (action : IO α) : BaseIO (Except FileError α) := do
  match ← action.toBaseIO with
  | .ok result => return .ok result
  | .error e => return .error (fileError e)

instance : Host IO where
  readFile path := guarded do
    let handle ← IO.FS.Handle.mk path .read
    let data ← handle.readBinToEnd
    return data.data
  writeFile path data := guarded do
    let handle ← IO.FS.Handle.mk path .write
    handle.write ⟨data⟩
    handle.flush
  openLog path := guarded do
    let _ ← IO.FS.Handle.mk path .append
  writeLine
    | .standardError, line => IO.eprintln line
    | .file path, line => do
      let handle ← IO.FS.Handle.mk path .append
      handle.putStrLn line
  print text := do
    let output ← IO.getStdout
    output.putStr text
    output.flush
  now := do
    let time ← IO.monoNanosNow
    return (Duration.ofNanoseconds? time).getD .zero
  waitUntil due := do
    let time ← IO.monoNanosNow
    IO.sleep ((due.nanoseconds - time) / 1000000).toUInt32

end AppleOne.CommandLine

def main (arguments : List String) : IO UInt32 := AppleOne.CommandLine.run arguments
