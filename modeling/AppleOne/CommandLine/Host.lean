import AppleOne.Log.Journal
import AppleOne.Time.Duration

/-!
What the program needs of its surroundings: files, two streams to print to, and a clock.
-/

namespace AppleOne.CommandLine

/-- Why a file could not be used. -/
inductive FileError where
  | notFound
  | notADirectory
  | isADirectory
  | permissionDenied
  | nameTooLong
  | noSpace
  | noSuchDevice
  | outOfMemory
  /-- Bytes that are no text. -/
  | notText
  | other (message : String)
  deriving DecidableEq, Repr

def FileError.message : FileError → String
  | notFound => "No such file or directory (os error 2)"
  | notADirectory => "Not a directory (os error 20)"
  | isADirectory => "Is a directory (os error 21)"
  | permissionDenied => "Permission denied (os error 13)"
  | nameTooLong => "File name too long (os error 36)"
  | noSpace => "No space left on device (os error 28)"
  | noSuchDevice => "No such device or address (os error 6)"
  | outOfMemory => "out of memory"
  | notText => "stream did not contain valid UTF-8"
  | other message => message

/-- A context in which the program can run. -/
class Host (m : Type → Type) where
  readFile : String → m (Except FileError (Array UInt8))
  /-- Replaces what a file holds. -/
  writeFile : String → Array UInt8 → m (Except FileError Unit)
  /-- Makes sure that there is a file that lines can be appended to. -/
  openLog : String → m (Except FileError Unit)
  /-- Appends a line to a log file or to standard error. -/
  writeLine : Log.Sink → String → m Unit
  /-- Prints to standard output. -/
  print : String → m Unit
  /-- A time that never goes back. -/
  now : m Duration
  /-- Waits for a time. -/
  waitUntil : Duration → m Unit

end AppleOne.CommandLine
