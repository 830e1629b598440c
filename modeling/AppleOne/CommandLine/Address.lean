import AppleOne.Text.Number

/-!
Addresses and RAM regions as they are written on the command line: hexadecimal numbers, and a file
name after them, each separated by a colon.
-/

namespace AppleOne.CommandLine

/-- An image to be loaded at an address. -/
structure LoadRequest where
  address : UInt16
  file : String
  deriving DecidableEq, Repr

/-- A region of RAM, its last byte included, to be saved. -/
structure SaveRequest where
  start : UInt16
  last : UInt16
  file : String
  deriving DecidableEq, Repr

/-- Drops all marks `0x` at the start. -/
def dropMarks : List Char → List Char
  | '0' :: 'x' :: rest => dropMarks rest
  | text => text

/-- A hexadecimal address. In front of it may stand dollar signs and then marks `0x`. -/
def parseAddress (text : String) : Except String UInt16 :=
  match Text.parseNatural 16 0xFFFF (dropMarks (text.toList.dropWhile (· == '$'))) with
  | .ok n => .ok n.toUInt16
  | .error e => .error s!"bad address '{text}': {e.message}"

/-- The parts of a text before and after its first colon. -/
def splitColon? (text : String) : Option (String × String) :=
  match text.toList.span (· != ':') with
  | (_, []) => none
  | (before, _ :: after) => some (String.ofList before, String.ofList after)

def LoadRequest.parse (text : String) : Except String LoadRequest :=
  match splitColon? text with
  | none => .error s!"expected ADDR:FILE, got '{text}'"
  | some (address, file) => do
    let address ← parseAddress address
    return { address, file }

def SaveRequest.parse (text : String) : Except String SaveRequest :=
  let parts? := do
    let (start, rest) ← splitColon? text
    let (last, file) ← splitColon? rest
    return (start, last, file)
  match parts? with
  | none => .error s!"expected START:END:FILE, got '{text}'"
  | some (start, last, file) => do
    let start ← parseAddress start
    let last ← parseAddress last
    return { start, last, file }

end AppleOne.CommandLine
