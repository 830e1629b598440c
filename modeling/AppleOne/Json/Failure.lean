import AppleOne.Json.Printer
import AppleOne.Text.Quoted

/-!
Why JSON is refused. A malformation is a fault of the text, a mismatch a value of the wrong kind. A
failure adds the place: the text that was left, and how many bytes of it were looked at.
-/

namespace AppleOne.Json

inductive Malformation where
  | endInArray
  | endInObject
  | endInString
  | endOfText
  | colonExpected
  | arraySeparatorExpected
  | objectSeparatorExpected
  | wordExpected
  | valueExpected
  | badEscape
  | badNumber
  | numberOutOfRange
  | loneSurrogate
  | secondSurrogateExpected
  | controlCharacter
  | nameExpected
  | trailingComma
  | trailingText
  | tooDeep
  deriving DecidableEq, Repr

namespace Malformation

/-- Whether more text could mend it. -/
def isPrematureEnd : Malformation → Bool
  | endInArray | endInObject | endInString | endOfText => true
  | _ => false

def message : Malformation → String
  | endInArray => "EOF while parsing a list"
  | endInObject => "EOF while parsing an object"
  | endInString => "EOF while parsing a string"
  | endOfText => "EOF while parsing a value"
  | colonExpected => "expected `:`"
  | arraySeparatorExpected => "expected `,` or `]`"
  | objectSeparatorExpected => "expected `,` or `\x7d`"
  | wordExpected => "expected ident"
  | valueExpected => "expected value"
  | badEscape => "invalid escape"
  | badNumber => "invalid number"
  | numberOutOfRange => "number out of range"
  | loneSurrogate => "lone leading surrogate in hex escape"
  | secondSurrogateExpected => "unexpected end of hex escape"
  | controlCharacter => "control character (\\u0000-\\u001F) found while parsing a string"
  | nameExpected => "key must be a string"
  | trailingComma => "trailing comma"
  | trailingText => "trailing characters"
  | tooDeep => "recursion limit exceeded"

end Malformation

/-- What a value is, as far as a message tells. -/
inductive Found where
  | null
  | bool (value : Bool)
  | number (value : Number)
  | string (value : String)
  | sequence
  | map

def found : Json → Found
  | null => .null
  | bool value => .bool value
  | number value => .number value
  | string value => .string value
  | array _ => .sequence
  | object _ => .map

def Found.text : Found → String
  | null => "null"
  | bool value => s!"boolean `{value}`"
  | number (.integer value) => s!"integer `{value}`"
  | number (.real value) => "floating point `" ++ (Number.real value).text ++ "`"
  | string value => "string " ++ Text.quoted value
  | sequence => "sequence"
  | map => "map"

/-- A value of the wrong kind, or a record with the wrong fields. -/
inductive Mismatch where
  | kind (found : Found) (expected : String)
  | range (value : Int) (expected : String)
  | missing (field : String)
  | repeated (field : String)
  | length (count : Nat) (expected : String)

def Mismatch.message : Mismatch → String
  | kind found expected => "invalid type: " ++ found.text ++ ", expected " ++ expected
  | range value expected => s!"invalid value: integer `{value}`, expected {expected}"
  | missing field => s!"missing field `{field}`"
  | repeated field => s!"duplicate field `{field}`"
  | length count expected => s!"invalid length {count}, expected {expected}"

inductive Problem where
  | malformed (cause : Malformation)
  | mismatched (cause : Mismatch)

def Problem.message : Problem → String
  | malformed cause => cause.message
  | mismatched cause => cause.message

structure Failure where
  problem : Problem
  /-- The text from the place of the failure on. -/
  rest : List Char
  /-- Bytes of it that belong to the failure. -/
  looked : Nat

/-- What a reader gives. Readers of a part of a text also give the text after it. -/
abbrev Reading := Except Failure

/-- A failure that is noticed at the next character. -/
def failAt {α : Type} (cause : Malformation) (rest : List Char) : Reading α :=
  .error ⟨.malformed cause, rest, 1⟩

/-- A failure that is noticed before the next character. -/
def failBefore {α : Type} (cause : Malformation) (rest : List Char) : Reading α :=
  .error ⟨.malformed cause, rest, 0⟩

/-- A mismatch that is noticed before the next character. -/
def mismatch {α : Type} (cause : Mismatch) (rest : List Char) : Reading α :=
  .error ⟨.mismatched cause, rest, 0⟩

/-- Bytes of a text in UTF-8. -/
def byteCount (text : List Char) : Nat := text.foldl (fun count c => count + c.utf8Size) 0

/-- A line, counted from one, and a column in bytes. -/
structure Position where
  line : Nat
  column : Nat
  deriving DecidableEq, Repr

/-- The position of a byte of a text. -/
def Position.ofByte (text : List Char) (byte : Nat) : Position :=
  go 1 0 text byte
where
  go (line column : Nat) : List Char → Nat → Position
    | [], left => ⟨line, column + left⟩
    | c :: rest, left =>
      if left < c.utf8Size then ⟨line, column + left⟩
      else if c = '\n' then go (line + 1) 0 rest (left - 1)
      else go line (column + c.utf8Size) rest (left - c.utf8Size)

/-- Where in a text a failure lies: past the bytes looked at, but not past the end. -/
def Failure.position (text : List Char) (f : Failure) : Position :=
  let left := byteCount f.rest
  .ofByte text (byteCount text - left + min f.looked left)

/-- The message with its place. -/
def Failure.message (text : String) (f : Failure) : String :=
  let p := f.position text.toList
  f.problem.message ++ s!" at line {p.line} column {p.column}"

end AppleOne.Json
