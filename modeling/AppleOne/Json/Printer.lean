import AppleOne.Decimal.Shortest
import AppleOne.Json.Value

/-!
JSON text, either compact or laid out with one member on a line and two spaces for each level.
-/

namespace AppleOne.Json

/-- Numbers with a point are positional from `10 ^ -5` up to `10 ^ 16`. -/
def realStyle : Decimal.Style where
  least := -5
  most := 16

def Number.text : Number → String
  | integer value => toString value
  | real value => Decimal.text realStyle value

/-- The last hexadecimal digits of a character code, lower-case. -/
def codeDigits (code : Nat) : List Char :=
  [Nat.digitChar (code / 4096 % 16), Nat.digitChar (code / 256 % 16), Nat.digitChar (code / 16 % 16),
    Nat.digitChar (code % 16)]

/-- A character inside a JSON string. -/
def escapedChar (c : Char) : List Char :=
  match c with
  | '"' => ['\\', '"']
  | '\\' => ['\\', '\\']
  | '\n' => ['\\', 'n']
  | '\r' => ['\\', 'r']
  | '\t' => ['\\', 't']
  | '\x08' => ['\\', 'b']
  | '\x0c' => ['\\', 'f']
  | c => if c.toNat < 0x20 then '\\' :: 'u' :: codeDigits c.toNat else [c]

def stringText (s : String) : List Char := '"' :: s.toList.flatMap escapedChar ++ ['"']

/-- Texts separated by commas. -/
def separated (separator : List Char) : List (List Char) → List Char
  | [] => []
  | [text] => text
  | text :: rest => text ++ separator ++ separated separator rest

mutual

/-- Text without blanks, as characters. -/
def compactChars : Json → List Char
  | null => "null".toList
  | bool true => "true".toList
  | bool false => "false".toList
  | number value => value.text.toList
  | string value => stringText value
  | array items => '[' :: separated [','] (compactItems items) ++ [']']
  | object members => '\x7b' :: separated [','] (compactMembers members) ++ ['\x7d']

def compactItems : List Json → List (List Char)
  | [] => []
  | item :: rest => compactChars item :: compactItems rest

def compactMembers : List (String × Json) → List (List Char)
  | [] => []
  | (name, value) :: rest => (stringText name ++ ':' :: compactChars value) :: compactMembers rest

end

/-- Text without blanks. -/
def compact (value : Json) : String := String.ofList value.compactChars

/-- The start of a line at a level. -/
def lineStart (level : Nat) : List Char := '\n' :: List.replicate (2 * level) ' '

mutual

/-- Text on several lines, as characters; the value itself stands at `level`. -/
def prettyChars (level : Nat) : Json → List Char
  | array [] => "[]".toList
  | array (item :: rest) =>
    '[' :: lineStart (level + 1) ++
      separated (',' :: lineStart (level + 1)) (prettyItems (level + 1) (item :: rest)) ++
      lineStart level ++ [']']
  | object [] => ['\x7b', '\x7d']
  | object (first :: rest) =>
    '\x7b' :: lineStart (level + 1) ++
      separated (',' :: lineStart (level + 1)) (prettyMembers (level + 1) (first :: rest)) ++
      lineStart level ++ ['\x7d']
  | null => "null".toList
  | bool true => "true".toList
  | bool false => "false".toList
  | number value => value.text.toList
  | string value => stringText value

def prettyItems (level : Nat) : List Json → List (List Char)
  | [] => []
  | item :: rest => prettyChars level item :: prettyItems level rest

def prettyMembers (level : Nat) : List (String × Json) → List (List Char)
  | [] => []
  | (name, value) :: rest =>
    (stringText name ++ ':' :: ' ' :: prettyChars level value) :: prettyMembers level rest

end

/-- Text on several lines. -/
def pretty (value : Json) : String := String.ofList (value.prettyChars 0)

end AppleOne.Json
