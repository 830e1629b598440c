import AppleOne.Json.Failure

/-!
The lexical level of JSON text: blanks, words, strings and numbers. Each reader takes the text from
its token on and gives back the text after it.
-/

namespace AppleOne.Json

def isBlank (c : Char) : Bool := c == ' ' || c == '\n' || c == '\t' || c == '\r'

def skipBlanks (text : List Char) : List Char := text.dropWhile isBlank

/-- The letters of a word that was recognised by its first one. -/
def expectWord : List Char → List Char → Reading (List Char)
  | [], text => .ok text
  | _ :: _, [] => failAt .endOfText []
  | letter :: word, c :: rest =>
    if c = letter then expectWord word rest else failAt .wordExpected (c :: rest)

/-- The value of a hexadecimal digit of either case. -/
def hexValue? (c : Char) : Option Nat :=
  if '0' ≤ c ∧ c ≤ '9' then some (c.toNat - 48)
  else if 'a' ≤ c ∧ c ≤ 'f' then some (c.toNat - 87)
  else if 'A' ≤ c ∧ c ≤ 'F' then some (c.toNat - 55)
  else none

/-- The code unit of an escape, whose four digits come next. -/
def readCodeUnit (text : List Char) : Reading (Nat × List Char) :=
  if byteCount (text.take 4) < 4 then failAt .endInString []
  else
    let bad : Reading (Nat × List Char) := .error ⟨.malformed .badEscape, text, 4⟩
    match text with
    | a :: b :: c :: d :: rest =>
      match hexValue? a, hexValue? b, hexValue? c, hexValue? d with
      | some a, some b, some c, some d => .ok (((a * 16 + b) * 16 + c) * 16 + d, rest)
      | _, _, _, _ => bad
    | _ => bad

/-- The character of an escape that one letter tells. -/
def simpleEscape? : Char → Option Char
  | '"' => some '"'
  | '\\' => some '\\'
  | '/' => some '/'
  | 'b' => some '\x08'
  | 'f' => some '\x0c'
  | 'n' => some '\n'
  | 'r' => some '\r'
  | 't' => some '\t'
  | _ => none

/-- The character of a code-unit escape: a unit alone, or a pair of surrogates. -/
def readUnicodeEscape (text : List Char) : Reading (Char × List Char) := do
  let (unit, rest) ← readCodeUnit text
  if 0xDC00 ≤ unit ∧ unit ≤ 0xDFFF then failBefore .loneSurrogate rest
  else if 0xD800 ≤ unit ∧ unit ≤ 0xDBFF then
    match rest with
    | [] => failAt .endInString []
    | '\\' :: [] => failAt .endInString []
    | '\\' :: 'u' :: rest =>
      let (second, rest) ← readCodeUnit rest
      if 0xDC00 ≤ second ∧ second ≤ 0xDFFF then
        return (Char.ofNat (0x10000 + (unit - 0xD800) * 0x400 + (second - 0xDC00)), rest)
      else failBefore .loneSurrogate rest
    | '\\' :: other => failAt .secondSurrogateExpected other
    | other => failAt .secondSurrogateExpected other
  else return (Char.ofNat unit, rest)

/-- The characters of a string up to its closing quote, after those read so far in reverse. -/
def readStringChars : Nat → List Char → List Char → Reading (List Char × List Char)
  | 0, _, text => failAt .endInString text
  | _ + 1, _, [] => failAt .endInString []
  | _ + 1, before, '"' :: rest => .ok (before.reverse, rest)
  | _ + 1, _, ['\\'] => failAt .endInString []
  | fuel + 1, before, '\\' :: 'u' :: rest => do
    let (c, rest) ← readUnicodeEscape rest
    readStringChars fuel (c :: before) rest
  | fuel + 1, before, '\\' :: letter :: rest =>
    match simpleEscape? letter with
    | some c => readStringChars fuel (c :: before) rest
    | none => failAt .badEscape (letter :: rest)
  | fuel + 1, before, c :: rest =>
    if c.toNat < 0x20 then failAt .controlCharacter (c :: rest)
    else readStringChars fuel (c :: before) rest

/-- A string whose opening quote was read. The fuel must exceed the length of the text. -/
def readString (fuel : Nat) (text : List Char) : Reading (String × List Char) := do
  let (chars, rest) ← readStringChars fuel [] text
  return (String.ofList chars, rest)

/-- Passes over a string whose opening quote was read. Escaped code units need not be characters. -/
def skipString : Nat → List Char → Reading (List Char)
  | 0, text => failAt .endInString text
  | _ + 1, [] => failAt .endInString []
  | _ + 1, '"' :: rest => .ok rest
  | _ + 1, ['\\'] => failAt .endInString []
  | fuel + 1, '\\' :: 'u' :: rest => do
    let (_, rest) ← readCodeUnit rest
    skipString fuel rest
  | fuel + 1, '\\' :: letter :: rest =>
    if (simpleEscape? letter).isSome then skipString fuel rest else failAt .badEscape (letter :: rest)
  | fuel + 1, c :: rest =>
    if c.toNat < 0x20 then failBefore .controlCharacter (c :: rest) else skipString fuel rest

/-! ### Numbers -/

def digitValue (c : Char) : Nat := c.toNat - 48

/-- The digits at the start of a text, and what follows them. -/
def spanDigits (text : List Char) : List Char × List Char := text.span Char.isDigit

/-- Appends digits to a number as long as it stays below `2 ^ 64`; the rest of the digits is left. -/
def absorb (n : Nat) : List Char → Nat × List Char
  | [] => (n, [])
  | c :: rest =>
    if n * 10 + digitValue c < 0x10000000000000000 then absorb (n * 10 + digitValue c) rest
    else (n, c :: rest)

/-- `f * 10 ^ e` with one rounding for each factor that a double can hold; none if it is too large. -/
def scaleReal (f : Float) (e : Int) : Option Float :=
  if 0 ≤ e then
    if 308 < e then if f == 0.0 then some f else none
    else
      let scaled := f * Float.ofScientific 1 false e.toNat
      if scaled.isInf then none else some scaled
  else go (-e).toNat f
where
  /-- Divides by a power of ten. -/
  go (e : Nat) (f : Float) : Option Float :=
    if e ≤ 308 then some (f / Float.ofScientific 1 false e)
    else if f == 0.0 then some f
    else go (e - 308) (f / Float.ofScientific 1 false 308)
  termination_by e

/-- A number with a point, an exponent or too many digits. -/
def finishReal (negative : Bool) (significand : Nat) (exponent : Int) (rest : List Char) :
    Reading (Number × List Char) :=
  match scaleReal significand.toUInt64.toFloat exponent with
  | some f => .ok (.real (if negative then -f else f), rest)
  | none => failBefore .numberOutOfRange rest

/-- The text after the digit that takes an exponent past `2 ^ 31 - 1`. -/
def exponentOverflow? (n : Nat) : List Char → Option (List Char)
  | [] => none
  | c :: rest =>
    if n * 10 + digitValue c < 0x80000000 then exponentOverflow? (n * 10 + digitValue c) rest
    else some rest

/-- The exponent of a number, whose mark was read. -/
def readExponent (negative : Bool) (significand : Nat) (exponent : Int) (text : List Char) :
    Reading (Number × List Char) :=
  let (down, unsigned) := match text with
    | '+' :: rest => (false, rest)
    | '-' :: rest => (true, rest)
    | _ => (false, text)
  let (digits, rest) := spanDigits unsigned
  match digits with
  | [] => if rest.isEmpty then failAt .endOfText [] else failAt .badNumber rest
  | _ =>
    match exponentOverflow? 0 digits with
    | some later =>
      if significand ≠ 0 ∧ !down then failBefore .numberOutOfRange (later ++ rest)
      else .ok (.real (if negative then -0.0 else 0.0), rest)
    | none =>
      let magnitude : Int := digits.foldl (fun n c => n * 10 + digitValue c) 0
      finishReal negative significand (if down then exponent - magnitude else exponent + magnitude) rest

/-- The digits after the point of a number. -/
def readFraction (negative : Bool) (significand : Nat) (exponent : Int) (text : List Char) :
    Reading (Number × List Char) :=
  let (digits, rest) := spanDigits text
  match digits with
  | [] => if rest.isEmpty then failAt .endOfText [] else failAt .badNumber rest
  | _ =>
    let (significand, left) := absorb significand digits
    let exponent := exponent - (digits.length - left.length : Nat)
    match rest with
    | 'e' :: rest | 'E' :: rest => readExponent negative significand exponent rest
    | _ => finishReal negative significand exponent rest

/-- A number whose sign was read. Negative zero and integers of 64 bits and more are reals. -/
def readNumber (negative : Bool) (text : List Char) : Reading (Number × List Char) :=
  let (digits, rest) := spanDigits text
  match digits with
  | [] => if rest.isEmpty then failAt .endOfText [] else failAt .badNumber rest
  | '0' :: second :: more => failAt .badNumber (second :: more ++ rest)
  | _ =>
    let (significand, left) := absorb 0 digits
    match rest with
    | '.' :: rest => readFraction negative significand left.length rest
    | 'e' :: rest | 'E' :: rest => readExponent negative significand left.length rest
    | _ =>
      if !left.isEmpty then finishReal negative significand left.length rest
      else if !negative then .ok (.integer significand, rest)
      else if significand = 0 ∨ 0x8000000000000000 < significand then
        finishReal true significand 0 rest
      else .ok (.integer (-significand), rest)

/-- Passes over the digits that must come next. -/
def skipDigits (text : List Char) : Reading (List Char) :=
  let (digits, rest) := spanDigits text
  if digits.isEmpty then failAt .badNumber rest else .ok rest

/-- Passes over an exponent, if one comes next. -/
def skipExponent : List Char → Reading (List Char)
  | 'e' :: '+' :: rest | 'e' :: '-' :: rest | 'E' :: '+' :: rest | 'E' :: '-' :: rest => skipDigits rest
  | 'e' :: rest | 'E' :: rest => skipDigits rest
  | rest => .ok rest

/-- Passes over a point with digits, if one comes next. -/
def skipFraction : List Char → Reading (List Char)
  | '.' :: rest => skipDigits rest
  | rest => .ok rest

/-- Passes over a number whose sign was read, of whatever magnitude. -/
def skipNumber (text : List Char) : Reading (List Char) := do
  let (digits, rest) := spanDigits text
  match digits with
  | [] => failAt .badNumber rest
  | '0' :: second :: more => failAt .badNumber (second :: more ++ rest)
  | _ => skipExponent (← skipFraction rest)

end AppleOne.Json
