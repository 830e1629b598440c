import AppleOne.Json.Scan

/-!
JSON text as a value, and well-formed JSON text that is passed over unread. A value may nest 127 deep;
text that is passed over may nest without limit. Fuel bounds the recursion: every two calls take at
least one character, so twice the length of the text suffices.
-/

namespace AppleOne.Json

/-- Enough fuel for any reader of a text. -/
def fuelFor (text : List Char) : Nat := 2 * text.length + 2

/-- After an item: whether another one follows, and the text from there or after the end. -/
inductive Continuation where
  | another (rest : List Char)
  | closed (rest : List Char)

/-- Looks for an item or the end of an array. -/
def nextItem (first : Bool) (text : List Char) : Reading Continuation :=
  match skipBlanks text with
  | [] => failAt .endInArray []
  | ']' :: rest => .ok (.closed rest)
  | ',' :: rest =>
    if first then .ok (.another (',' :: rest))
    else
      match skipBlanks rest with
      | [] => failAt .endOfText []
      | ']' :: rest => failAt .trailingComma (']' :: rest)
      | rest => .ok (.another rest)
  | other => if first then .ok (.another other) else failAt .arraySeparatorExpected other

/-- Looks for the name of a member, whose opening quote is passed over, or the end of an object. -/
def nextName (first : Bool) (text : List Char) : Reading Continuation :=
  match skipBlanks text with
  | [] => failAt .endInObject []
  | '\x7d' :: rest => .ok (.closed rest)
  | c :: rest =>
    if first then if c = '"' then .ok (.another rest) else failAt .nameExpected (c :: rest)
    else if c = ',' then
      match skipBlanks rest with
      | [] => failAt .endOfText []
      | '"' :: rest => .ok (.another rest)
      | '\x7d' :: rest => failAt .trailingComma ('\x7d' :: rest)
      | other => failAt .nameExpected other
    else failAt .objectSeparatorExpected (c :: rest)

/-- Passes over the colon after a name. -/
def expectColon (text : List Char) : Reading (List Char) :=
  match skipBlanks text with
  | [] => failAt .endInObject []
  | ':' :: rest => .ok rest
  | other => failAt .colonExpected other

mutual

/-- A value; `depth` arrays and objects may still be opened. -/
def readValue : (fuel depth : Nat) → List Char → Reading (Json × List Char)
  | 0, _, text => failAt .valueExpected text
  | fuel + 1, depth, text =>
    match skipBlanks text with
    | [] => failAt .endOfText []
    | 'n' :: rest => return (.null, ← expectWord ['u', 'l', 'l'] rest)
    | 't' :: rest => return (.bool true, ← expectWord ['r', 'u', 'e'] rest)
    | 'f' :: rest => return (.bool false, ← expectWord ['a', 'l', 's', 'e'] rest)
    | '"' :: rest => do
      let (value, rest) ← readString fuel rest
      return (.string value, rest)
    | '[' :: rest =>
      match depth with
      | 0 => failAt .tooDeep ('[' :: rest)
      | depth + 1 => readItems fuel depth true [] rest
    | '\x7b' :: rest =>
      match depth with
      | 0 => failAt .tooDeep ('\x7b' :: rest)
      | depth + 1 => readMembers fuel depth true [] rest
    | '-' :: rest => do
      let (value, rest) ← readNumber true rest
      return (.number value, rest)
    | c :: rest =>
      if c.isDigit then do
        let (value, rest) ← readNumber false (c :: rest)
        return (.number value, rest)
      else failAt .valueExpected (c :: rest)

/-- The items of an array, after those read so far in reverse. -/
def readItems : (fuel depth : Nat) → (first : Bool) → List Json → List Char →
    Reading (Json × List Char)
  | 0, _, _, _, text => failAt .endInArray text
  | fuel + 1, depth, first, before, text => do
    match ← nextItem first text with
    | .closed rest => return (.array before.reverse, rest)
    | .another rest =>
      let (item, rest) ← readValue fuel depth rest
      readItems fuel depth false (item :: before) rest

/-- The members of an object, added to those read so far. Of members with one name the last stays. -/
def readMembers : (fuel depth : Nat) → (first : Bool) → List (String × Json) → List Char →
    Reading (Json × List Char)
  | 0, _, _, _, text => failAt .endInObject text
  | fuel + 1, depth, first, before, text => do
    match ← nextName first text with
    | .closed rest => return (.object before, rest)
    | .another rest =>
      let (name, rest) ← readString fuel rest
      let rest ← expectColon rest
      let (value, rest) ← readValue fuel depth rest
      readMembers fuel depth false (insert name value before) rest

end

/-- Nothing but blanks may be left. -/
def expectEnd (text : List Char) : Reading Unit :=
  match skipBlanks text with
  | [] => .ok ()
  | other => failAt .trailingText other

/-- How deep a value may nest. -/
def maxDepth : Nat := 127

/-- The value that a text stands for. -/
def parse (text : String) : Reading Json := do
  let chars := text.toList
  let (value, rest) ← readValue (fuelFor chars) maxDepth chars
  expectEnd rest
  return value

mutual

/-- Passes over a value. -/
def skipValue : (fuel : Nat) → List Char → Reading (List Char)
  | 0, text => failAt .valueExpected text
  | fuel + 1, text =>
    match skipBlanks text with
    | [] => failAt .endOfText []
    | 'n' :: rest => expectWord ['u', 'l', 'l'] rest
    | 't' :: rest => expectWord ['r', 'u', 'e'] rest
    | 'f' :: rest => expectWord ['a', 'l', 's', 'e'] rest
    | '"' :: rest => skipString fuel rest
    | '[' :: rest => skipItems fuel true rest
    | '\x7b' :: rest => skipMembers fuel true rest
    | '-' :: rest => skipNumber rest
    | c :: rest => if c.isDigit then skipNumber (c :: rest) else failAt .valueExpected (c :: rest)

/-- Passes over the items of an array. After a comma there must be one. -/
def skipItems : (fuel : Nat) → (first : Bool) → List Char → Reading (List Char)
  | 0, _, text => failAt .endInArray text
  | fuel + 1, first, text =>
    match skipBlanks text with
    | [] => failAt .endInArray []
    | ']' :: rest => .ok rest
    | c :: rest =>
      if first then do
        let rest ← skipValue fuel (c :: rest)
        skipItems fuel false rest
      else if c = ',' then do
        let rest ← skipValue fuel rest
        skipItems fuel false rest
      else failAt .arraySeparatorExpected (c :: rest)

/-- Passes over the members of an object. After a comma there must be one. -/
def skipMembers : (fuel : Nat) → (first : Bool) → List Char → Reading (List Char)
  | 0, _, text => failAt .endInObject text
  | fuel + 1, first, text =>
    match skipBlanks text with
    | [] => failAt .endInObject []
    | '\x7d' :: rest => .ok rest
    | c :: rest =>
      if !first && c != ',' then failAt .objectSeparatorExpected (c :: rest)
      else
        match skipBlanks (if first then c :: rest else rest) with
        | [] => failAt .endInObject []
        | '"' :: rest => do
          let rest ← skipString fuel rest
          let rest ← expectColon rest
          let rest ← skipValue fuel rest
          skipMembers fuel false rest
        | other => failAt .nameExpected other

end

end AppleOne.Json
