import AppleOne.Json.Decode
import AppleOne.Json.Reader

/-!
Records in JSON. A shape lists the fields of a record; a record is written as an object, or as an
array of the fields in order. A text is read straight into the record, so that of several faults the
first one in the text counts; a value is read member by member in the order of names.
-/

namespace AppleOne.Json

/-- One field of a record that is assembled in a state of type `σ`. -/
structure Field (σ : Type) where
  name : String
  /-- The effect of the field's value on the state. -/
  put : Found → Decoded (σ → σ)

namespace Field

variable {σ : Type}

/-- A field that holds an unsigned integer. -/
def unsigned (name : String) (width : Width) (put : Nat → σ → σ) : Field σ where
  name := name
  put found := put <$> found.unsigned width

/-- A field that holds a boolean. -/
def boolean (name : String) (put : Bool → σ → σ) : Field σ where
  name := name
  put found := put <$> found.boolean

end Field

structure Shape (σ : Type) where
  /-- What a message calls the record. -/
  name : String
  fields : List (Field σ)
  /-- The state before any field. -/
  initial : σ
  /-- Whether every field may be left out; else none may. -/
  optional : Bool

namespace Shape

variable {σ : Type}

/-- The first field, in order, that is needed but was not seen. -/
def missing? (shape : Shape σ) (seen : List String) : Option String :=
  if shape.optional then none else (shape.fields.map (·.name)).find? (!seen.contains ·)

/-- The complaint about an array with too few items. -/
def tooShort (shape : Shape σ) (count : Nat) : Mismatch :=
  .length count s!"{shape.name} with {shape.fields.length} elements"

/-! ### From a text -/

/-- What a value is, with the text after it; of an array or object not even the bracket is read. -/
def readFound (fuel : Nat) (text : List Char) : Reading (Found × List Char) :=
  match skipBlanks text with
  | '[' :: rest => .ok (.sequence, '[' :: rest)
  | '\x7b' :: rest => .ok (.map, '\x7b' :: rest)
  | other => do
    let (value, rest) ← readValue fuel 0 other
    return (value.found, rest)

/-- Reads a field's value and puts it into the state. -/
def readField (fuel : Nat) (field : Field σ) (state : σ) (text : List Char) :
    Reading (σ × List Char) := do
  let (found, rest) ← readFound fuel text
  match field.put found with
  | .ok put => return (put state, rest)
  | .error cause => mismatch cause rest

/-- The end of an array whose items are all read. -/
def expectArrayEnd (text : List Char) : Reading (List Char) :=
  match skipBlanks text with
  | [] => failAt .endInArray []
  | ']' :: rest => .ok rest
  | ',' :: rest =>
    match skipBlanks rest with
    | ']' :: rest => failAt .trailingComma (']' :: rest)
    | other => failAt .trailingText other
  | other => failAt .trailingText other

/-- The items for the fields still to come, `count` fields being read. -/
def readArray (shape : Shape σ) (fuel : Nat) :
    List (Field σ) → (count : Nat) → σ → List Char → Reading (σ × List Char)
  | [], _, state, text => do
    let rest ← expectArrayEnd text
    return (state, rest)
  | field :: fields, count, state, text => do
    match ← nextItem (count == 0) text with
    | .closed rest =>
      if shape.optional then return (state, rest) else mismatch (shape.tooShort count) rest
    | .another rest =>
      let (state, rest) ← readField fuel field state rest
      readArray shape fuel fields (count + 1) state rest

/-- Where a repeated name is noticed: past the end of the object, if that comes next. -/
def pastRepeated (text : List Char) : List Char :=
  match skipBlanks text with
  | '\x7d' :: rest => rest
  | other => other

/-- The members of an object, after the fields seen so far. Members of other names are passed over. -/
def readObject (shape : Shape σ) : (fuel : Nat) → (first : Bool) → (seen : List String) → σ →
    List Char → Reading (σ × List Char)
  | 0, _, _, _, text => failAt .endInObject text
  | fuel + 1, first, seen, state, text => do
    match ← nextName first text with
    | .closed rest =>
      match shape.missing? seen with
      | none => return (state, rest)
      | some name => mismatch (.missing name) rest
    | .another rest =>
      let (name, rest) ← readString fuel rest
      match shape.fields.find? (·.name == name) with
      | none =>
        let rest ← expectColon rest
        let rest ← skipValue fuel rest
        readObject shape fuel false seen state rest
      | some field =>
        if seen.contains name then mismatch (.repeated name) (pastRepeated rest)
        else
          let rest ← expectColon rest
          let (state, rest) ← readField fuel field state rest
          readObject shape fuel false (name :: seen) state rest

/-- The record that a whole text stands for. -/
def readText (shape : Shape σ) (text : String) : Reading σ := do
  let chars := text.toList
  let fuel := fuelFor chars
  let (state, rest) ←
    match skipBlanks chars with
    | '[' :: rest => shape.readArray fuel shape.fields 0 shape.initial rest
    | '\x7b' :: rest => shape.readObject fuel true [] shape.initial rest
    | other => do
      let (found, rest) ← readFound fuel other
      mismatch (.kind found shape.name) rest
  expectEnd rest
  return state

/-! ### From a value -/

/-- The items for the fields still to come. `length` is that of the whole array. -/
def ofItems (shape : Shape σ) (length : Nat) :
    List (Field σ) → (count : Nat) → σ → List Json → Decoded σ
  | [], _, state, [] => .ok state
  | [], _, _, _ :: _ => .error (.length length "fewer elements in array")
  | _ :: _, count, state, [] => if shape.optional then .ok state else .error (shape.tooShort count)
  | field :: fields, count, state, item :: items => do
    let put ← field.put item.found
    ofItems shape length fields (count + 1) (put state) items

/-- The members of an object, after the fields seen so far. -/
def ofMembers (shape : Shape σ) (seen : List String) (state : σ) :
    List (String × Json) → Decoded σ
  | [] =>
    match shape.missing? seen with
    | none => .ok state
    | some name => .error (.missing name)
  | (name, value) :: rest =>
    match shape.fields.find? (·.name == name) with
    | none => ofMembers shape seen state rest
    | some field =>
      if seen.contains name then .error (.repeated name)
      else do
        let put ← field.put value.found
        ofMembers shape (name :: seen) (put state) rest

/-- The record that a value stands for. -/
def ofValue (shape : Shape σ) : Json → Decoded σ
  | array items => shape.ofItems items.length shape.fields 0 shape.initial items
  | object members => shape.ofMembers [] shape.initial members
  | other => .error (.kind other.found shape.name)

end Shape

end AppleOne.Json
