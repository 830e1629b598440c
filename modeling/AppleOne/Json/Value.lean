/-!
JSON values. An object keeps its members in a list. Read from text, it has them in ascending order of
names without repetition; an object that is to be written has them in the order of writing.
-/

namespace AppleOne

/-- An exact integer, or a number that was written with a point or an exponent or has too many
digits. -/
inductive Json.Number where
  | integer (value : Int)
  | real (value : Float)

inductive Json where
  | null
  | bool (value : Bool)
  | number (value : Json.Number)
  | string (value : String)
  | array (items : List Json)
  | object (members : List (String × Json))

namespace Json

instance : Inhabited Json := ⟨.null⟩

/-- A natural number as a value. -/
def natural (n : Nat) : Json := .number (.integer n)

/-- Puts a member in its place in the order of names, in place of one of the same name. -/
def insert (name : String) (value : Json) : List (String × Json) → List (String × Json)
  | [] => [(name, value)]
  | (other, old) :: rest =>
    if name < other then (name, value) :: (other, old) :: rest
    else if name = other then (name, value) :: rest
    else (other, old) :: insert name value rest

/-- The member of an object; null if there is none or the value is no object. -/
def member (value : Json) (name : String) : Json :=
  match value with
  | .object members => (members.lookup name).getD .null
  | _ => .null

end Json

end AppleOne
