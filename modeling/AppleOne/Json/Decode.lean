import AppleOne.Json.Failure

/-!
Typed views of JSON values: integers of a fixed width, booleans, and what may be absent.
-/

namespace AppleOne.Json

/-- A result, or the first thing that does not fit. -/
abbrev Decoded := Except Mismatch

/-- The widths of integers that occur. -/
inductive Width where
  | byte
  | word
  | double
  | quad
  | size
  deriving DecidableEq, Repr

namespace Width

/-- What a message calls an integer of this width. -/
def name : Width → String
  | byte => "u8"
  | word => "u16"
  | double => "u32"
  | quad => "u64"
  | size => "usize"

/-- The first number that is too large. -/
def limit : Width → Nat
  | byte => 0x100
  | word => 0x10000
  | double => 0x100000000
  | quad | size => 0x10000000000000000

end Width

namespace Found

/-- An unsigned integer that fits the width. -/
def unsigned (width : Width) : Found → Decoded Nat
  | number (.integer value) =>
    if 0 ≤ value ∧ value < width.limit then .ok value.toNat else .error (.range value width.name)
  | other => .error (.kind other width.name)

def boolean : Found → Decoded Bool
  | bool value => .ok value
  | other => .error (.kind other "a boolean")

end Found

def toUnsigned (width : Width) (value : Json) : Decoded Nat := value.found.unsigned width

def toBoolean (value : Json) : Decoded Bool := value.found.boolean

/-- A value that may be null. -/
def toOption {α : Type} (decode : Json → Decoded α) : Json → Decoded (Option α)
  | null => .ok none
  | value => some <$> decode value

/-- An array whose items are decoded alike, in order. -/
def toList {α : Type} (decode : Json → Decoded α) : Json → Decoded (List α)
  | array items => items.mapM decode
  | other => .error (.kind other.found "a sequence")

end AppleOne.Json
