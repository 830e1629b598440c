/-!
Hexadecimal writing. Addresses and bytes are written with a fixed number of upper-case digits,
sizes with as many digits as they need.
-/

namespace AppleOne.Hex

/-- The upper-case digit of a value below sixteen. -/
def digit (value : Nat) : Char :=
  if value < 10 then Char.ofNat (48 + value) else Char.ofNat (55 + value)

/-- The last `width` hexadecimal digits of a number, most significant first. -/
def digits : (width : Nat) → Nat → List Char
  | 0, _ => []
  | width + 1, n => digits width (n / 16) ++ [digit (n % 16)]

theorem length_digits (width n : Nat) : (digits width n).length = width := by
  induction width generalizing n with
  | zero => rfl
  | succ width ih => simp [digits, ih]

/-- Two digits. -/
def byte (value : UInt8) : String := String.ofList (digits 2 value.toNat)

/-- Four digits. -/
def word (value : UInt16) : String := String.ofList (digits 4 value.toNat)

/-- As many digits as the number needs, after the mark `0x`. -/
def size (n : Nat) : String := "0x" ++ String.ofList ((Nat.toDigits 16 n).map Char.toUpper)

end AppleOne.Hex
