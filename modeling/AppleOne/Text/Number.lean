/-!
Integers in text, in a given base, and what is wrong with a text that is none.
-/

namespace AppleOne.Text

inductive NumberError where
  | empty
  | badDigit
  | tooLarge
  | tooSmall
  deriving DecidableEq, Repr

def NumberError.message : NumberError → String
  | empty => "cannot parse integer from empty string"
  | badDigit => "invalid digit found in string"
  | tooLarge => "number too large to fit in target type"
  | tooSmall => "number too small to fit in target type"

/-- The value of a digit of either case, in a base up to sixteen. -/
def digitOf? (base : Nat) (c : Char) : Option Nat :=
  let value :=
    if '0' ≤ c ∧ c ≤ '9' then c.toNat - 48
    else if 'a' ≤ c ∧ c ≤ 'f' then c.toNat - 87
    else if 'A' ≤ c ∧ c ≤ 'F' then c.toNat - 55
    else base
  if value < base then some value else none

/-- Appends digits to a number that must not exceed `limit`. The first thing wrong decides. -/
def appendDigits (base limit : Nat) (overflow : NumberError) (n : Nat) :
    List Char → Except NumberError Nat
  | [] => .ok n
  | c :: rest =>
    match digitOf? base c with
    | none => .error .badDigit
    | some digit =>
      if n * base + digit ≤ limit then appendDigits base limit overflow (n * base + digit) rest
      else .error overflow

/-- A natural number of at most `limit`, after a plus sign or not. -/
def parseNatural (base limit : Nat) : List Char → Except NumberError Nat
  | [] => .error .empty
  | ['+'] => .error .badDigit
  | '+' :: rest => appendDigits base limit .tooLarge 0 rest
  | digits => appendDigits base limit .tooLarge 0 digits

/-- A decimal number from `-2 ^ 63` up to `2 ^ 63 - 1`. -/
def parseSigned : List Char → Except NumberError Int
  | ['-'] => .error .badDigit
  | '-' :: rest => (fun n : Nat => -(n : Int)) <$> appendDigits 10 0x8000000000000000 .tooSmall 0 rest
  | digits => Int.ofNat <$> parseNatural 10 0x7FFFFFFFFFFFFFFF digits

end AppleOne.Text
