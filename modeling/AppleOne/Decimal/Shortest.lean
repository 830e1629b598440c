/-!
The shortest decimal that reads back as a given binary number. The work is done in exact arithmetic on
natural numbers: for one digit, two digits and so on, the two decimals next to the number are tested
against the interval of reals that round to it.
-/

namespace AppleOne.Decimal

/-- The positive number `mantissa * 2 ^ exponent`. The neighbour below is nearer than the one above
if `narrowBelow`. -/
structure Binary where
  mantissa : Nat
  exponent : Int
  narrowBelow : Bool

/-- The positive number `digits * 10 ^ exponent`. -/
structure Scientific where
  digits : Nat
  exponent : Int
  deriving DecidableEq, Repr

/-- The magnitude that the bits of a finite double stand for, without its sign. -/
def Binary.ofBits (bits : UInt64) : Binary :=
  let fraction : Nat := bits.toNat % 0x10000000000000
  let biased : Nat := bits.toNat / 0x10000000000000 % 0x800
  if biased = 0 then ⟨fraction, -1074, false⟩
  else ⟨0x10000000000000 + fraction, (biased : Int) - 1075, fraction == 0 && decide (1 < biased)⟩

/-- The reals that round to a number, all over one denominator. -/
structure Interval where
  lower : Nat
  value : Nat
  upper : Nat
  denominator : Nat
  /-- Whether the two ends belong to it. -/
  closed : Bool

/-- Half the way to each neighbour; a tie goes to the even mantissa. -/
def Binary.interval (b : Binary) : Interval :=
  let scale := Nat.pow 2 (b.exponent - 2).toNat
  { lower := (4 * b.mantissa - if b.narrowBelow then 1 else 2) * scale
    value := 4 * b.mantissa * scale
    upper := (4 * b.mantissa + 2) * scale
    denominator := Nat.pow 2 (2 - b.exponent).toNat
    closed := b.mantissa % 2 == 0 }

namespace Interval

/-- Whether `k * 10 ^ s` lies in the interval. -/
def contains (i : Interval) (k : Nat) (s : Int) : Bool :=
  let point := k * Nat.pow 10 s.toNat * i.denominator
  let lower := i.lower * Nat.pow 10 (-s).toNat
  let upper := i.upper * Nat.pow 10 (-s).toNat
  if i.closed then decide (lower ≤ point ∧ point ≤ upper)
  else decide (lower < point ∧ point < upper)

/-- The largest `k` with `k * 10 ^ s` at most the value. -/
def floorAt (i : Interval) (s : Int) : Nat :=
  i.value * Nat.pow 10 (-s).toNat / (i.denominator * Nat.pow 10 s.toNat)

/-- Whether the value is at least as near to `k * 10 ^ s` as to the next multiple; of two at one
distance the even one is taken. -/
def prefersFloor (i : Interval) (k : Nat) (s : Int) : Bool :=
  let twice := 2 * i.value * Nat.pow 10 (-s).toNat
  let middle := (2 * k + 1) * Nat.pow 10 s.toNat * i.denominator
  decide (twice < middle) || (decide (twice = middle) && k % 2 == 0)

/-- The decimal with steps of `10 ^ s` that is in the interval, the nearer one if there are two. -/
def decimalAt? (i : Interval) (s : Int) : Option Scientific :=
  let k := i.floorAt s
  match i.contains k s, i.contains (k + 1) s with
  | true, true => some ⟨if i.prefersFloor k s then k else k + 1, s⟩
  | true, false => some ⟨k, s⟩
  | false, true => some ⟨k + 1, s⟩
  | false, false => none

/-- The place of the first digit of the value, found from above. -/
def leadingPlace (i : Interval) : Nat → Int → Int
  | 0, s => s
  | fuel + 1, s => if 0 < i.floorAt s then s else i.leadingPlace fuel (s - 1)

/-- The coarsest grid from `10 ^ s` on that has a decimal in the interval. -/
def coarsest (i : Interval) : Nat → Int → Scientific
  | 0, s => ⟨i.floorAt s, s⟩
  | fuel + 1, s => (i.decimalAt? s).getD (i.coarsest fuel (s - 1))

end Interval

/-- Moves trailing zeros from the digits into the exponent. -/
def Scientific.strip : Nat → Scientific → Scientific
  | 0, d => d
  | fuel + 1, d =>
    if d.digits ≠ 0 ∧ d.digits % 10 = 0 then strip fuel ⟨d.digits / 10, d.exponent + 1⟩ else d

/-- The shortest decimal that rounds to a positive double, given by its bits. Doubles lie between
`10 ^ -324` and `10 ^ 309`, and seventeen digits always suffice. -/
def shortest (bits : UInt64) : Scientific :=
  let i := (Binary.ofBits bits).interval
  (i.coarsest 17 (i.leadingPlace 634 309)).strip 17

/-- How numbers with a point are written: in positional form if the place of the first digit is at
least `least` and below `most`, else with an exponent that always has its sign. -/
structure Style where
  least : Int
  most : Int

/-- Digits with a point after the place of units. -/
def positional (digits : List Char) (exponent : Int) : List Char :=
  let count : Int := digits.length + exponent
  if 0 ≤ exponent then digits ++ List.replicate exponent.toNat '0' ++ ['.', '0']
  else if 0 < count then digits.take count.toNat ++ '.' :: digits.drop count.toNat
  else '0' :: '.' :: List.replicate (-count).toNat '0' ++ digits

/-- Digits with a point after the first, if more follow, and an exponent. -/
def scientific (digits : List Char) (exponent : Int) : List Char :=
  let place : Int := digits.length + exponent - 1
  let mantissa := match digits with
    | first :: second :: rest => first :: '.' :: second :: rest
    | short => short
  mantissa ++ 'e' :: (if place < 0 then '-' else '+') :: Nat.toDigits 10 place.natAbs

/-- The text of a finite double: as few digits as read back, and a sign for negative zero too. -/
def text (style : Style) (x : Float) : String :=
  let sign := if 0x8000000000000000 ≤ x.toBits.toNat then "-" else ""
  if x.toBits.toNat % 0x8000000000000000 = 0 then sign ++ "0.0"
  else
    let d := shortest x.toBits
    let digits := Nat.toDigits 10 d.digits
    let place : Int := digits.length + d.exponent - 1
    sign ++ String.ofList
      (if style.least ≤ place ∧ place < style.most then positional digits d.exponent
        else scientific digits d.exponent)

end AppleOne.Decimal
