import AppleOne.Cpu.Status

/-!
The arithmetic unit: addition and subtraction with carry in binary and in packed decimal, comparison,
and shifts. Each operation takes the status for its carry and returns the status it leaves.
-/

namespace AppleOne.Arithmetic

/-- The sign of a byte in two's complement. -/
def sign (b : UInt8) : Bool := decide (0x80 ≤ b)

/-- Operands of one sign whose result has the other. -/
def overflows (a b result : UInt8) : Bool := sign a == sign b && sign a != sign result

/-- Binary addition with carry. -/
def add (s : Status) (a b : UInt8) : UInt8 × Status :=
  let sum := a.toNat + b.toNat + s.carry.toNat
  let result := UInt8.ofNat sum
  (result, { s.test result with carry := decide (0xFF < sum), overflow := overflows a b result })

/-- Binary subtraction with borrow, the borrow being the absence of a carry. -/
def subtract (s : Status) (a b : UInt8) : UInt8 × Status := add s a (~~~b)

/-- Decimal addition. Zero follows the binary sum; sign and overflow follow the digits before the
high one is corrected. -/
def addDecimal (s : Status) (a b : UInt8) : UInt8 × Status :=
  let lowSum := a.toNat % 16 + b.toNat % 16 + s.carry.toNat
  let low := if 9 < lowSum then lowSum + 6 else lowSum
  let highSum := a.toNat / 16 + b.toNat / 16 + (decide (15 < low)).toNat
  let uncorrected := UInt8.ofNat (highSum * 16 + low % 16)
  let high := if 9 < highSum then highSum + 6 else highSum
  (UInt8.ofNat (high * 16 + low % 16),
    { s with
      zero := UInt8.ofNat (a.toNat + b.toNat + s.carry.toNat) == 0
      negative := sign uncorrected
      overflow := overflows a b uncorrected
      carry := decide (15 < high) })

/-- Decimal subtraction. Every flag is that of the binary difference. -/
def subtractDecimal (s : Status) (a b : UInt8) : UInt8 × Status :=
  let lowDifference : Int := a.toNat % 16 - b.toNat % 16 - (!s.carry).toNat
  let highDifference : Int := a.toNat / 16 - b.toNat / 16 - (decide (lowDifference < 0)).toNat
  let low := if lowDifference < 0 then lowDifference - 6 else lowDifference
  let high := if highDifference < 0 then highDifference - 6 else highDifference
  (UInt8.ofNat ((high * 16 + low % 16) % 256).toNat, (subtract s a b).2)

/-- The flags of `a - b`; carry means that no borrow was needed. -/
def compare (s : Status) (a b : UInt8) : Status :=
  { s.test (a - b) with carry := decide (b ≤ a) }

def shiftLeft (s : Status) (b : UInt8) : UInt8 × Status :=
  (b <<< 1, { s.test (b <<< 1) with carry := sign b })

def shiftRight (s : Status) (b : UInt8) : UInt8 × Status :=
  (b >>> 1, { s.test (b >>> 1) with carry := b &&& 1 != 0 })

/-- Left through the carry. -/
def rotateLeft (s : Status) (b : UInt8) : UInt8 × Status :=
  let result := b <<< 1 ||| (if s.carry then 1 else 0)
  (result, { s.test result with carry := sign b })

/-- Right through the carry. -/
def rotateRight (s : Status) (b : UInt8) : UInt8 × Status :=
  let result := b >>> 1 ||| (if s.carry then 0x80 else 0)
  (result, { s.test result with carry := b &&& 1 != 0 })

def increment (s : Status) (b : UInt8) : UInt8 × Status := (b + 1, s.test (b + 1))

def decrement (s : Status) (b : UInt8) : UInt8 × Status := (b - 1, s.test (b - 1))

end AppleOne.Arithmetic
