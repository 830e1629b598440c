import AppleOne.Proofs.Cpu.Arithmetic
import Mathlib.Data.Nat.Digits.Defs

/-!
Numbers of several bytes, the lowest byte first. A byte is a digit, in base 256 or, packed, in base 100.
The arithmetic unit adds digits and a carry, and to subtract is to add the complement; from byte to byte
this becomes the sum of whole numbers (`Adder.total_ripple`).
-/

namespace AppleOne

/-- How bytes are the digits of numbers. -/
structure Digits where
  base : Nat
  one_lt_base : 1 < base
  fits : UInt8 → Prop
  value : UInt8 → Nat
  byteOf : Nat → UInt8
  value_lt : ∀ {byte}, fits byte → value byte < base
  fits_byteOf : ∀ {digit}, digit < base → fits (byteOf digit)
  value_byteOf : ∀ {digit}, digit < base → value (byteOf digit) = digit
  byteOf_value : ∀ {byte}, fits byte → byteOf (value byte) = byte

namespace Digits

def binary : Digits where
  base := 256
  one_lt_base := by decide
  fits _ := True
  value := UInt8.toNat
  byteOf := UInt8.ofNat
  value_lt _ := UInt8.toNat_lt _
  fits_byteOf _ := trivial
  value_byteOf below := UInt8.toNat_ofNat_of_lt' below
  byteOf_value _ := UInt8.ofNat_toNat

/-- Two decimal digits in a byte, the higher one in its upper half. -/
def decimal : Digits where
  base := 100
  one_lt_base := by decide
  fits byte := byte.toNat / 16 ≤ 9 ∧ byte.toNat % 16 ≤ 9
  value byte := byte.toNat / 16 * 10 + byte.toNat % 16
  byteOf digit := UInt8.ofNat (digit / 10 * 16 + digit % 10)
  value_lt := by
    intro byte fits
    omega
  fits_byteOf := by
    intro digit below
    have small : digit / 10 * 16 + digit % 10 < 256 := by omega
    rw [UInt8.toNat_ofNat_of_lt' small]
    omega
  value_byteOf := by
    intro digit below
    have small : digit / 10 * 16 + digit % 10 < 256 := by omega
    rw [UInt8.toNat_ofNat_of_lt' small]
    omega
  byteOf_value := by
    intro byte fits
    have whole : (byte.toNat / 16 * 10 + byte.toNat % 16) / 10 * 16 +
        (byte.toNat / 16 * 10 + byte.toNat % 16) % 10 = byte.toNat := by omega
    rw [whole, UInt8.ofNat_toNat]

variable (digits : Digits)

/-- The number that bytes stand for. -/
def total (bytes : List UInt8) : Nat := Nat.ofDigits digits.base (bytes.map digits.value)

/-- The byte of a number at a place. -/
def byteAt (number place : Nat) : UInt8 := digits.byteOf (number / digits.base ^ place % digits.base)

/-- What a digit lacks of the highest one. -/
def complement (byte : UInt8) : Nat := digits.base - 1 - digits.value byte

variable {digits} {bytes : List UInt8}

theorem base_pos : 0 < digits.base := Nat.zero_lt_of_lt digits.one_lt_base

theorem total_cons (byte : UInt8) (bytes : List UInt8) :
    digits.total (byte :: bytes) = digits.value byte + digits.base * digits.total bytes := by
  simp [total, Nat.ofDigits_cons]

theorem lt_of_mem_values (fits : ∀ byte ∈ bytes, digits.fits byte) :
    ∀ digit ∈ bytes.map digits.value, digit < digits.base := by
  intro digit member
  obtain ⟨byte, inside, rfl⟩ := List.mem_map.mp member
  exact digits.value_lt (fits byte inside)

theorem total_lt (fits : ∀ byte ∈ bytes, digits.fits byte) :
    digits.total bytes < digits.base ^ bytes.length := by
  have below := Nat.ofDigits_lt_base_pow_length digits.one_lt_base (lt_of_mem_values fits)
  rwa [List.length_map] at below

theorem getElem_eq_byteAt (fits : ∀ byte ∈ bytes, digits.fits byte) {place : Nat}
    (inside : place < bytes.length) : bytes[place] = digits.byteAt (digits.total bytes) place := by
  have fitsByte := fits bytes[place] (List.getElem_mem inside)
  rw [byteAt, total, Nat.ofDigits_div_pow_eq_ofDigits_drop place base_pos _ (lt_of_mem_values fits),
    ← List.map_drop, List.drop_eq_getElem_cons inside, List.map_cons, Nat.ofDigits_cons,
    Nat.add_mul_mod_self_left, Nat.mod_eq_of_lt (digits.value_lt fitsByte), digits.byteOf_value fitsByte]

theorem total_complement (fits : ∀ byte ∈ bytes, digits.fits byte) :
    Nat.ofDigits digits.base (bytes.map digits.complement) + digits.total bytes + 1 =
      digits.base ^ bytes.length := by
  induction bytes with
  | nil => rfl
  | cons byte bytes ih =>
      have low := digits.value_lt (fits byte List.mem_cons_self)
      have rest := ih fun other member => fits other (List.mem_cons_of_mem _ member)
      rw [total_cons, List.map_cons, Nat.ofDigits_cons, List.length_cons, pow_succ', ← rest, complement]
      simp only [Nat.mul_add]
      omega

end Digits

/-! ### The arithmetic unit on digits -/

/-- An operation of the arithmetic unit on two bytes. -/
abbrev Arithmetic.Operator := Status → UInt8 → UInt8 → UInt8 × Status

open Arithmetic (Operator add subtract addDecimal subtractDecimal)

/-- The operator adds to a digit what `addend` makes of the other one, and the carry. -/
structure Digits.Adder (digits : Digits) (addend : UInt8 → Nat) (operator : Operator) : Prop where
  addend_lt : ∀ {b}, digits.fits b → addend b < digits.base
  fst : ∀ {s a b}, digits.fits a → digits.fits b →
    (operator s a b).1 = digits.byteOf ((digits.value a + addend b + s.carry.toNat) % digits.base)
  carry : ∀ {s a b}, digits.fits a → digits.fits b →
    (operator s a b).2.carry = decide (digits.base ≤ digits.value a + addend b + s.carry.toNat)

namespace Digits

theorem ofNat_congr {m n : Nat} (same : m % 256 = n % 256) : UInt8.ofNat m = UInt8.ofNat n := by
  apply UInt8.toNat_inj.mp
  rw [UInt8.toNat_ofNat', UInt8.toNat_ofNat']
  exact same

theorem toNat_not (byte : UInt8) : (~~~byte).toNat = binary.complement byte := by
  rw [UInt8.toNat_not]
  rfl

theorem toNat_not_add (carry : Bool) : (!carry).toNat + carry.toNat = 1 := by
  cases carry <;> rfl

theorem adder_add : binary.Adder binary.value add where
  addend_lt := binary.value_lt
  fst _ _ := ofNat_congr (Nat.mod_mod _ _).symm
  carry _ _ := rfl

theorem adder_subtract : binary.Adder binary.complement subtract where
  addend_lt _ := by
    rw [← toNat_not]
    exact UInt8.toNat_lt _
  fst fits _ := by
    rw [subtract, adder_add.fst fits trivial, ← toNat_not]
    rfl
  carry fits _ := by
    rw [subtract, adder_add.carry fits trivial, ← toNat_not]
    rfl

/-! ### Decimal digits in the halves of a byte -/

/-- A sum of two decimal digits as the arithmetic unit corrects it. -/
def corrected (sum : Nat) : Nat := if 9 < sum then sum + 6 else sum

/-- A difference of two decimal digits as the arithmetic unit corrects it. -/
def lowered (difference : Int) : Int := if difference < 0 then difference - 6 else difference

theorem corrected_mod {sum : Nat} (most : sum ≤ 19) : corrected sum % 16 = sum % 10 := by
  unfold corrected
  split <;> omega

theorem corrected_carry {sum : Nat} (most : sum ≤ 19) :
    decide (15 < corrected sum) = decide (10 ≤ sum) := by
  apply decide_eq_decide.mpr
  unfold corrected
  split <;> omega

theorem toNat_ten_le {sum : Nat} (most : sum ≤ 19) : (decide (10 ≤ sum)).toNat = sum / 10 := by
  by_cases past : 10 ≤ sum
  · rw [decide_eq_true past, Bool.toNat_true]
    omega
  · rw [decide_eq_false past, Bool.toNat_false]
    omega

section

variable {difference : Int} (least : -10 ≤ difference) (most : difference ≤ 9)
include least most

theorem lowered_mod : lowered difference % 16 = difference % 10 := by
  unfold lowered
  split <;> omega

theorem lowered_digit : (lowered difference % 16).toNat % 16 = (difference + 10).toNat % 10 := by
  rw [lowered_mod least most]
  omega

theorem toNat_neg : ((decide (difference < 0)).toNat : Int) = -(difference / 10) := by
  by_cases below : difference < 0
  · rw [decide_eq_true below, Bool.toNat_true]
    omega
  · rw [decide_eq_false below, Bool.toNat_false]
    omega

end

/-- The higher half gets the carry of the lower one. -/
theorem addDecimal_halves (s : Status) (a b : UInt8) :
    let low := corrected (a.toNat % 16 + b.toNat % 16 + s.carry.toNat)
    let high := corrected (a.toNat / 16 + b.toNat / 16 + (decide (15 < low)).toNat)
    (addDecimal s a b).1 = UInt8.ofNat (high * 16 + low % 16) ∧
      (addDecimal s a b).2.carry = decide (15 < high) :=
  ⟨rfl, rfl⟩

theorem subtractDecimal_halves (s : Status) (a b : UInt8) :
    let low : Int := a.toNat % 16 - b.toNat % 16 - (!s.carry).toNat
    let high : Int := a.toNat / 16 - b.toNat / 16 - (decide (low < 0)).toNat
    (subtractDecimal s a b).1 = UInt8.ofNat ((lowered high * 16 + lowered low % 16) % 256).toNat :=
  rfl

theorem byteOf_decimal {high low digit : Nat} (small : low ≤ 9) (corrected : digit % 16 = high % 10) :
    decimal.byteOf ((10 * high + low) % 100) = UInt8.ofNat (digit * 16 + low) := by
  have highDigit : (10 * high + low) % 100 / 10 = high % 10 := by omega
  have lowDigit : (10 * high + low) % 100 % 10 = low := by omega
  apply ofNat_congr
  rw [highDigit, lowDigit]
  omega

theorem adder_addDecimal : decimal.Adder decimal.value addDecimal where
  addend_lt := decimal.value_lt
  fst {s a b} fitsA fitsB := by
    obtain ⟨highA, lowA⟩ := fitsA
    obtain ⟨highB, lowB⟩ := fitsB
    have carry := Bool.toNat_le s.carry
    have small : a.toNat % 16 + b.toNat % 16 + s.carry.toNat ≤ 19 := by omega
    have split : decimal.value a + decimal.value b + s.carry.toNat =
        10 * (a.toNat / 16 + b.toNat / 16 + (a.toNat % 16 + b.toNat % 16 + s.carry.toNat) / 10) +
          (a.toNat % 16 + b.toNat % 16 + s.carry.toNat) % 10 := by
      dsimp only [decimal]
      omega
    rw [(addDecimal_halves s a b).1, corrected_carry small, toNat_ten_le small, corrected_mod small, split]
    exact (byteOf_decimal (by omega) (corrected_mod (by omega))).symm
  carry {s a b} fitsA fitsB := by
    obtain ⟨highA, lowA⟩ := fitsA
    obtain ⟨highB, lowB⟩ := fitsB
    have carry := Bool.toNat_le s.carry
    have small : a.toNat % 16 + b.toNat % 16 + s.carry.toNat ≤ 19 := by omega
    rw [(addDecimal_halves s a b).2, corrected_carry small, toNat_ten_le small, corrected_carry (by omega)]
    apply decide_eq_decide.mpr
    dsimp only [decimal]
    omega

/-- The digits are those of a difference of their own. Decimal operands make them agree with the carry,
which is that of the binary difference. -/
theorem adder_subtractDecimal : decimal.Adder decimal.complement subtractDecimal where
  addend_lt {b} _ := by
    have := decimal.base_pos
    unfold complement
    omega
  fst {s a b} fitsA fitsB := by
    obtain ⟨highA, lowA⟩ := fitsA
    obtain ⟨highB, lowB⟩ := fitsB
    have borrow := toNat_not_add s.carry
    obtain ⟨low, same⟩ : ∃ low : Int, low = a.toNat % 16 - b.toNat % 16 - (!s.carry).toNat := ⟨_, rfl⟩
    obtain ⟨high, sameHigh⟩ : ∃ high : Int, high = a.toNat / 16 - b.toNat / 16 + low / 10 := ⟨_, rfl⟩
    have least : -10 ≤ low := by omega
    have most : low ≤ 9 := by omega
    have leastHigh : -10 ≤ high := by omega
    have mostHigh : high ≤ 9 := by omega
    -- The complement puts a hundred on top of the difference, which is ten in the higher digit.
    have shifted : decimal.value a + decimal.complement b + s.carry.toNat =
        10 * (high + 10).toNat + (low % 10).toNat := by
      dsimp only [decimal, complement]
      omega
    rw [subtractDecimal_halves]
    simp only [← same, toNat_neg least most, sub_neg_eq_add, ← sameHigh, lowered_mod least most]
    rw [shifted]
    change _ = decimal.byteOf (_ % 100)
    rw [byteOf_decimal (by omega) (lowered_digit leastHigh mostHigh)]
    exact ofNat_congr (by omega)
  carry {s a b} fitsA fitsB := by
    obtain ⟨highA, lowA⟩ := fitsA
    obtain ⟨highB, lowB⟩ := fitsB
    have carry := Bool.toNat_le s.carry
    change (subtract s a b).2.carry = _
    rw [adder_subtract.carry trivial trivial]
    apply decide_eq_decide.mpr
    dsimp only [binary, decimal, complement]
    omega

/-! ### From digits to numbers -/

/-- Pairs of bytes one after the other, the carry going from each to the next. The first byte of a pair is
tested before the second one is combined with it. -/
def ripple (operator : Operator) : Status → List (UInt8 × UInt8) → List UInt8 × Status
  | s, [] => ([], s)
  | s, (x, y) :: rest =>
    let combined := operator (s.test x) x y
    let later := ripple operator combined.2 rest
    (combined.1 :: later.1, later.2)

section

variable (operator : Operator) (s : Status) (pairs : List (UInt8 × UInt8))

theorem ripple_cons (x y : UInt8) :
    ripple operator s ((x, y) :: pairs) =
      ((operator (s.test x) x y).1 :: (ripple operator (operator (s.test x) x y).2 pairs).1,
        (ripple operator (operator (s.test x) x y).2 pairs).2) := rfl

theorem length_ripple : (ripple operator s pairs).1.length = pairs.length := by
  induction pairs generalizing s with
  | nil => rfl
  | cons pair rest ih => exact congrArg Nat.succ (ih _)

end

/-- Both bytes of each pair are digits. -/
def Fit (digits : Digits) (pairs : List (UInt8 × UInt8)) : Prop :=
  ∀ pair ∈ pairs, digits.fits pair.1 ∧ digits.fits pair.2

variable {digits : Digits} {addend : UInt8 → Nat} {operator : Operator} {s : Status}
  {pairs : List (UInt8 × UInt8)}

theorem Adder.toNat_carry (adder : digits.Adder addend operator) {x y : UInt8} (fitsX : digits.fits x)
    (fitsY : digits.fits y) :
    (operator s x y).2.carry.toNat = (digits.value x + addend y + s.carry.toNat) / digits.base := by
  have lowX := digits.value_lt fitsX
  have lowY := adder.addend_lt fitsY
  have carry := Bool.toNat_le s.carry
  rw [adder.carry fitsX fitsY]
  by_cases past : digits.base ≤ digits.value x + addend y + s.carry.toNat
  · rw [decide_eq_true past, Nat.div_eq_of_lt_le (k := 1) (by omega) (by omega), Bool.toNat_true]
  · rw [decide_eq_false past, Nat.div_eq_of_lt (by omega), Bool.toNat_false]

/-- Nothing is lost on the way: the bytes that come out and the last carry are worth as much as the bytes
that went in and the first carry. -/
theorem Adder.total_ripple (adder : digits.Adder addend operator) (fit : digits.Fit pairs) :
    (∀ byte ∈ (ripple operator s pairs).1, digits.fits byte) ∧
    digits.total (ripple operator s pairs).1 +
        digits.base ^ pairs.length * (ripple operator s pairs).2.carry.toNat =
      digits.total (pairs.map Prod.fst) + Nat.ofDigits digits.base (pairs.map (addend ·.2)) +
        s.carry.toNat := by
  induction pairs generalizing s with
  | nil => exact ⟨nofun, by simp [ripple, total]⟩
  | cons pair rest ih =>
      obtain ⟨x, y⟩ := pair
      obtain ⟨fitsX, fitsY⟩ := fit (x, y) List.mem_cons_self
      obtain ⟨fits, worth⟩ := ih (s := (operator (s.test x) x y).2) fun other member =>
        fit other (List.mem_cons_of_mem _ member)
      have below := Nat.mod_lt (digits.value x + addend y + s.carry.toNat) digits.base_pos
      have low : (operator (s.test x) x y).1 =
        digits.byteOf ((digits.value x + addend y + s.carry.toNat) % digits.base) := adder.fst fitsX fitsY
      have carried : (operator (s.test x) x y).2.carry.toNat =
        (digits.value x + addend y + s.carry.toNat) / digits.base := adder.toNat_carry fitsX fitsY
      refine ⟨?_, ?_⟩
      · rintro byte (_ | ⟨_, member⟩)
        · rw [low]
          exact digits.fits_byteOf below
        · exact fits byte member
      · rw [ripple_cons, total_cons, List.length_cons, pow_succ', Nat.mul_assoc, Nat.add_assoc,
          ← Nat.mul_add, worth, low, digits.value_byteOf below, carried]
        rw [List.map_cons, List.map_cons, total_cons, Nat.ofDigits_cons]
        have whole := Nat.mod_add_div (digits.value x + addend y + s.carry.toNat) digits.base
        simp only [Nat.mul_add]
        omega

theorem Adder.ripple_eq (adder : digits.Adder addend operator) (fit : digits.Fit pairs) {sum : Nat}
    (worth : digits.total (pairs.map Prod.fst) + Nat.ofDigits digits.base (pairs.map (addend ·.2)) +
      s.carry.toNat = sum) :
    digits.total (ripple operator s pairs).1 = sum % digits.base ^ pairs.length ∧
    (ripple operator s pairs).2.carry = decide (digits.base ^ pairs.length ≤ sum) := by
  obtain ⟨fits, kept⟩ := adder.total_ripple (s := s) fit
  have below := digits.total_lt fits
  rw [length_ripple] at below
  rw [worth] at kept
  cases carried : (ripple operator s pairs).2.carry with
  | false =>
      rw [carried, Bool.toNat_false, Nat.mul_zero, Nat.add_zero] at kept
      rw [kept] at below ⊢
      exact ⟨(Nat.mod_eq_of_lt below).symm, (decide_eq_false (Nat.not_le_of_lt below)).symm⟩
  | true =>
      rw [carried, Bool.toNat_true, Nat.mul_one] at kept
      rw [← kept, Nat.add_mod_right, Nat.mod_eq_of_lt below]
      exact ⟨rfl, (decide_eq_true (Nat.le_add_left _ _)).symm⟩

theorem Adder.sum_ripple (adder : digits.Adder digits.value operator) (fit : digits.Fit pairs) :
    digits.total (ripple operator s pairs).1 =
      (digits.total (pairs.map Prod.fst) + digits.total (pairs.map Prod.snd) + s.carry.toNat) %
        digits.base ^ pairs.length ∧
    (ripple operator s pairs).2.carry = decide (digits.base ^ pairs.length ≤
      digits.total (pairs.map Prod.fst) + digits.total (pairs.map Prod.snd) + s.carry.toNat) := by
  apply adder.ripple_eq fit
  simp [total, Function.comp_def]

/-- Modulo a power of the base, to subtract is to add the complement and one. -/
theorem emod_eq {x y lack carry borrow whole : Nat} (complement : lack + y + 1 = whole)
    (unit : borrow + carry = 1) :
    ((x : Int) - y - borrow) % (whole : Int) = ((x + lack + carry) % whole : Nat) := by
  have shifted : (x : Int) - y - borrow = (x + lack + carry : Nat) - (whole : Int) := by omega
  rw [shifted, Int.sub_emod_right, Int.natCast_emod]

theorem Adder.difference_ripple (adder : digits.Adder digits.complement operator)
    (fit : digits.Fit pairs) :
    digits.total (ripple operator s pairs).1 =
      (((digits.total (pairs.map Prod.fst) : Int) - digits.total (pairs.map Prod.snd) -
        (!s.carry).toNat) % digits.base ^ pairs.length).toNat ∧
    (ripple operator s pairs).2.carry = decide
      (digits.total (pairs.map Prod.snd) + (!s.carry).toNat ≤ digits.total (pairs.map Prod.fst)) := by
  have fits : ∀ byte ∈ pairs.map Prod.snd, digits.fits byte := by
    intro _ member
    obtain ⟨pair, inside, rfl⟩ := List.mem_map.mp member
    exact (fit pair inside).2
  have complement : Nat.ofDigits digits.base (pairs.map (digits.complement ·.2)) +
      digits.total (pairs.map Prod.snd) + 1 = digits.base ^ pairs.length := by
    have whole := total_complement fits
    rwa [List.map_map, List.length_map] at whole
  have borrow := toNat_not_add s.carry
  obtain ⟨left, carry⟩ := adder.ripple_eq (s := s) fit rfl
  rw [left, carry, ← Int.natCast_pow, emod_eq complement borrow, Int.toNat_natCast]
  refine ⟨rfl, decide_eq_decide.mpr ?_⟩
  omega

/-- To subtract what was added brings back the first bytes, if the carries start out opposite. -/
theorem ripple_undo {t : Status} (opposite : t.carry = !s.carry) :
    (ripple subtract t ((ripple add s pairs).1.zip (pairs.map Prod.snd))).1 = pairs.map Prod.fst := by
  induction pairs generalizing s t with
  | nil => rfl
  | cons pair rest ih =>
      obtain ⟨x, y⟩ := pair
      rw [ripple_cons, List.map_cons, List.zip_cons_cons, ripple_cons, List.map_cons]
      have back : (subtract (t.test (add (s.test x) x y).1) (add (s.test x) x y).1 y).1 = x := by
        rw [Arithmetic.subtract_fst, Arithmetic.add_fst]
        change x + y + (if s.carry then 1 else 0) - y - (if t.carry then 0 else 1) = x
        rw [opposite]
        cases s.carry <;> grind
      have carries : (subtract (t.test (add (s.test x) x y).1) (add (s.test x) x y).1 y).2.carry =
          !(add (s.test x) x y).2.carry := by
        have low : (add (s.test x) x y).1.toNat = (x.toNat + y.toNat + s.carry.toNat) % 256 :=
          UInt8.toNat_ofNat'
        have unit := toNat_not_add s.carry
        have lowX := x.toNat_lt
        have lowY := y.toNat_lt
        rw [adder_subtract.carry trivial trivial, adder_add.carry trivial trivial, ← decide_not]
        apply decide_eq_decide.mpr
        change 256 ≤ (add (s.test x) x y).1.toNat + (256 - 1 - y.toNat) + t.carry.toNat ↔
          ¬256 ≤ x.toNat + y.toNat + s.carry.toNat
        rw [low, opposite]
        omega
      rw [back, ih carries]

/-! ### Signed numbers -/

/-- What so many bytes mean in two's complement. -/
def signed (places number : Nat) : Int :=
  if 2 * number < 256 ^ places then number else number - 256 ^ places

/-- Whether so many bytes can mean a number in two's complement. -/
def InRange (places : Nat) (number : Int) : Prop :=
  -256 ^ places ≤ 2 * number ∧ 2 * number < 256 ^ places

theorem sign_eq (byte : UInt8) : Arithmetic.sign byte = decide (128 ≤ byte.toNat) :=
  decide_eq_decide.mpr UInt8.le_iff_toNat_le

theorem signed_one (byte : UInt8) :
    signed 1 byte.toNat = if Arithmetic.sign byte then (byte.toNat : Int) - 256 else byte.toNat := by
  rw [sign_eq, signed]
  simp only [decide_eq_true_eq, pow_one]
  split <;> split <;> omega

theorem overflow_add_iff (s : Status) (a b : UInt8) :
    (add s a b).2.overflow = true ↔
      ¬InRange 1 (signed 1 a.toNat + signed 1 b.toNat + s.carry.toNat) := by
  have carry := Bool.toNat_le s.carry
  have lowA := a.toNat_lt
  have lowB := b.toNat_lt
  have low : (add s a b).1.toNat = (a.toNat + b.toNat + s.carry.toNat) % 256 := UInt8.toNat_ofNat'
  change Arithmetic.overflows a b (add s a b).1 = true ↔ _
  rw [Arithmetic.overflows, signed_one, signed_one, sign_eq, sign_eq, sign_eq, low, InRange]
  by_cases signA : 128 ≤ a.toNat <;> by_cases signB : 128 ≤ b.toNat <;>
    by_cases signLow : 128 ≤ (a.toNat + b.toNat + s.carry.toNat) % 256 <;>
    simp [signA, signB, signLow] <;> omega

section

variable {places : Nat} (positive : 0 < places)
include positive

theorem exists_half : ∃ half : Nat, 256 ^ places = 2 * half := by
  obtain ⟨k, rfl⟩ := Nat.exists_eq_succ_of_ne_zero positive.ne'
  exact ⟨128 * 256 ^ k, by rw [pow_succ]; omega⟩

theorem signed_complement {lack number : Nat} (complement : lack + number + 1 = 256 ^ places) :
    signed places lack = -signed places number - 1 := by
  obtain ⟨half, even⟩ := exists_half positive
  have evenInt : (256 : Int) ^ places = 2 * half := by exact_mod_cast even
  rw [signed, signed, evenInt, even]
  split <;> split <;> omega

variable {low : Nat} (byte : low < 256)
include byte

theorem signed_cons (high : Nat) :
    signed (places + 1) (low + 256 * high) = low + 256 * signed places high := by
  obtain ⟨half, even⟩ := exists_half positive
  have evenInt : (256 : Int) ^ places = 2 * half := by exact_mod_cast even
  rw [signed, signed, pow_succ', pow_succ', even, evenInt]
  split <;> split <;> omega

theorem inRange_cons (high : Int) : InRange (places + 1) (low + 256 * high) ↔ InRange places high := by
  obtain ⟨half, even⟩ := exists_half positive
  have evenInt : (256 : Int) ^ places = 2 * half := by exact_mod_cast even
  rw [InRange, InRange, pow_succ', evenInt]
  omega

theorem topBit_cons (high : Nat) :
    256 ^ (places + 1) ≤ 2 * (low + 256 * high) ↔ 256 ^ places ≤ 2 * high := by
  obtain ⟨half, even⟩ := exists_half positive
  rw [pow_succ', even]
  omega

end

theorem total_one (byte : UInt8) : binary.total [byte] = byte.toNat := Nat.ofDigits_singleton

/-- The last overflow is that of the whole numbers. -/
theorem overflow_ripple_iff (nonempty : pairs ≠ []) :
    (ripple add s pairs).2.overflow = true ↔
      ¬InRange pairs.length (signed pairs.length (binary.total (pairs.map Prod.fst)) +
        signed pairs.length (binary.total (pairs.map Prod.snd)) + s.carry.toNat) := by
  induction pairs generalizing s with
  | nil => exact absurd rfl nonempty
  | cons pair rest ih =>
      obtain ⟨x, y⟩ := pair
      cases rest with
      | nil =>
          change _ ↔ ¬InRange 1 (signed 1 (binary.total [x]) + signed 1 (binary.total [y]) + _)
          rw [total_one, total_one]
          exact overflow_add_iff (s.test x) x y
      | cons next rest =>
          have places : 0 < (next :: rest).length := Nat.succ_pos _
          have low := Nat.mod_lt (x.toNat + y.toNat + s.carry.toNat) (by decide : 0 < 256)
          have carried : ((add (s.test x) x y).2.carry.toNat : Int) =
              ((x.toNat + y.toNat + s.carry.toNat) / 256 : Nat) :=
            congrArg _ (adder_add.toNat_carry trivial trivial)
          rw [ripple_cons, ih (List.cons_ne_nil _ _), carried, not_iff_not, ← inRange_cons places low]
          generalize next :: rest = rest at places
          change InRange (rest.length + 1) _ ↔ InRange (rest.length + 1)
            (signed (rest.length + 1) (binary.total (x :: _)) +
              signed (rest.length + 1) (binary.total (y :: _)) + _)
          rw [total_cons, total_cons]
          change _ ↔ InRange (rest.length + 1) (signed (rest.length + 1) (x.toNat + 256 * _) +
            signed (rest.length + 1) (y.toNat + 256 * _) + _)
          rw [signed_cons places x.toNat_lt, signed_cons places y.toNat_lt]
          have whole := Nat.mod_add_div (x.toNat + y.toNat + s.carry.toNat) 256
          apply iff_of_eq
          congr 1
          omega

theorem negative_ripple_iff (nonempty : pairs ≠ []) :
    (ripple add s pairs).2.negative = true ↔
      256 ^ pairs.length ≤ 2 * binary.total (ripple add s pairs).1 := by
  induction pairs generalizing s with
  | nil => exact absurd rfl nonempty
  | cons pair rest ih =>
      obtain ⟨x, y⟩ := pair
      cases rest with
      | nil =>
          change decide (0x80 ≤ (add (s.test x) x y).1) = true ↔
            256 ^ 1 ≤ 2 * binary.total [(add (s.test x) x y).1]
          rw [total_one, decide_eq_true_eq, UInt8.le_iff_toNat_le]
          change 128 ≤ _ ↔ _
          omega
      | cons next rest =>
          have places : 0 < (next :: rest).length := Nat.succ_pos _
          rw [ripple_cons, ih (List.cons_ne_nil _ _), total_cons]
          exact (topBit_cons places (UInt8.toNat_lt _) _).symm

theorem ripple_subtract :
    ripple subtract s pairs = ripple add s (pairs.map fun pair => (pair.1, ~~~pair.2)) := by
  induction pairs generalizing s with
  | nil => rfl
  | cons pair rest ih =>
      rw [List.map_cons, ripple_cons, ripple_cons, ih]
      rfl

theorem total_not (bytes : List UInt8) :
    binary.total (bytes.map (~~~·)) + binary.total bytes + 1 = 256 ^ bytes.length := by
  rw [total, List.map_map]
  have same : binary.value ∘ (~~~·) = binary.complement := funext toNat_not
  rw [same]
  exact total_complement fun _ _ => trivial

theorem overflow_ripple_subtract_iff (nonempty : pairs ≠ []) :
    (ripple subtract s pairs).2.overflow = true ↔
      ¬InRange pairs.length (signed pairs.length (binary.total (pairs.map Prod.fst)) -
        signed pairs.length (binary.total (pairs.map Prod.snd)) - (!s.carry).toNat) := by
  have places : 0 < pairs.length := List.length_pos_iff.mpr nonempty
  have complement := total_not (pairs.map Prod.snd)
  rw [List.length_map, List.map_map] at complement
  have borrow := toNat_not_add s.carry
  rw [ripple_subtract, overflow_ripple_iff (by simpa using nonempty), List.length_map, List.map_map,
    List.map_map]
  change ¬InRange _ (signed _ (binary.total (pairs.map Prod.fst)) +
    signed _ (binary.total (pairs.map ((~~~·) ∘ Prod.snd))) + _) ↔ _
  rw [signed_complement places complement]
  apply iff_of_eq
  congr 2
  omega

theorem negative_ripple_subtract_iff (nonempty : pairs ≠ []) :
    (ripple subtract s pairs).2.negative = true ↔
      256 ^ pairs.length ≤ 2 * binary.total (ripple subtract s pairs).1 := by
  rw [ripple_subtract, negative_ripple_iff (by simpa using nonempty), List.length_map]

end Digits

end AppleOne
