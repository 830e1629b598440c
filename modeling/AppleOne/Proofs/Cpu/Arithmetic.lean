import AppleOne.Cpu.Instruction
import AppleOne.Cpu.Arithmetic

/-!
The arithmetic unit: which flags each of its operations may change, and the bytes it makes, said by
plain arithmetic on bytes.
-/

namespace AppleOne

/-- A statement about all bytes is decided by trying them. -/
instance decidableForallByte {P : UInt8 → Prop} [DecidablePred P] : Decidable (∀ byte, P byte) :=
  decidable_of_iff (∀ n : Fin 256, P (UInt8.ofFin n)) ⟨fun h byte => h byte.toFin, fun h _ => h _⟩

/-- A mask goes to both bytes. -/
theorem and_or_distrib (a b mask : UInt8) : (a ||| b) &&& mask = a &&& mask ||| b &&& mask :=
  UInt8.toBitVec_inj.mp BitVec.and_or_distrib_right

namespace Status

theorem toByte_pushed (s : Status) (byInstruction : Bool) :
    (s.pushed byInstruction).toByte =
      if byInstruction then s.toByte ||| 0x30 else s.toByte &&& 0xEF ||| 0x20 := by
  obtain ⟨n, v, u, b, d, i, z, c⟩ := s
  revert n v u b d i z c byInstruction
  decide

theorem toByte_pulled (byte : UInt8) : (pulled byte).toByte = (byte ||| 0x20) &&& 0xEF := by
  change ((ofByte byte).pushed false).toByte = _
  rw [toByte_pushed, toByte_ofByte, if_neg Bool.false_ne_true, and_or_distrib]
  rfl

/-- A status with the byte that pulling makes of another one is the status that was pulled. -/
theorem eq_pulled {s : Status} {byte : UInt8} (h : s.toByte = (byte ||| 0x20) &&& 0xEF) :
    s = pulled byte := by
  rw [← ofByte_toByte s, h, ← toByte_pulled, ofByte_toByte]

inductive Flag where
  | negative | overflow | bit5 | breakMark | decimal | interruptsOff | zero | carry
  deriving DecidableEq

def get (s : Status) : Flag → Bool
  | .negative => s.negative
  | .overflow => s.overflow
  | .bit5 => s.bit5
  | .breakMark => s.breakMark
  | .decimal => s.decimal
  | .interruptsOff => s.interruptsOff
  | .zero => s.zero
  | .carry => s.carry

/-- Only the listed flags may differ. -/
def AgreeExcept (flags : List Flag) (s t : Status) : Prop :=
  ∀ flag, flag ∉ flags → t.get flag = s.get flag

variable (s : Status)

theorem agree_refl (flags : List Flag) : AgreeExcept flags s s := fun _ _ => rfl

theorem agree_test (byte : UInt8) : AgreeExcept [.negative, .zero] s (s.test byte) := by
  intro flag unlisted
  cases flag <;> first | rfl | exact absurd (by decide) unlisted

/-- The flags of most operations of the arithmetic unit: a test and then a carry. -/
theorem agree_test_carry (byte : UInt8) (carry : Bool) :
    AgreeExcept [.negative, .zero, .carry] s { s.test byte with carry := carry } := by
  intro flag unlisted
  cases flag <;> first | rfl | exact absurd (by decide) unlisted

theorem agree_sum (negative overflow zero carry : Bool) :
    AgreeExcept [.negative, .overflow, .zero, .carry] s
      { s with negative := negative, overflow := overflow, zero := zero, carry := carry } := by
  intro flag unlisted
  cases flag <;> first | rfl | exact absurd (by decide) unlisted

theorem agree_testBits (negative overflow zero : Bool) :
    AgreeExcept [.negative, .overflow, .zero] s
      { s with negative := negative, overflow := overflow, zero := zero } := by
  intro flag unlisted
  cases flag <;> first | rfl | exact absurd (by decide) unlisted

end Status

namespace Arithmetic

theorem add_fst (s : Status) (a b : UInt8) :
    (add s a b).1 = a + b + if s.carry then 1 else 0 := by
  simp only [add, UInt8.ofNat_add, UInt8.ofNat_toNat]
  cases s.carry <;> rfl

theorem subtract_fst (s : Status) (a b : UInt8) :
    (subtract s a b).1 = a - b - if s.carry then 0 else 1 := by
  have complement : ~~~b = -b - 1 := by
    have := UInt8.neg_eq_not_add b
    grind
  rw [subtract, add_fst, complement]
  cases s.carry <;> grind

theorem add_agree (s : Status) (a b : UInt8) :
    Status.AgreeExcept [.negative, .overflow, .zero, .carry] s (add s a b).2 :=
  s.agree_sum _ _ _ _

theorem addDecimal_agree (s : Status) (a b : UInt8) :
    Status.AgreeExcept [.negative, .overflow, .zero, .carry] s (addDecimal s a b).2 :=
  s.agree_sum _ _ _ _

/-- Two bytes without a common bit are put together by adding them. -/
theorem or_eq_add {a b : UInt8} (apart : a.toNat ||| b.toNat = a.toNat + b.toNat) : a ||| b = a + b := by
  have fits := (a ||| b).toNat_lt
  rw [UInt8.toNat_or, apart] at fits
  rw [← UInt8.toNat_inj, UInt8.toNat_or, apart, UInt8.toNat_add, Nat.mod_eq_of_lt fits]

theorem shiftLeft_fst (s : Status) (byte : UInt8) : (shiftLeft s byte).1 = 2 * byte := by
  change byte <<< 1 = 2 * byte
  rw [← UInt8.toNat_inj, UInt8.toNat_shiftLeft, UInt8.toNat_mul]
  simp [Nat.shiftLeft_eq, Nat.mul_comm]

theorem shiftRight_fst (s : Status) (byte : UInt8) : (shiftRight s byte).1 = byte / 2 := by
  change byte >>> 1 = byte / 2
  rw [← UInt8.toNat_inj, UInt8.toNat_shiftRight, UInt8.toNat_div]
  rfl

theorem rotateLeft_fst (s : Status) (byte : UInt8) :
    (rotateLeft s byte).1 = 2 * byte + if s.carry then 1 else 0 := by
  change ((shiftLeft s byte).1 ||| if s.carry then 1 else 0) = 2 * byte + if s.carry then 1 else 0
  have even : (2 * byte).toNat = 2 * (byte.toNat % 128) := by
    rw [UInt8.toNat_mul]
    change 2 * byte.toNat % 256 = _
    omega
  have small : (if s.carry then 1 else 0 : UInt8).toNat < 2 := by cases s.carry <;> decide
  rw [shiftLeft_fst]
  refine or_eq_add ?_
  rw [even]
  exact (Nat.two_pow_add_eq_or_of_lt (i := 1) small _).symm

theorem rotateRight_fst (s : Status) (byte : UInt8) :
    (rotateRight s byte).1 = byte / 2 + if s.carry then 0x80 else 0 := by
  change ((shiftRight s byte).1 ||| if s.carry then 0x80 else 0) =
    byte / 2 + if s.carry then 0x80 else 0
  have top : (if s.carry then 0x80 else 0 : UInt8).toNat = 128 * s.carry.toNat := by
    cases s.carry <;> rfl
  have small : (byte / 2).toNat < 128 := by
    rw [UInt8.toNat_div]
    exact Nat.div_lt_of_lt_mul byte.toNat_lt
  rw [shiftRight_fst, UInt8.or_comm, UInt8.add_comm]
  refine or_eq_add ?_
  rw [top]
  exact (Nat.two_pow_add_eq_or_of_lt (i := 7) small _).symm

theorem increment_fst (s : Status) (byte : UInt8) : (increment s byte).1 = byte + 1 := rfl

theorem decrement_fst (s : Status) (byte : UInt8) : (decrement s byte).1 = byte - 1 := rfl

end Arithmetic

/-- The byte that a shift, an increment or a decrement puts in place of its operand. -/
def Operation.replacement (carry : Bool) (byte : UInt8) : Operation → UInt8
  | .asl => 2 * byte
  | .lsr => byte / 2
  | .rol => 2 * byte + if carry then 1 else 0
  | .ror => byte / 2 + if carry then 0x80 else 0
  | .inc => byte + 1
  | .dec => byte - 1
  | _ => byte

end AppleOne
