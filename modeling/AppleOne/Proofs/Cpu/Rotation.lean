import AppleOne.Cpu.Action
import AppleOne.Proofs.Cpu.Digits

/-!
Shifts of numbers of several bytes. The carry takes the bit that leaves a byte into the next one, so that
a chain of shifts is worth one shift of the whole number (`total_pass_rol`, `total_pass_ror`).
-/

namespace AppleOne

inductive Shift where
  | asl
  | lsr
  | rol
  | ror
  deriving DecidableEq

namespace Shift

def operation : Shift → Operation
  | asl => .asl
  | lsr => .lsr
  | rol => .rol
  | ror => .ror

def apply : Shift → Status → UInt8 → UInt8 × Status
  | asl => Arithmetic.shiftLeft
  | lsr => Arithmetic.shiftRight
  | rol => Arithmetic.rotateLeft
  | ror => Arithmetic.rotateRight

/-- The bit that leaves a byte. -/
def out (byte : UInt8) : Shift → Bool
  | asl | rol => Arithmetic.sign byte
  | lsr | ror => byte &&& 1 != 0

theorem action_eq (shift : Shift) : shift.operation.action = .modify shift.apply := by
  cases shift <;> rfl

variable (shift : Shift) (s : Status) (byte : UInt8)

theorem apply_fst : (shift.apply s byte).1 = shift.operation.replacement s.carry byte := by
  cases shift with
  | asl => exact Arithmetic.shiftLeft_fst s byte
  | lsr => exact Arithmetic.shiftRight_fst s byte
  | rol => exact Arithmetic.rotateLeft_fst s byte
  | ror => exact Arithmetic.rotateRight_fst s byte

theorem apply_carry : (shift.apply s byte).2.carry = shift.out byte := by
  cases shift <;> rfl

/-! ### Single bytes -/

theorem out_ror : ror.out byte = decide (byte.toNat % 2 = 1) := by
  have low : (byte &&& 1).toNat = byte.toNat % 2 := by
    rw [UInt8.toNat_and]
    exact Nat.and_one_is_mod _
  rw [out, Bool.eq_iff_iff, bne_iff_ne, decide_eq_true_iff, ne_eq, ← UInt8.toNat_inj, low]
  exact Nat.mod_two_ne_zero

/-- A rotation to the left loses nothing: the carry is worth a ninth bit. -/
theorem worth_rol (carry : Bool) (byte : UInt8) :
    (Operation.rol.replacement carry byte).toNat + 256 * (rol.out byte).toNat =
      2 * byte.toNat + carry.toNat := by
  have out : rol.out byte = decide (0x80 ≤ byte.toNat) := rfl
  have made : (Operation.rol.replacement carry byte).toNat = (2 * byte.toNat + carry.toNat) % 256 := by
    change (2 * byte + if carry then 1 else 0).toNat = _
    cases carry <;> simp
  have := byte.toNat_lt
  have := carry.toNat_le
  rw [made, out]
  by_cases high : 0x80 ≤ byte.toNat
  · rw [decide_eq_true high, Bool.toNat_true]
    omega
  · rw [decide_eq_false high, Bool.toNat_false]
    omega

theorem worth_ror (carry : Bool) (byte : UInt8) :
    2 * (Operation.ror.replacement carry byte).toNat + (ror.out byte).toNat =
      byte.toNat + 256 * carry.toNat := by
  have := byte.toNat_lt
  have made : (Operation.ror.replacement carry byte).toNat = byte.toNat / 2 + 0x80 * carry.toNat := by
    change (byte / 2 + if carry then 0x80 else 0).toNat = _
    rw [UInt8.toNat_add, UInt8.toNat_div]
    cases carry with
    | false =>
        change (byte.toNat / 2 + 0) % 256 = byte.toNat / 2 + 0x80 * 0
        omega
    | true =>
        change (byte.toNat / 2 + 0x80) % 256 = byte.toNat / 2 + 0x80 * 1
        omega
  rw [made, out_ror]
  by_cases odd : byte.toNat % 2 = 1
  · rw [decide_eq_true odd, Bool.toNat_true]
    omega
  · rw [decide_eq_false odd, Bool.toNat_false]
    omega

/-- What both rotations are worth leaves only one byte and one bit that this can be. -/
theorem ror_rol (carry : Bool) (byte : UInt8) :
    Operation.ror.replacement (rol.out byte) (Operation.rol.replacement carry byte) = byte ∧
      ror.out (Operation.rol.replacement carry byte) = carry := by
  have there := worth_rol carry byte
  have back := worth_ror (rol.out byte) (Operation.rol.replacement carry byte)
  have := carry.toNat_le
  have := (ror.out (Operation.rol.replacement carry byte)).toNat_le
  constructor
  · rw [← UInt8.toNat_inj]
    omega
  · rw [Bool.eq_iff_iff, ← Bool.toNat_eq_one, ← Bool.toNat_eq_one]
    omega

/-! ### Chains of shifts -/

open Digits (binary total_cons total_lt)

/-- Shifts one after the other, each of its own byte: the bytes that they make, and the last carry. -/
def pass : Bool → List (Shift × UInt8) → List UInt8 × Bool
  | carry, [] => ([], carry)
  | carry, (shift, byte) :: rest =>
    let later := pass (shift.out byte) rest
    (shift.operation.replacement carry byte :: later.1, later.2)

/-- One shift of the first item, and another one of all that follow. -/
def series {α : Type} (first others : Shift) : List α → List (Shift × α)
  | [] => []
  | item :: rest => (first, item) :: rest.map (others, ·)

section

variable {α β : Type} (first others : Shift)

theorem series_cons (item : α) (rest : List α) :
    series first others (item :: rest) = (first, item) :: rest.map (others, ·) := rfl

theorem series_self (items : List α) : series shift shift items = items.map (shift, ·) := by
  cases items <;> rfl

theorem map_snd_series (items : List α) : (series first others items).map Prod.snd = items := by
  cases items with
  | nil => rfl
  | cons item rest =>
      rw [series_cons, List.map_cons, List.map_map]
      exact congrArg (item :: ·) rest.map_id

theorem length_series (items : List α) : (series first others items).length = items.length := by
  rw [← List.length_map Prod.snd, map_snd_series]

theorem map_series (f : α → β) (items : List α) :
    (series first others items).map (Prod.map id f) = series first others (items.map f) := by
  cases items with
  | nil => rfl
  | cons item rest =>
      rw [series_cons, List.map_cons, List.map_cons, series_cons, List.map_map, List.map_map]
      rfl

end

variable (carry : Bool) {bytes : List UInt8}

theorem pass_cons (byte : UInt8) (rest : List (Shift × UInt8)) :
    pass carry ((shift, byte) :: rest) =
      (shift.operation.replacement carry byte :: (pass (shift.out byte) rest).1,
        (pass (shift.out byte) rest).2) := rfl

theorem length_pass (chain : List (Shift × UInt8)) : (pass carry chain).1.length = chain.length := by
  induction chain generalizing carry with
  | nil => rfl
  | cons head rest ih => exact congrArg Nat.succ (ih _)

theorem pass_append (first second : List (Shift × UInt8)) :
    pass carry (first ++ second) =
      ((pass carry first).1 ++ (pass (pass carry first).2 second).1,
        (pass (pass carry first).2 second).2) := by
  induction first generalizing carry with
  | nil => rfl
  | cons head rest ih => rw [List.cons_append, pass_cons, pass_cons, ih, List.cons_append]

/-- The first shift does not look at the carry. -/
theorem pass_asl_rol (nonempty : bytes ≠ []) :
    pass carry (series asl rol bytes) = pass false (bytes.map (.rol, ·)) := by
  cases bytes with
  | nil => exact absurd rfl nonempty
  | cons byte rest =>
      have alone : Operation.rol.replacement false byte = Operation.asl.replacement carry byte :=
        UInt8.add_zero _
      rw [series_cons, List.map_cons, pass_cons, pass_cons, operation, operation, alone]
      rfl

theorem pass_lsr_ror (nonempty : bytes ≠ []) :
    pass carry (series lsr ror bytes) = pass false (bytes.map (.ror, ·)) := by
  cases bytes with
  | nil => exact absurd rfl nonempty
  | cons byte rest =>
      have alone : Operation.ror.replacement false byte = Operation.lsr.replacement carry byte :=
        UInt8.add_zero _
      rw [series_cons, List.map_cons, pass_cons, pass_cons, operation, operation, alone]
      rfl

/-! ### Whole numbers -/

/-- From the lowest byte on, twice the number and the carry come out. -/
theorem total_pass_rol (bytes : List UInt8) :
    binary.total (pass carry (bytes.map (.rol, ·))).1 +
        256 ^ bytes.length * (pass carry (bytes.map (.rol, ·))).2.toNat =
      2 * binary.total bytes + carry.toNat := by
  induction bytes generalizing carry with
  | nil =>
      change 0 + 256 ^ 0 * carry.toNat = 2 * 0 + carry.toNat
      omega
  | cons byte rest ih =>
      have low := worth_rol carry byte
      have high := ih (rol.out byte)
      rw [List.map_cons, pass_cons, total_cons, total_cons, List.length_cons, pow_succ']
      change (Operation.rol.replacement carry byte).toNat + 256 * _ + _ = 2 * (byte.toNat + 256 * _) + _
      rw [Nat.mul_assoc, Nat.add_assoc, ← Nat.mul_add, high]
      omega

theorem total_append_byte (bytes : List UInt8) (byte : UInt8) :
    binary.total (bytes ++ [byte]) = binary.total bytes + 256 ^ bytes.length * byte.toNat := by
  simp [Digits.total, Nat.ofDigits_append, binary]

/-- From the highest byte on, half of the number comes out, the carry going in at the top. -/
theorem total_pass_ror (bytes : List UInt8) :
    2 * binary.total (pass carry (bytes.map (.ror, ·))).1.reverse +
        (pass carry (bytes.map (.ror, ·))).2.toNat =
      binary.total bytes.reverse + 256 ^ bytes.length * carry.toNat := by
  induction bytes generalizing carry with
  | nil =>
      change 2 * 0 + carry.toNat = 0 + 256 ^ 0 * carry.toNat
      omega
  | cons byte rest ih =>
      have high := worth_ror carry byte
      have low := ih (ror.out byte)
      have length := length_pass (ror.out byte) (rest.map (.ror, ·))
      rw [List.length_map] at length
      rw [List.map_cons, pass_cons, List.reverse_cons, List.reverse_cons, total_append_byte, total_append_byte,
        List.length_reverse, List.length_reverse, List.length_cons, pow_succ', length]
      have scaled := congrArg (256 ^ rest.length * ·) high
      change 2 * (_ + 256 ^ rest.length * (Operation.ror.replacement carry byte).toNat) + _ = _
      linarith

/-- The way back, from the highest byte on, brings back the bytes and the carry. -/
theorem pass_ror_rol (bytes : List UInt8) :
    pass (pass carry (series rol rol bytes)).2
        (series ror ror (pass carry (series rol rol bytes)).1.reverse) = (bytes.reverse, carry) := by
  simp only [series_self]
  induction bytes generalizing carry with
  | nil => rfl
  | cons byte rest ih =>
      obtain ⟨same, back⟩ := ror_rol carry byte
      rw [List.map_cons, pass_cons, List.reverse_cons, List.map_append, pass_append, ih, List.reverse_cons]
      change (_ ++ [Operation.ror.replacement (rol.out byte) (Operation.rol.replacement carry byte)],
        ror.out (Operation.rol.replacement carry byte)) = _
      rw [same, back]

theorem total_lt_pow (bytes : List UInt8) : binary.total bytes < 256 ^ bytes.length :=
  total_lt fun _ _ => trivial

theorem two_pow_places {places : Nat} (positive : 0 < places) : 2 ^ (8 * places - 1 + 1) = 256 ^ places := by
  rw [Nat.sub_add_cancel (by omega), pow_mul]
  norm_num

/-- Doubling moves the highest bit into the carry. -/
theorem pass_asl_rol_eq (nonempty : bytes ≠ []) :
    binary.total (pass carry (series asl rol bytes)).1 = 2 * binary.total bytes % 256 ^ bytes.length ∧
      (pass carry (series asl rol bytes)).2 = (binary.total bytes).testBit (8 * bytes.length - 1) := by
  have worth := total_pass_rol false bytes
  have below := total_lt_pow (pass false (bytes.map (.rol, ·))).1
  have whole := two_pow_places (List.length_pos_iff.mpr nonempty)
  have half := Nat.two_pow_succ (8 * bytes.length - 1)
  rw [length_pass, List.length_map] at below
  rw [pass_asl_rol carry nonempty]
  generalize pass false (bytes.map (.rol, ·)) = made at worth below ⊢
  -- The carry is what does not fit: it is set if and only if the number was half of the range or more.
  cases out : made.2 with
  | false =>
      rw [out, Bool.toNat_false, Nat.mul_zero, Nat.add_zero, Nat.add_zero] at worth
      rw [Nat.testBit_lt_two_pow (by omega), ← worth, Nat.mod_eq_of_lt below]
      exact ⟨rfl, rfl⟩
  | true =>
      have most := total_lt_pow bytes
      rw [out, Bool.toNat_true, Nat.mul_one, Bool.toNat_false, Nat.add_zero] at worth
      rw [Nat.testBit_of_two_pow_le_and_two_pow_add_one_gt (by omega) (by omega), ← worth,
        Nat.add_mod_right, Nat.mod_eq_of_lt below]
      exact ⟨rfl, rfl⟩

/-- Halving moves the lowest bit into the carry. -/
theorem pass_lsr_ror_eq (nonempty : bytes ≠ []) :
    binary.total (pass carry (series lsr ror bytes.reverse)).1.reverse = binary.total bytes / 2 ∧
      (pass carry (series lsr ror bytes.reverse)).2 = (binary.total bytes).testBit 0 := by
  have worth := total_pass_ror false bytes.reverse
  rw [List.reverse_reverse, Bool.toNat_false, Nat.mul_zero, Nat.add_zero] at worth
  rw [pass_lsr_ror carry (by simpa using nonempty), Nat.testBit_zero, ← worth]
  cases (pass false (bytes.reverse.map (.ror, ·))).2 with
  | false => simp
  | true => simp; omega

end Shift

end AppleOne
