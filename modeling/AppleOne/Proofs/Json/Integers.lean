import AppleOne.Json.Reader
import Mathlib.Data.List.TakeDrop

/-!
Integers are read back: the digits of up to 64 bits come back as they were written.
-/

namespace AppleOne.Json

/-- No character that could go on with a number. -/
def Ends (rest : List Char) : Prop :=
  ∀ c ∈ rest.head?, c.isDigit = false ∧ c ≠ '.' ∧ c ≠ 'e' ∧ c ≠ 'E'

theorem spanDigits_append {digits rest : List Char} (all : ∀ c ∈ digits, c.isDigit = true)
    (stop : ∀ c ∈ rest.head?, c.isDigit = false) : spanDigits (digits ++ rest) = (digits, rest) := by
  have stops : rest.takeWhile Char.isDigit = [] ∧ rest.dropWhile Char.isDigit = rest := by
    cases rest with
    | nil => exact ⟨rfl, rfl⟩
    | cons c rest =>
        have other := ne_true_of_eq_false (stop c rfl)
        exact ⟨List.takeWhile_cons_of_neg other, List.dropWhile_cons_of_neg other⟩
  rw [spanDigits, List.span_eq_takeWhile_dropWhile, List.takeWhile_append_of_pos all,
    List.dropWhile_append_of_pos all, stops.1, stops.2, List.append_nil]

theorem le_ofDigitChars (n : Nat) (digits : List Char) : n ≤ Nat.ofDigitChars 10 digits n := by
  induction digits generalizing n with
  | nil => exact Nat.le_refl n
  | cons c digits ih =>
      rw [Nat.ofDigitChars_cons]
      exact Nat.le_trans (by omega) (ih _)

theorem absorb_eq {n : Nat} {digits : List Char} (below : Nat.ofDigitChars 10 digits n < 0x10000000000000000) :
    absorb n digits = (Nat.ofDigitChars 10 digits n, []) := by
  induction digits generalizing n with
  | nil => rfl
  | cons c digits ih =>
      rw [Nat.ofDigitChars_cons, Nat.mul_comm] at below ⊢
      have small : n * 10 + digitValue c < 0x10000000000000000 :=
        Nat.lt_of_le_of_lt (le_ofDigitChars _ digits) below
      rw [absorb, if_pos small]
      exact ih below

/-- No number but zero is written with a zero in front. -/
theorem head?_toDigits {n : Nat} (positive : 0 < n) : (Nat.toDigits 10 n).head? ≠ some '0' := by
  induction n using Nat.strongRecOn with
  | ind n ih =>
      rw [Nat.toDigits_eq_if (by decide)]
      split
      next small =>
        rw [List.head?_cons, ne_eq, Option.some.injEq, Nat.digitChar_eq_zero]
        exact Nat.ne_of_gt positive
      next large =>
        have first := ih (n / 10) (by omega) (by omega)
        cases digits : Nat.toDigits 10 (n / 10) with
        | nil => exact absurd digits Nat.toDigits_ne_nil
        | cons c more =>
            rw [digits] at first
            exact first

theorem readNumber_toDigits (negative : Bool) {n : Nat} {rest : List Char} (ends : Ends rest)
    (below : n < 0x10000000000000000) (least : negative = true → 0 < n ∧ n ≤ 0x8000000000000000) :
    readNumber negative (Nat.toDigits 10 n ++ rest) =
      .ok (.integer (if negative then -(n : Int) else n), rest) := by
  have all : ∀ c ∈ Nat.toDigits 10 n, c.isDigit = true := fun c member =>
    Nat.isDigit_of_mem_toDigits (by decide) (Nat.le_refl 10) member
  have whole : absorb 0 (Nat.toDigits 10 n) = (n, []) := by
    rw [absorb_eq (by rwa [Nat.ofDigitChars_ten_toDigits]), Nat.ofDigitChars_ten_toDigits]
  rw [readNumber, spanDigits_append all fun c head => (ends c head).1]
  dsimp only
  split
  next none => exact absurd none Nat.toDigits_ne_nil
  next second more zero =>
    have positive : 0 < n := Nat.pos_of_ne_zero fun none => by
      rw [none, Nat.toDigits_zero] at zero
      cases zero
    exact absurd (congrArg List.head? zero) (head?_toDigits positive)
  next =>
    rw [whole]
    dsimp only
    split
    next point => exact absurd rfl (ends '.' rfl).2.1
    next mark => exact absurd rfl (ends 'e' rfl).2.2.1
    next mark => exact absurd rfl (ends 'E' rfl).2.2.2
    next =>
      cases negative with
      | false => rfl
      | true =>
          obtain ⟨positive, most⟩ := least rfl
          have exact : ¬(n = 0 ∨ 0x8000000000000000 < n) := by omega
          simp [exact]

theorem text_natural (n : Nat) : (Number.integer n).text.toList = Nat.toDigits 10 n := by
  change (Int.repr n).toList = _
  rw [← String.toList_ofList (l := Nat.toDigits 10 n), ← Nat.repr_eq_ofList_toDigits]
  rfl

theorem text_negative (n : Nat) :
    (Number.integer (.negSucc n)).text.toList = '-' :: Nat.toDigits 10 (n + 1) := by
  change ("-" ++ (n + 1).repr).toList = _
  rw [String.toList_append, Nat.repr_eq_ofList_toDigits, String.toList_ofList, String.toList_ofList]
  rfl

/-- Whether a number is an integer of 64 bits, with or without a sign. -/
def Number.Exact : Number → Prop
  | .integer value => -0x8000000000000000 ≤ value ∧ value < 0x10000000000000000
  | .real _ => False

theorem Number.Exact.natural {n : Nat} (below : n < 0x10000000000000000) : (Number.integer n).Exact :=
  ⟨by omega, by omega⟩

end AppleOne.Json
