import AppleOne.Proofs.Json.Spelling

/-!
Well-formed text, whatever it stands for. A grammar says which texts are values, and what has no meaning to a
reader is passed over from its first character to its last (`WellFormed.skips`).
-/

namespace AppleOne.Json

def DigitRun (text : List Char) : Prop := text ≠ [] ∧ ∀ c ∈ text, c.isDigit = true

inductive Fraction : List Char → Prop where
  | none : Fraction []
  | point {digits : List Char} : DigitRun digits → Fraction ('.' :: digits)

inductive Exponent : List Char → Prop where
  | none : Exponent []
  | plain {mark : Char} {digits : List Char} : mark = 'e' ∨ mark = 'E' → DigitRun digits →
      Exponent (mark :: digits)
  | signed {mark sign : Char} {digits : List Char} : mark = 'e' ∨ mark = 'E' → sign = '+' ∨ sign = '-' →
      DigitRun digits → Exponent (mark :: sign :: digits)

/-- A number without its sign. Its whole part is zero or does not start with a zero. -/
inductive Magnitude : List Char → Prop where
  | parts {whole fraction exponent : List Char} : DigitRun whole → (whole.head? = some '0' → whole = ['0']) →
      Fraction fraction → Exponent exponent → Magnitude (whole ++ (fraction ++ exponent))

inductive Numeral : List Char → Prop where
  | plain {text : List Char} : Magnitude text → Numeral text
  | negative {text : List Char} : Magnitude text → Numeral ('-' :: text)

/-- What a text may be: a value, or what is left of an array or an object. The parts of an entry are given as
they are written. -/
inductive Part where
  | value
  | items (first : Bool) (values : List (List Char))
  | members (first : Bool) (entries : List (List Char × List Char))

inductive WellFormed : Part → List Char → Prop where
  | null : WellFormed .value "null".toList
  | yes : WellFormed .value "true".toList
  | no : WellFormed .value "false".toList
  | number {text : List Char} : Numeral text → WellFormed .value text
  | string {text : List Char} : Loose text → WellFormed .value ('"' :: (text ++ ['"']))
  | array {values : List (List Char)} {text : List Char} :
      WellFormed (.items true values) text → WellFormed .value ('[' :: text)
  | object {entries : List (List Char × List Char)} {text : List Char} :
      WellFormed (.members true entries) text → WellFormed .value ('\x7b' :: text)
  | noItem {first : Bool} {blanks : List Char} :
      Blank blanks → WellFormed (.items first []) (blanks ++ [']'])
  | item {first : Bool} {lead value later : List Char} {values : List (List Char)} :
      Lead first lead → WellFormed .value value → WellFormed (.items false values) later →
      WellFormed (.items first (value :: values)) (lead ++ (value ++ later))
  | noMember {first : Bool} {blanks : List Char} :
      Blank blanks → WellFormed (.members first []) (blanks ++ ['\x7d'])
  | member {first : Bool} {lead name before after value later : List Char}
      {entries : List (List Char × List Char)} :
      Lead first lead → Loose name → Blank before → Blank after → WellFormed .value value →
      WellFormed (.members false entries) later →
      WellFormed (.members first ((name, value) :: entries))
        (lead ++ '"' :: (name ++ '"' :: (before ++ ':' :: (after ++ (value ++ later)))))

/-! ### Numbers -/

section

variable {text rest : List Char}

theorem DigitRun.skip (digits : DigitRun text) (stop : ∀ c ∈ rest.head?, c.isDigit = false) :
    skipDigits (text ++ rest) = .ok rest := by
  rw [skipDigits, spanDigits_append digits.2 stop]
  exact if_neg (by simpa using digits.1)

theorem DigitRun.exists_cons (digits : DigitRun text) : ∃ c more, text = c :: more ∧ c.isDigit = true := by
  obtain ⟨some, all⟩ := digits
  obtain ⟨c, more, rfl⟩ := List.exists_cons_of_ne_nil some
  exact ⟨c, more, rfl, all c List.mem_cons_self⟩

theorem skipFraction_of_ne (point : ∀ more, rest ≠ '.' :: more) : skipFraction rest = .ok rest := by
  unfold skipFraction
  split
  · exact absurd rfl (point _)
  · rfl

theorem skipExponent_of_ne (small : ∀ more, rest ≠ 'e' :: more) (capital : ∀ more, rest ≠ 'E' :: more) :
    skipExponent rest = .ok rest := by
  unfold skipExponent
  split
  all_goals first
    | rfl
    | exact absurd rfl (small _)
    | exact absurd rfl (capital _)

theorem skipExponent_unsigned {mark : Char} (marks : mark = 'e' ∨ mark = 'E')
    (plus : ∀ more, text ≠ '+' :: more) (minus : ∀ more, text ≠ '-' :: more) :
    skipExponent (mark :: text) = skipDigits text := by
  obtain rfl | rfl := marks
  · rw [skipExponent]
    · exact plus
    · exact minus
  · rw [skipExponent]
    · exact plus
    · exact minus

theorem skipExponent_sign {mark sign : Char} (marks : mark = 'e' ∨ mark = 'E') (signs : sign = '+' ∨ sign = '-')
    (more : List Char) : skipExponent (mark :: sign :: more) = skipDigits more := by
  obtain rfl | rfl := marks <;> obtain rfl | rfl := signs <;> rfl

theorem Exponent.skip (exponent : Exponent text) (ends : Ends rest) : skipExponent (text ++ rest) = .ok rest := by
  have stop : ∀ c ∈ rest.head?, c.isDigit = false := fun c head => (ends c head).1
  cases exponent with
  | none =>
      apply skipExponent_of_ne
      · rintro more rfl
        exact (ends 'e' rfl).2.2.1 rfl
      · rintro more rfl
        exact (ends 'E' rfl).2.2.2 rfl
  | plain marks all =>
      obtain ⟨c, more, rfl, digit⟩ := all.exists_cons
      refine (skipExponent_unsigned marks ?_ ?_).trans (all.skip stop)
      · rintro _ ⟨⟩
        exact absurd digit (by decide)
      · rintro _ ⟨⟩
        exact absurd digit (by decide)
  | signed marks signs all => exact (skipExponent_sign marks signs _).trans (all.skip stop)

/-- What follows the digits before an exponent is no digit and no point. -/
theorem Exponent.head (exponent : Exponent text) (ends : Ends rest) :
    ∀ c ∈ (text ++ rest).head?, c.isDigit = false ∧ c ≠ '.' := by
  cases exponent with
  | none => exact fun c head => ⟨(ends c head).1, (ends c head).2.1⟩
  | plain marks | signed marks =>
      rintro c ⟨⟩
      obtain rfl | rfl := marks <;> decide

theorem Fraction.skip (fraction : Fraction text) (next : ∀ c ∈ rest.head?, c.isDigit = false ∧ c ≠ '.') :
    skipFraction (text ++ rest) = .ok rest := by
  cases fraction with
  | none =>
      apply skipFraction_of_ne
      rintro more rfl
      exact (next '.' rfl).2 rfl
  | point digits => exact digits.skip fun c head => (next c head).1

theorem Fraction.head (fraction : Fraction text) (next : ∀ c ∈ rest.head?, c.isDigit = false) :
    ∀ c ∈ (text ++ rest).head?, c.isDigit = false := by
  cases fraction with
  | none => exact next
  | point digits =>
      rintro c ⟨⟩
      rfl

theorem Magnitude.skip (magnitude : Magnitude text) (ends : Ends rest) : skipNumber (text ++ rest) = .ok rest := by
  cases magnitude with
  | parts digits zero fraction exponent =>
      have next := exponent.head ends
      have head := fraction.head fun c head => (next c head).1
      rw [List.append_assoc, List.append_assoc, skipNumber, spanDigits_append digits.2 head]
      dsimp only
      split
      next none => exact absurd rfl digits.1
      next => cases zero rfl
      next =>
        rw [fraction.skip next]
        exact exponent.skip ends

theorem Magnitude.exists_cons (magnitude : Magnitude text) : ∃ c more, text = c :: more ∧ c.isDigit = true := by
  cases magnitude with
  | parts digits =>
      obtain ⟨c, more, rfl, digit⟩ := digits.exists_cons
      exact ⟨c, _, rfl, digit⟩

theorem Numeral.exists_cons (numeral : Numeral text) :
    ∃ c more, text = c :: more ∧ isBlank c = false ∧ c ≠ ']' ∧ c ≠ '[' ∧ c ≠ '\x7b' := by
  cases numeral with
  | plain magnitude =>
      obtain ⟨c, more, same, digit⟩ := magnitude.exists_cons
      exact ⟨c, more, same, isBlank_of_isDigit digit, ne_of_isDigit digit (by decide),
        ne_of_isDigit digit (by decide), ne_of_isDigit digit (by decide)⟩
  | negative => exact ⟨'-', _, rfl, by decide⟩

theorem magnitude_toDigits (n : Nat) : Magnitude (Nat.toDigits 10 n) := by
  have digits : DigitRun (Nat.toDigits 10 n) := ⟨Nat.toDigits_ne_nil, fun _ member =>
    Nat.isDigit_of_mem_toDigits (by decide) (Nat.le_refl 10) member⟩
  have zero : (Nat.toDigits 10 n).head? = some '0' → Nat.toDigits 10 n = ['0'] := by
    intro zero
    obtain rfl | positive := Nat.eq_zero_or_pos n
    · exact Nat.toDigits_zero 10
    · exact absurd zero (head?_toDigits positive)
  simpa using Magnitude.parts digits zero .none .none

theorem Number.Exact.numeral {number : Number} (exact : number.Exact) : Numeral number.text.toList := by
  cases number with
  | real => exact exact.elim
  | integer value =>
      cases value with
      | ofNat n =>
          change Numeral (Number.integer n).text.toList
          rw [text_natural]
          exact .plain (magnitude_toDigits n)
      | negSucc n =>
          rw [text_negative]
          exact .negative (magnitude_toDigits (n + 1))

end

/-! ### Ends and beginnings -/

section

variable {part : Part} {text : List Char}

theorem WellFormed.exists_cons (formed : WellFormed .value text) :
    ∃ c rest, text = c :: rest ∧ isBlank c = false ∧ c ≠ ']' := by
  cases formed with
  | null => exact ⟨_, _, rfl, by decide, by decide⟩
  | yes => exact ⟨_, _, rfl, by decide, by decide⟩
  | no => exact ⟨_, _, rfl, by decide, by decide⟩
  | number numeral =>
      obtain ⟨c, rest, same, shown, other, -⟩ := numeral.exists_cons
      exact ⟨c, rest, same, shown, other⟩
  | string => exact ⟨_, _, rfl, by decide, by decide⟩
  | array => exact ⟨_, _, rfl, by decide, by decide⟩
  | object => exact ⟨_, _, rfl, by decide, by decide⟩

theorem WellFormed.length_pos (formed : WellFormed part text) : 0 < text.length := by
  induction formed with
  | number numeral =>
      obtain ⟨c, more, rfl, -⟩ := numeral.exists_cons
      exact Nat.succ_pos _
  | item | member =>
      simp only [List.length_append, List.length_cons]
      omega
  | _ => simp

variable {values : List (List Char)} {entries : List (List Char × List Char)}

/-- What follows an item ends a number. -/
theorem WellFormed.items_ends (formed : WellFormed (.items false values) text) (rest : List Char) :
    Ends (text ++ rest) := by
  cases formed with
  | noItem blank =>
      rw [List.append_assoc]
      exact ends_of_blank blank (ends_cons (by decide) _)
  | item lead =>
      cases lead with
      | next blank _ =>
          rw [List.append_assoc, List.append_assoc]
          exact ends_of_blank blank (ends_cons (by decide) _)

theorem WellFormed.members_ends (formed : WellFormed (.members false entries) text) (rest : List Char) :
    Ends (text ++ rest) := by
  cases formed with
  | noMember blank =>
      rw [List.append_assoc]
      exact ends_of_blank blank (ends_cons (by decide) _)
  | member lead =>
      cases lead with
      | next blank _ =>
          rw [List.append_assoc, List.append_assoc]
          exact ends_of_blank blank (ends_cons (by decide) _)

end

/-! ### Passing over -/

section

variable (fuel : Nat) {first : Bool} {lead blanks text later : List Char}

theorem skipValue_blank (blank : Blank blanks) (text : List Char) :
    skipValue (fuel + 1) (blanks ++ text) = skipValue (fuel + 1) text := by
  rw [skipValue, skipValue, skipBlanks_append blank]

theorem skipValue_digit {c : Char} (digit : c.isDigit = true) (text : List Char) :
    skipValue (fuel + 1) (c :: text) = skipNumber (c :: text) := by
  rw [skipValue, skipBlanks_cons (isBlank_of_isDigit digit)]
  split
  case h_9 same =>
    cases same
    rw [if_pos digit]
  all_goals
    rename_i same
    cases same
    try exact absurd digit (by decide)

theorem skipValue_numeral (numeral : Numeral text) (ends : Ends later) :
    skipValue (fuel + 1) (text ++ later) = .ok later := by
  cases numeral with
  | plain magnitude =>
      have skip := magnitude.skip ends
      obtain ⟨c, more, rfl, digit⟩ := magnitude.exists_cons
      exact (skipValue_digit fuel digit _).trans skip
  | negative magnitude => exact magnitude.skip ends

theorem skipItems_close (blank : Blank blanks) (rest : List Char) :
    skipItems (fuel + 1) first (blanks ++ ']' :: rest) = .ok rest := by
  rw [skipItems, skipBlanks_append blank]
  rfl

theorem skipItems_comma (text : List Char) :
    skipItems (fuel + 1) false (',' :: text) = skipValue fuel text >>= skipItems fuel false := rfl

variable {fuel}

theorem skipItems_item (leads : Lead first lead) (formed : WellFormed .value text)
    (skip : skipValue (fuel + 1) (text ++ later) = .ok later) :
    skipItems (fuel + 2) first (lead ++ (text ++ later)) = skipItems (fuel + 1) false later := by
  cases leads with
  | first blank =>
      obtain ⟨c, more, rfl, shown, other⟩ := formed.exists_cons
      rw [List.cons_append] at skip ⊢
      rw [skipItems, skipBlanks_append blank, skipBlanks_cons shown]
      split
      · simp_all
      · simp_all
      · rename_i same
        cases same
        rw [if_pos rfl, skip]
        rfl
  | @next before after blank blank' =>
      rw [List.append_assoc, skipItems, skipBlanks_append blank, List.cons_append]
      change skipItems (fuel + 2) false (',' :: (after ++ (text ++ later))) = _
      rw [skipItems_comma, skipValue_blank fuel blank', skip]
      rfl

theorem skipMembers_close (fuel : Nat) (blank : Blank blanks) (rest : List Char) :
    skipMembers (fuel + 1) first (blanks ++ '\x7d' :: rest) = .ok rest := by
  rw [skipMembers, skipBlanks_append blank]
  rfl

theorem skipMembers_comma (fuel : Nat) (text : List Char) :
    skipMembers (fuel + 1) false (',' :: text) =
      match skipBlanks text with
      | [] => failAt .endInObject []
      | '"' :: rest =>
        skipString fuel rest >>= (expectColon · >>= (skipValue fuel · >>= skipMembers fuel false))
      | other => failAt .nameExpected other := rfl

theorem skipMembers_lead (fuel : Nat) (leads : Lead first lead) (text : List Char) :
    skipMembers (fuel + 1) first (lead ++ '"' :: text) =
      skipString fuel text >>= (expectColon · >>= (skipValue fuel · >>= skipMembers fuel false)) := by
  cases leads with
  | first blank =>
      rw [skipMembers, skipBlanks_append blank]
      rfl
  | @next before after blank blank' =>
      rw [List.append_assoc, skipMembers, skipBlanks_append blank, List.cons_append]
      change skipMembers (fuel + 1) false (',' :: (after ++ '"' :: text)) = _
      rw [skipMembers_comma, skipBlanks_append blank']
      rfl

end

/-- A part is passed over, whatever text comes after it. -/
def Skips : Part → List Char → Prop
  | .value, text => ∀ fuel rest, 2 * text.length ≤ fuel → Ends rest → skipValue fuel (text ++ rest) = .ok rest
  | .items first _, text => ∀ fuel rest, 2 * text.length ≤ fuel → skipItems fuel first (text ++ rest) = .ok rest
  | .members first _, text => ∀ fuel rest, 2 * text.length ≤ fuel → skipMembers fuel first (text ++ rest) = .ok rest

theorem WellFormed.skips {part : Part} {text : List Char} (formed : WellFormed part text) : Skips part text := by
  induction formed with
  | null | yes | no =>
      intro fuel rest enough ends
      obtain ⟨fuel, rfl, -⟩ := exists_fuel _ enough
      rfl
  | @number text numeral =>
      intro fuel rest enough ends
      have some := (WellFormed.number numeral).length_pos
      obtain ⟨fuel, rfl⟩ : ∃ less, fuel = less + 1 := ⟨fuel - 1, by omega⟩
      exact skipValue_numeral fuel numeral ends
  | @string text loose =>
      intro fuel rest enough ends
      rw [List.length_cons, List.length_append] at enough
      obtain ⟨fuel, rfl, less⟩ := exists_fuel _ enough
      rw [List.cons_append, List.append_assoc]
      exact loose.skip (by omega) rest
  | array _ ih | object _ ih =>
      intro fuel rest enough ends
      obtain ⟨fuel, rfl, less⟩ := exists_fuel _ enough
      exact ih (fuel + 1) rest (Nat.le_succ_of_le less)
  | noItem blank =>
      intro fuel rest enough
      rw [List.length_append, List.length_singleton] at enough
      obtain ⟨fuel, rfl, -⟩ := exists_fuel _ enough
      rw [List.append_assoc]
      exact skipItems_close (fuel + 1) blank rest
  | noMember blank =>
      intro fuel rest enough
      rw [List.length_append, List.length_singleton] at enough
      obtain ⟨fuel, rfl, -⟩ := exists_fuel _ enough
      rw [List.append_assoc]
      exact skipMembers_close (fuel + 1) blank rest
  | item leads value more ihValue ihMore =>
      intro fuel rest enough
      have some := value.length_pos
      have some' := more.length_pos
      rw [List.length_append, List.length_append] at enough
      obtain ⟨fuel, rfl⟩ : ∃ less, fuel = less + 2 := ⟨fuel - 2, by omega⟩
      have skip := ihValue (fuel + 1) _ (by omega) (more.items_ends rest)
      rw [List.append_assoc, List.append_assoc, skipItems_item leads value skip]
      exact ihMore (fuel + 1) rest (by omega)
  | @member _ _ _ _ _ value later _ leads name before after formed more ihValue ihMore =>
      intro fuel rest enough
      simp only [List.length_append, List.length_cons] at enough
      obtain ⟨fuel, rfl⟩ : ∃ less, fuel = less + 2 := ⟨fuel - 2, by omega⟩
      have skip := ihValue (fuel + 1) _ (by omega) (more.members_ends rest)
      simp only [List.append_assoc, List.cons_append]
      rw [skipMembers_lead (fuel + 1) leads, name.skip (by omega)]
      simp only [bind, Except.bind]
      rw [expectColon_blank before]
      simp only
      rw [skipValue_blank fuel after, skip]
      exact ihMore (fuel + 1) rest (by omega)

end AppleOne.Json
