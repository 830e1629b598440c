import AppleOne.Json.Reader

/-!
Strings as they may be written. Each character stands for itself, or is escaped by a letter or by code units;
what is only passed over may also have code units that make no character.
-/

namespace AppleOne.Json

/-- The characters that one letter behind a backslash stands for. -/
def escapes : List (Char × Char) :=
  [('"', '"'), ('\\', '\\'), ('/', '/'), ('b', '\x08'), ('f', '\x0c'), ('n', '\n'), ('r', '\r'), ('t', '\t')]

def HexDigit (c : Char) (n : Nat) : Prop := n < 16 ∧ (c = n.digitChar ∨ c = n.digitChar.toUpper)

inductive CodeUnit : Nat → List Char → Prop where
  | digits {a b c d : Char} {w x y z : Nat} : HexDigit a w → HexDigit b x → HexDigit c y → HexDigit d z →
      CodeUnit (((w * 16 + x) * 16 + y) * 16 + z) [a, b, c, d]

def Leading (code : Nat) : Prop := 0xD800 ≤ code ∧ code ≤ 0xDBFF

def Trailing (code : Nat) : Prop := 0xDC00 ≤ code ∧ code ≤ 0xDFFF

/-- A character that stands for itself. -/
def Plainly (c : Char) : Prop := 0x20 ≤ c.toNat ∧ c ≠ '"' ∧ c ≠ '\\'

/-- Characters, and what may stand for them between quotes. -/
inductive Letters : List Char → List Char → Prop where
  | nil : Letters [] []
  | plain {c : Char} {chars text : List Char} : Plainly c → Letters chars text → Letters (c :: chars) (c :: text)
  | escape {letter c : Char} {chars text : List Char} : (letter, c) ∈ escapes → Letters chars text →
      Letters (c :: chars) ('\\' :: letter :: text)
  | unit {code : Nat} {digits chars text : List Char} : CodeUnit code digits → ¬Leading code → ¬Trailing code →
      Letters chars text → Letters (Char.ofNat code :: chars) ('\\' :: 'u' :: (digits ++ text))
  | pair {high low : Nat} {digits digits' chars text : List Char} : CodeUnit high digits → Leading high →
      CodeUnit low digits' → Trailing low → Letters chars text →
      Letters (Char.ofNat (0x10000 + (high - 0xD800) * 0x400 + (low - 0xDC00)) :: chars)
        ('\\' :: 'u' :: (digits ++ '\\' :: 'u' :: (digits' ++ text)))

/-- What may stand between quotes where the string is passed over. -/
inductive Loose : List Char → Prop where
  | nil : Loose []
  | plain {c : Char} {text : List Char} : Plainly c → Loose text → Loose (c :: text)
  | escape {letter c : Char} {text : List Char} : (letter, c) ∈ escapes → Loose text →
      Loose ('\\' :: letter :: text)
  | unit {code : Nat} {digits text : List Char} : CodeUnit code digits → Loose text →
      Loose ('\\' :: 'u' :: (digits ++ text))

theorem Letters.loose {chars text : List Char} (letters : Letters chars text) : Loose text := by
  induction letters with
  | nil => exact .nil
  | plain plain _ ih => exact .plain plain ih
  | escape listed _ ih => exact .escape listed ih
  | unit unit _ _ _ ih => exact .unit unit ih
  | pair high _ low _ _ ih => exact .unit high (.unit low ih)

theorem Letters.length_le {chars text : List Char} (letters : Letters chars text) : chars.length ≤ text.length := by
  induction letters with
  | nil => exact Nat.le_refl 0
  | plain | escape | unit | pair =>
      simp only [List.length_cons, List.length_append]
      omega

/-! ### Code units -/

theorem hexValue?_digitChar : ∀ n < 16, hexValue? n.digitChar = some n := by decide

theorem utf8Size_digitChar : ∀ n < 16, n.digitChar.utf8Size = 1 := by decide

theorem HexDigit.value {c : Char} {n : Nat} (digit : HexDigit c n) : hexValue? c = some n := by
  have upper : ∀ n < 16, hexValue? n.digitChar.toUpper = some n := by decide
  obtain ⟨small, rfl | rfl⟩ := digit
  · exact hexValue?_digitChar n small
  · exact upper n small

theorem HexDigit.utf8Size {c : Char} {n : Nat} (digit : HexDigit c n) : c.utf8Size = 1 := by
  have upper : ∀ n < 16, n.digitChar.toUpper.utf8Size = 1 := by decide
  obtain ⟨small, rfl | rfl⟩ := digit
  · exact utf8Size_digitChar n small
  · exact upper n small

theorem CodeUnit.read {code : Nat} {digits : List Char} (unit : CodeUnit code digits) (rest : List Char) :
    readCodeUnit (digits ++ rest) = .ok (code, rest) := by
  cases unit with
  | @digits a b c d _ _ _ _ first second third fourth =>
      have count : ¬byteCount (List.take 4 (a :: b :: c :: d :: rest)) < 4 := by
        simp [byteCount, first.utf8Size, second.utf8Size, third.utf8Size, fourth.utf8Size]
      change readCodeUnit (a :: b :: c :: d :: rest) = _
      rw [readCodeUnit, if_neg count]
      simp only [first.value, second.value, third.value, fourth.value]

theorem CodeUnit.readAlone {code : Nat} {digits : List Char} (unit : CodeUnit code digits)
    (leading : ¬Leading code) (trailing : ¬Trailing code) (rest : List Char) :
    readUnicodeEscape (digits ++ rest) = .ok (Char.ofNat code, rest) := by
  rw [Leading] at leading
  rw [Trailing] at trailing
  rw [readUnicodeEscape, unit.read]
  simp only [bind, Except.bind, if_neg leading, if_neg trailing]
  rfl

theorem CodeUnit.readPair {high low : Nat} {digits digits' : List Char} (first : CodeUnit high digits)
    (leading : Leading high) (second : CodeUnit low digits') (trailing : Trailing low) (rest : List Char) :
    readUnicodeEscape (digits ++ '\\' :: 'u' :: (digits' ++ rest)) =
      .ok (Char.ofNat (0x10000 + (high - 0xD800) * 0x400 + (low - 0xDC00)), rest) := by
  have below : ¬(0xDC00 ≤ high ∧ high ≤ 0xDFFF) := by
    have := leading.2
    omega
  rw [Leading] at leading
  rw [Trailing] at trailing
  rw [readUnicodeEscape, first.read]
  simp only [bind, Except.bind, if_neg below, if_pos leading, second.read, if_pos trailing]
  rfl

theorem codeUnit_codeDigits {code : Nat} (small : code < 0x10000) : CodeUnit code (codeDigits code) := by
  have digit : ∀ n, HexDigit (n % 16).digitChar (n % 16) := fun n => ⟨Nat.mod_lt n (by decide), .inl rfl⟩
  have unit := CodeUnit.digits (digit (code / 4096)) (digit (code / 256)) (digit (code / 16)) (digit code)
  have whole : ((code / 4096 % 16 * 16 + code / 256 % 16) * 16 + code / 16 % 16) * 16 + code % 16 = code := by
    omega
  rwa [whole] at unit

/-! ### Writing -/

theorem Letters.cons_escaped (c : Char) {chars text : List Char} (letters : Letters chars text) :
    Letters (c :: chars) (escapedChar c ++ text) := by
  unfold escapedChar
  split
  case h_8 quote backslash _ _ _ _ _ =>
    split
    next control =>
      have leading : ¬Leading c.toNat := fun leading => by
        have := leading.1
        omega
      have trailing : ¬Trailing c.toNat := fun trailing => by
        have := trailing.1
        omega
      have unit := Letters.unit (codeUnit_codeDigits (by omega)) leading trailing letters
      rwa [Char.ofNat_toNat] at unit
    next printable => exact .plain ⟨Nat.not_lt.mp printable, quote, backslash⟩ letters
  all_goals exact .escape (by decide) letters

theorem letters_escaped (chars : List Char) : Letters chars (chars.flatMap escapedChar) := by
  induction chars with
  | nil => exact .nil
  | cons c chars ih => exact ih.cons_escaped c

/-! ### Reading -/

theorem readStringChars_plain (fuel : Nat) {c : Char} (plain : Plainly c) (before rest : List Char) :
    readStringChars (fuel + 1) before (c :: rest) = readStringChars fuel (c :: before) rest := by
  obtain ⟨printable, quote, backslash⟩ := plain
  rw [readStringChars]
  · rw [if_neg (Nat.not_lt.mpr printable)]
  all_goals simp_all

theorem readStringChars_escape (fuel : Nat) {letter c : Char} (listed : (letter, c) ∈ escapes)
    (before rest : List Char) :
    readStringChars (fuel + 1) before ('\\' :: letter :: rest) = readStringChars fuel (c :: before) rest := by
  simp only [escapes, List.mem_cons, Prod.mk.injEq, List.not_mem_nil, or_false] at listed
  obtain ⟨rfl, rfl⟩ | ⟨rfl, rfl⟩ | ⟨rfl, rfl⟩ | ⟨rfl, rfl⟩ | ⟨rfl, rfl⟩ | ⟨rfl, rfl⟩ | ⟨rfl, rfl⟩ | ⟨rfl, rfl⟩ :=
    listed
  all_goals rfl

theorem readStringChars_unit (fuel : Nat) {c : Char} {text rest : List Char}
    (read : readUnicodeEscape text = .ok (c, rest)) (before : List Char) :
    readStringChars (fuel + 1) before ('\\' :: 'u' :: text) = readStringChars fuel (c :: before) rest := by
  rw [readStringChars, read]
  rfl

/-- Every step of the reader brings one character. -/
theorem Letters.read {chars text : List Char} (letters : Letters chars text) {fuel : Nat}
    (enough : chars.length < fuel) (before rest : List Char) :
    readStringChars fuel before (text ++ '"' :: rest) = .ok (before.reverse ++ chars, rest) := by
  induction letters generalizing fuel before with
  | nil =>
      obtain ⟨fuel, rfl⟩ := Nat.exists_eq_add_one_of_ne_zero (Nat.ne_zero_of_lt enough)
      rw [List.append_nil]
      rfl
  | plain plain _ ih =>
      obtain ⟨fuel, rfl⟩ := Nat.exists_eq_add_one_of_ne_zero (Nat.ne_zero_of_lt enough)
      rw [List.cons_append, readStringChars_plain fuel plain, ih (Nat.lt_of_succ_lt_succ enough)]
      simp
  | escape listed _ ih =>
      obtain ⟨fuel, rfl⟩ := Nat.exists_eq_add_one_of_ne_zero (Nat.ne_zero_of_lt enough)
      rw [List.cons_append, List.cons_append, readStringChars_escape fuel listed,
        ih (Nat.lt_of_succ_lt_succ enough)]
      simp
  | unit unit leading trailing _ ih =>
      obtain ⟨fuel, rfl⟩ := Nat.exists_eq_add_one_of_ne_zero (Nat.ne_zero_of_lt enough)
      rw [List.cons_append, List.cons_append, List.append_assoc,
        readStringChars_unit fuel (unit.readAlone leading trailing _), ih (Nat.lt_of_succ_lt_succ enough)]
      simp
  | pair high leading low trailing _ ih =>
      obtain ⟨fuel, rfl⟩ := Nat.exists_eq_add_one_of_ne_zero (Nat.ne_zero_of_lt enough)
      simp only [List.cons_append, List.append_assoc]
      rw [readStringChars_unit fuel (high.readPair leading low trailing _), ih (Nat.lt_of_succ_lt_succ enough)]
      simp

theorem Letters.readString {s : String} {text : List Char} (letters : Letters s.toList text) {fuel : Nat}
    (enough : s.toList.length < fuel) (rest : List Char) :
    readString fuel (text ++ '"' :: rest) = .ok (s, rest) := by
  rw [Json.readString, letters.read enough]
  simp only [bind, Except.bind, List.reverse_nil, List.nil_append, String.ofList_toList]
  rfl

/-! ### Passing over -/

theorem skipString_plain (fuel : Nat) {c : Char} (plain : Plainly c) (rest : List Char) :
    skipString (fuel + 1) (c :: rest) = skipString fuel rest := by
  obtain ⟨printable, quote, backslash⟩ := plain
  rw [skipString]
  · rw [if_neg (Nat.not_lt.mpr printable)]
  all_goals simp_all

theorem skipString_escape (fuel : Nat) {letter c : Char} (listed : (letter, c) ∈ escapes) (rest : List Char) :
    skipString (fuel + 1) ('\\' :: letter :: rest) = skipString fuel rest := by
  simp only [escapes, List.mem_cons, Prod.mk.injEq, List.not_mem_nil, or_false] at listed
  obtain ⟨rfl, rfl⟩ | ⟨rfl, rfl⟩ | ⟨rfl, rfl⟩ | ⟨rfl, rfl⟩ | ⟨rfl, rfl⟩ | ⟨rfl, rfl⟩ | ⟨rfl, rfl⟩ | ⟨rfl, rfl⟩ :=
    listed
  all_goals rfl

theorem Loose.skip {text : List Char} (loose : Loose text) {fuel : Nat} (enough : text.length < fuel)
    (rest : List Char) : skipString fuel (text ++ '"' :: rest) = .ok rest := by
  induction loose generalizing fuel with
  | nil =>
      obtain ⟨fuel, rfl⟩ := Nat.exists_eq_add_one_of_ne_zero (Nat.ne_zero_of_lt enough)
      rfl
  | plain plain _ ih =>
      obtain ⟨fuel, rfl⟩ := Nat.exists_eq_add_one_of_ne_zero (Nat.ne_zero_of_lt enough)
      simp only [List.length_cons] at enough
      rw [List.cons_append, skipString_plain fuel plain, ih (by omega)]
  | escape listed _ ih =>
      obtain ⟨fuel, rfl⟩ := Nat.exists_eq_add_one_of_ne_zero (Nat.ne_zero_of_lt enough)
      simp only [List.length_cons] at enough
      rw [List.cons_append, List.cons_append, skipString_escape fuel listed,
        ih (by omega)]
  | unit unit _ ih =>
      obtain ⟨fuel, rfl⟩ := Nat.exists_eq_add_one_of_ne_zero (Nat.ne_zero_of_lt enough)
      simp only [List.length_cons, List.length_append] at enough
      rw [List.cons_append, List.cons_append, List.append_assoc, skipString, unit.read]
      exact ih (by omega)

end AppleOne.Json
