import Mathlib.Data.List.Forall2
import Mathlib.Data.List.TakeDrop
import Mathlib.Data.List.TakeWhile
import Mathlib.Data.Nat.Digits.Defs
import AppleOne.CommandLine.Address
import AppleOne.Proofs.Host.Keyboard
import AppleOne.Proofs.Json.Acceptance

/-!
The grammar of addresses and regions on the command line: what is accepted, with what meaning, and which of
several mistakes is reported.
-/

namespace AppleOne

namespace Text

/-! ### Hexadecimal numbers -/

/-- A digit of either case, and its value. -/
def HexDigit (c : Char) (value : Nat) : Prop :=
  "0123456789abcdef".toList[value]? = some c ∨ "0123456789ABCDEF".toList[value]? = some c

instance (c : Char) (value : Nat) : Decidable (HexDigit c value) := inferInstanceAs (Decidable (_ ∨ _))

/-- Digits, the highest first, that continue a number to another one. -/
def Continues (n : Nat) (digits : List Char) (number : Nat) : Prop :=
  ∃ values, List.Forall₂ HexDigit digits values ∧
    Nat.ofDigits 16 values.reverse + 16 ^ values.length * n = number

/-- Digits, the highest first, and the number that they make. -/
def Hexadecimal (digits : List Char) (number : Nat) : Prop :=
  ∃ values, List.Forall₂ HexDigit digits values ∧ Nat.ofDigits 16 values.reverse = number

/-- A number that may have a plus sign. -/
def Signed (text : List Char) (number : Nat) : Prop :=
  ∃ sign digits, text = sign ++ digits ∧ (sign = [] ∨ sign = ['+']) ∧ digits ≠ [] ∧
    Hexadecimal digits number

theorem continues_zero {digits : List Char} {number : Nat} :
    Continues 0 digits number ↔ Hexadecimal digits number := by
  simp only [Continues, Hexadecimal, Nat.mul_zero, Nat.add_zero]

theorem continues_nil {n number : Nat} : Continues n [] number ↔ n = number := by
  constructor
  · rintro ⟨values, ⟨⟩, made⟩
    simpa using made
  · rintro rfl
    exact ⟨[], .nil, by simp⟩

/-- The first digit counts as if it stood before the others. -/
theorem ofDigits_reverse_cons (first n : Nat) (values : List Nat) :
    Nat.ofDigits 16 (first :: values).reverse + 16 ^ (first :: values).length * n =
      Nat.ofDigits 16 values.reverse + 16 ^ values.length * (n * 16 + first) := by
  rw [List.reverse_cons, Nat.ofDigits_append, Nat.ofDigits_singleton, List.length_reverse,
    List.length_cons, pow_succ]
  ring

theorem continues_cons {n number : Nat} {c : Char} {rest : List Char} :
    Continues n (c :: rest) number ↔ ∃ value, HexDigit c value ∧ Continues (n * 16 + value) rest number := by
  constructor
  · rintro ⟨_, all, made⟩
    obtain ⟨value, values, first, spelled, rfl⟩ := List.forall₂_cons_left_iff.mp all
    rw [ofDigits_reverse_cons] at made
    exact ⟨value, first, values, spelled, made⟩
  · rintro ⟨value, first, values, spelled, made⟩
    rw [← ofDigits_reverse_cons] at made
    exact ⟨value :: values, .cons first spelled, made⟩

/-- No number of digits makes up for what is too large already. -/
theorem Continues.le {n number : Nat} {digits : List Char} (continues : Continues n digits number) :
    n ≤ number := by
  obtain ⟨values, -, rfl⟩ := continues
  have scale : 0 < 16 ^ values.length := Nat.pow_pos (by decide)
  have := Nat.le_mul_of_pos_left n scale
  omega

theorem toNat_lt_of_digitOf? {c : Char} {value : Nat} (digit : digitOf? 16 c = some value) :
    c.toNat < 128 := by
  have below : ∀ d : Char, c ≤ d → d.toNat < 128 → c.toNat < 128 := fun d le small =>
    Nat.lt_of_le_of_lt (UInt32.le_iff_toNat_le.mp le) small
  rw [digitOf?] at digit
  by_cases decimal : '0' ≤ c ∧ c ≤ '9'
  · exact below '9' decimal.2 (by decide)
  · by_cases lower : 'a' ≤ c ∧ c ≤ 'f'
    · exact below 'f' lower.2 (by decide)
    · by_cases upper : 'A' ≤ c ∧ c ≤ 'F'
      · exact below 'F' upper.2 (by decide)
      · rw [if_neg decimal, if_neg lower, if_neg upper] at digit
        cases digit

theorem hexDigit_of_digitOf? {c : Char} {value : Nat} (digit : digitOf? 16 c = some value) :
    HexDigit c value := by
  have all : ∀ value ∈ digitOf? 16 c, HexDigit c value := by
    refine forall_ascii (toNat_lt_of_digitOf? digit) ?_
    decide +kernel
  exact all value digit

theorem digitOf?_eq_some_iff {c : Char} {value : Nat} : digitOf? 16 c = some value ↔ HexDigit c value := by
  refine ⟨hexDigit_of_digitOf?, ?_⟩
  have lower : ∀ value < 16, "0123456789abcdef".toList[value]?.bind (digitOf? 16) = some value := by
    decide
  have upper : ∀ value < 16, "0123456789ABCDEF".toList[value]?.bind (digitOf? 16) = some value := by
    decide
  rintro (found | found)
  · have digit := lower value (List.getElem?_eq_some_iff.mp found).1
    rwa [found] at digit
  · have digit := upper value (List.getElem?_eq_some_iff.mp found).1
    rwa [found] at digit

variable {limit : Nat} {overflow : NumberError}

theorem appendDigits_eq_ok_iff {digits : List Char} {n number : Nat} (fits : n ≤ limit) :
    appendDigits 16 limit overflow n digits = .ok number ↔ number ≤ limit ∧ Continues n digits number := by
  induction digits generalizing n with
  | nil =>
      rw [appendDigits, continues_nil, Except.ok.injEq]
      exact ⟨fun same => ⟨same ▸ fits, same⟩, And.right⟩
  | cons c rest ih =>
      rw [appendDigits, continues_cons]
      simp only [← digitOf?_eq_some_iff]
      cases digitOf? 16 c with
      | none => simp
      | some value =>
          simp only [Option.some.injEq, exists_eq_left']
          split
          · rename_i more
            exact ih more
          · rename_i more
            refine ⟨nofun, ?_⟩
            rintro ⟨small, continues⟩
            exact absurd (continues.le.trans small) more

theorem parseNatural_plus {rest : List Char} (nonempty : rest ≠ []) :
    parseNatural 16 limit ('+' :: rest) = appendDigits 16 limit .tooLarge 0 rest := by
  cases rest with
  | nil => exact absurd rfl nonempty
  | cons c rest => rfl

theorem parseNatural_unsigned {c : Char} {rest : List Char} (unsigned : c ≠ '+') :
    parseNatural 16 limit (c :: rest) = appendDigits 16 limit .tooLarge 0 (c :: rest) := by
  rw [parseNatural]
  · nofun
  · rintro ⟨⟩
    exact unsigned rfl
  · rintro _ ⟨⟩
    exact unsigned rfl

theorem isSome_digitOf? {digits : List Char} {number : Nat} (spelled : Hexadecimal digits number) :
    ∀ c ∈ digits, (digitOf? 16 c).isSome := by
  obtain ⟨values, all, -⟩ := spelled
  induction all with
  | nil => nofun
  | cons first _ ih =>
      rw [List.forall_mem_cons, digitOf?_eq_some_iff.mpr first]
      exact ⟨rfl, ih⟩

theorem parseNatural_eq_ok_iff {text : List Char} {number : Nat} :
    parseNatural 16 limit text = .ok number ↔ number ≤ limit ∧ Signed text number := by
  have made : ∀ {digits}, appendDigits 16 limit .tooLarge 0 digits = .ok number ↔
      number ≤ limit ∧ Hexadecimal digits number := fun {digits} => by
    rw [appendDigits_eq_ok_iff (Nat.zero_le _), continues_zero]
  constructor
  · intro parsed
    match text with
    | [] => cases parsed
    | c :: rest =>
        by_cases plus : c = '+'
        · subst plus
          by_cases nonempty : rest = []
          · subst nonempty
            cases parsed
          · rw [parseNatural_plus nonempty, made] at parsed
            exact ⟨parsed.1, ['+'], rest, rfl, .inr rfl, nonempty, parsed.2⟩
        · rw [parseNatural_unsigned plus, made] at parsed
          exact ⟨parsed.1, [], c :: rest, rfl, .inl rfl, List.cons_ne_nil _ _, parsed.2⟩
  · rintro ⟨small, _, digits, rfl, rfl | rfl, nonempty, spelled⟩
    · obtain ⟨c, rest, rfl⟩ := List.exists_cons_of_ne_nil nonempty
      have unsigned : c ≠ '+' := by
        rintro rfl
        exact absurd (isSome_digitOf? spelled '+' (.head _)) (by decide)
      exact (parseNatural_unsigned unsigned).trans (made.mpr ⟨small, spelled⟩)
    · exact (parseNatural_plus nonempty).trans (made.mpr ⟨small, spelled⟩)

/-- There is no prefix at the start of a number. -/
theorem Signed.bare {body : List Char} {number : Nat} (signed : Signed body number) :
    body.head? ≠ some '$' ∧ ∀ rest, body ≠ '0' :: 'x' :: rest := by
  obtain ⟨_, digits, rfl, rfl | rfl, nonempty, spelled⟩ := signed
  · have digit := isSome_digitOf? spelled
    refine ⟨fun dollar => ?_, fun rest same => ?_⟩
    · exact absurd (digit '$' (List.mem_of_mem_head? dollar)) (by decide)
    · rw [List.nil_append] at same
      exact absurd (digit 'x' (same ▸ .tail _ (.head _))) (by decide)
  · exact ⟨by simp, nofun⟩

end Text

namespace CommandLine

open Text (Signed)

/-! ### Addresses -/

def marks (count : Nat) : List Char := (List.replicate count ['0', 'x']).flatten

/-- Dollar signs, marks `0x`, and a number. -/
def Spells (text : List Char) (number : Nat) : Prop :=
  ∃ dollars count body, text = List.replicate dollars '$' ++ (marks count ++ body) ∧ Signed body number

theorem marks_succ (count : Nat) : marks (count + 1) = '0' :: 'x' :: marks count := rfl

theorem dropMarks_mark (rest : List Char) : dropMarks ('0' :: 'x' :: rest) = dropMarks rest := rfl

theorem dropMarks_of_ne {text : List Char} (other : ∀ rest, text ≠ '0' :: 'x' :: rest) :
    dropMarks text = text := by
  rw [dropMarks]
  exact other

theorem exists_marks (text : List Char) : ∃ count, text = marks count ++ dropMarks text := by
  induction text using dropMarks.induct with
  | case1 rest ih =>
      obtain ⟨count, same⟩ := ih
      refine ⟨count + 1, ?_⟩
      rw [marks_succ, dropMarks_mark, List.cons_append, List.cons_append, ← same]
  | case2 text other =>
      refine ⟨0, ?_⟩
      rw [dropMarks_of_ne other]
      rfl

theorem dropMarks_append (count : Nat) (rest : List Char) :
    dropMarks (marks count ++ rest) = dropMarks rest := by
  induction count with
  | zero => rfl
  | succ count ih =>
      rw [marks_succ, List.cons_append, List.cons_append, dropMarks_mark, ih]

theorem exists_dollars (text : List Char) :
    ∃ dollars, text = List.replicate dollars '$' ++ text.dropWhile (· == '$') := by
  induction text with
  | nil => exact ⟨0, rfl⟩
  | cons c rest ih =>
      rw [List.dropWhile_cons]
      split
      · rename_i dollar
        obtain ⟨dollars, same⟩ := ih
        refine ⟨dollars + 1, ?_⟩
        rw [List.replicate_succ, List.cons_append, ← same, eq_of_beq dollar]
      · exact ⟨0, rfl⟩

theorem dropWhile_dollars (dollars : Nat) {rest : List Char} (other : rest.head? ≠ some '$') :
    (List.replicate dollars '$' ++ rest).dropWhile (· == '$') = rest := by
  induction dollars with
  | zero =>
      cases rest with
      | nil => rfl
      | cons c rest =>
          rw [List.replicate_zero, List.nil_append, List.dropWhile_cons, if_neg]
          simpa using other
  | succ dollars ih => rwa [List.replicate_succ, List.cons_append, List.dropWhile_cons]

/-- The prefixes end where the number begins. -/
theorem drop_prefixes (dollars count : Nat) {body : List Char} {number : Nat} (signed : Signed body number) :
    dropMarks ((List.replicate dollars '$' ++ (marks count ++ body)).dropWhile (· == '$')) = body := by
  obtain ⟨noDollar, noMark⟩ := signed.bare
  have other : (marks count ++ body).head? ≠ some '$' := by
    cases count with
    | zero => exact noDollar
    | succ count => nofun
  rw [dropWhile_dollars dollars other, dropMarks_append, dropMarks_of_ne noMark]

theorem parseAddress_eq_ok_iff {text : String} {address : UInt16} :
    parseAddress text = .ok address ↔ Spells text.toList address.toNat := by
  constructor
  · intro parsed
    rw [parseAddress] at parsed
    split at parsed
    · rename_i number read
      obtain ⟨small, signed⟩ := Text.parseNatural_eq_ok_iff.mp read
      cases parsed
      obtain ⟨dollars, split⟩ := exists_dollars text.toList
      obtain ⟨count, rest⟩ := exists_marks (text.toList.dropWhile (· == '$'))
      have same : number.toUInt16.toNat = number := Nat.mod_eq_of_lt (Nat.lt_succ_of_le small)
      exact ⟨dollars, count, _, by rw [← rest, ← split], same.symm ▸ signed⟩
    · cases parsed
  · rintro ⟨dollars, count, body, split, signed⟩
    have small : address.toNat ≤ 0xFFFF := Nat.le_of_lt_succ address.toNat_lt
    rw [parseAddress, split, drop_prefixes dollars count signed,
      Text.parseNatural_eq_ok_iff.mpr ⟨small, signed⟩]
    exact congrArg Except.ok UInt16.ofNat_toNat

theorem exists_of_not_spelled {text : String}
    (unspelled : ∀ address : UInt16, ¬Spells text.toList address.toNat) :
    ∃ reason : Text.NumberError, parseAddress text = .error s!"bad address '{text}': {reason.message}" := by
  cases parsed : parseAddress text with
  | ok address => exact absurd (parseAddress_eq_ok_iff.mp parsed) (unspelled address)
  | error message =>
      rw [parseAddress] at parsed
      split at parsed
      · cases parsed
      · rename_i reason _
        cases parsed
        exact ⟨reason, rfl⟩

/-! ### Parts -/

theorem ne_colon {text : List Char} (plain : ':' ∉ text) : ∀ c ∈ text, (c != ':') = true := by
  intro c among
  exact bne_iff_ne.mpr (ne_of_mem_of_not_mem among plain)

theorem splitColon?_join {before : String} (after : String) (plain : ':' ∉ before.toList) :
    splitColon? (before ++ ":" ++ after) = some (before, after) := by
  have clear := ne_colon plain
  rw [splitColon?, String.toList_append, String.toList_append, List.append_assoc,
    List.span_eq_takeWhile_dropWhile, List.takeWhile_append_of_pos clear, List.dropWhile_append_of_pos clear]
  change some (String.ofList (before.toList ++ []), String.ofList after.toList) = _
  rw [List.append_nil, String.ofList_toList, String.ofList_toList]

theorem splitColon?_eq_none {text : String} (plain : ':' ∉ text.toList) : splitColon? text = none := by
  rw [splitColon?, List.span_eq_takeWhile_dropWhile, List.dropWhile_eq_nil_iff.mpr (ne_colon plain)]

theorem exists_join {text : String} (colon : ':' ∈ text.toList) :
    ∃ before after, text = before ++ ":" ++ after ∧ ':' ∉ before.toList := by
  obtain ⟨before, after, same, plain⟩ := List.eq_append_cons_of_mem colon
  refine ⟨String.ofList before, String.ofList after, ?_, by rwa [String.toList_ofList]⟩
  rw [← String.toList_inj, same]
  simp

theorem count_join {before : String} (after : String) (plain : ':' ∉ before.toList) :
    (before ++ ":" ++ after).toList.count ':' = after.toList.count ':' + 1 := by
  rw [String.toList_append, String.toList_append, List.count_append, List.count_append,
    List.count_eq_zero.mpr plain]
  exact Nat.add_comm _ _

theorem exists_join_twice {text : String} (many : 2 ≤ text.toList.count ':') :
    ∃ start stop file, text = start ++ ":" ++ (stop ++ ":" ++ file) ∧ ':' ∉ start.toList ∧
      ':' ∉ stop.toList := by
  obtain ⟨start, rest, rfl, plain⟩ := exists_join (List.count_pos_iff.mp (Nat.lt_of_succ_lt many))
  rw [count_join rest plain] at many
  obtain ⟨stop, file, rfl, plainStop⟩ := exists_join (List.count_pos_iff.mp (Nat.le_of_succ_le_succ many))
  exact ⟨start, stop, file, rfl, plain, plainStop⟩

theorem LoadRequest.parse_join {start : String} (file : String) (plain : ':' ∉ start.toList) :
    LoadRequest.parse (start ++ ":" ++ file) = do
      let address ← parseAddress start
      return ⟨address, file⟩ := by
  rw [LoadRequest.parse, splitColon?_join file plain]

theorem SaveRequest.parse_join {start last : String} (file : String) (plainStart : ':' ∉ start.toList)
    (plainLast : ':' ∉ last.toList) :
    SaveRequest.parse (start ++ ":" ++ (last ++ ":" ++ file)) = do
      let start ← parseAddress start
      let last ← parseAddress last
      return ⟨start, last, file⟩ := by
  rw [SaveRequest.parse, splitColon?_join _ plainStart, Option.bind_eq_bind, Option.bind_some]
  dsimp only
  rw [splitColon?_join _ plainLast]
  rfl

theorem SaveRequest.parse_unsplit {text : String} (few : text.toList.count ':' < 2) :
    SaveRequest.parse text = .error s!"expected START:END:FILE, got '{text}'" := by
  by_cases colon : ':' ∈ text.toList
  · obtain ⟨start, rest, rfl, plain⟩ := exists_join colon
    have plainRest : ':' ∉ rest.toList := by
      rw [count_join rest plain] at few
      exact List.count_eq_zero.mp (by omega)
    rw [SaveRequest.parse, splitColon?_join _ plain, Option.bind_eq_bind, Option.bind_some]
    dsimp only
    rw [splitColon?_eq_none plainRest]
    rfl
  · rw [SaveRequest.parse, splitColon?_eq_none colon]
    rfl

/-! ### Requests -/

/-- An address, a colon and the name of a file, which may have colons of its own. -/
structure LoadGrammar (text : String) : Prop where
  accepted : ∀ address file, LoadRequest.parse text = .ok ⟨address, file⟩ ↔
    ∃ start, text = start ++ ":" ++ file ∧ ':' ∉ start.toList ∧ parseAddress start = .ok address
  unsplit : ':' ∉ text.toList → LoadRequest.parse text = .error s!"expected ADDR:FILE, got '{text}'"
  badAddress : ∀ start file cause, text = start ++ ":" ++ file → ':' ∉ start.toList →
    parseAddress start = .error cause → LoadRequest.parse text = .error cause

/-- Two addresses and the name of a file. Colons that are missing are reported first, and then the first
address that is wrong. -/
structure SaveGrammar (text : String) : Prop where
  accepted : ∀ first last file, SaveRequest.parse text = .ok ⟨first, last, file⟩ ↔
    ∃ start stop, text = start ++ ":" ++ (stop ++ ":" ++ file) ∧ ':' ∉ start.toList ∧ ':' ∉ stop.toList ∧
      parseAddress start = .ok first ∧ parseAddress stop = .ok last
  unsplit : text.toList.count ':' < 2 →
    SaveRequest.parse text = .error s!"expected START:END:FILE, got '{text}'"
  badStart : ∀ start stop file cause, text = start ++ ":" ++ (stop ++ ":" ++ file) → ':' ∉ start.toList →
    ':' ∉ stop.toList → parseAddress start = .error cause → SaveRequest.parse text = .error cause
  badStop : ∀ start stop file first cause, text = start ++ ":" ++ (stop ++ ":" ++ file) →
    ':' ∉ start.toList → ':' ∉ stop.toList → parseAddress start = .ok first →
      parseAddress stop = .error cause → SaveRequest.parse text = .error cause

theorem loadGrammar (text : String) : LoadGrammar text where
  accepted address file := by
    constructor
    · intro parsed
      by_cases colon : ':' ∈ text.toList
      · obtain ⟨start, rest, rfl, plain⟩ := exists_join colon
        rw [LoadRequest.parse_join rest plain] at parsed
        obtain ⟨value, found, ⟨⟩⟩ := bind_eq_ok.mp parsed
        exact ⟨start, rfl, plain, found⟩
      · rw [LoadRequest.parse, splitColon?_eq_none colon] at parsed
        cases parsed
    · rintro ⟨start, rfl, plain, found⟩
      rw [LoadRequest.parse_join file plain, found]
      rfl
  unsplit plain := by rw [LoadRequest.parse, splitColon?_eq_none plain]
  badAddress start file cause same plain bad := by
    rw [same, LoadRequest.parse_join file plain, bad]
    rfl

theorem saveGrammar (text : String) : SaveGrammar text where
  accepted first last file := by
    constructor
    · intro parsed
      by_cases few : text.toList.count ':' < 2
      · rw [SaveRequest.parse_unsplit few] at parsed
        cases parsed
      · obtain ⟨start, stop, name, rfl, plainStart, plainStop⟩ := exists_join_twice (Nat.le_of_not_lt few)
        rw [SaveRequest.parse_join name plainStart plainStop] at parsed
        obtain ⟨_, foundStart, parsed⟩ := bind_eq_ok.mp parsed
        obtain ⟨_, foundStop, ⟨⟩⟩ := bind_eq_ok.mp parsed
        exact ⟨start, stop, rfl, plainStart, plainStop, foundStart, foundStop⟩
    · rintro ⟨start, stop, rfl, plainStart, plainStop, foundStart, foundStop⟩
      rw [SaveRequest.parse_join file plainStart plainStop, foundStart, foundStop]
      rfl
  unsplit few := SaveRequest.parse_unsplit few
  badStart start stop file cause same plainStart plainStop bad := by
    rw [same, SaveRequest.parse_join file plainStart plainStop, bad]
    rfl
  badStop start stop file first cause same plainStart plainStop found bad := by
    rw [same, SaveRequest.parse_join file plainStart plainStop, found, bad]
    rfl

/-- What is accepted on the command line as an address, as an image to load and as a region to save, and what
is reported of anything else. -/
theorem arguments_parse :
    (∀ text, (∀ address, parseAddress text = .ok address ↔ Spells text.toList address.toNat) ∧
      ((∀ address : UInt16, ¬Spells text.toList address.toNat) → ∃ reason : Text.NumberError,
        parseAddress text = .error s!"bad address '{text}': {reason.message}")) ∧
    (∀ text, LoadGrammar text) ∧ ∀ text, SaveGrammar text :=
  ⟨fun _ => ⟨fun _ => parseAddress_eq_ok_iff, exists_of_not_spelled⟩, loadGrammar, saveGrammar⟩

example : parseAddress "$$0x0x+000ff" = .ok 0xFF := by rfl

example : SaveRequest.parse "300:3FF:a:b" = .ok ⟨0x300, 0x3FF, "a:b"⟩ := by rfl

end CommandLine

end AppleOne
