import AppleOne.Proofs.Json.Strings
import AppleOne.Proofs.Json.Integers

/-!
JSON text is read back. A grammar says which texts spell a value, with blanks or without; the reader gets
the value from each of them (`Spells.reads`), and both printers write such texts.
-/

namespace AppleOne.Json

/-- What a reader may be at: a value, or what is left of an array or an object. Before its first entry
there is no comma. -/
inductive Phrase where
  | value (value : Json)
  | items (first : Bool) (items : List Json)
  | members (first : Bool) (members : List (String × Json))

def Blank (text : List Char) : Prop := ∀ c ∈ text, isBlank c = true

theorem blank_nil : Blank [] := nofun

/-- What stands before an item or a member. -/
inductive Lead : Bool → List Char → Prop where
  | first {blanks : List Char} : Blank blanks → Lead true blanks
  | next {before after : List Char} : Blank before → Blank after → Lead false (before ++ ',' :: after)

/-- The texts of a phrase in which `depth` arrays and objects may still be opened. -/
inductive Spells : Nat → Phrase → List Char → Prop where
  | null {depth : Nat} : Spells depth (.value .null) "null".toList
  | yes {depth : Nat} : Spells depth (.value (.bool true)) "true".toList
  | no {depth : Nat} : Spells depth (.value (.bool false)) "false".toList
  | number {depth : Nat} {value : Number} :
      value.Exact → Spells depth (.value (.number value)) value.text.toList
  | string {depth : Nat} (s : String) : Spells depth (.value (.string s)) (stringText s)
  | array {depth : Nat} {items : List Json} {text : List Char} :
      Spells depth (.items true items) text → Spells (depth + 1) (.value (.array items)) ('[' :: text)
  | object {depth : Nat} {members : List (String × Json)} {text : List Char} :
      Spells depth (.members true members) text →
      Spells (depth + 1) (.value (.object members)) ('\x7b' :: text)
  | noItem {depth : Nat} {first : Bool} {blanks : List Char} :
      Blank blanks → Spells depth (.items first []) (blanks ++ [']'])
  | item {depth : Nat} {first : Bool} {item : Json} {rest : List Json} {lead text later : List Char} :
      Lead first lead → Spells depth (.value item) text → Spells depth (.items false rest) later →
      Spells depth (.items first (item :: rest)) (lead ++ (text ++ later))
  | noMember {depth : Nat} {first : Bool} {blanks : List Char} :
      Blank blanks → Spells depth (.members first []) (blanks ++ ['\x7d'])
  | member {depth : Nat} {first : Bool} {name : String} {value : Json} {rest : List (String × Json)}
      {lead before after text later : List Char} :
      Lead first lead → Blank before → Blank after → Spells depth (.value value) text →
      Spells depth (.members false rest) later → (∀ other ∈ rest, name < other.1) →
      Spells depth (.members first ((name, value) :: rest))
        (lead ++ (stringText name ++ (before ++ ':' :: (after ++ (text ++ later)))))

/-! ### Reading -/

theorem skipBlanks_append {blanks : List Char} (blank : Blank blanks) (text : List Char) :
    skipBlanks (blanks ++ text) = skipBlanks text :=
  List.dropWhile_append_of_pos blank

theorem skipBlanks_cons {c : Char} (shown : isBlank c = false) (text : List Char) :
    skipBlanks (c :: text) = c :: text := by
  rw [skipBlanks, List.dropWhile_cons_of_neg (by simp [shown])]

theorem ends_of_blank {blanks : List Char} (blank : Blank blanks) {rest : List Char} (ends : Ends rest) :
    Ends (blanks ++ rest) := by
  cases blanks with
  | nil => exact ends
  | cons c blanks =>
      intro other same
      cases same
      have blank := blank c List.mem_cons_self
      simp only [isBlank, Bool.or_eq_true, beq_iff_eq] at blank
      obtain ((rfl | rfl) | rfl) | rfl := blank <;> decide

theorem ends_cons {c : Char} (other : c.isDigit = false ∧ c ≠ '.' ∧ c ≠ 'e' ∧ c ≠ 'E') (rest : List Char) :
    Ends (c :: rest) := by
  intro _ same
  cases same
  exact other

variable {depth : Nat} {phrase : Phrase} {value : Json} {text : List Char}

/-- What is left after an entry. -/
def Phrase.Later : Phrase → Prop
  | .items false _ => True
  | .members false _ => True
  | _ => False

/-- What follows an item of an array or a member of an object ends a number. -/
theorem Spells.ends (spells : Spells depth phrase text) (later : phrase.Later) (rest : List Char) :
    Ends (text ++ rest) := by
  cases spells with
  | noItem blank | noMember blank =>
      rw [List.append_assoc]
      exact ends_of_blank blank (ends_cons (by decide) _)
  | item lead | member lead =>
      cases lead with
      | first => exact later.elim
      | next blank _ =>
          rw [List.append_assoc, List.append_assoc]
          exact ends_of_blank blank (ends_cons (by decide) _)
  | _ => exact later.elim

theorem Spells.length_pos {first : Bool} {items : List Json}
    (spells : Spells depth (.items first items) text) : 0 < text.length := by
  generalize same : Phrase.items first items = phrase at spells
  induction spells generalizing first items with
  | noItem => simp
  | item _ _ _ _ ih =>
      have later := ih rfl
      simp only [List.length_append]
      omega
  | _ => cases same

theorem exists_digit (n : Nat) :
    ∃ c rest, Nat.toDigits 10 n = c :: rest ∧ c.isDigit = true := by
  cases digits : Nat.toDigits 10 n with
  | nil => exact absurd digits Nat.toDigits_ne_nil
  | cons c rest =>
      refine ⟨c, rest, rfl, Nat.isDigit_of_mem_toDigits (by decide) (Nat.le_refl 10) (n := n) ?_⟩
      rw [digits]
      exact List.mem_cons_self

theorem ne_of_isDigit {c other : Char} (digit : c.isDigit = true) (none : other.isDigit = false) :
    c ≠ other := by
  rintro rfl
  rw [digit] at none
  cases none

theorem isBlank_of_isDigit {c : Char} (digit : c.isDigit = true) : isBlank c = false := by
  simp [isBlank, ne_of_isDigit digit]

theorem Spells.exists_cons (spells : Spells depth (.value value) text) :
    ∃ c rest, text = c :: rest ∧ isBlank c = false ∧ c ≠ ']' := by
  cases spells with
  | null => exact ⟨_, _, rfl, by decide, by decide⟩
  | yes => exact ⟨_, _, rfl, by decide, by decide⟩
  | no => exact ⟨_, _, rfl, by decide, by decide⟩
  | @number _ value exact =>
      cases value with
      | real => exact exact.elim
      | integer value =>
          cases value with
          | ofNat n =>
              obtain ⟨c, rest, digits, digit⟩ := exists_digit n
              exact ⟨c, rest, (text_natural n).trans digits, isBlank_of_isDigit digit,
                ne_of_isDigit digit (by decide)⟩
          | negSucc n => exact ⟨_, _, text_negative n, by decide, by decide⟩
  | string => exact ⟨_, _, rfl, by decide, by decide⟩
  | array => exact ⟨_, _, rfl, by decide, by decide⟩
  | object => exact ⟨_, _, rfl, by decide, by decide⟩

section

variable (fuel : Nat) {rest : List Char}

theorem readValue_digit {c : Char} (digit : c.isDigit = true) (text : List Char) :
    readValue (fuel + 1) depth (c :: text) = do
      let (value, rest) ← readNumber false (c :: text)
      return (.number value, rest) := by
  rw [readValue, skipBlanks_cons (isBlank_of_isDigit digit)]
  split
  case h_9 same =>
    cases same
    rw [if_pos digit]
  all_goals
    rename_i same
    cases same
    try exact absurd digit (by decide)

theorem readValue_minus (text : List Char) :
    readValue (fuel + 1) depth ('-' :: text) = do
      let (value, rest) ← readNumber true text
      return (.number value, rest) := rfl

theorem readValue_blank {blanks : List Char} (blank : Blank blanks) (text : List Char) :
    readValue (fuel + 1) depth (blanks ++ text) = readValue (fuel + 1) depth text := by
  rw [readValue, readValue, skipBlanks_append blank]

theorem readValue_quote (text : List Char) :
    readValue (fuel + 1) depth ('"' :: text) = do
      let (value, rest) ← readString fuel text
      return (.string value, rest) := rfl

theorem readValue_number {number : Number} (exact : number.Exact) (ends : Ends rest) :
    readValue (fuel + 1) depth (number.text.toList ++ rest) = .ok (.number number, rest) := by
  cases number with
  | real => exact exact.elim
  | integer value =>
      cases value with
      | ofNat n =>
          obtain ⟨c, more, digits, digit⟩ := exists_digit n
          have below : n < 0x10000000000000000 := by
            have most := exact.2
            rw [Int.ofNat_eq_natCast] at most
            omega
          have read := readNumber_toDigits false ends below nofun
          change readValue _ _ ((Number.integer n).text.toList ++ rest) = _
          rw [text_natural]
          rw [digits] at read ⊢
          rw [List.cons_append, readValue_digit fuel digit, ← List.cons_append, read]
          rfl
      | negSucc n =>
          have least : n + 1 ≤ 0x8000000000000000 := by
            have := exact.1
            omega
          have read := readNumber_toDigits true ends (n := n + 1) (by omega)
            fun _ => ⟨n.succ_pos, least⟩
          rw [text_negative, List.cons_append, readValue_minus, read]
          rfl

theorem readValue_string {s : String} (enough : s.toList.length < fuel) :
    readValue (fuel + 1) depth (stringText s ++ rest) = .ok (.string s, rest) := by
  rw [stringText, List.cons_append, List.cons_append, List.append_assoc, readValue_quote,
    List.singleton_append, (letters_escaped s.toList).readString enough]
  rfl

end

/-! ### Entries -/

section

variable {first : Bool} {lead : List Char} {c : Char}

theorem nextItem_close {blanks : List Char} (blank : Blank blanks) (rest : List Char) :
    nextItem first (blanks ++ ']' :: rest) = .ok (.closed rest) := by
  rw [nextItem, skipBlanks_append blank]
  rfl

theorem nextItem_comma (text : List Char) :
    nextItem false (',' :: text) =
      match skipBlanks text with
      | [] => failAt .endOfText []
      | ']' :: rest => failAt .trailingComma (']' :: rest)
      | rest => .ok (.another rest) := rfl

theorem nextItem_lead (leads : Lead first lead) (shown : isBlank c = false) (other : c ≠ ']')
    (rest : List Char) : nextItem first (lead ++ c :: rest) = .ok (.another (c :: rest)) := by
  cases leads with
  | first blank =>
      rw [nextItem, skipBlanks_append blank, skipBlanks_cons shown]
      split <;> simp_all
  | @next _ blanks before after =>
      rw [List.append_assoc, nextItem, skipBlanks_append before]
      change nextItem false (',' :: (blanks ++ c :: rest)) = _
      rw [nextItem_comma, skipBlanks_append after, skipBlanks_cons shown]
      split <;> simp_all

theorem nextName_close {blanks : List Char} (blank : Blank blanks) (rest : List Char) :
    nextName first (blanks ++ '\x7d' :: rest) = .ok (.closed rest) := by
  rw [nextName, skipBlanks_append blank]
  rfl

theorem nextName_comma (text : List Char) :
    nextName false (',' :: text) =
      match skipBlanks text with
      | [] => failAt .endOfText []
      | '"' :: rest => .ok (.another rest)
      | '\x7d' :: rest => failAt .trailingComma ('\x7d' :: rest)
      | other => failAt .nameExpected other := rfl

theorem nextName_lead (leads : Lead first lead) (rest : List Char) :
    nextName first (lead ++ '"' :: rest) = .ok (.another rest) := by
  cases leads with
  | first blank =>
      rw [nextName, skipBlanks_append blank]
      rfl
  | @next _ blanks before after =>
      rw [List.append_assoc, nextName, skipBlanks_append before]
      change nextName false (',' :: (blanks ++ '"' :: rest)) = _
      rw [nextName_comma, skipBlanks_append after]
      rfl

theorem expectColon_blank {blanks : List Char} (blank : Blank blanks) (rest : List Char) :
    expectColon (blanks ++ ':' :: rest) = .ok rest := by
  rw [expectColon, skipBlanks_append blank]
  rfl

end

theorem insert_eq_append {name : String} (value : Json) {before : List (String × Json)}
    (above : ∀ old ∈ before, old.1 < name) : insert name value before = before ++ [(name, value)] := by
  induction before with
  | nil => rfl
  | cons old before ih =>
      obtain ⟨other, held⟩ := old
      have less := above (other, held) List.mem_cons_self
      have different : name ≠ other := by
        rintro rfl
        exact String.lt_irrefl _ less
      rw [insert, if_neg (String.lt_asymm less), if_neg different,
        ih fun old member => above old (List.mem_cons_of_mem _ member)]
      rfl

section

variable {fuel : Nat} {first : Bool} {lead rest later : List Char}

/-- An item that can be read is put with those before it. -/
theorem readItems_item {item : Json} {before : List Json} (leads : Lead first lead)
    (spells : Spells depth (.value item) text)
    (read : readValue fuel depth (text ++ rest) = .ok (item, later)) :
    readItems (fuel + 1) depth first before (lead ++ (text ++ rest)) =
      readItems fuel depth false (item :: before) later := by
  obtain ⟨c, tail, same, shown, other⟩ := spells.exists_cons
  rw [same, List.cons_append] at read ⊢
  rw [readItems, nextItem_lead leads shown other]
  simp only [bind, Except.bind, read]

/-- A member that can be read is put behind those before it. -/
theorem readMembers_member {name : String} {value : Json} {before : List (String × Json)}
    {blanks blanks' : List Char} (leads : Lead first lead) (blank : Blank blanks) (blank' : Blank blanks')
    (enough : name.toList.length ≤ fuel) (above : ∀ old ∈ before, old.1 < name)
    (read : readValue (fuel + 1) depth rest = .ok (value, later)) :
    readMembers (fuel + 2) depth first before
        (lead ++ (stringText name ++ (blanks ++ ':' :: (blanks' ++ rest)))) =
      readMembers (fuel + 1) depth false (before ++ [(name, value)]) later := by
  have quoted : stringText name ++ (blanks ++ ':' :: (blanks' ++ rest)) =
      '"' :: (name.toList.flatMap escapedChar ++ '"' :: (blanks ++ ':' :: (blanks' ++ rest))) := by
    simp [stringText]
  rw [← readValue_blank fuel blank'] at read
  rw [quoted, readMembers, nextName_lead leads]
  simp only [bind, Except.bind, (letters_escaped name.toList).readString (Nat.lt_succ_of_le enough),
    expectColon_blank blank, read]
  rw [insert_eq_append value above]

end

/-- The reader gets a phrase from a text, with whatever text comes after it. -/
def Reads (depth : Nat) : Phrase → List Char → Prop
  | .value value, text => ∀ fuel rest, 2 * text.length ≤ fuel → Ends rest →
    readValue fuel depth (text ++ rest) = .ok (value, rest)
  | .items first items, text => ∀ fuel before rest, 2 * text.length ≤ fuel →
    readItems fuel depth first before (text ++ rest) = .ok (.array (before.reverse ++ items), rest)
  | .members first members, text => ∀ fuel before rest, 2 * text.length ≤ fuel →
    (∀ old ∈ before, ∀ new ∈ members, old.1 < new.1) →
    readMembers fuel depth first before (text ++ rest) = .ok (.object (before ++ members), rest)

/-- Every two calls of the reader take a character at least. -/
theorem exists_fuel (size : Nat) {fuel : Nat} (enough : 2 * (size + 1) ≤ fuel) :
    ∃ less, fuel = less + 1 + 1 ∧ 2 * size ≤ less := ⟨fuel - 2, by omega, by omega⟩

theorem Spells.reads (spells : Spells depth phrase text) : Reads depth phrase text := by
  induction spells with
  | null =>
      intro fuel rest enough ends
      obtain ⟨fuel, rfl, -⟩ := exists_fuel 3 enough
      rfl
  | yes =>
      intro fuel rest enough ends
      obtain ⟨fuel, rfl, -⟩ := exists_fuel 3 enough
      rfl
  | no =>
      intro fuel rest enough ends
      obtain ⟨fuel, rfl, -⟩ := exists_fuel 4 enough
      rfl
  | @number _ value exact =>
      intro fuel rest enough ends
      have some : 0 < value.text.toList.length := by
        have spells : Spells 0 (.value (.number value)) value.text.toList := .number exact
        obtain ⟨c, more, same, -⟩ := spells.exists_cons
        rw [same]
        exact Nat.succ_pos _
      obtain ⟨fuel, rfl⟩ : ∃ less, fuel = less + 1 := ⟨fuel - 1, by omega⟩
      exact readValue_number fuel exact ends
  | string s =>
      intro fuel rest enough ends
      have longer := (letters_escaped s.toList).length_le
      rw [stringText, List.length_append, List.length_cons, List.length_singleton] at enough
      obtain ⟨fuel, rfl⟩ : ∃ less, fuel = less + 1 := ⟨fuel - 1, by omega⟩
      exact readValue_string fuel (by omega)
  | array items ih =>
      intro fuel rest enough ends
      obtain ⟨fuel, rfl, less⟩ := exists_fuel _ enough
      exact ih (fuel + 1) [] rest (Nat.le_succ_of_le less)
  | object members ih =>
      intro fuel rest enough ends
      obtain ⟨fuel, rfl, less⟩ := exists_fuel _ enough
      exact ih (fuel + 1) [] rest (Nat.le_succ_of_le less) nofun
  | noItem blank =>
      intro fuel before rest enough
      rw [List.length_append, List.length_singleton] at enough
      obtain ⟨fuel, rfl, -⟩ := exists_fuel _ enough
      rw [List.append_assoc, readItems, List.singleton_append, nextItem_close blank, List.append_nil]
      rfl
  | @item _ _ item _ _ text later leads spells more ihItem ihLater =>
      intro fuel before rest enough
      rw [List.length_append, List.length_append] at enough
      have some : 0 < text.length := by
        obtain ⟨c, tail, same, -⟩ := spells.exists_cons
        rw [same]
        exact Nat.succ_pos _
      have more_pos := more.length_pos
      obtain ⟨fuel, rfl⟩ : ∃ less, fuel = less + 1 := ⟨fuel - 1, by omega⟩
      have read := ihItem fuel (later ++ rest) (by omega) (more.ends trivial rest)
      rw [List.append_assoc, List.append_assoc, readItems_item leads spells read,
        ihLater fuel (item :: before) rest (by omega), List.reverse_cons, List.append_assoc]
      rfl
  | noMember blank =>
      intro fuel before rest enough _
      rw [List.length_append, List.length_singleton] at enough
      obtain ⟨fuel, rfl, -⟩ := exists_fuel _ enough
      rw [List.append_assoc, readMembers, List.singleton_append, nextName_close blank, List.append_nil]
      rfl
  | @member _ _ name value _ lead blanks blanks' text later leads before after spells more above ihValue
      ihLater =>
      intro fuel olds rest enough ascending
      have longer := (letters_escaped name.toList).length_le
      have quoted : (stringText name).length = (name.toList.flatMap escapedChar).length + 2 := by
        rw [stringText, List.length_append, List.length_cons, List.length_singleton]
      simp only [List.length_append, List.length_cons, quoted] at enough
      obtain ⟨fuel, rfl⟩ : ∃ less, fuel = less + 2 := ⟨fuel - 2, by omega⟩
      have read := ihValue (fuel + 1) (later ++ rest) (by omega) (more.ends trivial rest)
      have earlier : ∀ old ∈ olds, old.1 < name := fun old member => ascending old member _ List.mem_cons_self
      have whole : lead ++ (stringText name ++ (blanks ++ ':' :: (blanks' ++ (text ++ later)))) ++ rest =
          lead ++ (stringText name ++ (blanks ++ ':' :: (blanks' ++ (text ++ (later ++ rest))))) := by simp
      rw [whole, readMembers_member leads before after (by omega) earlier read,
        ihLater (fuel + 1) (olds ++ [(name, value)]) rest (by omega), List.append_assoc]
      · rfl
      · -- The names stay in order when this one is among those before.
        intro old member new later
        obtain earlier | latest := List.mem_append.mp member
        · exact ascending old earlier new (List.mem_cons_of_mem _ later)
        · cases List.mem_singleton.mp latest
          exact above new later

theorem parse_of_spells (spells : Spells maxDepth (.value value) text) :
    parse (String.ofList text) = .ok value := by
  have read := spells.reads (fuelFor text) [] (by rw [fuelFor]; omega) nofun
  rw [List.append_nil] at read
  rw [parse, String.toList_ofList]
  simp only [bind, Except.bind, read]
  rfl

/-! ### Writing -/

/-- What can be written and read back: integers of 64 bits, members in the order of their names, and no
more levels than may be opened. -/
inductive Plain : Nat → Json → Prop where
  | null {depth : Nat} : Plain depth .null
  | bool {depth : Nat} (b : Bool) : Plain depth (.bool b)
  | number {depth : Nat} {value : Number} : value.Exact → Plain depth (.number value)
  | string {depth : Nat} (s : String) : Plain depth (.string s)
  | array {depth : Nat} {items : List Json} : (∀ item ∈ items, Plain depth item) →
      Plain (depth + 1) (.array items)
  | object {depth : Nat} {members : List (String × Json)} : (∀ member ∈ members, Plain depth member.2) →
      members.Pairwise (fun one other => one.1 < other.1) → Plain (depth + 1) (.object members)

theorem plain_natural {depth n : Nat} (below : n < 0x10000000000000000) : Plain depth (natural n) :=
  .number (.natural below)

theorem separated_cons (separator text : List Char) (rest : List (List Char)) :
    separated separator (text :: rest) = text ++ rest.flatMap (separator ++ ·) := by
  induction rest generalizing text with
  | nil => simp [separated]
  | cons next rest ih =>
      rw [separated, ih, List.flatMap_cons, List.append_assoc, List.append_assoc]
      exact List.cons_ne_nil _ _

/-- Entries behind a bracket, with commas between them. -/
theorem entries_separated {α : Type} (Texts : Bool → List α → List Char → Prop) {write : α → List Char}
    {bracket : Char} {opening blanks closing : List Char} (opens : Blank opening) (blank : Blank blanks)
    (closes : Blank closing)
    (empty : ∀ {first blanks}, Blank blanks → Texts first [] (blanks ++ [bracket]))
    {entries : List α}
    (entry : ∀ {first lead entry rest later}, entry :: rest <:+ entries → Lead first lead →
      Texts false rest later → Texts first (entry :: rest) (lead ++ (write entry ++ later))) :
    Texts true entries
      (opening ++ separated (',' :: blanks) (entries.map write) ++ closing ++ [bracket]) := by
  have later : ∀ rest, rest <:+ entries →
      Texts false rest ((rest.map write).flatMap (',' :: blanks ++ ·) ++ (closing ++ [bracket])) := by
    intro rest suffix
    induction rest with
    | nil => exact empty closes
    | cons next rest ih =>
        have texts := entry suffix (.next blank_nil blank)
          (ih ((List.suffix_cons next rest).trans suffix))
        simpa using texts
  cases entries with
  | nil =>
      have both : Blank (opening ++ closing) := fun c member =>
        (List.mem_append.mp member).elim (opens c) (closes c)
      simpa [separated] using @empty true _ both
  | cons first rest =>
      have texts := entry List.suffix_rfl (.first opens) (later rest (List.suffix_cons first rest))
      simpa [separated_cons] using texts

variable {opening blanks closing : List Char}

theorem spells_array (opens : Blank opening) (blank : Blank blanks) (closes : Blank closing)
    {write : Json → List Char} {items : List Json}
    (each : ∀ item ∈ items, Spells depth (.value item) (write item)) :
    Spells (depth + 1) (.value (.array items))
      ('[' :: (opening ++ separated (',' :: blanks) (items.map write) ++ closing ++ [']'])) := by
  refine .array (entries_separated (fun first items => Spells depth (.items first items)) opens blank closes
    .noItem ?_)
  intro first lead item rest later suffix leads more
  exact .item leads (each item (suffix.mem List.mem_cons_self)) more

theorem spells_object (opens : Blank opening) (blank : Blank blanks) (closes : Blank closing)
    {gap : List Char} (apart : Blank gap) {write : Json → List Char} {members : List (String × Json)}
    (each : ∀ member ∈ members, Spells depth (.value member.2) (write member.2))
    (ascending : members.Pairwise fun one other => one.1 < other.1) :
    Spells (depth + 1) (.value (.object members))
      ('\x7b' :: (opening ++ separated (',' :: blanks)
        (members.map fun member => stringText member.1 ++ ':' :: (gap ++ write member.2)) ++ closing ++
          ['\x7d'])) := by
  refine .object (entries_separated (fun first members => Spells depth (.members first members)) opens blank
    closes .noMember ?_)
  intro first lead member rest later suffix leads more
  obtain ⟨above, -⟩ := List.pairwise_cons.mp (ascending.sublist suffix.sublist)
  have spells := Spells.member leads blank_nil apart
    (each member (suffix.mem List.mem_cons_self)) more above
  simpa using spells

theorem compactItems_eq (items : List Json) : compactItems items = items.map compactChars := by
  induction items with
  | nil => rfl
  | cons item items ih => exact congrArg (item.compactChars :: ·) ih

theorem compactMembers_eq (members : List (String × Json)) :
    compactMembers members =
      members.map fun member => stringText member.1 ++ ':' :: ([] ++ compactChars member.2) := by
  induction members with
  | nil => rfl
  | cons member members ih => exact congrArg ((stringText member.1 ++ ':' :: member.2.compactChars) :: ·) ih

theorem prettyItems_eq (level : Nat) (items : List Json) :
    prettyItems level items = items.map (prettyChars level) := by
  induction items with
  | nil => rfl
  | cons item items ih => exact congrArg (item.prettyChars level :: ·) ih

theorem prettyMembers_eq (level : Nat) (members : List (String × Json)) :
    prettyMembers level members =
      members.map fun member => stringText member.1 ++ ':' :: ([' '] ++ prettyChars level member.2) := by
  induction members with
  | nil => rfl
  | cons member members ih =>
      exact congrArg ((stringText member.1 ++ ':' :: ' ' :: member.2.prettyChars level) :: ·) ih

theorem compactChars_array (items : List Json) :
    compactChars (.array items) = '[' :: separated [','] (items.map compactChars) ++ [']'] :=
  congrArg ('[' :: separated [','] · ++ [']']) (compactItems_eq items)

theorem compactChars_object (members : List (String × Json)) :
    compactChars (.object members) =
      '\x7b' :: separated [',']
        (members.map fun member => stringText member.1 ++ ':' :: ([] ++ compactChars member.2)) ++ ['\x7d'] :=
  congrArg ('\x7b' :: separated [','] · ++ ['\x7d']) (compactMembers_eq members)

theorem prettyChars_array (level : Nat) (item : Json) (items : List Json) :
    prettyChars level (.array (item :: items)) =
      '[' :: lineStart (level + 1) ++
        separated (',' :: lineStart (level + 1)) ((item :: items).map (prettyChars (level + 1))) ++
        lineStart level ++ [']'] :=
  congrArg ('[' :: lineStart (level + 1) ++ separated (',' :: lineStart (level + 1)) · ++
    lineStart level ++ [']']) (prettyItems_eq (level + 1) (item :: items))

theorem prettyChars_object (level : Nat) (member : String × Json) (members : List (String × Json)) :
    prettyChars level (.object (member :: members)) =
      '\x7b' :: lineStart (level + 1) ++
        separated (',' :: lineStart (level + 1)) ((member :: members).map fun member =>
          stringText member.1 ++ ':' :: ([' '] ++ prettyChars (level + 1) member.2)) ++
        lineStart level ++ ['\x7d'] :=
  congrArg ('\x7b' :: lineStart (level + 1) ++ separated (',' :: lineStart (level + 1)) · ++
    lineStart level ++ ['\x7d']) (prettyMembers_eq (level + 1) (member :: members))

theorem blank_lineStart (level : Nat) : Blank (lineStart level) := by
  intro c member
  obtain _ | ⟨_, member⟩ := member
  · rfl
  · rw [List.eq_of_mem_replicate member]
    rfl

theorem Plain.spells_compact (plain : Plain depth value) : Spells depth (.value value) value.compactChars := by
  induction plain with
  | null => exact .null
  | bool b =>
      cases b with
      | true => exact .yes
      | false => exact .no
  | number exact => exact .number exact
  | string s => exact .string s
  | array _ ih =>
      rw [compactChars_array]
      simpa using spells_array blank_nil blank_nil blank_nil ih
  | object _ ascending ih =>
      rw [compactChars_object]
      simpa using spells_object blank_nil blank_nil blank_nil blank_nil ih ascending

theorem Plain.spells_pretty (plain : Plain depth value) (level : Nat) :
    Spells depth (.value value) (value.prettyChars level) := by
  induction plain generalizing level with
  | null => exact .null
  | bool b =>
      cases b with
      | true => exact .yes
      | false => exact .no
  | number exact => exact .number exact
  | string s => exact .string s
  | @array _ items _ ih =>
      cases items with
      | nil => exact .array (.noItem blank_nil)
      | cons item items =>
          rw [prettyChars_array]
          have spells := spells_array (blank_lineStart (level + 1)) (blank_lineStart (level + 1))
            (blank_lineStart level) fun item member => ih item member (level + 1)
          simpa using spells
  | @object _ members _ ascending ih =>
      cases members with
      | nil => exact .object (.noMember blank_nil)
      | cons member members =>
          rw [prettyChars_object]
          have space : Blank [' '] := by simp [Blank, isBlank]
          have spells := spells_object (blank_lineStart (level + 1)) (blank_lineStart (level + 1))
            (blank_lineStart level) space (fun member inside => ih member inside (level + 1)) ascending
          simpa using spells

theorem parse_compact (plain : Plain maxDepth value) : parse value.compact = .ok value :=
  parse_of_spells plain.spells_compact

theorem parse_pretty (plain : Plain maxDepth value) : parse value.pretty = .ok value :=
  parse_of_spells (plain.spells_pretty 0)

end AppleOne.Json
