import AppleOne.Proofs.Json.Acceptance
import AppleOne.Proofs.Json.WellFormed
import Mathlib.Data.List.Forall2

/-!
Records whose fields may be left out, read from text. A known member puts its value into the record at most
once, whatever stands around it; an array gives the values of the first fields.
-/

namespace AppleOne.Json

/-! ### How far a number goes -/

section

variable {negative : Bool} {significand : Nat} {exponent : Int} {text rest later : List Char} {number : Number}

theorem finishReal_rest (read : finishReal negative significand exponent rest = .ok (number, later)) :
    rest = later := by
  unfold finishReal at read
  split at read
  · cases read
    rfl
  · cases read

theorem skipDigits_of_span {digits : List Char} (span : spanDigits text = (digits, rest)) (some : digits ≠ []) :
    skipDigits text = .ok rest := by
  rw [skipDigits, span]
  exact if_neg (by simpa using some)

theorem readExponent_skip {mark : Char} (marks : mark = 'e' ∨ mark = 'E')
    (read : readExponent negative significand exponent text = .ok (number, later)) :
    skipExponent (mark :: text) = .ok later := by
  unfold readExponent at read
  split at read
  rename_i down unsigned signed
  have skip : skipExponent (mark :: text) = skipDigits unsigned := by
    split at signed
    · cases signed
      exact skipExponent_sign marks (.inl rfl) _
    · cases signed
      exact skipExponent_sign marks (.inr rfl) _
    · rename_i plus minus
      cases signed
      exact skipExponent_unsigned marks plus minus
  rw [skip]
  split at read
  rename_i digits rest span
  split at read
  · split at read <;> cases read
  · rename_i some
    rw [skipDigits_of_span span some]
    split at read
    · split at read <;> cases read
      rfl
    · rw [finishReal_rest read]

theorem readFraction_skip (read : readFraction negative significand exponent text = .ok (number, later)) :
    (skipFraction ('.' :: text) >>= skipExponent) = .ok later := by
  unfold readFraction at read
  split at read
  rename_i digits rest span
  split at read
  · split at read <;> cases read
  · rename_i some
    have skip : skipFraction ('.' :: text) = .ok rest := skipDigits_of_span span some
    rw [skip]
    change skipExponent rest = _
    dsimp only at read
    split at read
    · exact readExponent_skip (.inl rfl) read
    · exact readExponent_skip (.inr rfl) read
    · rename_i small capital
      rw [skipExponent_of_ne small capital, finishReal_rest read]

/-- A number that is read goes as far as one that is passed over. -/
theorem readNumber_skip (read : readNumber negative text = .ok (number, later)) :
    skipNumber text = .ok later := by
  unfold readNumber at read
  rw [skipNumber]
  cases span : spanDigits text with
  | mk digits rest =>
      rw [span] at read
      dsimp only at read ⊢
      split at read
      · split at read <;> cases read
      · cases read
      · change (skipFraction rest >>= skipExponent) = _
        split at read
        · exact readFraction_skip read
        · exact readExponent_skip (.inl rfl) read
        · exact readExponent_skip (.inr rfl) read
        · rename_i point small capital
          rw [skipFraction_of_ne point]
          change skipExponent rest = _
          rw [skipExponent_of_ne small capital]
          split at read
          · rw [finishReal_rest read]
          · split at read
            · cases read
              rfl
            · split at read
              · rw [finishReal_rest read]
              · cases read
                rfl

theorem Numeral.read_rest {fuel depth : Nat} {value : Json} (numeral : Numeral text) (ends : Ends rest)
    (read : readValue (fuel + 1) depth (text ++ rest) = .ok (value, later)) : later = rest := by
  have reach : ∀ negative {text}, Magnitude text →
      (readNumber negative (text ++ rest) >>= fun result => pure (.number result.1, result.2)) =
        Except.ok (value, later) → later = rest := by
    intro negative text magnitude read
    obtain ⟨result, done, same⟩ := bind_eq_ok.mp read
    cases same
    have skip := readNumber_skip done
    rw [magnitude.skip ends] at skip
    exact (Except.ok.inj skip).symm
  cases numeral with
  | plain magnitude =>
      refine reach false magnitude ?_
      obtain ⟨c, more, rfl, digit⟩ := magnitude.exists_cons
      exact (readValue_digit fuel digit _).symm.trans read
  | negative magnitude => exact reach true magnitude read

end

/-! ### Fields -/

variable {σ : Type} {field : Field σ} {state : σ} {value blanks rest : List Char}

/-- A field that takes numbers and booleans at most. -/
def Field.Scalar (field : Field σ) : Prop :=
  ∀ found put, field.put found = .ok put → (∃ number, found = .number number) ∨ ∃ b, found = .bool b

theorem Field.scalar_unsigned (name : String) (width : Width) (put : Nat → σ → σ) :
    (Field.unsigned name width put).Scalar := by
  intro found result done
  cases found with
  | number number => exact .inl ⟨number, rfl⟩
  | null | bool | string | sequence | map => cases done

theorem Field.scalar_boolean (name : String) (put : Bool → σ → σ) : (Field.boolean name put).Scalar := by
  intro found result done
  cases found with
  | bool b => exact .inr ⟨b, rfl⟩
  | null | number | string | sequence | map => cases done

theorem readFound_blank (fuel : Nat) (blank : Blank blanks) (text : List Char) :
    Shape.readFound fuel (blanks ++ text) = Shape.readFound fuel text := by
  rw [Shape.readFound, Shape.readFound, skipBlanks_append blank]

theorem readFound_cons (fuel : Nat) {c : Char} (shown : isBlank c = false) (bracket : c ≠ '[')
    (brace : c ≠ '\x7b') (text : List Char) :
    Shape.readFound fuel (c :: text) = do
      let (value, rest) ← readValue fuel 0 (c :: text)
      return (value.found, rest) := by
  rw [Shape.readFound, skipBlanks_cons shown]
  split <;> simp_all

theorem readFound_string (fuel : Nat) (text : List Char) :
    Shape.readFound (fuel + 1) ('"' :: text) = do
      let (value, rest) ← readString fuel text
      return (.string value, rest) := by
  change (do
    let (value, rest) ← readValue (fuel + 1) 0 ('"' :: text)
    return (value.found, rest)) = _
  rw [readValue_quote, bind_assoc]
  rfl

/-- A number or boolean that is read is read to its end. -/
theorem WellFormed.found_rest (formed : WellFormed .value value) (ends : Ends rest) {fuel : Nat}
    {found : Found} {later : List Char}
    (read : Shape.readFound (fuel + 1) (value ++ rest) = .ok (found, later))
    (scalar : (∃ number, found = .number number) ∨ ∃ b, found = .bool b) : later = rest := by
  cases formed with
  | null =>
      cases read
      obtain ⟨_, ⟨⟩⟩ | ⟨_, ⟨⟩⟩ := scalar
  | yes | no =>
      cases read
      rfl
  | number numeral =>
      obtain ⟨c, more, rfl, shown, -, bracket, brace⟩ := numeral.exists_cons
      rw [List.cons_append, readFound_cons _ shown bracket brace] at read
      obtain ⟨⟨value, _⟩, done, ⟨⟩⟩ := bind_eq_ok.mp read
      exact numeral.read_rest ends done
  | string =>
      rw [List.cons_append, readFound_string] at read
      obtain ⟨⟨s, _⟩, -, ⟨⟩⟩ := bind_eq_ok.mp read
      obtain ⟨_, ⟨⟩⟩ | ⟨_, ⟨⟩⟩ := scalar
  | array | object =>
      cases read
      obtain ⟨_, ⟨⟩⟩ | ⟨_, ⟨⟩⟩ := scalar

theorem Field.Scalar.read_rest (scalar : field.Scalar) {fuel : Nat} (formed : WellFormed .value value)
    (blank : Blank blanks) (ends : Ends rest) {result : σ × List Char}
    (read : Shape.readField (fuel + 1) field state (blanks ++ (value ++ rest)) = .ok result) :
    result.2 = rest := by
  rw [Shape.readField, readFound_blank _ blank] at read
  obtain ⟨⟨found, later⟩, done, put⟩ := bind_eq_ok.mp read
  dsimp only at put
  split at put
  · rename_i effect taken
    cases put
    exact formed.found_rest ends done (scalar found effect taken)
  · cases put

/-- The text of a value that the field takes, with its effect on the record. -/
def Field.Takes (field : Field σ) (value : List Char) (effect : σ → σ) : Prop :=
  ∀ fuel blanks rest state, 2 * value.length ≤ fuel → Blank blanks → Ends rest →
    Shape.readField fuel field state (blanks ++ (value ++ rest)) = .ok (effect state, rest)

theorem Plain.exists_cons {value : Json} (plain : Plain 0 value) :
    ∃ c more, value.compactChars = c :: more ∧ isBlank c = false ∧ c ≠ '[' ∧ c ≠ '\x7b' := by
  cases plain with
  | null => exact ⟨_, _, rfl, by decide⟩
  | bool b => cases b <;> exact ⟨_, _, rfl, by decide⟩
  | number exact =>
      obtain ⟨c, more, same, shown, -, other⟩ := exact.numeral.exists_cons
      exact ⟨c, more, same, shown, other⟩
  | string => exact ⟨_, _, rfl, by decide⟩

theorem Plain.takes {value : Json} (plain : Plain 0 value) {effect : σ → σ}
    (put : field.put value.found = .ok effect) : field.Takes value.compactChars effect := by
  intro fuel blanks rest state enough blank ends
  have read := plain.spells_compact.reads fuel rest enough ends
  obtain ⟨c, more, same, shown, bracket, brace⟩ := plain.exists_cons
  rw [same, List.cons_append] at read ⊢
  rw [Shape.readField, readFound_blank _ blank, readFound_cons _ shown bracket brace, read]
  simp only [bind, Except.bind, pure, Except.pure, put]

theorem Width.limit_le (width : Width) : width.limit ≤ 0x10000000000000000 := by
  cases width <;> decide

theorem Field.takes_natural (name : String) {width : Width} (put : Nat → σ → σ) {n : Nat}
    (below : n < width.limit) : (Field.unsigned name width put).Takes (natural n).compactChars (put n) := by
  have plain : Plain 0 (natural n) := plain_natural (Nat.lt_of_lt_of_le below width.limit_le)
  apply plain.takes
  exact congrArg (put <$> ·) (toUnsigned_natural below)

theorem Field.takes_bool (name : String) (put : Bool → σ → σ) (b : Bool) :
    (Field.boolean name put).Takes (Json.bool b).compactChars (put b) :=
  (Plain.bool b).takes rfl

/-! ### Objects -/

/-- A member, by its name and the text of its value, and how both are written. -/
def Written (member : String × List Char) (entry : List Char × List Char) : Prop :=
  Letters member.1.toList entry.1 ∧ member.2 = entry.2

namespace Shape

variable {shape : Shape σ} {fuel : Nat} {first : Bool} {seen : List String} {text lead : List Char}
variable {members : List (String × List Char)} {entries : List (List Char × List Char)}

def names (shape : Shape σ) : List String := shape.fields.map (·.name)

theorem find?_eq_none {name : String} :
    shape.fields.find? (·.name == name) = none ↔ name ∉ shape.names := by
  simp [names]

theorem mem_names_of_find? {name : String} {field : Field σ}
    (find : shape.fields.find? (·.name == name) = some field) :
    field ∈ shape.fields ∧ field.name = name ∧ name ∈ shape.names := by
  have same := List.find?_some find
  have member := List.mem_of_find?_eq_some find
  rw [beq_iff_eq] at same
  exact ⟨member, same, List.mem_map.mpr ⟨field, member, same⟩⟩

theorem readObject_close {blanks : List Char} (optional : shape.optional = true) (blank : Blank blanks) :
    shape.readObject (fuel + 1) first seen state (blanks ++ '\x7d' :: rest) = .ok (state, rest) := by
  rw [readObject, nextName_close blank]
  simp only [bind, Except.bind, missing?, optional, if_true]
  rfl

/-- One member of a well-formed text: it is passed over, put into the record, or there for the second time. -/
theorem readObject_member (leads : Lead first lead) {name : String} {spelling before after : List Char}
    (letters : Letters name.toList spelling) (blank : Blank before) (blank' : Blank after)
    (formed : WellFormed .value value) (ends : Ends rest) (enough : name.toList.length ≤ fuel)
    (enough' : 2 * value.length ≤ fuel + 1) :
    shape.readObject (fuel + 2) first seen state
        (lead ++ '"' :: (spelling ++ '"' :: (before ++ ':' :: (after ++ (value ++ rest))))) =
      match shape.fields.find? (·.name == name) with
      | none => shape.readObject (fuel + 1) false seen state rest
      | some field =>
        if seen.contains name then
          mismatch (.repeated name) (pastRepeated (before ++ ':' :: (after ++ (value ++ rest))))
        else readField (fuel + 1) field state (after ++ (value ++ rest)) >>= fun result =>
          shape.readObject (fuel + 1) false (name :: seen) result.1 result.2 := by
  rw [readObject, nextName_lead leads]
  simp only [bind, Except.bind, letters.readString (Nat.lt_succ_of_le enough)]
  rw [expectColon_blank blank]
  cases shape.fields.find? (·.name == name) with
  | none =>
      dsimp only
      rw [skipValue_blank fuel blank', formed.skips (fuel + 1) rest enough' ends]
  | some field => rfl

/-- A text is read when no known name is in it twice and every known member fits its field. -/
theorem readObject_members (optional : shape.optional = true) {effect : String → σ → σ}
    (others : ∀ name ∉ shape.names, effect name = id) (formed : WellFormed (.members first entries) text)
    (written : List.Forall₂ Written members entries)
    (takes : ∀ member ∈ members, ∀ field ∈ shape.fields, field.name = member.1 →
      field.Takes member.2 (effect member.1))
    (once : ∀ name ∈ shape.names, seen.count name + (members.map Prod.fst).count name ≤ 1)
    (enough : 2 * text.length ≤ fuel) (rest : List Char) :
    shape.readObject fuel first seen state (text ++ rest) =
      .ok ((members.map Prod.fst).foldl (fun state name => effect name state) state, rest) := by
  induction written generalizing fuel first seen state text with
  | nil =>
      cases formed with
      | noMember blank =>
          rw [List.length_append, List.length_singleton] at enough
          obtain ⟨fuel, rfl, -⟩ := exists_fuel _ enough
          rw [List.append_assoc]
          exact readObject_close optional blank
  | @cons member entry members entries fits _ ih =>
      obtain ⟨name, value⟩ := member
      cases formed with
      | @member _ lead spelling before after text later _ leads _ blank blank' formed more =>
          obtain ⟨(letters : Letters name.toList spelling), (rfl : value = text)⟩ := fits
          simp only [List.length_append, List.length_cons] at enough
          obtain ⟨fuel, rfl⟩ : ∃ less, fuel = less + 2 := ⟨fuel - 2, by omega⟩
          have shorter := letters.length_le
          have ends := more.members_ends rest
          have later_takes := fun member inside => takes member (List.mem_cons_of_mem _ inside)
          simp only [List.append_assoc, List.cons_append]
          rw [readObject_member leads letters blank blank' formed ends (by omega) (by omega)]
          simp only [List.map_cons, List.foldl_cons]
          simp only [List.map_cons, List.count_cons] at once
          cases find : shape.fields.find? (·.name == name) with
          | none =>
              rw [others name (find?_eq_none.mp find)]
              refine ih more later_takes (fun other known => ?_) (by omega)
              have := once other known
              omega
          | some field =>
              obtain ⟨member, same, known⟩ := mem_names_of_find? find
              have unseen : seen.count name = 0 := by
                have := once name known
                simp only [beq_self_eq_true, if_true] at this
                omega
              have absent : ¬seen.contains name = true := by simpa using List.count_eq_zero.mp unseen
              have taken : field.Takes value (effect name) := takes _ List.mem_cons_self field member same
              dsimp only
              rw [if_neg absent, taken (fuel + 1) after _ state (by omega) blank' ends]
              refine ih more later_takes (fun other known => ?_) (by omega)
              rw [List.count_cons]
              have := once other known
              omega

/-- No known name is in a text twice that is read. -/
theorem count_le_one_of_readObject (scalar : ∀ field ∈ shape.fields, field.Scalar)
    (formed : WellFormed (.members first entries) text) (written : List.Forall₂ Written members entries)
    (once : ∀ name, seen.count name ≤ 1) (enough : 2 * text.length ≤ fuel) {result : σ × List Char}
    (read : shape.readObject fuel first seen state (text ++ rest) = .ok result) :
    ∀ name ∈ shape.names, seen.count name + (members.map Prod.fst).count name ≤ 1 := by
  induction written generalizing fuel first seen state text with
  | nil => exact fun name _ => once name
  | @cons member entry members entries fits _ ih =>
      obtain ⟨name, value⟩ := member
      cases formed with
      | @member _ lead spelling before after text later _ leads _ blank blank' formed more =>
          obtain ⟨(letters : Letters name.toList spelling), (rfl : value = text)⟩ := fits
          simp only [List.length_append, List.length_cons] at enough
          obtain ⟨fuel, rfl⟩ : ∃ less, fuel = less + 2 := ⟨fuel - 2, by omega⟩
          have shorter := letters.length_le
          have ends := more.members_ends rest
          simp only [List.append_assoc, List.cons_append] at read
          rw [readObject_member leads letters blank blank' formed ends (by omega) (by omega)] at read
          intro other known
          simp only [List.map_cons, List.count_cons]
          cases find : shape.fields.find? (·.name == name) with
          | none =>
              have different : ¬(name == other) = true := by
                rw [beq_iff_eq]
                rintro rfl
                exact find?_eq_none.mp find known
              rw [find] at read
              rw [if_neg different]
              exact ih more once (by omega) read other known
          | some field =>
              rw [find] at read
              dsimp only at read
              split at read
              · cases read
              · rename_i absent
                obtain ⟨⟨state', later'⟩, taken, read⟩ := bind_eq_ok.mp read
                -- A value that was taken ends where its text ends, so the members behind it come next.
                obtain rfl := (scalar field (mem_names_of_find? find).1).read_rest formed blank' ends taken
                have unseen : seen.count name = 0 := List.count_eq_zero.mpr (by simpa using absent)
                have once' : ∀ other, (name :: seen).count other ≤ 1 := by
                  intro other
                  rw [List.count_cons]
                  split
                  · rename_i same
                    rw [← beq_iff_eq.mp same]
                    omega
                  · exact once other
                have := ih more once' (by omega) read other known
                rw [List.count_cons] at this
                omega

/-! ### Arrays -/

variable {count : Nat} {fields given left : List (Field σ)} {values : List (List Char)}

theorem expectArrayEnd_blank (blank : Blank blanks) (rest : List Char) :
    expectArrayEnd (blanks ++ ']' :: rest) = .ok rest := by
  rw [expectArrayEnd, skipBlanks_append blank]
  rfl

theorem expectArrayEnd_lead (leads : Lead first lead) (formed : WellFormed .value value) (later : List Char) :
    expectArrayEnd (lead ++ (value ++ rest)) ≠ .ok later := by
  have refused : ∀ {blanks c} more, Blank blanks → isBlank c = false → c ≠ ']' →
      expectArrayEnd (blanks ++ c :: more) ≠ .ok later := by
    intro blanks c more blank shown other
    rw [expectArrayEnd, skipBlanks_append blank, skipBlanks_cons shown]
    split
    · exact nofun
    · simp_all
    · split <;> exact nofun
    · exact nofun
  cases leads with
  | first blank =>
      obtain ⟨c, more, rfl, shown, other⟩ := formed.exists_cons
      exact refused _ blank shown other
  | next blank =>
      rw [List.append_assoc]
      exact refused _ blank (by decide) (by decide)

theorem readArray_item (leads : Lead (count == 0) lead) (formed : WellFormed .value value) :
    shape.readArray fuel (field :: fields) count state (lead ++ (value ++ rest)) =
      readField fuel field state (value ++ rest) >>= fun result =>
        shape.readArray fuel fields (count + 1) result.1 result.2 := by
  obtain ⟨c, more, rfl, shown, other⟩ := formed.exists_cons
  rw [List.cons_append, readArray, nextItem_lead leads shown other]
  rfl

/-- The values of an array go into the first fields, one after the other. -/
theorem readArray_items (optional : shape.optional = true) {effect : String → σ → σ}
    (formed : WellFormed (.items (count == 0) values) text)
    (takes : List.Forall₂ (fun value field => field.Takes value (effect field.name)) values given)
    (enough : 2 * text.length ≤ fuel) (rest : List Char) :
    shape.readArray fuel (given ++ left) count state (text ++ rest) =
      .ok ((given.map (·.name)).foldl (fun state name => effect name state) state, rest) := by
  induction takes generalizing count state text with
  | nil =>
      cases formed with
      | noItem blank =>
          rw [List.append_assoc]
          cases left with
          | nil =>
              rw [List.nil_append, readArray, List.singleton_append, expectArrayEnd_blank blank]
              rfl
          | cons =>
              rw [List.nil_append, readArray, List.singleton_append, nextItem_close blank]
              simp only [bind, Except.bind, optional, if_true]
              rfl
  | @cons value field values given takes _ ih =>
      cases formed with
      | @item _ lead _ later _ leads formed more =>
          simp only [List.length_append] at enough
          have taken := takes fuel [] _ state (by omega) blank_nil (more.items_ends rest)
          rw [List.nil_append] at taken
          rw [List.append_assoc, List.append_assoc, List.cons_append, readArray_item leads formed, taken]
          exact ih more (by omega)

/-- An array that is read has no more values than there are fields. -/
theorem length_le_of_readArray (scalar : ∀ field ∈ fields, field.Scalar)
    (formed : WellFormed (.items (count == 0) values) text) (enough : 2 * text.length ≤ fuel)
    {result : σ × List Char} (read : shape.readArray fuel fields count state (text ++ rest) = .ok result) :
    values.length ≤ fields.length := by
  induction fields generalizing count state text values with
  | nil =>
      cases formed with
      | noItem => exact Nat.le_refl 0
      | item leads formed =>
          rw [List.append_assoc, List.append_assoc, readArray] at read
          obtain ⟨later, done, -⟩ := bind_eq_ok.mp read
          exact absurd done (expectArrayEnd_lead leads formed later)
  | cons field fields ih =>
      cases formed with
      | noItem => exact Nat.zero_le _
      | @item _ lead value later values leads formed more =>
          simp only [List.length_append] at enough
          have some := formed.length_pos
          obtain ⟨fuel, rfl⟩ : ∃ less, fuel = less + 1 := ⟨fuel - 1, by omega⟩
          rw [List.append_assoc, List.append_assoc, readArray_item leads formed] at read
          obtain ⟨⟨state, _⟩, taken, read⟩ := bind_eq_ok.mp read
          -- An array or object would be left where it starts, but no field takes one.
          rw [← List.nil_append (value ++ _)] at taken
          obtain rfl := (scalar field List.mem_cons_self).read_rest formed blank_nil (more.items_ends rest) taken
          have scalars := fun other inside => scalar other (List.mem_cons_of_mem _ inside)
          have more : WellFormed (.items (count + 1 == 0) values) later := more
          exact Nat.succ_le_succ (ih scalars more (by omega) read)

/-! ### Whole texts -/

theorem readText_object {before : List Char} (blank : Blank before) (text : List Char) :
    shape.readText (String.ofList (before ++ '\x7b' :: text)) =
      shape.readObject (fuelFor (before ++ '\x7b' :: text)) true [] shape.initial text >>= fun result =>
        expectEnd result.2 >>= fun _ => pure result.1 := by
  rw [readText, String.toList_ofList]
  dsimp only
  rw [skipBlanks_append blank]
  rfl

theorem readText_array {before : List Char} (blank : Blank before) (text : List Char) :
    shape.readText (String.ofList (before ++ '[' :: text)) =
      shape.readArray (fuelFor (before ++ '[' :: text)) shape.fields 0 shape.initial text >>= fun result =>
        expectEnd result.2 >>= fun _ => pure result.1 := by
  rw [readText, String.toList_ofList]
  dsimp only
  rw [skipBlanks_append blank]
  rfl

theorem le_fuelFor (before : List Char) (bracket : Char) (inner after : List Char) :
    2 * inner.length ≤ fuelFor (before ++ bracket :: (inner ++ after)) := by
  simp only [fuelFor, List.length_append, List.length_cons]
  omega

theorem expectEnd_blank (blank : Blank blanks) : expectEnd blanks = .ok () := by
  have skip := skipBlanks_append blank []
  rw [List.append_nil] at skip
  rw [expectEnd, skip]
  rfl

end Shape

/-- The text of an object with these members, each known by its name and the text of its value. -/
inductive ObjectText (members : List (String × List Char)) : String → Prop where
  | braces {before inner after : List Char} {entries : List (List Char × List Char)} :
      Blank before → List.Forall₂ Written members entries → WellFormed (.members true entries) inner →
      Blank after → ObjectText members (String.ofList (before ++ '\x7b' :: (inner ++ after)))

/-- The text of an array of values with these texts. -/
inductive ArrayText (values : List (List Char)) : String → Prop where
  | brackets {before inner after : List Char} : Blank before → WellFormed (.items true values) inner →
      Blank after → ArrayText values (String.ofList (before ++ '[' :: (inner ++ after)))

variable {shape : Shape σ} {members : List (String × List Char)} {values : List (List Char)} {text : String}

theorem ObjectText.read (object : ObjectText members text) (optional : shape.optional = true)
    (effect : String → σ → σ) (others : ∀ name ∉ shape.names, effect name = id)
    (takes : ∀ member ∈ members, ∀ field ∈ shape.fields, field.name = member.1 →
      field.Takes member.2 (effect member.1))
    (once : ∀ name ∈ shape.names, (members.map Prod.fst).count name ≤ 1) :
    shape.readText text =
      .ok ((members.map Prod.fst).foldl (fun state name => effect name state) shape.initial) := by
  cases object with
  | @braces before inner after _ blank written formed blank' =>
      have enough := Shape.le_fuelFor before '\x7b' inner after
      have read : shape.readObject _ true [] shape.initial (inner ++ after) = _ :=
        Shape.readObject_members optional others formed written takes (by simpa using once) enough after
      rw [Shape.readText_object blank, read]
      simp only [bind, Except.bind, Shape.expectEnd_blank blank']
      rfl

theorem ObjectText.count_le_one (object : ObjectText members text)
    (scalar : ∀ field ∈ shape.fields, field.Scalar) {record : σ} (read : shape.readText text = .ok record) :
    ∀ name ∈ shape.names, (members.map Prod.fst).count name ≤ 1 := by
  cases object with
  | @braces before inner after _ blank written formed =>
      have enough := Shape.le_fuelFor before '\x7b' inner after
      rw [Shape.readText_object blank] at read
      obtain ⟨result, read, -⟩ := bind_eq_ok.mp read
      simpa using Shape.count_le_one_of_readObject scalar formed written (by simp) enough read

theorem ArrayText.read (array : ArrayText values text) (optional : shape.optional = true)
    (effect : String → σ → σ) {given left : List (Field σ)} (split : shape.fields = given ++ left)
    (takes : List.Forall₂ (fun value field => field.Takes value (effect field.name)) values given) :
    shape.readText text =
      .ok ((given.map (·.name)).foldl (fun state name => effect name state) shape.initial) := by
  cases array with
  | @brackets before inner after blank formed blank' =>
      have enough := Shape.le_fuelFor before '[' inner after
      have formed : WellFormed (.items (0 == 0) values) inner := formed
      rw [Shape.readText_array blank, split, Shape.readArray_items optional formed takes enough]
      simp only [bind, Except.bind, Shape.expectEnd_blank blank']
      rfl

theorem ArrayText.length_le (array : ArrayText values text) (scalar : ∀ field ∈ shape.fields, field.Scalar)
    {record : σ} (read : shape.readText text = .ok record) : values.length ≤ shape.fields.length := by
  cases array with
  | @brackets before inner after blank formed =>
      have enough := Shape.le_fuelFor before '[' inner after
      have formed : WellFormed (.items (0 == 0) values) inner := formed
      rw [Shape.readText_array blank] at read
      obtain ⟨result, read, -⟩ := bind_eq_ok.mp read
      exact Shape.length_le_of_readArray scalar formed enough read

/-- How a member is written. -/
def quotedEntry (member : String × Json) : List Char × List Char :=
  (member.1.toList.flatMap escapedChar, member.2.prettyChars 1)

theorem wellFormed_prettyMembers {written : List (String × Json)}
    (each : ∀ member ∈ written, WellFormed .value (member.2.prettyChars 1)) :
    WellFormed (.members true (written.map quotedEntry))
      (lineStart 1 ++ separated (',' :: lineStart 1) (prettyMembers 1 written) ++ lineStart 0 ++ ['\x7d']) := by
  have space : Blank [' '] := by simp [Blank, isBlank]
  rw [prettyMembers_eq]
  refine entries_separated (fun first members => WellFormed (.members first (members.map quotedEntry)))
    (blank_lineStart 1) (blank_lineStart 1) (blank_lineStart 0) .noMember ?_
  intro first lead member rest later suffix leads more
  have formed := WellFormed.member leads (letters_escaped member.1.toList).loose blank_nil space
    (each member (suffix.mem List.mem_cons_self)) more
  simpa [stringText, quotedEntry] using formed

/-- An object that is written on several lines is such a text. -/
theorem objectText_pretty {written : List (String × Json)} (some : written ≠ [])
    (each : ∀ member ∈ written, WellFormed .value (member.2.prettyChars 1)) :
    ObjectText (written.map fun member => (member.1, member.2.prettyChars 1)) (Json.object written).pretty := by
  obtain ⟨member, rest, rfl⟩ := List.exists_cons_of_ne_nil some
  have entries : List.Forall₂ Written ((member :: rest).map fun member => (member.1, member.2.prettyChars 1))
      ((member :: rest).map quotedEntry) := by
    rw [List.forall₂_map_left_iff, List.forall₂_map_right_iff, List.forall₂_same]
    exact fun member _ => ⟨letters_escaped member.1.toList, rfl⟩
  have text := ObjectText.braces blank_nil entries (wellFormed_prettyMembers each) blank_nil
  simpa [pretty, prettyChars] using text

end AppleOne.Json
