import AppleOne.Machine.Config
import AppleOne.Proofs.Json.RecordText

/-!
Configurations as text. Whatever else a text holds, its known members are a configuration's fields, and the
fields it leaves out are those of the standard one.
-/

namespace AppleOne.Config

open Json

/-- What the fields are called, in order. -/
def names : List String := shape.names

/-- The text of a field's value. An integer has no other spelling. -/
def valueText (config : Config) (name : String) : List Char := (config.toJson.member name).compactChars

/-- Takes over these fields of a configuration. -/
def update (config : Config) (names : List String) (state : Config) : Config where
  ramSize := if "ram_size" ∈ names then config.ramSize else state.ramSize
  cyclesPerTick := if "cycles_per_tick" ∈ names then config.cyclesPerTick else state.cyclesPerTick
  decimalMode := if "decimal_mode" ∈ names then config.decimalMode else state.decimalMode

variable {config : Config}

theorem ite_mem_cons {α : Type} (field name : String) (names : List String) (own other : α) :
    (if field ∈ names then own else if field ∈ [name] then own else other) =
      if field ∈ name :: names then own else other := by
  by_cases later : field ∈ names
  · rw [if_pos later, if_pos (List.mem_cons_of_mem name later)]
  · rw [if_neg later]
    refine if_congr ?_ rfl rfl
    rw [List.mem_singleton, List.mem_cons]
    exact (or_iff_left later).symm

theorem update_cons (name : String) (names : List String) (state : Config) :
    config.update names (config.update [name] state) = config.update (name :: names) state := by
  simp only [update, ite_mem_cons]

theorem foldl_update (names : List String) (state : Config) :
    names.foldl (fun state name => config.update [name] state) state = config.update names state := by
  induction names generalizing state with
  | nil => rfl
  | cons name names ih => rw [List.foldl_cons, ih, update_cons]

theorem update_names (state : Config) : config.update names state = config := rfl

theorem update_of_not_mem {name : String} (unknown : name ∉ shape.names) : config.update [name] = id := by
  funext state
  simp only [Shape.names, shape, Field.unsigned, Field.boolean, List.map_cons, List.map_nil, List.mem_cons,
    List.not_mem_nil, or_false, not_or] at unknown
  simp [update, Ne.symm unknown.1, Ne.symm unknown.2.1, Ne.symm unknown.2.2]

theorem scalar : ∀ field ∈ shape.fields, field.Scalar := by
  simp only [shape, List.mem_cons, List.not_mem_nil, or_false]
  rintro field (rfl | rfl | rfl)
  · apply Field.scalar_unsigned
  · apply Field.scalar_unsigned
  · apply Field.scalar_boolean

/-- A field takes a configuration's own value. -/
theorem takes : ∀ field ∈ shape.fields, field.Takes (config.valueText field.name) (config.update [field.name]) := by
  have size : config.ramSize.toNat < Width.size.limit := config.ramSize.toNat_lt
  have cycles : config.cyclesPerTick.toNat < Width.double.limit := config.cyclesPerTick.toNat_lt
  have taken := Field.takes_natural "ram_size"
    (fun n (state : Config) => { state with ramSize := n.toUInt64 }) size
  have taken' := Field.takes_natural "cycles_per_tick"
    (fun n (state : Config) => { state with cyclesPerTick := n.toUInt32 }) cycles
  have taken'' := Field.takes_bool "decimal_mode"
    (fun b (state : Config) => { state with decimalMode := b }) config.decimalMode
  rw [Nat.toUInt64_eq, UInt64.ofNat_toNat] at taken
  rw [Nat.toUInt32_eq, UInt32.ofNat_toNat] at taken'
  simp only [shape, List.forall_mem_cons, List.not_mem_nil, false_implies, implies_true, and_true]
  exact ⟨taken, taken', taken''⟩

variable {members : List (String × List Char)} {values : List (List Char)} {text : String}

/-- A member of another name may have any value. -/
theorem read_object (object : ObjectText members text)
    (own : ∀ member ∈ members, member.1 ∈ names → member.2 = config.valueText member.1)
    (once : ∀ name ∈ names, (members.map Prod.fst).count name ≤ 1) :
    read text = .ok (config.update (members.map Prod.fst) standard) := by
  have fits : ∀ member ∈ members, ∀ field ∈ shape.fields, field.name = member.1 →
      field.Takes member.2 (config.update [member.1]) := by
    intro member inside field known same
    have named : member.1 ∈ names := same ▸ List.mem_map_of_mem known
    rw [own member inside named, ← same]
    exact takes field known
  rw [read, object.read rfl (fun name => config.update [name]) (fun _ => update_of_not_mem) fits once,
    foldl_update]
  rfl

theorem read_array (array : ArrayText values text) (own : values <+: names.map config.valueText) :
    read text = .ok (config.update (names.take values.length) standard) := by
  have given : values = (shape.fields.take values.length).map fun field => config.valueText field.name := by
    rw [List.map_take]
    exact List.prefix_iff_eq_take.mp own
  have fits : List.Forall₂ (fun value field => Field.Takes field value (config.update [field.name])) values
      (shape.fields.take values.length) := by
    conv => arg 2; rw [given]
    rw [List.forall₂_map_left_iff, List.forall₂_same]
    exact fun field inside => takes field (List.mem_of_mem_take inside)
  rw [read, array.read rfl (fun name => config.update [name]) (List.take_append_drop _ _).symm fits, foldl_update,
    List.map_take]
  rfl

theorem forall_names {P : String → Prop} :
    (∀ name ∈ names, P name) ↔ P "ram_size" ∧ P "cycles_per_tick" ∧ P "decimal_mode" := by
  simp [names, Shape.names, shape, Field.unsigned, Field.boolean]

theorem wellFormed_valueText : ∀ name ∈ names, WellFormed .value (config.valueText name) := by
  have size := (Number.Exact.natural config.ramSize.toNat_lt).numeral
  have cycles : (Number.integer config.cyclesPerTick.toNat).Exact :=
    .natural (Nat.lt_trans config.cyclesPerTick.toNat_lt (by decide))
  refine forall_names.mpr ⟨.number size, .number cycles.numeral, ?_⟩
  change WellFormed .value (Json.bool config.decimalMode).compactChars
  cases config.decimalMode with
  | true => exact .yes
  | false => exact .no

theorem prettyChars_member (level : Nat) :
    ∀ name ∈ names, (config.toJson.member name).prettyChars level = config.valueText name := by
  refine forall_names.mpr ⟨rfl, rfl, ?_⟩
  change (Json.bool config.decimalMode).prettyChars level = (Json.bool config.decimalMode).compactChars
  cases config.decimalMode <;> rfl

/-- The text that is written holds every field once. -/
theorem objectText_text (config : Config) :
    ObjectText (names.map fun name => (name, config.valueText name)) config.text := by
  have each : ∀ member ∈ names.map fun name => (name, config.toJson.member name),
      WellFormed .value (member.2.prettyChars 1) := by
    simp only [List.forall_mem_map]
    intro name known
    rw [prettyChars_member 1 name known]
    exact wellFormed_valueText name known
  have some : names.map (fun name => (name, config.toJson.member name)) ≠ [] := List.cons_ne_nil _ _
  have object := objectText_pretty some each
  have same : (names.map fun name => (name, config.toJson.member name)).map
      (fun member => (member.1, member.2.prettyChars 1)) = names.map fun name => (name, config.valueText name) := by
    rw [List.map_map]
    exact List.map_congr_left fun name known => congrArg (name, ·) (prettyChars_member 1 name known)
  rw [same] at object
  exact object

theorem read_text (config : Config) : read config.text = .ok config := by
  have known : (names.map fun name => (name, config.valueText name)).map Prod.fst = names := by
    simp [Function.comp_def]
  have own : ∀ member ∈ names.map fun name => (name, config.valueText name),
      member.1 ∈ names → member.2 = config.valueText member.1 := by
    intro member inside _
    obtain ⟨name, -, rfl⟩ := List.mem_map.mp inside
    rfl
  have once : ∀ name ∈ names, names.count name ≤ 1 := by decide
  have read := read_object (objectText_text config) own (by rwa [known])
  rw [known, update_names] at read
  exact read

/-- A text's members decide what is read of it, in whatever order and among whatever others they stand. -/
theorem fields_read :
    (∀ (config : Config) members text, ObjectText members text →
      (∀ member ∈ members, member.1 ∈ names → member.2 = config.valueText member.1) →
      (∀ name ∈ names, (members.map Prod.fst).count name ≤ 1) →
      read text = .ok (config.update (members.map Prod.fst) standard)) ∧
    (∀ config : Config, read config.text = .ok config) ∧
    (∀ members text, ObjectText members text → (∃ name ∈ names, 2 ≤ (members.map Prod.fst).count name) →
      ∃ failure, read text = .error failure) ∧
    (∀ (config : Config) values text, ArrayText values text → values <+: names.map config.valueText →
      read text = .ok (config.update (names.take values.length) standard)) ∧
    (∀ values text, ArrayText values text → 3 < values.length → ∃ failure, read text = .error failure) := by
  refine ⟨fun _ _ _ => read_object, read_text, ?_, fun _ _ _ => read_array, ?_⟩
  · rintro members text object ⟨name, known, twice⟩
    cases read : read text with
    | error failure => exact ⟨failure, rfl⟩
    | ok config =>
        have once := object.count_le_one scalar read name known
        omega
  · intro values text array more
    cases read : read text with
    | error failure => exact ⟨failure, rfl⟩
    | ok config =>
        have most : values.length ≤ 3 := array.length_le scalar read
        omega

theorem fields_read_among_others :
    ObjectText [("x", "[1e999]".toList), ("ram_size", "8192".toList)]
        "\x7b\"x\": [1e999], \"ram_size\":8192\x7d" ∧
      read "\x7b\"x\": [1e999], \"ram_size\":8192\x7d" = .ok { standard with ramSize := 8192 } := by
  have one : DigitRun ['1'] := ⟨by simp, by simp⟩
  have digits : DigitRun ['9', '9', '9'] := ⟨by simp, by simp⟩
  have real : Magnitude (['1'] ++ ([] ++ 'e' :: ['9', '9', '9'])) :=
    .parts one (by simp) .none (.plain (.inl rfl) digits)
  have large : WellFormed .value "[1e999]".toList :=
    .array (.item (.first blank_nil) (.number (.plain real)) (.noItem blank_nil))
  have size : WellFormed .value "8192".toList := .number (.plain (magnitude_toDigits 8192))
  have space : Blank [' '] := by simp [Blank, isBlank]
  have other : Letters "x".toList "x".toList := letters_escaped _
  have known : Letters "ram_size".toList "ram_size".toList := letters_escaped _
  have last : WellFormed (.members false [("ram_size".toList, "8192".toList)])
      ", \"ram_size\":8192\x7d".toList :=
    .member (.next blank_nil space) known.loose blank_nil blank_nil size (.noMember blank_nil)
  have formed : WellFormed (.members true [("x".toList, "[1e999]".toList), ("ram_size".toList, "8192".toList)])
      "\"x\": [1e999], \"ram_size\":8192\x7d".toList :=
    .member (.first blank_nil) other.loose blank_nil space large last
  have object : ObjectText [("x", "[1e999]".toList), ("ram_size", "8192".toList)]
      "\x7b\"x\": [1e999], \"ram_size\":8192\x7d" :=
    .braces blank_nil (.cons ⟨other, rfl⟩ (.cons ⟨known, rfl⟩ .nil)) formed blank_nil
  refine ⟨object, fields_read.1 { standard with ramSize := 8192 } _ _ object ?_ (by decide)⟩
  simp only [List.forall_mem_cons]
  exact ⟨fun member => absurd member (by decide), fun _ => rfl, by simp⟩

end AppleOne.Config
