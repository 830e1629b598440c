import AppleOne.Json.Record

/-!
Which values the typed views accept, said without the readers: an integer, boolean, array or record is
read exactly from what it is written as. A record of integers may be written in two ways, as an array
of its fields in order or as an object with a member for each.
-/

namespace AppleOne

/-! ### Checks in a row -/

section

variable {α β ε : Type}

theorem bind_eq_ok {x : Except ε α} {f : α → Except ε β} {result : β} :
    (x >>= f) = .ok result ↔ ∃ value, x = .ok value ∧ f value = .ok result := by
  cases x with
  | ok value =>
      constructor
      · intro h
        exact ⟨value, rfl, h⟩
      · rintro ⟨_, ⟨⟩, h⟩
        exact h
  | error cause =>
      constructor
      · rintro ⟨⟩
      · rintro ⟨_, ⟨⟩, _⟩

theorem check_eq_ok {p : Prop} [Decidable p] {cause : ε} {f : Unit → Except ε α} {result : α} :
    (if p then (do let done ← throw cause; f done) else f ()) = .ok result ↔
      ¬p ∧ f () = .ok result := by
  by_cases h : p
  · rw [if_pos h]
    constructor
    · rintro ⟨⟩
    · rintro ⟨h', _⟩
      exact absurd h h'
  · rw [if_neg h]
    exact ⟨fun success => ⟨h, success⟩, And.right⟩

end

namespace Json

/-! ### Single values -/

theorem toUnsigned_natural {width : Width} {n : Nat} (h : n < width.limit) :
    (natural n).toUnsigned width = .ok n := by
  have fits : (0 : Int) ≤ n ∧ (n : Int) < width.limit := by omega
  exact if_pos fits

theorem toUnsigned_eq_ok_iff {width : Width} {value : Json} {n : Nat} :
    value.toUnsigned width = .ok n ↔ value = natural n ∧ n < width.limit := by
  constructor
  · intro read
    cases value with
    | number x =>
        cases x with
        | integer i =>
            simp only [toUnsigned, found, Found.unsigned] at read
            split at read
            · rename_i fits
              cases read
              have whole : (i.toNat : Int) = i := Int.toNat_of_nonneg fits.1
              exact ⟨by rw [natural, whole], by omega⟩
            · cases read
        | real x => cases read
    | null | bool | string | array | object => cases read
  · rintro ⟨rfl, small⟩
    exact toUnsigned_natural small

theorem toBoolean_eq_ok_iff {value : Json} {b : Bool} :
    value.toBoolean = .ok b ↔ value = .bool b := by
  constructor
  · intro read
    cases value with
    | bool b' =>
        cases read
        rfl
    | null | number | string | array | object => cases read
  · rintro rfl
    rfl

variable {α : Type}

theorem toOption_eq_ok_iff {decode : Json → Decoded α} {value : Json} {result : Option α} :
    value.toOption decode = .ok result ↔
      value = .null ∧ result = none ∨
        value ≠ .null ∧ ∃ held, decode value = .ok held ∧ result = some held := by
  by_cases absent : value = .null
  · subst absent
    simp [toOption, eq_comm]
  · have present : value.toOption decode = some <$> decode value := by
      cases value with
      | null => exact absurd rfl absent
      | bool | number | string | array | object => rfl
    rw [present]
    cases decode value with
    | ok held => simp [absent, Functor.map, Except.map, eq_comm]
    | error cause => simp [absent, Functor.map, Except.map]

/-- Items that are decoded alike are the ones that were written alike. -/
theorem mapM_eq_ok_iff {decode : Json → Decoded α} {write : α → Json}
    (each : ∀ value result, decode value = .ok result ↔ value = write result) (items : List Json)
    (results : List α) : items.mapM decode = .ok results ↔ items = results.map write := by
  induction items generalizing results with
  | nil =>
      rw [List.mapM_nil]
      cases results with
      | nil => exact ⟨fun _ => rfl, fun _ => rfl⟩
      | cons => exact ⟨nofun, nofun⟩
  | cons item rest ih =>
      rw [List.mapM_cons, bind_eq_ok, eq_comm (a := item :: rest), List.map_eq_cons_iff]
      constructor
      · rintro ⟨result, first, tail⟩
        obtain ⟨others, read, ⟨⟩⟩ := bind_eq_ok.mp tail
        exact ⟨result, others, rfl, ((each _ _).mp first).symm, ((ih _).mp read).symm⟩
      · rintro ⟨result, others, rfl, first, tail⟩
        exact ⟨result, (each _ _).mpr first.symm, bind_eq_ok.mpr ⟨others, (ih _).mpr tail.symm, rfl⟩⟩

theorem toList_eq_ok_iff {decode : Json → Decoded α} {write : α → Json}
    (each : ∀ value result, decode value = .ok result ↔ value = write result) {value : Json}
    {results : List α} :
    value.toList decode = .ok results ↔ value = .array (results.map write) := by
  cases value with
  | array items =>
      rw [array.injEq]
      exact mapM_eq_ok_iff each items results
  | null | bool | number | string | object => exact ⟨nofun, nofun⟩

/-! ### Records -/

theorem natural_inj {m n : Nat} : natural m = natural n ↔ m = n := by
  simp only [natural, number.injEq, Number.integer.injEq]
  omega

/-- The members of a name. -/
def named (name : String) (members : List (String × Json)) : List (String × Json) :=
  members.filter fun member => member.1 == name

theorem named_cons_of_eq {name : String} {value : Json} {rest : List (String × Json)} :
    named name ((name, value) :: rest) = (name, value) :: named name rest :=
  List.filter_cons_of_pos (beq_self_eq_true name)

theorem named_cons_of_ne {name other : String} {value : Json} {rest : List (String × Json)}
    (h : other ≠ name) : named name ((other, value) :: rest) = named name rest :=
  List.filter_cons_of_neg fun same => h (beq_iff_eq.mp same)

variable {σ : Type}

/-- A field that holds an unsigned integer, with the way to read it back. -/
structure Column (σ : Type) where
  name : String
  width : Width
  put : Nat → σ → σ
  get : σ → Nat

namespace Column

def field (column : Column σ) : Field σ := .unsigned column.name column.width column.put

def value (column : Column σ) (record : σ) : Json := natural (column.get record)

/-- What members must hold for a column, so that a state becomes the record: the column's value
exactly once, or nothing if the column was seen before. -/
def FilledBy (column : Column σ) (members : List (String × Json)) (seen : List String)
    (state record : σ) : Prop :=
  if column.name ∈ seen then
    named column.name members = [] ∧ column.get record = column.get state
  else named column.name members = [(column.name, column.value record)]

/-- A field takes exactly the integers below its limit. -/
theorem put_eq_ok_iff {column : Column σ} {value : Json} {put : σ → σ} :
    column.field.put value.found = .ok put ↔
      ∃ n, value = natural n ∧ n < column.width.limit ∧ put = column.put n := by
  have same : column.field.put value.found = column.put <$> value.toUnsigned column.width := rfl
  rw [same, map_eq_pure_bind, bind_eq_ok]
  constructor
  · rintro ⟨n, read, ⟨⟩⟩
    obtain ⟨written, small⟩ := toUnsigned_eq_ok_iff.mp read
    exact ⟨n, written, small, rfl⟩
  · rintro ⟨n, written, small, rfl⟩
    exact ⟨n, toUnsigned_eq_ok_iff.mpr ⟨written, small⟩, rfl⟩

end Column

/-- The fields of a shape are columns that do not disturb each other and make up the record. -/
structure Shape.Tabular (shape : Shape σ) (columns : List (Column σ)) : Prop where
  fields : shape.fields = columns.map Column.field
  required : shape.optional = false
  distinct : (columns.map Column.name).Nodup
  get_lt : ∀ column ∈ columns, ∀ record, column.get record < column.width.limit
  get_put : ∀ column ∈ columns, ∀ other ∈ columns, ∀ n record, n < column.width.limit →
    other.get (column.put n record) = if other.name = column.name then n else other.get record
  ext : ∀ record record', (∀ column ∈ columns, column.get record = column.get record') →
    record = record'

namespace Shape.Tabular

variable {shape : Shape σ} {columns : List (Column σ)} {record state : σ}

theorem find?_eq_none (h : shape.Tabular columns) {name : String}
    (unknown : ∀ column ∈ columns, column.name ≠ name) :
    shape.fields.find? (·.name == name) = none := by
  rw [h.fields, List.find?_eq_none]
  intro field mem
  obtain ⟨column, mem', rfl⟩ := List.mem_map.mp mem
  exact fun same => unknown column mem' (beq_iff_eq.mp same)

theorem find?_eq_some (h : shape.Tabular columns) {column : Column σ} (mem : column ∈ columns) :
    shape.fields.find? (·.name == column.name) = some column.field := by
  have distinct := h.distinct
  rw [h.fields]
  clear h
  induction columns with
  | nil => cases mem
  | cons first rest ih =>
      rw [List.map_cons, List.nodup_cons] at distinct
      rcases List.mem_cons.mp mem with rfl | later
      · exact List.find?_cons_of_pos (beq_self_eq_true column.name)
      · have other : first.name ≠ column.name := fun same =>
          distinct.1 (same ▸ List.mem_map_of_mem later)
        refine (List.find?_cons_of_neg ?_).trans (ih later distinct.2)
        exact fun same => other (beq_iff_eq.mp same)

theorem missing?_eq_none_iff (h : shape.Tabular columns) {seen : List String} :
    shape.missing? seen = none ↔ ∀ column ∈ columns, column.name ∈ seen := by
  have names : shape.fields.map (·.name) = columns.map Column.name := by
    rw [h.fields, List.map_map]
    rfl
  rw [missing?, h.required, names]
  simp

theorem filledBy_cons (h : shape.Tabular columns) {column : Column σ} (mem : column ∈ columns)
    {seen : List String} (fresh : column.name ∉ seen) {n : Nat} (small : n < column.width.limit)
    (rest : List (String × Json)) {other : Column σ} (mem' : other ∈ columns) :
    other.FilledBy rest (column.name :: seen) (column.put n state) record ↔
      other.FilledBy ((column.name, natural n) :: rest) seen state record := by
  unfold Column.FilledBy
  rw [h.get_put column mem other mem' n state small]
  by_cases same : other.name = column.name
  · rw [same, if_pos List.mem_cons_self, if_pos rfl, if_neg fresh, named_cons_of_eq, Column.value,
      List.cons.injEq, Prod.mk.injEq, natural_inj]
    constructor
    · rintro ⟨none, rfl⟩
      exact ⟨⟨rfl, rfl⟩, none⟩
    · rintro ⟨⟨-, rfl⟩, none⟩
      exact ⟨none, rfl⟩
  · have mem_iff : other.name ∈ column.name :: seen ↔ other.name ∈ seen := by
      simp [same]
    simp only [mem_iff, if_neg same, named_cons_of_ne (Ne.symm same)]

theorem ofMembers_nil (h : shape.Tabular columns) (seen : List String) :
    shape.ofMembers seen state [] = .ok record ↔
      ∀ column ∈ columns, column.FilledBy [] seen state record := by
  rw [ofMembers]
  by_cases complete : ∀ column ∈ columns, column.name ∈ seen
  · rw [h.missing?_eq_none_iff.mpr complete]
    constructor
    · rintro ⟨⟩ column mem
      rw [Column.FilledBy, if_pos (complete column mem)]
      exact ⟨rfl, rfl⟩
    · intro filled
      refine congrArg Except.ok (h.ext state record fun column mem => ?_)
      have seenBefore := filled column mem
      rw [Column.FilledBy, if_pos (complete column mem)] at seenBefore
      exact seenBefore.2.symm
  · cases missing : shape.missing? seen with
    | none => exact absurd (h.missing?_eq_none_iff.mp missing) complete
    | some name =>
        refine ⟨nofun, fun filled => absurd (fun column mem => ?_) complete⟩
        have once := filled column mem
        unfold Column.FilledBy at once
        split at once
        · assumption
        · cases once

/-- Members are read if every column of the shape finds in them what it waits for. -/
theorem ofMembers_eq_ok_iff (h : shape.Tabular columns) (members : List (String × Json))
    (seen : List String) (state : σ) :
    shape.ofMembers seen state members = .ok record ↔
      ∀ column ∈ columns, column.FilledBy members seen state record := by
  induction members generalizing seen state with
  | nil => exact h.ofMembers_nil seen
  | cons member rest ih =>
      obtain ⟨name, value⟩ := member
      rw [ofMembers]
      by_cases known : ∃ column ∈ columns, column.name = name
      · obtain ⟨column, mem, rfl⟩ := known
        rw [h.find?_eq_some mem]
        dsimp only
        -- A second member of one name is refused, and no record is written with two.
        by_cases again : column.name ∈ seen
        · rw [if_pos (List.contains_iff_mem.mpr again)]
          refine ⟨nofun, fun filled => ?_⟩
          have twice := filled column mem
          rw [Column.FilledBy, if_pos again, named_cons_of_eq] at twice
          cases twice.1
        · rw [if_neg fun seen => again (List.contains_iff_mem.mp seen), bind_eq_ok]
          constructor
          · rintro ⟨put, fits, read⟩
            obtain ⟨n, rfl, small, rfl⟩ := Column.put_eq_ok_iff.mp fits
            intro other mem'
            exact (h.filledBy_cons mem again small rest mem').mp ((ih _ _).mp read other mem')
          · intro filled
            have once := filled column mem
            rw [Column.FilledBy, if_neg again, named_cons_of_eq] at once
            obtain ⟨held, -⟩ := List.cons.inj once
            obtain ⟨-, rfl⟩ := Prod.mk.inj held
            have small := h.get_lt column mem record
            refine ⟨column.put (column.get record), Column.put_eq_ok_iff.mpr ⟨_, rfl, small, rfl⟩, ?_⟩
            refine (ih _ _).mpr fun other mem' => ?_
            exact (h.filledBy_cons mem again small rest mem').mpr (filled other mem')
      · have unknown : ∀ column ∈ columns, column.name ≠ name :=
          fun column mem same => known ⟨column, mem, same⟩
        rw [h.find?_eq_none unknown]
        dsimp only
        rw [ih]
        refine forall₂_congr fun column mem => ?_
        rw [Column.FilledBy, Column.FilledBy, named_cons_of_ne (unknown column mem).symm]

/-- Items are read if they are the values of the columns still to come, and the columns before these are in
the state. -/
theorem ofItems_eq_ok_iff (h : shape.Tabular columns) (length : Nat) {before rest : List (Column σ)}
    (split : columns = before ++ rest) (count : Nat) (state : σ) (items : List Json) :
    shape.ofItems length (rest.map Column.field) count state items = .ok record ↔
      items = rest.map (·.value record) ∧
        ∀ column ∈ before, column.get record = column.get state := by
  induction rest generalizing before count state items with
  | nil =>
      rw [List.append_nil] at split
      subst split
      cases items with
      | cons item items => exact ⟨nofun, nofun⟩
      | nil =>
          constructor
          · rintro ⟨⟩
            exact ⟨rfl, fun _ _ => rfl⟩
          · rintro ⟨-, same⟩
            exact congrArg Except.ok (h.ext state record fun column mem => (same column mem).symm)
  | cons column rest ih =>
      cases items with
      | nil =>
          rw [List.map_cons, ofItems, h.required]
          exact ⟨nofun, nofun⟩
      | cons item items =>
          have split' : columns = (before ++ [column]) ++ rest := by
            rw [split, List.append_assoc, List.singleton_append]
          have mem : column ∈ columns := by simp [split]
          have earlier : ∀ other ∈ before, other.name ≠ column.name := by
            have distinct := h.distinct
            rw [split, List.map_append, List.nodup_append] at distinct
            intro other mem'
            exact distinct.2.2 _ (List.mem_map_of_mem mem') _ (by simp)
          -- The invariant of the recursion, one column further on.
          have kept : ∀ n, n < column.width.limit →
              ((∀ other ∈ before ++ [column], other.get record = other.get (column.put n state)) ↔
                (∀ other ∈ before, other.get record = other.get state) ∧ column.get record = n) := by
            intro n small
            rw [List.forall_mem_append, List.forall_mem_singleton]
            refine and_congr (forall₂_congr fun other mem' => ?_) ?_
            · rw [h.get_put column mem other (by simp [split, mem']) n state small,
                if_neg (earlier other mem')]
            · rw [h.get_put column mem column mem n state small, if_pos rfl]
          rw [List.map_cons, List.map_cons, ofItems, bind_eq_ok, List.cons.injEq]
          constructor
          · rintro ⟨put, fits, read⟩
            obtain ⟨n, rfl, small, rfl⟩ := Column.put_eq_ok_iff.mp fits
            obtain ⟨tail, all⟩ := (ih split' _ _ _).mp read
            obtain ⟨same, rfl⟩ := (kept n small).mp all
            exact ⟨⟨rfl, tail⟩, same⟩
          · rintro ⟨⟨rfl, tail⟩, same⟩
            have small := h.get_lt column mem record
            refine ⟨column.put (column.get record), Column.put_eq_ok_iff.mpr ⟨_, rfl, small, rfl⟩, ?_⟩
            exact (ih split' _ _ _).mpr ⟨tail, (kept _ small).mpr ⟨same, rfl⟩⟩

/-- A record is read from an object with one member for each column, or from the array of the columns in
order. -/
theorem ofValue_eq_ok_iff (h : shape.Tabular columns) {value : Json} :
    shape.ofValue value = .ok record ↔
      (∃ members, value = .object members ∧
        ∀ column ∈ columns, named column.name members = [(column.name, column.value record)]) ∨
      value = .array (columns.map (·.value record)) := by
  cases value with
  | object members =>
      rw [ofValue, h.ofMembers_eq_ok_iff]
      constructor
      · intro filled
        exact .inl ⟨members, rfl, fun column mem => filled column mem⟩
      · rintro (⟨_, ⟨⟩, filled⟩ | ⟨⟨⟩⟩)
        exact fun column mem => filled column mem
  | array items =>
      rw [ofValue, h.fields, h.ofItems_eq_ok_iff items.length (List.nil_append columns).symm]
      constructor
      · rintro ⟨rfl, -⟩
        exact .inr rfl
      · rintro (⟨_, ⟨⟩, _⟩ | ⟨⟨⟩⟩)
        exact ⟨rfl, nofun⟩
  | null | bool | number | string =>
      refine ⟨nofun, ?_⟩
      rintro (⟨_, ⟨⟩, _⟩ | ⟨⟨⟩⟩)

end Shape.Tabular

end Json

end AppleOne
