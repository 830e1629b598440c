import Mathlib.Data.List.Forall2
import AppleOne.Proofs.Host.Keyboard

/-!
Text that is typed. Each character is one key, but for a carriage return directly before a line feed; so a
text may be typed in pieces, as long as none of them ends between those two.
-/

namespace AppleOne.HostKey

/-! ### Texts in pieces -/

theorem ofChars_cons (c : Char) (rest : List Char) :
    ofChars (c :: rest) =
      if c = '\r' ∧ rest.head? = some '\n' then ofChars rest else ofChar c :: ofChars rest := by
  split
  · rename_i joins
    obtain ⟨rfl, feed⟩ := joins
    obtain ⟨behind, rfl⟩ := List.head?_eq_some_iff.mp feed
    rfl
  · rename_i apart
    refine ofChars.eq_3 c rest fun behind carriage same => apart ⟨carriage, ?_⟩
    rw [same, List.head?_cons]

theorem ofChars_append {x : List Char} (y : List Char)
    (apart : ¬(x.getLast? = some '\r' ∧ y.head? = some '\n')) :
    ofChars (x ++ y) = ofChars x ++ ofChars y := by
  induction x with
  | nil => rfl
  | cons c rest ih =>
      rw [List.cons_append, ofChars_cons, ofChars_cons c rest]
      cases rest with
      | nil =>
          have apart : ¬(c = '\r' ∧ y.head? = some '\n') := by simpa using apart
          rw [List.nil_append, if_neg apart, if_neg nofun]
          rfl
      | cons d rest =>
          rw [List.getLast?_cons_cons] at apart
          rw [ih apart, List.cons_append, List.head?_cons, List.head?_cons]
          split
          · rfl
          · rfl

/-- The line feed is no key of its own after a carriage return. -/
theorem ofChars_append_feed {x : List Char} (y : List Char) (last : x.getLast? = some '\r') :
    ofChars (x ++ '\n' :: y) = ofChars x ++ ofChars y := by
  induction x with
  | nil => cases last
  | cons c rest ih =>
      rw [List.cons_append, ofChars_cons, ofChars_cons c rest]
      cases rest with
      | nil =>
          cases last
          rfl
      | cons d rest =>
          rw [List.getLast?_cons_cons] at last
          rw [ih last, List.cons_append, List.head?_cons, List.head?_cons]
          split
          · rfl
          · rfl

/-! ### Keys in their places -/

/-- At this place is a carriage return, and a line feed directly behind it. -/
def Joins (chars : List Char) (place : Nat) : Prop :=
  chars[place]? = some '\r' ∧ chars[place + 1]? = some '\n'

instance (chars : List Char) (place : Nat) : Decidable (Joins chars place) :=
  inferInstanceAs (Decidable (_ ∧ _))

/-- The places of the characters that have a key. -/
def keyPlaces (chars : List Char) : List Nat :=
  (List.range chars.length).filter fun place => ¬Joins chars place

theorem keyPlaces_cons (c : Char) (rest : List Char) :
    keyPlaces (c :: rest) =
      if c = '\r' ∧ rest.head? = some '\n' then (keyPlaces rest).map (· + 1)
      else 0 :: (keyPlaces rest).map (· + 1) := by
  have later : ((List.range rest.length).map Nat.succ).filter (fun place => ¬Joins (c :: rest) place) =
      (keyPlaces rest).map (· + 1) := by
    rw [List.filter_map]
    rfl
  have first : Joins (c :: rest) 0 ↔ c = '\r' ∧ rest.head? = some '\n' := by
    rw [Joins, List.head?_eq_getElem?]
    simp
  rw [keyPlaces, List.length_cons, List.range_succ_eq_map, List.filter_cons, later]
  simp only [first, decide_not, Bool.not_eq_true', decide_eq_false_iff_not, ite_not]

theorem ofChars_places (chars : List Char) :
    List.Forall₂ (fun place key => ∃ c, chars[place]? = some c ∧ key = ofChar c)
      (keyPlaces chars) (ofChars chars) := by
  induction chars with
  | nil => exact .nil
  | cons c rest ih =>
      have later : List.Forall₂ (fun place key => ∃ d, (c :: rest)[place]? = some d ∧ key = ofChar d)
          ((keyPlaces rest).map (· + 1)) (ofChars rest) := List.forall₂_map_left_iff.mpr ih
      rw [ofChars_cons, keyPlaces_cons]
      split
      · exact later
      · exact .cons ⟨c, rfl, rfl⟩ later

/-- The places without a key are missing, and no others. -/
theorem length_ofChars (chars : List Char) :
    (ofChars chars).length + ((List.range chars.length).filter fun place => Joins chars place).length =
      chars.length := by
  have split := List.length_eq_length_filter_add (l := List.range chars.length) fun place => Joins chars place
  rw [List.length_range] at split
  simp only [← (ofChars_places chars).length_eq, keyPlaces, decide_not]
  rw [Nat.add_comm]
  exact split.symm

/-! ### What the keys do -/

/-- What is typed with the keys for returns, Escape and Backspace. -/
def controls : List Char := ['\r', '\n', '\x1b', '\x08', '\x7f']

/-- A key for a character: what stands on it, and what it does. -/
structure Types (c : Char) (key : HostKey) : Prop where
  plain : key ∉ controls.map char
  reset : key.action = some .reset ↔ c = '\x1b'
  nothing : key.action = none ↔ 128 ≤ c.toNat
  code : ∀ code, key.action = some (.key code) → code < 0x80 ∧ ¬(0x61 ≤ code ∧ code ≤ 0x7A) ∧
    (code = 0x0D → key = .enter) ∧ (code = 0x08 → key = .backspace)

theorem types_ascii {c : Char} (ascii : c.toNat < 128) :
    let key := ofChar c
    key ∉ controls.map char ∧ (key.action = some .reset ↔ c = '\x1b') ∧ key.action ≠ none ∧
      -- a quantifier over the codes would be decided by going through all 256 of them for each character
      key.code?.all fun code => ¬(0x61 ≤ code ∧ code ≤ 0x7A) ∧
        (code = 0x0D → key = .enter) ∧ (code = 0x08 → key = .backspace) := by
  refine forall_ascii ascii ?_
  decide +kernel

theorem ofChar_of_le {c : Char} (large : 128 ≤ c.toNat) : ofChar c = .char c := by
  have other : ∀ d : Char, d.toNat < 128 → c ≠ d := by
    rintro d small rfl
    omega
  rw [ofChar, if_neg (not_or.mpr ⟨other _ (by decide), other _ (by decide)⟩), if_neg (other _ (by decide)),
    if_neg (not_or.mpr ⟨other _ (by decide), other _ (by decide)⟩)]

theorem types_ofChar (c : Char) : Types c (ofChar c) := by
  by_cases ascii : c.toNat < 128
  · obtain ⟨plain, reset, some, codes⟩ := types_ascii ascii
    refine ⟨plain, reset, ⟨fun none => absurd none some, fun large => by omega⟩, ?_⟩
    intro code action
    rw [code?_eq_some_iff.mpr action] at codes
    exact ⟨code_lt action, of_decide_eq_true codes⟩
  · have large : 128 ≤ c.toNat := Nat.le_of_not_lt ascii
    have small : ∀ d ∈ controls, d.toNat < 128 := by simp [controls]
    have none : (ofChar c).action = none := by rw [ofChar_of_le large, action, if_neg ascii]
    refine ⟨?_, ?_, ⟨fun _ => large, fun _ => none⟩, ?_⟩
    · rw [ofChar_of_le large, List.mem_map]
      rintro ⟨d, among, same⟩
      cases same
      exact ascii (small c among)
    · rw [none]
      constructor
      · rintro ⟨⟩
      · rintro rfl
        exact absurd (by decide) ascii
    · rw [none]
      rintro code ⟨⟩

/-! ### Whole texts -/

theorem ofText_types :
    (∀ a b : String, ¬(a.toList.getLast? = some '\r' ∧ b.toList.head? = some '\n') →
      ofText (a ++ b) = ofText a ++ ofText b) ∧
    (∀ a b : String, a.toList.getLast? = some '\r' → ofText (a ++ ("\n" ++ b)) = ofText a ++ ofText b) ∧
    ∀ text : String,
      (ofText text).length +
          ((List.range text.length).filter fun place => Joins text.toList place).length = text.length ∧
      List.Forall₂ (fun place key => ∃ c, text.toList[place]? = some c ∧ key = ofChar c ∧ Types c key)
        (keyPlaces text.toList) (ofText text) := by
  refine ⟨fun a b apart => ?_, fun a b last => ?_, fun text => ⟨?_, ?_⟩⟩
  · rw [ofText, String.toList_append]
    exact ofChars_append _ apart
  · rw [ofText, String.toList_append, String.toList_append]
    exact ofChars_append_feed _ last
  · exact length_ofChars text.toList
  · refine (ofChars_places text.toList).imp fun place key typed => ?_
    obtain ⟨c, found, rfl⟩ := typed
    exact ⟨c, found, rfl, types_ofChar c⟩

example : ofText "\r\r\n\n" = [.enter, .enter, .enter] := by decide

end AppleOne.HostKey
