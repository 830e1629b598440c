import AppleOne.Host.Keyboard

/-!
The codes that keys offer: seven bits, and none of a control character that has a key of its own.
-/

namespace AppleOne

/-- What holds of the characters of seven bits can be found out from each of them. -/
@[elab_as_elim]
theorem forall_ascii {P : Char → Prop} {c : Char} (ascii : c.toNat < 128)
    (all : ∀ n : Fin 128, P (Char.ofNat n)) : P c := by
  have found := all ⟨c.toNat, ascii⟩
  rwa [Char.ofNat_toNat] at found

namespace HostKey

/-- The code that a key offers, if it offers one. -/
def code? (key : HostKey) : Option UInt8 :=
  match key.action with
  | some (.key code) => some code
  | _ => none

theorem code?_eq_some_iff {key : HostKey} {code : UInt8} :
    key.code? = some code ↔ key.action = some (.key code) := by
  rw [code?]
  split
  · rename_i offered action
    rw [action]
    simp
  · rename_i other
    constructor
    · nofun
    · intro action
      exact absurd action (other code)

/-- A character of seven bits is no larger as a capital. -/
theorem toNat_toUpper_lt {c : Char} (ascii : c.toNat < 128) : c.toUpper.toNat < 128 := by
  refine forall_ascii ascii ?_
  decide +kernel

theorem code_lt {key : HostKey} {code : UInt8} (action : key.action = some (.key code)) :
    code < 0x80 := by
  cases key with
  | enter | backspace =>
      cases action
      decide
  | escape => cases action
  | char c =>
      rw [HostKey.action] at action
      split at action
      · rename_i ascii
        cases action
        rw [UInt8.lt_iff_toNat_lt, Nat.toUInt8, UInt8.toNat_ofNat']
        exact Nat.lt_of_le_of_lt (Nat.mod_le _ _) (toNat_toUpper_lt ascii)
      · cases action

theorem ofChar_ne_return (c : Char) : ofChar c ≠ .char '\r' := by
  rw [ofChar]
  split
  · nofun
  · rename_i noBreak
    split
    · nofun
    · split
      · nofun
      · intro same
        cases same
        exact noBreak (.inr rfl)

/-- A carriage return is typed by a key of its own. -/
theorem ne_return_of_mem_ofChars {chars : List Char} {key : HostKey} (member : key ∈ ofChars chars) :
    key ≠ .char '\r' := by
  induction chars using ofChars.induct with
  | case1 => cases member
  | case2 rest ih =>
      rw [ofChars] at member
      cases member with
      | head => nofun
      | tail _ later => exact ih later
  | case3 c rest other ih =>
      rw [ofChars.eq_3 c rest other] at member
      cases member with
      | head => exact ofChar_ne_return c
      | tail _ later => exact ih later

end HostKey

end AppleOne
