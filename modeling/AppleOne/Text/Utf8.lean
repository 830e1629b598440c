/-!
Bytes as text: UTF-8, with a replacement character for every part that is none.
-/

namespace AppleOne.Text

/-- The part of a character that has been read. -/
structure Pending where
  value : Nat
  /-- The least and the greatest byte that may come next. -/
  least : Nat
  most : Nat
  /-- How many more bytes the character has. -/
  left : Nat
  deriving DecidableEq, Repr

/-- What a byte begins, if it begins a character of several bytes. The second byte is bounded where
it could make a longer form of a character, a surrogate, or a number past the last character. -/
def Pending.ofLead? (b : Nat) : Option Pending :=
  if b < 0xC2 then none
  else if b < 0xE0 then some ⟨b - 0xC0, 0x80, 0xBF, 1⟩
  else if b < 0xF0 then
    some ⟨b - 0xE0, if b = 0xE0 then 0xA0 else 0x80, if b = 0xED then 0x9F else 0xBF, 2⟩
  else if b < 0xF5 then
    some ⟨b - 0xF0, if b = 0xF0 then 0x90 else 0x80, if b = 0xF4 then 0x8F else 0xBF, 3⟩
  else none

/-- Stands for bytes that make no character. -/
def replacement : Char := '\uFFFD'

/-- Reads a byte that no earlier one asks for. -/
def readLead (text : String) (b : Nat) : String × Option Pending :=
  if b < 0x80 then (text.push (Char.ofNat b), none)
  else
    match Pending.ofLead? b with
    | some pending => (text, some pending)
    | none => (text.push replacement, none)

/-- Reads a byte. One that cannot go on with a character ends it, and is read anew. -/
def readByte : String × Option Pending → UInt8 → String × Option Pending
  | (text, none), b => readLead text b.toNat
  | (text, some pending), b =>
    if pending.least ≤ b.toNat ∧ b.toNat ≤ pending.most then
      let value := pending.value * 0x40 + (b.toNat - 0x80)
      if pending.left ≤ 1 then (text.push (Char.ofNat value), none)
      else (text, some ⟨value, 0x80, 0xBF, pending.left - 1⟩)
    else readLead (text.push replacement) b.toNat

/-- The text that bytes show. -/
def shown (bytes : Array UInt8) : String :=
  match bytes.foldl readByte ("", none) with
  | (text, none) => text
  | (text, some _) => text.push replacement

end AppleOne.Text
