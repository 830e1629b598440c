/-!
The host's keyboard. The machine's keyboard has no lower-case letters, and its codes have seven bits;
Escape is the reset button.
-/

namespace AppleOne

/-- A key as the host has it. -/
inductive HostKey where
  | char (c : Char)
  | enter
  | backspace
  | escape
  deriving DecidableEq, Repr

/-- What a key does. -/
inductive KeyAction where
  /-- Offers a code to the machine. -/
  | key (code : UInt8)
  /-- Presses the reset button. -/
  | reset
  deriving DecidableEq, Repr

namespace HostKey

/-- What a key does; nothing, if the machine's keyboard has no such key. -/
def action : HostKey → Option KeyAction
  | enter => some (.key 0x0D)
  | backspace => some (.key 0x08)
  | escape => some .reset
  | char c => if c.toNat < 128 then some (.key c.toUpper.toNat.toUInt8) else none

/-- The key that types a character. -/
def ofChar (c : Char) : HostKey :=
  if c = '\n' ∨ c = '\r' then .enter
  else if c = '\x1b' then .escape
  else if c = '\x08' ∨ c = '\x7f' then .backspace
  else .char c

/-- The keys that type a text. A carriage return and a line feed after it are one key. -/
def ofChars : List Char → List HostKey
  | [] => []
  | '\r' :: '\n' :: rest => .enter :: ofChars rest
  | c :: rest => ofChar c :: ofChars rest

/-- The keys that type a text. -/
def ofText (text : String) : List HostKey := ofChars text.toList

end HostKey

end AppleOne
