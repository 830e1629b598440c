/-!
The status register. The machine sees it as one byte, `NV1BDIZC` from bit 7 to bit 0; here each bit
has a name. The two views are equivalent: `ofByte_toByte` and `toByte_ofByte`.
-/

namespace AppleOne

/-- The bits of the status register. The break mark has a meaning only in copies on the stack,
and bit 5 has no meaning at all. -/
structure Status where
  negative : Bool
  overflow : Bool
  bit5 : Bool
  breakMark : Bool
  decimal : Bool
  interruptsOff : Bool
  zero : Bool
  carry : Bool
  deriving DecidableEq, Repr

namespace Status

/-- The byte whose bit `weight` stands for is set exactly if `flag` holds. -/
private def bit (flag : Bool) (weight : UInt8) : UInt8 := if flag then weight else 0

def toByte (s : Status) : UInt8 :=
  bit s.negative 0x80 ||| bit s.overflow 0x40 ||| bit s.bit5 0x20 ||| bit s.breakMark 0x10 |||
    bit s.decimal 0x08 ||| bit s.interruptsOff 0x04 ||| bit s.zero 0x02 ||| bit s.carry 0x01

def ofByte (b : UInt8) : Status where
  negative := b &&& 0x80 != 0
  overflow := b &&& 0x40 != 0
  bit5 := b &&& 0x20 != 0
  breakMark := b &&& 0x10 != 0
  decimal := b &&& 0x08 != 0
  interruptsOff := b &&& 0x04 != 0
  zero := b &&& 0x02 != 0
  carry := b &&& 0x01 != 0

theorem ofByte_toByte (s : Status) : ofByte s.toByte = s := by
  obtain ⟨n, v, u, b, d, i, z, c⟩ := s
  revert n v u b d i z c
  decide

theorem toByte_ofByte (b : UInt8) : (ofByte b).toByte = b := by
  have all : ∀ n : Fin 256, (ofByte (UInt8.ofFin n)).toByte = UInt8.ofFin n := by decide +kernel
  exact all b.toFin

/-- The status after power-on and reset: only interrupts off and bit 5 are set. -/
def initial : Status where
  negative := false
  overflow := false
  bit5 := true
  breakMark := false
  decimal := false
  interruptsOff := true
  zero := false
  carry := false

/-- Sign and zero test of a byte that was just produced. -/
def test (s : Status) (value : UInt8) : Status :=
  { s with negative := decide (0x80 ≤ value), zero := value == 0 }

/-- The copy that is pushed. The break mark tells an instruction from an interrupt. -/
def pushed (s : Status) (byInstruction : Bool) : Status :=
  { s with bit5 := true, breakMark := byInstruction }

/-- The status that a pulled byte stands for. -/
def pulled (b : UInt8) : Status :=
  { ofByte b with bit5 := true, breakMark := false }

end Status

end AppleOne
