import AppleOne.Cpu.Step
import AppleOne.Proofs.Bus.Replay

/-!
Where an instruction finds its operand, mode by mode, as a function of the bytes that the reads
brought: number 0 is the opcode and the operand bytes follow. `replay_locate` says that the processor
looks for the operand with exactly these reads. The stack is page one.
-/

namespace AppleOne

namespace Cpu

/-! ### The stack's page -/

theorem toNat_stackAddress (sp : UInt8) : (stackAddress sp).toNat = 0x100 + sp.toNat := by
  rw [stackAddress, UInt16.toNat_or, UInt8.toNat_toUInt16]
  exact (Nat.two_pow_add_eq_or_of_lt sp.toNat_lt 1).symm

theorem stackAddress_bounds (sp : UInt8) : 0x100 ≤ stackAddress sp ∧ stackAddress sp < 0x200 := by
  have := sp.toNat_lt
  rw [UInt16.le_iff_toNat_le, UInt16.lt_iff_toNat_lt, toNat_stackAddress]
  change 0x100 ≤ 0x100 + sp.toNat ∧ 0x100 + sp.toNat < 0x200
  omega

/-- Nothing above page one is on the stack, and nothing in page zero. -/
theorem stackAddress_ne {address : UInt16} (outside : address < 0x100 ∨ 0x200 ≤ address) (sp : UInt8) :
    stackAddress sp ≠ address := by
  have page := stackAddress_bounds sp
  rintro rfl
  rcases outside with low | high
  · exact UInt16.not_lt.mpr page.1 low
  · exact UInt16.not_lt.mpr high page.2

/-! ### The operand -/

/-- The processor with its program counter moved on. -/
def past (cpu : Cpu) (n : Nat) : Cpu := { cpu with pc := cpu.pc + UInt16.ofNat n }

variable (cpu : Cpu) (n : Nat)

@[simp] theorem past_a : (cpu.past n).a = cpu.a := rfl
@[simp] theorem past_x : (cpu.past n).x = cpu.x := rfl
@[simp] theorem past_y : (cpu.past n).y = cpu.y := rfl
@[simp] theorem past_sp : (cpu.past n).sp = cpu.sp := rfl
@[simp] theorem past_status : (cpu.past n).status = cpu.status := rfl
@[simp] theorem past_pc : (cpu.past n).pc = cpu.pc + UInt16.ofNat n := rfl
@[simp] theorem past_cycles : (cpu.past n).cycles = cpu.cycles := rfl
@[simp] theorem past_irqLine : (cpu.past n).irqLine = cpu.irqLine := rfl
@[simp] theorem past_nmiPending : (cpu.past n).nmiPending = cpu.nmiPending := rfl
@[simp] theorem past_decimalEnabled : (cpu.past n).decimalEnabled = cpu.decimalEnabled := rfl
@[simp] theorem past_decimalMode : (cpu.past n).decimalMode = cpu.decimalMode := rfl

theorem past_succ : { cpu.past n with pc := (cpu.past n).pc + 1 } = cpu.past (n + 1) := by
  simp [past, UInt16.ofNat_add, UInt16.add_assoc]

theorem fetch_past : (cpu.past n).fetch =
    .read (cpu.pc + UInt16.ofNat n) fun value => .done (value, cpu.past (n + 1)) := by
  rw [← past_succ]
  rfl

theorem fetchWord_past : (cpu.past n).fetchWord =
    .read (cpu.pc + UInt16.ofNat n) fun low => .read (cpu.pc + UInt16.ofNat (n + 1)) fun high =>
      .done (wordOf low high, cpu.past (n + 2)) := by
  simp [fetchWord, fetch_past]

end Cpu

namespace AddressMode

def hasPlace : AddressMode → Bool
  | .implied | .accumulator | .relative => false
  | _ => true

variable (cpu : Cpu) (answer : Nat → UInt8)

def operandReads (mode : AddressMode) : List Access :=
  (List.range mode.operandLength).map fun k =>
    .read (cpu.pc + UInt16.ofNat (k + 1)) (answer (k + 1))

/-- The two reads of a pointer. Page zero does not end at its last byte, nor does any page for a
jump. -/
def pointerReads : AddressMode → List Access
  | .indirect =>
    let pointer := wordOf (answer 1) (answer 2)
    [.read pointer (answer 3), .read ((pointer &&& 0xFF00) ||| ((pointer + 1) &&& 0x00FF)) (answer 4)]
  | .indexedIndirect =>
    [.read (answer 1 + cpu.x).toUInt16 (answer 2), .read (answer 1 + cpu.x + 1).toUInt16 (answer 3)]
  | .indirectIndexed =>
    [.read (answer 1).toUInt16 (answer 2), .read (answer 1 + 1).toUInt16 (answer 3)]
  | _ => []

/-- Base address and index of the modes whose index may lead out of the page. -/
def indexing? : AddressMode → Option (UInt16 × UInt8)
  | .absoluteX => some (wordOf (answer 1) (answer 2), cpu.x)
  | .absoluteY => some (wordOf (answer 1) (answer 2), cpu.y)
  | .indirectIndexed => some (wordOf (answer 2) (answer 3), cpu.y)
  | _ => none

def effectiveAddress : AddressMode → UInt16
  | .immediate => cpu.pc + 1
  | .zeroPage => (answer 1).toUInt16
  | .zeroPageX => (answer 1 + cpu.x).toUInt16
  | .zeroPageY => (answer 1 + cpu.y).toUInt16
  | .absolute => wordOf (answer 1) (answer 2)
  | .absoluteX => wordOf (answer 1) (answer 2) + cpu.x.toUInt16
  | .absoluteY => wordOf (answer 1) (answer 2) + cpu.y.toUInt16
  | .indirect => wordOf (answer 3) (answer 4)
  | .indexedIndirect => wordOf (answer 2) (answer 3)
  | .indirectIndexed => wordOf (answer 2) (answer 3) + cpu.y.toUInt16
  | .implied | .accumulator | .relative => 0

def operandNumber : AddressMode → Nat
  | .immediate => 1
  | .zeroPage | .zeroPageX | .zeroPageY => 2
  | .absolute | .absoluteX | .absoluteY => 3
  | .indirect => 5
  | .indexedIndirect | .indirectIndexed => 4
  | .implied | .accumulator | .relative => 1

def leavesPage (mode : AddressMode) : Bool :=
  match mode.indexing? cpu answer with
  | some (base, index) => crossesPage base (base + index.toUInt16)
  | none => false

/-- The reads before that of the operand. An immediate operand is an operand byte itself. -/
def locatingReads (mode : AddressMode) : List Access :=
  if mode = .immediate then [] else mode.operandReads cpu answer ++ mode.pointerReads cpu answer

theorem length_answers_locatingReads {mode : AddressMode} (h : mode.hasPlace) :
    1 + (Access.answers (mode.locatingReads cpu answer)).length = mode.operandNumber := by
  cases mode with
  | implied | accumulator | relative => cases h
  | _ => rfl

theorem replay_locate {mode : AddressMode} (h : mode.hasPlace) :
    ((cpu.past 1).locate mode).replay answer 1 =
      ((⟨mode.effectiveAddress cpu answer, mode.leavesPage cpu answer⟩,
        cpu.past (1 + mode.operandLength)), mode.locatingReads cpu answer) := by
  cases mode with
  | implied | accumulator | relative => cases h
  | immediate =>
      simp only [Cpu.locate, Cpu.past_succ]
      rfl
  | _ =>
      simp [Cpu.locate, Cpu.fetch_past, Cpu.fetchWord_past, Cpu.readJumpTarget, Cpu.readPageZeroWord,
        Cpu.indexed, Transaction.byteAt, effectiveAddress, leavesPage, indexing?, locatingReads,
        operandReads, pointerReads, operandLength, List.range_succ]

end AddressMode

end AppleOne
