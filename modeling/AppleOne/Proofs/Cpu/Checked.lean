import AppleOne.Board
import AppleOne.Json.Decode
import AppleOne.Proofs.Cpu.Cycles

/-!
The processor with its arithmetic checked: sums and differences are taken in machine integers, and one
that does not fit stops the execution. None ever does (`Cpu.checkedStep_eq`).
-/

namespace AppleOne

open Json (Width)

/-- What stops a checked execution. -/
inductive Trap where
  /-- A place past the end of a memory. -/
  | outOfRange
  /-- A sum or a difference that is too large or too small for its type. -/
  | overflow
  | fault (cause : Fault)
  deriving DecidableEq, Repr

abbrev Checked := Except Trap

namespace Checked

/-- The sum of two unsigned integers. -/
def plus (width : Width) (a b : Nat) : Checked Nat :=
  if a + b < width.limit then .ok (a + b) else .error .overflow

/-- The difference of two unsigned integers. -/
def minus (a b : Nat) : Checked Nat := if b ≤ a then .ok (a - b) else .error .overflow

/-- The difference of two signed integers of 16 bits. -/
def signedMinus (a b : Int) : Checked Int :=
  if -0x8000 ≤ a - b ∧ a - b < 0x8000 then .ok (a - b) else .error .overflow

theorem plus_eq {width : Width} {a b : Nat} (fits : a + b < width.limit) :
    plus width a b = .ok (a + b) := if_pos fits

theorem plus_word {a b : Nat} (fits : a + b < 0x10000) : plus .word a b = .ok (a + b) := plus_eq fits

theorem plus_size {a b : Nat} (fits : a + b < 0x10000000000000000) : plus .size a b = .ok (a + b) :=
  plus_eq fits

theorem minus_eq {a b : Nat} (fits : b ≤ a) : minus a b = .ok (a - b) := if_pos fits

theorem signedMinus_eq {a b : Int} (least : -0x8000 ≤ a - b) (most : a - b < 0x8000) :
    signedMinus a b = .ok (a - b) := if_pos ⟨least, most⟩

@[simp] theorem ok_bind {α β : Type} (value : α) (next : α → Checked β) :
    ((.ok value : Checked α) >>= next) = next value := rfl

theorem plus_word_bind {α : Type} {a b : Nat} (fits : a + b < 0x10000) (next : Nat → Checked α) :
    (plus .word a b >>= next) = next (a + b) := by
  rw [plus_word fits, ok_bind]

theorem signedMinus_bind {α : Type} {a b : Int} (least : -0x8000 ≤ a - b) (most : a - b < 0x8000)
    (next : Int → Checked α) : (signedMinus a b >>= next) = next (a - b) := by
  rw [signedMinus_eq least most, ok_bind]

end Checked

open Checked

/-! ### The arithmetic unit -/

namespace Arithmetic

def checkedAdd (s : Status) (a b : UInt8) : Checked (UInt8 × Status) := do
  let sum ← plus .word (← plus .word a.toNat b.toNat) s.carry.toNat
  let result := UInt8.ofNat sum
  return (result, { s.test result with
    carry := decide (0xFF < sum)
    overflow := overflows a b result })

def checkedSubtract (s : Status) (a b : UInt8) : Checked (UInt8 × Status) := checkedAdd s a (~~~b)

/-- Leaves out the six codes of a digit that are none. -/
def checkedSumDigit (sum : Nat) : Checked Nat := if 9 < sum then plus .word sum 6 else .ok sum

def checkedDifferenceDigit (difference : Int) : Checked Int :=
  if difference < 0 then signedMinus difference 6 else .ok difference

def checkedAddDecimal (s : Status) (a b : UInt8) : Checked (UInt8 × Status) := do
  let binary ← plus .word (← plus .word a.toNat b.toNat) s.carry.toNat
  let low ← checkedSumDigit (← plus .word (← plus .word (a.toNat % 16) (b.toNat % 16)) s.carry.toNat)
  let highSum ← plus .word (← plus .word (a.toNat / 16) (b.toNat / 16)) (decide (15 < low)).toNat
  let uncorrected := UInt8.ofNat (highSum * 16 + low % 16)
  let high ← checkedSumDigit highSum
  return (UInt8.ofNat (high * 16 + low % 16),
    { s with
      zero := UInt8.ofNat binary == 0
      negative := sign uncorrected
      overflow := overflows a b uncorrected
      carry := decide (15 < high) })

def checkedSubtractDecimal (s : Status) (a b : UInt8) : Checked (UInt8 × Status) := do
  let borrow ← signedMinus 1 s.carry.toNat
  let difference ← checkedSubtract s a b
  let lowDifference ← signedMinus (← signedMinus ↑(a.toNat % 16) ↑(b.toNat % 16)) borrow
  let highDifference ← signedMinus (← signedMinus ↑(a.toNat / 16) ↑(b.toNat / 16))
    (decide (lowDifference < 0)).toNat
  let low ← checkedDifferenceDigit lowDifference
  let high ← checkedDifferenceDigit highDifference
  return (UInt8.ofNat ((high * 16 + low % 16) % 256).toNat, difference.2)

variable (s : Status) (a b : UInt8)

theorem checkedAdd_eq : checkedAdd s a b = .ok (add s a b) := by
  have first := a.toNat_lt
  have second := b.toNat_lt
  have carry := s.carry.toNat_le
  rw [checkedAdd, plus_word_bind (by omega), plus_word_bind (by omega)]
  rfl

theorem checkedSumDigit_eq {sum : Nat} (small : sum < 64) :
    checkedSumDigit sum = .ok (if 9 < sum then sum + 6 else sum) := by
  rw [checkedSumDigit]
  split
  · exact plus_word (by omega)
  · rfl

theorem checkedDifferenceDigit_eq {difference : Int} (least : -64 < difference) :
    checkedDifferenceDigit difference = .ok (if difference < 0 then difference - 6 else difference) := by
  rw [checkedDifferenceDigit]
  split
  · exact signedMinus_eq (by omega) (by omega)
  · rfl

theorem checkedAddDecimal_eq : checkedAddDecimal s a b = .ok (addDecimal s a b) := by
  have first := a.toNat_lt
  have second := b.toNat_lt
  have carry := s.carry.toNat_le
  have crossed := (decide (15 < if 9 < a.toNat % 16 + b.toNat % 16 + s.carry.toNat then
    a.toNat % 16 + b.toNat % 16 + s.carry.toNat + 6
    else a.toNat % 16 + b.toNat % 16 + s.carry.toNat)).toNat_le
  rw [checkedAddDecimal, plus_word_bind (by omega), plus_word_bind (by omega),
    plus_word_bind (by omega), plus_word_bind (by omega), checkedSumDigit_eq (by omega), ok_bind,
    plus_word_bind (by omega), plus_word_bind (by omega), checkedSumDigit_eq (by omega)]
  rfl

theorem checkedSubtractDecimal_eq :
    checkedSubtractDecimal s a b = .ok (subtractDecimal s a b) := by
  have first := a.toNat_lt
  have second := b.toNat_lt
  have carry := s.carry.toNat_le
  have borrow : 1 - (s.carry.toNat : Int) = (!s.carry).toNat := by cases s.carry <;> rfl
  have borrowed := (!s.carry).toNat_le
  have crossed :=
    (decide ((a.toNat % 16 : Nat) - (b.toNat % 16 : Nat) - ((!s.carry).toNat : Int) < 0)).toNat_le
  rw [checkedSubtractDecimal, signedMinus_bind (by omega) (by omega), checkedSubtract, checkedAdd_eq,
    ok_bind, borrow, signedMinus_bind (by omega) (by omega), signedMinus_bind (by omega) (by omega),
    signedMinus_bind (by omega) (by omega), signedMinus_bind (by omega) (by omega),
    checkedDifferenceDigit_eq (by omega), ok_bind, checkedDifferenceDigit_eq (by omega)]
  rfl

end Arithmetic

/-! ### Results of a transaction -/

namespace Transaction

variable {α β : Type} {P : α → Prop}

/-- Whatever the reads bring, the result has a property. -/
def Yields (P : α → Prop) : Transaction α → Prop
  | done result => P result
  | read _ next => ∀ value, (next value).Yields P
  | write _ _ next => next.Yields P
  | note _ next => next.Yields P

theorem Yields.bind {f : β → Transaction α} (t : Transaction β) (h : ∀ result, (f result).Yields P) :
    (t >>= f).Yields P := by
  induction t with
  | done result => exact h result
  | read address next ih => exact ih
  | write address value next ih => exact ih
  | note diagnostic next ih => exact ih

theorem Yields.bind_congr {t : Transaction α} {f g : α → Transaction β} (h : t.Yields P)
    (same : ∀ result, P result → f result = g result) : t >>= f = t >>= g := by
  induction t with
  | done result => exact same result h
  | read address next ih => exact congrArg (read address) (funext fun value => ih value (h value))
  | write address value next ih => exact congrArg (write address value) (ih h)
  | note diagnostic next ih => exact congrArg (note diagnostic) (ih h)

end Transaction

/-! ### Steps -/

namespace Cpu

open Transaction (byteAt report Yields)

def checkedAddWithCarry (cpu : Cpu) (value : UInt8) : Checked Cpu :=
  cpu.accumulate <$>
    if cpu.decimalMode then Arithmetic.checkedAddDecimal cpu.status cpu.a value
    else Arithmetic.checkedAdd cpu.status cpu.a value

def checkedSubtractWithBorrow (cpu : Cpu) (value : UInt8) : Checked Cpu :=
  cpu.accumulate <$>
    if cpu.decimalMode then Arithmetic.checkedSubtractDecimal cpu.status cpu.a value
    else Arithmetic.checkedSubtract cpu.status cpu.a value

theorem checkedAddWithCarry_eq (cpu : Cpu) (value : UInt8) :
    cpu.checkedAddWithCarry value = .ok (cpu.addWithCarry value) := by
  rw [checkedAddWithCarry, addWithCarry, Arithmetic.checkedAddDecimal_eq, Arithmetic.checkedAdd_eq]
  split <;> rfl

theorem checkedSubtractWithBorrow_eq (cpu : Cpu) (value : UInt8) :
    cpu.checkedSubtractWithBorrow value = .ok (cpu.subtractWithBorrow value) := by
  rw [checkedSubtractWithBorrow, subtractWithBorrow, Arithmetic.checkedSubtractDecimal_eq,
    Arithmetic.checkedSubtract, Arithmetic.checkedAdd_eq]
  split <;> rfl

end Cpu

/-- The operations whose sums could leave their type. All the others only take sums that go round. -/
def Operation.checkedApply? : Operation → Option (Cpu → UInt8 → Checked Cpu)
  | .adc => some Cpu.checkedAddWithCarry
  | .sbc => some Cpu.checkedSubtractWithBorrow
  | _ => none

namespace Cpu

open Transaction (byteAt report Yields)

def checkedAct (cpu : Cpu) (instruction : Instruction) : Transaction (Checked (Nat × Cpu)) :=
  match instruction.operation.checkedApply? with
  | some apply => do
    let (operand, cpu) ← cpu.locate instruction.mode
    let value ← byteAt operand.address
    return do
      let cpu ← apply cpu value
      return (operand.crossed.toNat, cpu)
  | none => Except.ok <$> cpu.act instruction.mode instruction.operation.action

def checkedInstruction (cpu : Cpu) : Transaction (Checked (Nat × Cpu)) := do
  let start := cpu.pc
  let (opcode, cpu) ← cpu.fetch
  match decode opcode with
  | some instruction =>
    let acted ← cpu.checkedAct instruction
    return do
      let (penalty, cpu) ← acted
      let cycles ← plus .double instruction.cycles penalty
      return (cycles, cpu)
  | none =>
    report (.undefined opcode start cpu.registers)
    return .ok (undefinedCycles, cpu)

def checkedAdvance (cpu : Cpu) : Transaction (Checked (Nat × Cpu)) :=
  if cpu.nmiPending then do
    let cpu ← enterInterrupt { cpu with nmiPending := false } .nmi
    return .ok (interruptCycles, cpu)
  else if cpu.irqLine && !cpu.status.interruptsOff then do
    let cpu ← cpu.enterInterrupt .irq
    return .ok (interruptCycles, cpu)
  else
    cpu.checkedInstruction

/-- A step with its sums checked. The counter of all cycles goes round. -/
def checkedStep (cpu : Cpu) : Transaction (Checked (Nat × Cpu)) := do
  let advanced ← cpu.checkedAdvance
  return do
    let (cycles, cpu) ← advanced
    return (cycles, { cpu with cycles := cpu.cycles + UInt64.ofNat cycles })

theorem act_yields (cpu : Cpu) (mode : AddressMode) (action : Action) :
    (cpu.act mode action).Yields (·.1 ≤ 2) := by
  have one (b : Bool) : b.toNat ≤ 2 := Nat.le_trans b.toNat_le (by decide)
  cases action with
  | load penalised apply => exact .bind _ fun _ => .bind _ fun _ => one _
  | store value => exact .bind _ fun _ => .bind _ fun _ => Nat.zero_le 2
  | modify apply =>
      rw [act]
      split
      · exact Nat.zero_le 2
      · exact .bind _ fun _ => .bind _ fun _ => .bind _ fun _ => Nat.zero_le 2
  | inner apply => exact Nat.zero_le 2
  | push value => exact .bind _ fun _ => Nat.zero_le 2
  | pull apply => exact .bind _ fun _ => Nat.zero_le 2
  | branch taken =>
      refine .bind _ ?_
      rintro ⟨offset, cpu⟩
      dsimp only
      split
      · change (if _ then 2 else 1) ≤ 2
        split <;> decide
      · exact Nat.zero_le 2
  | jump => exact .bind _ fun _ => Nat.zero_le 2
  | call => exact .bind _ fun _ => .bind _ fun _ => Nat.zero_le 2
  | ret => exact .bind _ fun _ => Nat.zero_le 2
  | interruptReturn => exact .bind _ fun _ => .bind _ fun _ => Nat.zero_le 2
  | softwareBreak =>
      exact .bind _ fun _ => .bind _ fun _ => .bind _ fun _ => .bind _ fun _ => Nat.zero_le 2

theorem checkedAct_eq (cpu : Cpu) (instruction : Instruction) :
    cpu.checkedAct instruction =
      Except.ok <$> cpu.act instruction.mode instruction.operation.action := by
  obtain ⟨operation, mode, cycles⟩ := instruction
  cases operation with
  | adc =>
      simp only [checkedAct, Operation.checkedApply?, Operation.action, act, checkedAddWithCarry_eq,
        map_eq_pure_bind, bind_assoc]
      rfl
  | sbc =>
      simp only [checkedAct, Operation.checkedApply?, Operation.action, act,
        checkedSubtractWithBorrow_eq, map_eq_pure_bind, bind_assoc]
      rfl
  | _ => rfl

theorem checkedInstruction_eq (cpu : Cpu) : cpu.checkedInstruction = Except.ok <$> cpu.instruction := by
  simp only [checkedInstruction, instruction, map_bind]
  refine bind_congr ?_
  rintro ⟨opcode, cpu'⟩
  dsimp only
  cases decoded : decode opcode with
  | none => rfl
  | some instruction =>
      have bounds := Instruction.cycles_bounds decoded
      have small := cpu'.act_yields instruction.mode instruction.operation.action
      have fits {penalty : Nat} (least : penalty ≤ 2) : instruction.cycles + penalty < 0x100000000 := by
        omega
      dsimp only
      rw [checkedAct_eq, bind_map_left, map_bind]
      refine small.bind_congr ?_
      rintro ⟨penalty, cpu⟩ least
      rw [ok_bind, plus_eq (fits least)]
      rfl

theorem checkedAdvance_eq (cpu : Cpu) : cpu.checkedAdvance = Except.ok <$> cpu.advance := by
  rw [checkedAdvance, advance, checkedInstruction_eq]
  split
  · rfl
  · split <;> rfl

/-- No sum of the processor leaves its type. -/
theorem checkedStep_eq (cpu : Cpu) : cpu.checkedStep = Except.ok <$> cpu.step := by
  rw [checkedStep, step, checkedAdvance_eq, bind_map_left, map_bind]
  rfl

end Cpu

end AppleOne
