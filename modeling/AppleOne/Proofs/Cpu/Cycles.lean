import AppleOne.Proofs.Cpu.Frame

/-!
How long a step takes: the table's cycles and a penalty, which the manual gives by operation, mode and
pages. `step_cycles` says that every step takes just that, and between two and seven cycles.
-/

namespace AppleOne

/-! ### Pages -/

def page (address : UInt16) : Nat := address.toNat / 256

theorem toNat_and_high (address : UInt16) : (address &&& 0xFF00).toNat = page address * 256 := by
  have mask : (0xFF00 : Nat) = (2 ^ 8 - 1) <<< 8 := rfl
  have high : page address * 256 = (address.toNat >>> 8) <<< 8 := by
    simp [page, Nat.shiftLeft_eq, Nat.shiftRight_eq_div_pow]
  rw [UInt16.toNat_and, high]
  apply Nat.eq_of_testBit_eq
  intro i
  change (address.toNat &&& 0xFF00).testBit i = _
  rw [mask, Nat.testBit_and, Nat.testBit_shiftLeft, Nat.testBit_two_pow_sub_one,
    Nat.testBit_shiftLeft, Nat.testBit_shiftRight]
  by_cases low : 8 ≤ i
  · have same : 8 + (i - 8) = i := by omega
    by_cases inside : i < 16
    · simp [low, same, show i - 8 < 8 by omega]
    · have bound : 2 ^ 16 ≤ 2 ^ i := Nat.pow_le_pow_right (by decide) (by omega)
      have beyond : address.toNat.testBit i = false :=
        Nat.testBit_lt_two_pow (Nat.lt_of_lt_of_le address.toNat_lt bound)
      simp [beyond, same]
  · simp [low]

theorem crossesPage_eq (a b : UInt16) : crossesPage a b = decide (page a ≠ page b) := by
  have split : (a ^^^ b) &&& 0xFF00 = (a &&& 0xFF00) ^^^ (b &&& 0xFF00) := by
    apply UInt16.toNat_inj.mp
    simp only [UInt16.toNat_and, UInt16.toNat_xor, Nat.and_xor_distrib_right]
  rw [Bool.eq_iff_iff, decide_eq_true_eq, crossesPage, bne_iff_ne, ne_eq, split,
    UInt16.xor_eq_zero_iff, ← UInt16.toNat_inj, toNat_and_high, toNat_and_high]
  omega

/-! ### The manual -/

/-- The operations that wait for an operand in another page than the base address. -/
def Operation.waits : Operation → Bool
  | .ora | .and | .eor | .adc | .sbc | .cmp | .lda | .ldx | .ldy => true
  | _ => false

namespace Instruction

variable (cpu : Cpu) (answer : Nat → UInt8) (instruction : Instruction)

/-- What is added to the table's cycles. -/
def penalty : Nat :=
  match instruction.operation.condition with
  | some (flag, value) =>
    if cpu.status.get flag ≠ value then 0
    else if page (instruction.branchTarget cpu answer) = page (instruction.following cpu) then 1
    else 2
  | none =>
    match instruction.mode.indexing? cpu answer with
    | some (base, index) =>
      if instruction.operation.waits ∧ page (base + index.toUInt16) ≠ page base then 1 else 0
    | none => 0

def maxPenalty : Nat :=
  if instruction.operation.condition.isSome then 2
  else if instruction.operation.waits ∧
    instruction.mode ∈ [.absoluteX, .absoluteY, .indirectIndexed] then 1
  else 0

theorem penalty_le : instruction.penalty cpu answer ≤ instruction.maxPenalty := by
  obtain ⟨operation, mode, cycles⟩ := instruction
  rw [penalty, maxPenalty]
  cases condition : operation.condition with
  | some needed =>
      dsimp only
      split
      · exact Nat.zero_le _
      · split <;> simp
  | none =>
      cases mode with
      | absoluteX | absoluteY | indirectIndexed =>
          simp only [AddressMode.indexing?]
          split <;> simp_all
      | _ => exact Nat.zero_le _

theorem cycles_bounds {opcode : UInt8} {instruction : Instruction}
    (decoded : decode opcode = some instruction) :
    2 ≤ instruction.cycles ∧ instruction.cycles + instruction.maxPenalty ≤ 7 := by
  have all : documented.all (fun row => 2 ≤ row.2.cycles ∧ row.2.cycles + row.2.maxPenalty ≤ 7) = true :=
    rfl
  exact of_decide_eq_true (List.all_eq_true.mp all _ (mem_documented_of_decode decoded))

end Instruction

theorem baseCycles_of_decode {opcode : UInt8} {instruction : Instruction}
    (decoded : decode opcode = some instruction) : baseCycles opcode = instruction.cycles := by
  unfold baseCycles
  -- A rewrite would unfold the whole table here.
  generalize decode opcode = row at decoded ⊢
  subst decoded
  rfl

namespace Cpu

variable (cpu : Cpu) (answer : Nat → UInt8)

/-- The cycles of a step with these answers. -/
def documentedCycles : Nat :=
  match cpu.due with
  | some _ => 7
  | none =>
    match decode (answer 0) with
    | some instruction => baseCycles (answer 0) + instruction.penalty cpu answer
    | none => 2

/-! ### The steps take just that -/

theorem leavesPage_toNat (mode : AddressMode) :
    (mode.leavesPage cpu answer).toNat =
      match mode.indexing? cpu answer with
      | some (base, index) => if page (base + index.toUInt16) ≠ page base then 1 else 0
      | none => 0 := by
  rw [AddressMode.leavesPage]
  cases mode.indexing? cpu answer with
  | none => rfl
  | some indexing =>
      simp only [crossesPage_eq, ne_eq, eq_comm]
      split <;> simp_all

theorem penalty_of_waits {operation : Operation} {mode : AddressMode}
    (condition : operation.condition = none) (waits : operation.waits) (cycles : Nat) :
    Instruction.penalty cpu answer ⟨operation, mode, cycles⟩ =
      (true && mode.leavesPage cpu answer).toNat := by
  rw [Bool.true_and, leavesPage_toNat]
  simp only [Instruction.penalty, condition, waits, true_and]

theorem penalty_of_not_waits {operation : Operation} {mode : AddressMode}
    (condition : operation.condition = none) (waits : operation.waits = false) (cycles : Nat) :
    Instruction.penalty cpu answer ⟨operation, mode, cycles⟩ = 0 := by
  simp only [Instruction.penalty, condition, waits]
  split <;> rfl

theorem penalty_of_branch {operation : Operation} {taken : Status → Bool} {mode : AddressMode}
    (h : operation.action = .branch taken) (suits : operation.action.suits mode) (cycles : Nat) :
    (((cpu.past 1).act mode operation.action).replay answer 1).1.1 =
        Instruction.penalty cpu answer ⟨operation, mode, cycles⟩ ∧
      (((cpu.past 1).act mode operation.action).replay answer 1).1.2.cycles = cpu.cycles := by
  obtain ⟨flag, value, condition, taken_eq⟩ := condition_of_branch h
  have goal := (frame_of_branch cpu answer h suits cycles).pc
  rw [h] at suits goal ⊢
  cases beq_iff_eq.mp suits
  rw [replay_branch] at goal ⊢
  simp only [Instruction.penalty, Instruction.target, condition] at goal ⊢
  by_cases branches : taken cpu.status
  · have same : cpu.status.get flag = value := by simpa [taken_eq] using branches
    rw [if_pos branches, if_pos same] at goal
    rw [if_pos branches]
    refine ⟨?_, rfl⟩
    dsimp only at goal ⊢
    rw [goal, crossesPage_eq, if_neg (not_not_intro same)]
    change _ = if page (Instruction.branchTarget _ _ _) = page (cpu.pc + 2) then 1 else 2
    split <;> simp_all
  · have other : cpu.status.get flag ≠ value := by simpa [taken_eq] using branches
    rw [if_neg branches]
    exact ⟨(if_pos other).symm, rfl⟩

theorem replay_act_penalty {opcode : UInt8} {instruction : Instruction}
    (decoded : decode opcode = some instruction) :
    (((cpu.past 1).act instruction.mode instruction.operation.action).replay answer 1).1.1 =
        instruction.penalty cpu answer ∧
      (((cpu.past 1).act instruction.mode instruction.operation.action).replay answer 1).1.2.cycles =
        cpu.cycles := by
  have suits := suits_of_decode decoded
  obtain ⟨operation, mode, cycles⟩ := instruction
  cases operation with
  | lda | ldx | ldy | ora | and | eor | adc | sbc | cmp =>
      simp only [Operation.action, Action.suits] at suits ⊢
      rw [replay_load cpu answer suits, penalty_of_waits cpu answer rfl rfl]
      exact ⟨rfl, rfl⟩
  | cpx | cpy | bit =>
      simp only [Operation.action, Action.suits] at suits ⊢
      rw [replay_load cpu answer suits, penalty_of_not_waits cpu answer rfl rfl]
      exact ⟨rfl, rfl⟩
  | sta | stx | sty =>
      simp only [Operation.action, Action.suits, Bool.and_eq_true] at suits ⊢
      rw [replay_store cpu answer suits.1, penalty_of_not_waits cpu answer rfl rfl]
      exact ⟨rfl, rfl⟩
  | asl | lsr | rol | ror | inc | dec =>
      rw [penalty_of_not_waits cpu answer rfl rfl]
      simp only [Operation.action, Action.suits, Bool.or_eq_true, Bool.and_eq_true, beq_iff_eq]
        at suits ⊢
      rcases suits with rfl | ⟨place, -⟩
      · exact ⟨rfl, rfl⟩
      · rw [replay_modify cpu answer place]
        exact ⟨rfl, rfl⟩
  | bcc | bcs | beq | bmi | bne | bpl | bvc | bvs => exact penalty_of_branch cpu answer rfl suits cycles
  | jmp =>
      simp only [Operation.action]
      rw [replay_jump cpu answer (Action.hasPlace_of_jump suits), penalty_of_not_waits cpu answer rfl rfl]
      exact ⟨rfl, rfl⟩
  | _ =>
      rw [penalty_of_not_waits cpu answer rfl rfl]
      exact ⟨rfl, rfl⟩

theorem replay_step_cycles :
    (cpu.step.replay answer 0).1.1 = cpu.documentedCycles answer ∧
      2 ≤ (cpu.step.replay answer 0).1.1 ∧ (cpu.step.replay answer 0).1.1 ≤ 7 ∧
      (cpu.step.replay answer 0).1.2.cycles =
        cpu.cycles + UInt64.ofNat (cpu.step.replay answer 0).1.1 := by
  rw [documentedCycles]
  cases due : cpu.due with
  | some source =>
      rw [replay_step_interrupt cpu answer due]
      simp only [interruptCycles]
      refine ⟨trivial, ?_, ?_, rfl⟩ <;> omega
  | none =>
      cases decoded : decode (answer 0) with
      | none =>
          rw [replay_step_undefined cpu answer due decoded]
          simp only [undefinedCycles]
          refine ⟨trivial, ?_, ?_, rfl⟩ <;> omega
      | some instruction =>
          obtain ⟨penalty, counter⟩ := replay_act_penalty cpu answer decoded
          obtain ⟨least, most⟩ := Instruction.cycles_bounds decoded
          have small := instruction.penalty_le cpu answer
          rw [replay_step_instruction cpu answer due decoded]
          simp only [penalty, counter, baseCycles_of_decode decoded]
          refine ⟨trivial, ?_, ?_, trivial⟩ <;> omega

/-- On every device a step takes the cycles of the manual, between two and seven of them, and counts
them. -/
theorem step_cycles (cpu : Cpu) :
    cpu.step.OnEveryDevice fun result accesses =>
      result.1 = cpu.documentedCycles (Access.answerAt accesses) ∧ 2 ≤ result.1 ∧ result.1 ≤ 7 ∧
        result.2.cycles = cpu.cycles + UInt64.ofNat result.1 :=
  Transaction.OnEveryDevice.of_replay (P := fun answer (result : Nat × Cpu) _ =>
    result.1 = cpu.documentedCycles answer ∧ 2 ≤ result.1 ∧ result.1 ≤ 7 ∧
      result.2.cycles = cpu.cycles + UInt64.ofNat result.1) cpu.replay_step_cycles

end Cpu

end AppleOne
