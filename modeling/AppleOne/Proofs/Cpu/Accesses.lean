import AppleOne.Proofs.Cpu.Arithmetic
import AppleOne.Proofs.Cpu.Execution

/-!
The accesses of a step as the programmer's manual lists them, and the proof that a step makes these and
no others on every device (`step_accesses`). That matters because a read can take a key away.
-/

namespace AppleOne

/-! ### The manual's list -/

namespace Cpu

variable (cpu : Cpu) (answer : Nat → UInt8)

/-- The accesses after the operand is found: to the operand itself or to the stack. -/
def dataAccesses (instruction : Instruction) : List Access :=
  let address := instruction.mode.effectiveAddress cpu answer
  let operand := answer instruction.mode.operandNumber
  match instruction.operation with
  | .lda | .ldx | .ldy | .ora | .and | .eor | .adc | .sbc | .cmp | .cpx | .cpy | .bit =>
    if instruction.mode = .immediate then [] else [.read address operand]
  | .sta => [.write address cpu.a]
  | .stx => [.write address cpu.x]
  | .sty => [.write address cpu.y]
  | .asl | .lsr | .rol | .ror | .inc | .dec =>
    if instruction.mode = .accumulator then []
    else [.read address operand,
      .write address (instruction.operation.replacement cpu.status.carry operand)]
  | .pha => [.write (stackAddress cpu.sp) cpu.a]
  | .php => [.write (stackAddress cpu.sp) (cpu.status.toByte ||| 0x30)]
  | .pla | .plp => [.read (stackAddress (cpu.sp + 1)) (answer 1)]
  | .jsr => [
    .write (stackAddress cpu.sp) ((cpu.pc + 2) >>> 8).toUInt8,
    .write (stackAddress (cpu.sp - 1)) (cpu.pc + 2).toUInt8]
  | .rts => [
    .read (stackAddress (cpu.sp + 1)) (answer 1),
    .read (stackAddress (cpu.sp + 2)) (answer 2)]
  | .rti => [
    .read (stackAddress (cpu.sp + 1)) (answer 1),
    .read (stackAddress (cpu.sp + 2)) (answer 2),
    .read (stackAddress (cpu.sp + 3)) (answer 3)]
  | .brk => [
    .write (stackAddress cpu.sp) ((cpu.pc + 2) >>> 8).toUInt8,
    .write (stackAddress (cpu.sp - 1)) (cpu.pc + 2).toUInt8,
    .write (stackAddress (cpu.sp - 2)) (cpu.status.toByte ||| 0x30),
    .read 0xFFFE (answer 1),
    .read 0xFFFF (answer 2)]
  | .bcc | .bcs | .beq | .bmi | .bne | .bpl | .bvc | .bvs | .clc | .cld | .cli | .clv | .dex | .dey
  | .inx | .iny | .jmp | .nop | .sec | .sed | .sei | .tax | .tay | .tsx | .txa | .txs | .tya => []

/-- The accesses of a step whose reads bring the bytes `answer 0`, `answer 1` and so on. -/
def documentedAccesses : List Access :=
  match cpu.due with
  | some source => [
    .write (stackAddress cpu.sp) (cpu.pc >>> 8).toUInt8,
    .write (stackAddress (cpu.sp - 1)) cpu.pc.toUInt8,
    .write (stackAddress (cpu.sp - 2)) (cpu.status.toByte &&& 0xEF ||| 0x20),
    .read source.vector (answer 0),
    .read (source.vector + 1) (answer 1)]
  | none =>
    .read cpu.pc (answer 0) ::
      match decode (answer 0) with
      | some instruction =>
        instruction.mode.operandReads cpu answer ++ instruction.mode.pointerReads cpu answer ++
          cpu.dataAccesses answer instruction
      | none => []

end Cpu

/-! ### The accesses that are made -/

namespace Cpu

section

variable (cpu : Cpu) (answer : Nat → UInt8)

theorem locatingReads_append_read (mode : AddressMode) :
    mode.locatingReads cpu answer ++
        [.read (mode.effectiveAddress cpu answer) (answer mode.operandNumber)] =
      mode.operandReads cpu answer ++ mode.pointerReads cpu answer ++
        if mode = .immediate then []
        else [.read (mode.effectiveAddress cpu answer) (answer mode.operandNumber)] := by
  by_cases immediate : mode = .immediate
  · subst immediate
    simp [AddressMode.locatingReads, AddressMode.operandReads, AddressMode.pointerReads,
      AddressMode.operandLength, AddressMode.effectiveAddress, AddressMode.operandNumber]
  · simp [AddressMode.locatingReads, immediate]

theorem replay_act_accesses {opcode : UInt8} {instruction : Instruction}
    (decoded : decode opcode = some instruction) :
    (((cpu.past 1).act instruction.mode instruction.operation.action).replay answer 1).2 =
      instruction.mode.operandReads cpu answer ++ instruction.mode.pointerReads cpu answer ++
        cpu.dataAccesses answer instruction := by
  have suits := suits_of_decode decoded
  obtain ⟨operation, mode, cycles⟩ := instruction
  cases operation with
  | lda | ldx | ldy | ora | and | eor | adc | sbc | cmp | cpx | cpy | bit =>
      simp only [Operation.action, Action.suits] at suits ⊢
      rw [replay_load cpu answer suits]
      exact locatingReads_append_read cpu answer mode
  | sta | stx | sty =>
      simp only [Operation.action, Action.suits, Bool.and_eq_true, bne_iff_ne] at suits ⊢
      rw [replay_store cpu answer suits.1]
      simp [AddressMode.locatingReads, suits.2, dataAccesses]
  | asl | lsr | rol | ror | inc | dec =>
      simp only [Operation.action, Action.suits, Bool.or_eq_true, Bool.and_eq_true, beq_iff_eq,
        bne_iff_ne] at suits ⊢
      rcases suits with rfl | ⟨place, notImmediate⟩
      · rw [replay_modify_accumulator]
        rfl
      · have inMemory : mode ≠ .accumulator := by
          rintro rfl
          cases place
        rw [replay_modify cpu answer place]
        simp [AddressMode.locatingReads, notImmediate, inMemory, dataAccesses, Operation.replacement,
          Arithmetic.shiftLeft_fst, Arithmetic.shiftRight_fst, Arithmetic.rotateLeft_fst,
          Arithmetic.rotateRight_fst, Arithmetic.increment_fst, Arithmetic.decrement_fst]
  | pha =>
      cases beq_iff_eq.mp suits
      simp only [Operation.action, replay_push]
      rfl
  | php =>
      cases beq_iff_eq.mp suits
      simp only [Operation.action, replay_push, past_status, Status.toByte_pushed]
      rfl
  | pla | plp =>
      cases beq_iff_eq.mp suits
      simp only [Operation.action, replay_pull]
      rfl
  | bcc | bcs | beq | bmi | bne | bpl | bvc | bvs =>
      cases beq_iff_eq.mp suits
      simp only [Operation.action, replay_branch]
      rfl
  | jmp =>
      simp only [Operation.action, Action.suits, Bool.or_eq_true, beq_iff_eq] at suits ⊢
      rcases suits with rfl | rfl
      · rw [replay_jump cpu answer rfl]
        rfl
      · rw [replay_jump cpu answer rfl]
        rfl
  | jsr =>
      cases beq_iff_eq.mp suits
      simp only [Operation.action, replay_call]
      rfl
  | rts =>
      cases beq_iff_eq.mp suits
      simp only [Operation.action, replay_return]
      rfl
  | rti =>
      cases beq_iff_eq.mp suits
      simp only [Operation.action, replay_interruptReturn]
      rfl
  | brk =>
      cases beq_iff_eq.mp suits
      simp only [Operation.action, replay_softwareBreak, Status.toByte_pushed]
      rfl
  | clc | cld | cli | clv | dex | dey | inx | iny | nop | sec | sed | sei | tax | tay | tsx | txa
  | txs | tya =>
      cases beq_iff_eq.mp suits
      rfl

theorem replay_step_accesses : (cpu.step.replay answer 0).2 = cpu.documentedAccesses answer := by
  rw [documentedAccesses]
  cases due : cpu.due with
  | some source =>
      rw [replay_step_interrupt cpu answer due, Status.toByte_pushed]
      rfl
  | none =>
      cases decoded : decode (answer 0) with
      | some instruction =>
          simp only [replay_step_instruction cpu answer due decoded,
            replay_act_accesses cpu answer decoded]
      | none => rw [replay_step_undefined cpu answer due decoded]

end

/-- On every device a step makes the accesses that the manual lists, in that order, and no others. -/
theorem step_accesses (cpu : Cpu) :
    cpu.step.OnEveryDevice fun _ accesses =>
      accesses = cpu.documentedAccesses (Access.answerAt accesses) :=
  Transaction.OnEveryDevice.of_replay (P := fun answer _ accesses =>
    accesses = cpu.documentedAccesses answer) cpu.replay_step_accesses

end Cpu

end AppleOne
