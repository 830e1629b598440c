import AppleOne.Proofs.Cpu.Addressing

/-!
What a step does, in closed form: one statement for each kind of action, for the interrupt entries and
for the undefined opcodes. Everything about single steps is derived from these.
-/

namespace AppleOne

/-! ### The modes of the opcode table -/

/-- Whether an operation of this kind can be written with the mode. -/
def Action.suits : Action → AddressMode → Bool
  | .load .., mode => mode.hasPlace
  | .store .., mode => mode.hasPlace && mode != .immediate
  | .modify .., mode => mode == .accumulator || mode.hasPlace && mode != .immediate
  | .branch .., mode => mode == .relative
  | .jump, mode => mode == .absolute || mode == .indirect
  | .call, mode => mode == .absolute
  | .inner .., mode | .push .., mode | .pull .., mode | .ret, mode | .interruptReturn, mode
  | .softwareBreak, mode => mode == .implied

theorem Action.hasPlace_of_jump {mode : AddressMode} (h : Action.jump.suits mode) :
    mode.hasPlace := by
  simp only [suits, Bool.or_eq_true, beq_iff_eq] at h
  rcases h with rfl | rfl <;> rfl

theorem mem_documented_of_decode {opcode : UInt8} {instruction : Instruction}
    (h : decode opcode = some instruction) : (opcode, instruction) ∈ documented := by
  rw [decode_eq_lookup, List.lookup_eq_some_iff] at h
  obtain ⟨before, after, split, -⟩ := h
  rw [split]
  simp

theorem suits_of_decode {opcode : UInt8} {instruction : Instruction}
    (h : decode opcode = some instruction) :
    instruction.operation.action.suits instruction.mode := by
  have all : documented.all (fun row => row.2.operation.action.suits row.2.mode) = true := rfl
  exact List.all_eq_true.mp all _ (mem_documented_of_decode h)

/-- An operation with one form is found in one row only. -/
theorem eq_of_rows {operation : Operation} {row : UInt8 × Instruction}
    (rows : documented.filter (fun row => row.2.operation = operation) = [row]) :
    ∀ other ∈ documented, other.2.operation = operation → other = row := by
  intro other among same
  have found : other ∈ documented.filter fun row => row.2.operation = operation :=
    List.mem_filter.mpr ⟨among, decide_eq_true same⟩
  rw [rows] at found
  exact List.mem_singleton.mp found

namespace Cpu

open AddressMode (locatingReads effectiveAddress operandNumber leavesPage replay_locate
  length_answers_locatingReads)

variable (cpu : Cpu) (answer : Nat → UInt8)

/-! ### Actions -/

section

variable {mode : AddressMode}

theorem replay_load (h : mode.hasPlace) (penalised : Bool) (apply : Cpu → UInt8 → Cpu) :
    ((cpu.past 1).act mode (.load penalised apply)).replay answer 1 =
      (((penalised && mode.leavesPage cpu answer).toNat,
        apply (cpu.past (1 + mode.operandLength)) (answer mode.operandNumber)),
      mode.locatingReads cpu answer ++
        [.read (mode.effectiveAddress cpu answer) (answer mode.operandNumber)]) := by
  simp [act, Transaction.replay_bind, replay_locate cpu answer h, Transaction.byteAt,
    length_answers_locatingReads cpu answer h]

theorem replay_store (h : mode.hasPlace) (value : Cpu → UInt8) :
    ((cpu.past 1).act mode (.store value)).replay answer 1 =
      ((0, cpu.past (1 + mode.operandLength)),
      mode.locatingReads cpu answer ++
        [.write (mode.effectiveAddress cpu answer) (value (cpu.past (1 + mode.operandLength)))]) := by
  simp [act, Transaction.replay_bind, replay_locate cpu answer h, Transaction.store]

theorem replay_modify_accumulator (apply : Status → UInt8 → UInt8 × Status) :
    ((cpu.past 1).act .accumulator (.modify apply)).replay answer 1 =
      ((0, (cpu.past 1).accumulate (apply cpu.status cpu.a)), []) := by
  simp [act]

theorem replay_modify (h : mode.hasPlace) (apply : Status → UInt8 → UInt8 × Status) :
    ((cpu.past 1).act mode (.modify apply)).replay answer 1 =
      ((0, { cpu.past (1 + mode.operandLength) with
        status := (apply cpu.status (answer mode.operandNumber)).2 }),
      mode.locatingReads cpu answer ++
        [.read (mode.effectiveAddress cpu answer) (answer mode.operandNumber),
          .write (mode.effectiveAddress cpu answer)
            (apply cpu.status (answer mode.operandNumber)).1]) := by
  have inMemory : mode ≠ .accumulator := fun accumulator => by simp [accumulator, AddressMode.hasPlace] at h
  simp [act, inMemory, Transaction.replay_bind, replay_locate cpu answer h, Transaction.byteAt,
    Transaction.store, length_answers_locatingReads cpu answer h]

theorem replay_push (value : Cpu → UInt8) :
    ((cpu.past 1).act mode (.push value)).replay answer 1 =
      ((0, { cpu.past 1 with sp := cpu.sp - 1 }),
        [.write (stackAddress cpu.sp) (value (cpu.past 1))]) := rfl

theorem replay_pull (apply : Cpu → UInt8 → Cpu) :
    ((cpu.past 1).act mode (.pull apply)).replay answer 1 =
      ((0, apply { cpu.past 1 with sp := cpu.sp + 1 } (answer 1)),
        [.read (stackAddress (cpu.sp + 1)) (answer 1)]) := rfl

theorem replay_branch (taken : Status → Bool) :
    ((cpu.past 1).act mode (.branch taken)).replay answer 1 =
      (if taken cpu.status then
        (if crossesPage (cpu.pc + 2 + displacement (answer 1)) (cpu.pc + 2) then 2 else 1,
          { cpu.past 2 with pc := cpu.pc + 2 + displacement (answer 1) })
      else (0, cpu.past 2), [.read (cpu.pc + 1) (answer 1)]) := by
  cases h : taken cpu.status with
  | true =>
      simp [act, fetch_past, h]
      rfl
  | false => simp [act, fetch_past, h]

theorem replay_jump (h : mode.hasPlace) :
    ((cpu.past 1).act mode .jump).replay answer 1 =
      ((0, { cpu with pc := mode.effectiveAddress cpu answer }), mode.locatingReads cpu answer) := by
  simp [act, Transaction.replay_bind, replay_locate cpu answer h]

theorem replay_call :
    ((cpu.past 1).act mode .call).replay answer 1 =
      ((0, { cpu with pc := wordOf (answer 1) (answer 2), sp := cpu.sp - 2 }),
        [.read (cpu.pc + 1) (answer 1), .read (cpu.pc + 2) (answer 2),
          .write (stackAddress cpu.sp) ((cpu.pc + 2) >>> 8).toUInt8,
          .write (stackAddress (cpu.sp - 1)) (cpu.pc + 2).toUInt8]) := by
  have last : cpu.pc + 3 - 1 = cpu.pc + 2 := by grind
  have low : cpu.pc.toUInt8 + 3 - 1 = cpu.pc.toUInt8 + 2 := by grind
  have sp : cpu.sp - 1 - 1 = cpu.sp - 2 := by grind
  simp [act, fetchWord_past, pushWord, pushByte, Transaction.store, last, low, sp]

theorem replay_return :
    ((cpu.past 1).act mode .ret).replay answer 1 =
      ((0, { cpu with pc := wordOf (answer 1) (answer 2) + 1, sp := cpu.sp + 2 }),
        [.read (stackAddress (cpu.sp + 1)) (answer 1), .read (stackAddress (cpu.sp + 2)) (answer 2)]) := by
  have sp : cpu.sp + 1 + 1 = cpu.sp + 2 := by grind
  simp [act, pullWord, pullByte, Transaction.byteAt, sp]

theorem replay_interruptReturn :
    ((cpu.past 1).act mode .interruptReturn).replay answer 1 =
      ((0, { cpu with
        pc := wordOf (answer 2) (answer 3), sp := cpu.sp + 3, status := .pulled (answer 1) }),
        [.read (stackAddress (cpu.sp + 1)) (answer 1), .read (stackAddress (cpu.sp + 2)) (answer 2),
          .read (stackAddress (cpu.sp + 3)) (answer 3)]) := by
  have second : cpu.sp + 1 + 1 = cpu.sp + 2 := by grind
  have third : cpu.sp + 2 + 1 = cpu.sp + 3 := by grind
  simp [act, pullWord, pullByte, Transaction.byteAt, second, third]

theorem replay_softwareBreak :
    ((cpu.past 1).act mode .softwareBreak).replay answer 1 =
      ((0, { cpu with
        pc := wordOf (answer 1) (answer 2), sp := cpu.sp - 3
        status := { cpu.status with interruptsOff := true } }),
        [.write (stackAddress cpu.sp) ((cpu.pc + 2) >>> 8).toUInt8,
          .write (stackAddress (cpu.sp - 1)) (cpu.pc + 2).toUInt8,
          .write (stackAddress (cpu.sp - 2)) (cpu.status.pushed true).toByte,
          .read Interrupt.irq.vector (answer 1), .read (Interrupt.irq.vector + 1) (answer 2)]) := by
  have pc : cpu.pc + 1 + 1 = cpu.pc + 2 := by grind
  have second : cpu.sp - 1 - 1 = cpu.sp - 2 := by grind
  have third : cpu.sp - 2 - 1 = cpu.sp - 3 := by grind
  simp [act, pushWord, pushByte, readWord, Transaction.byteAt, Transaction.store, Transaction.report,
    pc, second, third]

end

/-! ### Steps -/

/-- The interrupt that the next step enters. -/
def due : Option Interrupt :=
  if cpu.nmiPending then some .nmi
  else if cpu.irqLine && !cpu.status.interruptsOff then some .irq
  else none

theorem due_eq_nmi_iff : cpu.due = some .nmi ↔ cpu.nmiPending = true := by
  rw [due]
  cases cpu.nmiPending with
  | true => simp
  | false =>
      cases cpu.irqLine && !cpu.status.interruptsOff <;> simp

theorem due_eq_irq_iff :
    cpu.due = some .irq ↔
      cpu.nmiPending = false ∧ cpu.irqLine = true ∧ cpu.status.interruptsOff = false := by
  rw [due]
  cases cpu.nmiPending <;> cases cpu.irqLine <;> cases cpu.status.interruptsOff <;> simp

/-- The processor at the start of a handler. -/
def entered : Cpu :=
  { cpu with
    pc := wordOf (answer 0) (answer 1)
    sp := cpu.sp - 3
    status := { cpu.status with interruptsOff := true }
    cycles := cpu.cycles + 7
    nmiPending := false }

theorem replay_enterInterrupt (source : Interrupt) :
    (cpu.enterInterrupt source).replay answer 0 =
      ({ cpu with
        pc := wordOf (answer 0) (answer 1), sp := cpu.sp - 3
        status := { cpu.status with interruptsOff := true } },
        [.write (stackAddress cpu.sp) (cpu.pc >>> 8).toUInt8,
          .write (stackAddress (cpu.sp - 1)) cpu.pc.toUInt8,
          .write (stackAddress (cpu.sp - 2)) (cpu.status.pushed false).toByte,
          .read source.vector (answer 0), .read (source.vector + 1) (answer 1)]) := by
  have second : cpu.sp - 1 - 1 = cpu.sp - 2 := by grind
  have third : cpu.sp - 2 - 1 = cpu.sp - 3 := by grind
  simp [enterInterrupt, pushWord, pushByte, readWord, Transaction.byteAt, Transaction.store,
    Transaction.report, second, third]

theorem replay_step_interrupt {source : Interrupt} (h : cpu.due = some source) :
    cpu.step.replay answer 0 =
      ((interruptCycles, cpu.entered answer),
        [.write (stackAddress cpu.sp) (cpu.pc >>> 8).toUInt8,
          .write (stackAddress (cpu.sp - 1)) cpu.pc.toUInt8,
          .write (stackAddress (cpu.sp - 2)) (cpu.status.pushed false).toByte,
          .read source.vector (answer 0), .read (source.vector + 1) (answer 1)]) := by
  rw [due] at h
  by_cases nmi : cpu.nmiPending
  · rw [if_pos nmi] at h
    cases h
    simp [step, advance, nmi, Transaction.replay_bind, replay_enterInterrupt, entered, interruptCycles]
  · rw [if_neg nmi] at h
    by_cases irq : cpu.irqLine && !cpu.status.interruptsOff
    · rw [if_pos irq] at h
      cases h
      simp [step, advance, nmi, irq, Transaction.replay_bind, replay_enterInterrupt, entered,
        interruptCycles]
    · rw [if_neg irq] at h
      cases h

theorem advance_of_due_none (h : cpu.due = none) : cpu.advance = cpu.instruction := by
  rw [due] at h
  by_cases nmi : cpu.nmiPending
  · rw [if_pos nmi] at h
    cases h
  · rw [if_neg nmi] at h
    by_cases irq : cpu.irqLine && !cpu.status.interruptsOff
    · rw [if_pos irq] at h
      cases h
    · rw [advance, if_neg nmi, if_neg irq]

theorem replay_step_undefined (h : cpu.due = none) (undefined : decode (answer 0) = none) :
    cpu.step.replay answer 0 =
      ((undefinedCycles, { cpu.past 1 with cycles := cpu.cycles + 2 }), [.read cpu.pc (answer 0)]) := by
  simp [step, advance_of_due_none cpu h, instruction, fetch, Transaction.byteAt, undefined,
    Transaction.report, undefinedCycles, past]

theorem replay_step_instruction {instruction : Instruction} (h : cpu.due = none)
    (decoded : decode (answer 0) = some instruction) :
    let outcome :=
      ((cpu.past 1).act instruction.mode instruction.operation.action).replay answer 1
    cpu.step.replay answer 0 =
      ((instruction.cycles + outcome.1.1,
        { outcome.1.2 with
          cycles := outcome.1.2.cycles + UInt64.ofNat (instruction.cycles + outcome.1.1) }),
        .read cpu.pc (answer 0) :: outcome.2) := by
  simp [step, advance_of_due_none cpu h, Cpu.instruction, fetch, Transaction.byteAt, decoded,
    Transaction.replay_bind, past]

end Cpu

end AppleOne
