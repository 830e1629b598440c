import AppleOne.Proofs.Cpu.Arithmetic
import AppleOne.Proofs.Cpu.Execution

/-!
What an instruction may change: `Frame` lists for each operation its flags, its register, and where
the stack pointer and the program counter go. `step_frame` says that every step that is no interrupt
entry keeps to it.
-/

namespace AppleOne

/-! ### The manual -/

namespace Operation

/-- The flags that an operation may change. -/
def flags : Operation → List Status.Flag
  | .lda | .ldx | .ldy | .and | .ora | .eor | .inc | .dec | .inx | .iny | .dex | .dey | .tax | .tay
  | .txa | .tya | .tsx | .pla => [.negative, .zero]
  | .cmp | .cpx | .cpy | .asl | .lsr | .rol | .ror => [.negative, .zero, .carry]
  | .adc | .sbc => [.negative, .overflow, .zero, .carry]
  | .bit => [.negative, .overflow, .zero]
  | .clc | .sec => [.carry]
  | .cli | .sei | .brk => [.interruptsOff]
  | .cld | .sed => [.decimal]
  | .clv => [.overflow]
  | .plp | .rti => [.negative, .overflow, .bit5, .breakMark, .decimal, .interruptsOff, .zero, .carry]
  | .sta | .stx | .sty | .bcc | .bcs | .beq | .bmi | .bne | .bpl | .bvc | .bvs | .jmp | .jsr | .rts
  | .pha | .php | .txs | .nop => []

/-- The flag that an operation is there to set or to clear. -/
def puts : Operation → Option (Status.Flag × Bool)
  | .clc => some (.carry, false)
  | .sec => some (.carry, true)
  | .cli => some (.interruptsOff, false)
  | .sei | .brk => some (.interruptsOff, true)
  | .cld => some (.decimal, false)
  | .sed => some (.decimal, true)
  | .clv => some (.overflow, false)
  | _ => none

def pullsStatus : Operation → Bool
  | .plp | .rti => true
  | _ => false

/-- The flag that a branch looks at, and the value it needs. -/
def condition : Operation → Option (Status.Flag × Bool)
  | .bpl => some (.negative, false)
  | .bmi => some (.negative, true)
  | .bvc => some (.overflow, false)
  | .bvs => some (.overflow, true)
  | .bcc => some (.carry, false)
  | .bcs => some (.carry, true)
  | .bne => some (.zero, false)
  | .beq => some (.zero, true)
  | _ => none

end Operation

/-- The byte that an instruction works on. -/
def AddressMode.operandByte (cpu : Cpu) (answer : Nat → UInt8) (mode : AddressMode) : UInt8 :=
  if mode = .accumulator then cpu.a else answer mode.operandNumber

theorem AddressMode.operandByte_of_hasPlace (cpu : Cpu) (answer : Nat → UInt8) {mode : AddressMode}
    (h : mode.hasPlace) : mode.operandByte cpu answer = answer mode.operandNumber := by
  have inMemory : mode ≠ .accumulator := by
    rintro rfl
    cases h
  exact if_neg inMemory

inductive Register where
  | a | x | y
  deriving DecidableEq

namespace Instruction

def destination (instruction : Instruction) : Option Register :=
  match instruction.operation with
  | .lda | .ora | .and | .eor | .adc | .sbc | .pla | .txa | .tya => some .a
  | .asl | .lsr | .rol | .ror | .inc | .dec =>
    if instruction.mode = .accumulator then some .a else none
  | .ldx | .inx | .dex | .tax | .tsx => some .x
  | .ldy | .iny | .dey | .tay => some .y
  | _ => none

variable (cpu : Cpu) (answer : Nat → UInt8) (instruction : Instruction)

/-- The byte that an instruction makes and tests for sign and zero. Decimal arithmetic has tests of
its own. -/
def produced : Option UInt8 :=
  let operand := instruction.mode.operandByte cpu answer
  match instruction.operation with
  | .lda | .ldx | .ldy | .pla => some operand
  | .ora => some (cpu.a ||| operand)
  | .and => some (cpu.a &&& operand)
  | .eor => some (cpu.a ^^^ operand)
  | .adc => if cpu.decimalMode then none else some (cpu.a + operand + if cpu.status.carry then 1 else 0)
  | .sbc => if cpu.decimalMode then none else some (cpu.a - operand - if cpu.status.carry then 0 else 1)
  | .cmp => some (cpu.a - operand)
  | .cpx => some (cpu.x - operand)
  | .cpy => some (cpu.y - operand)
  | .asl | .lsr | .rol | .ror | .inc | .dec =>
    some (instruction.operation.replacement cpu.status.carry operand)
  | .inx => some (cpu.x + 1)
  | .iny => some (cpu.y + 1)
  | .dex => some (cpu.x - 1)
  | .dey => some (cpu.y - 1)
  | .tax | .tay => some cpu.a
  | .txa => some cpu.x
  | .tya => some cpu.y
  | .tsx => some cpu.sp
  | _ => none

def stackPointer : UInt8 :=
  match instruction.operation with
  | .txs => cpu.x
  | .pha | .php => cpu.sp - 1
  | .jsr => cpu.sp - 2
  | .brk => cpu.sp - 3
  | .pla | .plp => cpu.sp + 1
  | .rts => cpu.sp + 2
  | .rti => cpu.sp + 3
  | _ => cpu.sp

def following : UInt16 := cpu.pc + UInt16.ofNat (1 + instruction.mode.operandLength)

/-- Where a branch goes that is taken: its offset is signed. -/
def branchTarget : UInt16 :=
  if answer 1 < 0x80 then instruction.following cpu + (answer 1).toUInt16
  else instruction.following cpu + (answer 1).toUInt16 - 0x100

def target : UInt16 :=
  match instruction.operation.condition with
  | some (flag, value) =>
    if cpu.status.get flag = value then instruction.branchTarget cpu answer
    else instruction.following cpu
  | none =>
    match instruction.operation with
    | .jmp => instruction.mode.effectiveAddress cpu answer
    | .jsr | .brk => wordOf (answer 1) (answer 2)
    | .rts => wordOf (answer 1) (answer 2) + 1
    | .rti => wordOf (answer 2) (answer 3)
    | _ => instruction.following cpu

end Instruction

namespace Cpu

def get (cpu : Cpu) : Register → UInt8
  | .a => cpu.a
  | .x => cpu.x
  | .y => cpu.y

/-- An instruction changes no more than it is there for. -/
structure Frame (cpu : Cpu) (answer : Nat → UInt8) (instruction : Instruction) (after : Cpu) :
    Prop where
  flags : cpu.status.AgreeExcept instruction.operation.flags after.status
  put : ∀ flag value, instruction.operation.puts = some (flag, value) → after.status.get flag = value
  pulled : instruction.operation.pullsStatus →
    after.status.toByte = (answer 1 ||| 0x20) &&& 0xEF
  tested : ∀ byte, instruction.produced cpu answer = some byte →
    after.status.negative = decide (0x80 ≤ byte) ∧ after.status.zero = (byte == 0)
  registers : ∀ register, instruction.destination ≠ some register →
    after.get register = cpu.get register
  destination : ∀ register byte, instruction.destination = some register →
    instruction.produced cpu answer = some byte → after.get register = byte
  sp : after.sp = instruction.stackPointer cpu
  pc : after.pc = instruction.target cpu answer
  irqLine : after.irqLine = cpu.irqLine
  nmiPending : after.nmiPending = cpu.nmiPending
  decimalEnabled : after.decimalEnabled = cpu.decimalEnabled

/-! ### The instructions keep to it -/

/-- Where the status comes from the stack, any flag may change. -/
theorem mem_flags_of_pullsStatus {operation : Operation} (h : operation.pullsStatus)
    (flag : Status.Flag) : flag ∈ operation.flags := by
  cases operation <;> cases h <;> cases flag <;> decide

theorem condition_of_branch {operation : Operation} {taken : Status → Bool}
    (h : operation.action = .branch taken) :
    ∃ flag value, operation.condition = some (flag, value) ∧
      ∀ s : Status, taken s = (s.get flag == value) := by
  cases operation <;> cases h <;> exact ⟨_, _, rfl, fun s => by simp [Status.get]⟩

theorem displacement_eq (offset : UInt8) :
    displacement offset =
      if offset < 0x80 then offset.toUInt16 else offset.toUInt16 - 0x100 := by
  revert offset
  decide +kernel

section

variable {cpu : Cpu} {answer : Nat → UInt8} {instruction : Instruction}

theorem Frame.count {after : Cpu} (h : cpu.Frame answer instruction after) (cycles : UInt64) :
    cpu.Frame answer instruction { after with cycles := cycles } :=
  ⟨h.flags, h.put, h.pulled, h.tested, h.registers, h.destination, h.sp, h.pc, h.irqLine,
    h.nmiPending, h.decimalEnabled⟩

/-- Instructions that change the status, but no register. -/
theorem frame_of_status {status : Status} {sp : UInt8} {pc : UInt16}
    (destination : instruction.destination = none)
    (flags : cpu.status.AgreeExcept instruction.operation.flags status)
    (put : ∀ flag value, instruction.operation.puts = some (flag, value) → status.get flag = value)
    (pulled : instruction.operation.pullsStatus →
      status.toByte = (answer 1 ||| 0x20) &&& 0xEF)
    (tested : ∀ byte, instruction.produced cpu answer = some byte →
      status.negative = decide (0x80 ≤ byte) ∧ status.zero = (byte == 0))
    (hsp : sp = instruction.stackPointer cpu) (hpc : pc = instruction.target cpu answer) :
    cpu.Frame answer instruction { cpu with status := status, sp := sp, pc := pc } where
  flags := flags
  put := put
  pulled := pulled
  tested := tested
  registers register _ := by cases register <;> rfl
  destination register byte h := by rw [destination] at h; cases h
  sp := hsp
  pc := hpc
  irqLine := rfl
  nmiPending := rfl
  decimalEnabled := rfl

theorem frame_of_test {status : Status} {pc : UInt16} (destination : instruction.destination = none)
    (puts : instruction.operation.puts = none)
    (notPulled : instruction.operation.pullsStatus = false)
    (flags : cpu.status.AgreeExcept instruction.operation.flags status)
    (tested : ∀ byte, instruction.produced cpu answer = some byte →
      status.negative = decide (0x80 ≤ byte) ∧ status.zero = (byte == 0))
    (hsp : cpu.sp = instruction.stackPointer cpu) (hpc : pc = instruction.target cpu answer) :
    cpu.Frame answer instruction { cpu with status := status, pc := pc } :=
  frame_of_status destination flags (by simp [puts]) (by simp [notPulled]) tested hsp hpc

theorem frame_of_put {status : Status} {sp : UInt8} {pc : UInt16}
    (destination : instruction.destination = none)
    (notPulled : instruction.operation.pullsStatus = false)
    (produced : instruction.produced cpu answer = none)
    (flags : cpu.status.AgreeExcept instruction.operation.flags status)
    (put : ∀ flag value, instruction.operation.puts = some (flag, value) → status.get flag = value)
    (hsp : sp = instruction.stackPointer cpu) (hpc : pc = instruction.target cpu answer) :
    cpu.Frame answer instruction { cpu with status := status, sp := sp, pc := pc } :=
  frame_of_status destination flags put (by simp [notPulled]) (by simp [produced]) hsp hpc

theorem frame_of_pull {sp : UInt8} {pc : UInt16} (destination : instruction.destination = none)
    (pulls : instruction.operation.pullsStatus) (puts : instruction.operation.puts = none)
    (produced : instruction.produced cpu answer = none)
    (hsp : sp = instruction.stackPointer cpu) (hpc : pc = instruction.target cpu answer) :
    cpu.Frame answer instruction { cpu with status := .pulled (answer 1), sp := sp, pc := pc } := by
  refine frame_of_status destination ?_ (by simp [puts]) (fun _ => Status.toByte_pulled _)
    (by simp [produced]) hsp hpc
  intro flag unlisted
  exact absurd (mem_flags_of_pullsStatus pulls flag) unlisted

/-- Instructions that change neither the status nor a register. -/
theorem frame_of_flow {sp : UInt8} {pc : UInt16} (destination : instruction.destination = none)
    (puts : instruction.operation.puts = none) (produced : instruction.produced cpu answer = none)
    (notPulled : instruction.operation.pullsStatus = false)
    (hsp : sp = instruction.stackPointer cpu) (hpc : pc = instruction.target cpu answer) :
    cpu.Frame answer instruction { cpu with sp := sp, pc := pc } :=
  frame_of_status destination (Status.agree_refl _ _) (by simp [puts]) (by simp [notPulled])
    (by simp [produced]) hsp hpc

def load (cpu : Cpu) : Register → UInt8 → Cpu
  | .a => cpu.loadA
  | .x => cpu.loadX
  | .y => cpu.loadY

theorem get_load (cpu : Cpu) (register other : Register) (byte : UInt8) :
    (cpu.load register byte).get other = if register = other then byte else cpu.get other := by
  cases register <;> cases other <;> rfl

theorem frame_of_accumulate {result : UInt8 × Status} {pc : UInt16}
    (destination : instruction.destination = some .a)
    (flags : cpu.status.AgreeExcept instruction.operation.flags result.2)
    (puts : instruction.operation.puts = none)
    (notPulled : instruction.operation.pullsStatus = false)
    (made : ∀ byte, instruction.produced cpu answer = some byte → result.1 = byte ∧
      result.2.negative = decide (0x80 ≤ result.1) ∧ result.2.zero = (result.1 == 0))
    (hsp : cpu.sp = instruction.stackPointer cpu) (hpc : pc = instruction.target cpu answer) :
    cpu.Frame answer instruction (({ cpu with pc := pc } : Cpu).accumulate result) where
  flags := flags
  put := by simp [puts]
  pulled := by simp [notPulled]
  tested byte h := by
    obtain ⟨rfl, tests⟩ := made byte h
    exact tests
  registers register h := by
    rw [destination] at h
    cases register with
    | a => exact absurd rfl h
    | x | y => rfl
  destination register byte h h' := by
    rw [destination] at h
    cases h
    exact (made byte h').1
  sp := hsp
  pc := hpc
  irqLine := rfl
  nmiPending := rfl
  decimalEnabled := rfl

theorem frame_of_load (register : Register) {byte sp : UInt8} {pc : UInt16}
    (destination : instruction.destination = some register)
    (produced : instruction.produced cpu answer = some byte)
    (flags : instruction.operation.flags = [.negative, .zero])
    (puts : instruction.operation.puts = none)
    (notPulled : instruction.operation.pullsStatus = false)
    (hsp : sp = instruction.stackPointer cpu) (hpc : pc = instruction.target cpu answer) :
    cpu.Frame answer instruction
      (({ cpu with sp := sp, pc := pc } : Cpu).load register byte) where
  flags := by cases register <;> exact flags ▸ cpu.status.agree_test byte
  put := by simp [puts]
  pulled := by simp [notPulled]
  tested made h := by
    rw [produced] at h
    cases h
    cases register <;> exact ⟨rfl, rfl⟩
  registers other h := by
    rw [destination] at h
    rw [get_load, if_neg fun same => h (congrArg some same)]
    cases other <;> rfl
  destination other made h h' := by
    rw [destination] at h
    rw [produced] at h'
    cases h
    cases h'
    rw [get_load, if_pos rfl]
  sp := by cases register <;> exact hsp
  pc := by cases register <;> exact hpc
  irqLine := by cases register <;> rfl
  nmiPending := by cases register <;> rfl
  decimalEnabled := by cases register <;> rfl

end

section

variable (cpu : Cpu) (answer : Nat → UInt8)

/-! Shifts, increments and decrements share one kind of action; what differs is the table. -/

section

variable {operation : Operation} {apply : Status → UInt8 → UInt8 × Status}

theorem modify_agree (h : operation.action = .modify apply) (s : Status) (byte : UInt8) :
    s.AgreeExcept operation.flags (apply s byte).2 := by
  cases operation <;> cases h
  case inc | dec => exact s.agree_test _
  case asl | lsr | rol | ror => exact s.agree_test_carry _ _

theorem modify_made (h : operation.action = .modify apply) (s : Status) (byte : UInt8) :
    (apply s byte).1 = operation.replacement s.carry byte ∧
      (apply s byte).2.negative = decide (0x80 ≤ (apply s byte).1) ∧
      (apply s byte).2.zero = ((apply s byte).1 == 0) := by
  cases operation <;> cases h
  case asl => exact ⟨Arithmetic.shiftLeft_fst s byte, rfl, rfl⟩
  case lsr => exact ⟨Arithmetic.shiftRight_fst s byte, rfl, rfl⟩
  case rol => exact ⟨Arithmetic.rotateLeft_fst s byte, rfl, rfl⟩
  case ror => exact ⟨Arithmetic.rotateRight_fst s byte, rfl, rfl⟩
  case inc => exact ⟨rfl, rfl, rfl⟩
  case dec => exact ⟨rfl, rfl, rfl⟩

theorem frame_of_modify {mode : AddressMode} (h : operation.action = .modify apply)
    (suits : operation.action.suits mode) (cycles : Nat) :
    cpu.Frame answer ⟨operation, mode, cycles⟩
      (((cpu.past 1).act mode operation.action).replay answer 1).1.2 := by
  have produced : Instruction.produced cpu answer ⟨operation, mode, cycles⟩ =
      some (operation.replacement cpu.status.carry (mode.operandByte cpu answer)) := by
    cases operation <;> cases h <;> rfl
  have destination : Instruction.destination ⟨operation, mode, cycles⟩ =
      if mode = .accumulator then some .a else none := by
    cases operation <;> cases h <;> rfl
  have puts : operation.puts = none := by cases operation <;> cases h <;> rfl
  have notPulled : operation.pullsStatus = false := by cases operation <;> cases h <;> rfl
  have sp : Instruction.stackPointer cpu ⟨operation, mode, cycles⟩ = cpu.sp := by
    cases operation <;> cases h <;> rfl
  have pc : Instruction.target cpu answer ⟨operation, mode, cycles⟩ =
      cpu.pc + UInt16.ofNat (1 + mode.operandLength) := by
    cases operation <;> cases h <;> rfl
  rw [h] at suits ⊢
  simp only [Action.suits, Bool.or_eq_true, Bool.and_eq_true, beq_iff_eq, bne_iff_ne] at suits
  rcases suits with rfl | ⟨place, -⟩
  · rw [replay_modify_accumulator]
    refine frame_of_accumulate destination (modify_agree h _ _) puts notPulled ?_ sp.symm pc.symm
    intro byte made
    rw [produced] at made
    cases made
    exact modify_made h _ _
  · have inMemory : mode ≠ .accumulator := by
      rintro rfl
      cases place
    rw [if_neg inMemory] at destination
    rw [replay_modify cpu answer place, ← AddressMode.operandByte_of_hasPlace cpu answer place]
    refine frame_of_status destination (modify_agree h _ _) (by simp [puts]) (by simp [notPulled]) ?_
      sp.symm pc.symm
    intro byte made
    rw [produced] at made
    cases made
    obtain ⟨replaced, tests⟩ := modify_made h cpu.status (mode.operandByte cpu answer)
    rwa [replaced] at tests

end

theorem frame_of_branch {operation : Operation} {taken : Status → Bool} {mode : AddressMode}
    (h : operation.action = .branch taken) (suits : operation.action.suits mode) (cycles : Nat) :
    cpu.Frame answer ⟨operation, mode, cycles⟩
      (((cpu.past 1).act mode operation.action).replay answer 1).1.2 := by
  obtain ⟨flag, value, condition, taken_eq⟩ := condition_of_branch h
  have destination : Instruction.destination ⟨operation, mode, cycles⟩ = none := by
    cases operation <;> cases h <;> rfl
  have produced : Instruction.produced cpu answer ⟨operation, mode, cycles⟩ = none := by
    cases operation <;> cases h <;> rfl
  have puts : operation.puts = none := by cases operation <;> cases h <;> rfl
  have notPulled : operation.pullsStatus = false := by cases operation <;> cases h <;> rfl
  have sp : Instruction.stackPointer cpu ⟨operation, mode, cycles⟩ = cpu.sp := by
    cases operation <;> cases h <;> rfl
  rw [h] at suits ⊢
  cases beq_iff_eq.mp suits
  rw [replay_branch]
  by_cases branches : taken cpu.status
  · have same : cpu.status.get flag = value := by simpa [taken_eq] using branches
    rw [if_pos branches]
    refine frame_of_flow destination puts produced notPulled sp.symm ?_
    simp only [Instruction.target, condition, if_pos same, Instruction.branchTarget,
      Instruction.following, displacement_eq]
    split
    · rfl
    · simp only [UInt16.sub_eq_add_neg, UInt16.add_assoc]
      rfl
  · have other : cpu.status.get flag ≠ value := by simpa [taken_eq] using branches
    rw [if_neg branches]
    refine frame_of_flow destination puts produced notPulled sp.symm ?_
    simp only [Instruction.target, condition, if_neg other]
    rfl

theorem replay_act_frame {opcode : UInt8} {instruction : Instruction}
    (decoded : decode opcode = some instruction) :
    cpu.Frame answer instruction
      (((cpu.past 1).act instruction.mode instruction.operation.action).replay answer 1).1.2 := by
  have suits := suits_of_decode decoded
  obtain ⟨operation, mode, cycles⟩ := instruction
  cases operation with
  | lda | ora | and | eor =>
      simp only [Operation.action, Action.suits] at suits ⊢
      rw [replay_load cpu answer suits, ← AddressMode.operandByte_of_hasPlace cpu answer suits]
      exact frame_of_load .a rfl rfl rfl rfl rfl rfl rfl
  | ldx =>
      simp only [Operation.action, Action.suits] at suits ⊢
      rw [replay_load cpu answer suits, ← AddressMode.operandByte_of_hasPlace cpu answer suits]
      exact frame_of_load .x rfl rfl rfl rfl rfl rfl rfl
  | ldy =>
      simp only [Operation.action, Action.suits] at suits ⊢
      rw [replay_load cpu answer suits, ← AddressMode.operandByte_of_hasPlace cpu answer suits]
      exact frame_of_load .y rfl rfl rfl rfl rfl rfl rfl
  | adc =>
      simp only [Operation.action, Action.suits] at suits ⊢
      rw [replay_load cpu answer suits, ← AddressMode.operandByte_of_hasPlace cpu answer suits]
      refine frame_of_accumulate rfl ?_ rfl rfl ?_ rfl rfl
      · split
        · exact Arithmetic.addDecimal_agree _ _ _
        · exact Arithmetic.add_agree _ _ _
      · intro byte made
        cases decimal : cpu.decimalMode with
        | true => simp [Instruction.produced, decimal] at made
        | false =>
            simp only [Instruction.produced, decimal] at made
            cases made
            simp only [past_decimalMode, decimal]
            exact ⟨Arithmetic.add_fst _ _ _, rfl, rfl⟩
  | sbc =>
      simp only [Operation.action, Action.suits] at suits ⊢
      rw [replay_load cpu answer suits, ← AddressMode.operandByte_of_hasPlace cpu answer suits]
      refine frame_of_accumulate rfl ?_ rfl rfl ?_ rfl rfl
      · split
        · exact Arithmetic.add_agree _ _ _
        · exact Arithmetic.add_agree _ _ _
      · intro byte made
        cases decimal : cpu.decimalMode with
        | true => simp [Instruction.produced, decimal] at made
        | false =>
            simp only [Instruction.produced, decimal] at made
            cases made
            simp only [past_decimalMode, decimal]
            exact ⟨Arithmetic.subtract_fst _ _ _, rfl, rfl⟩
  | cmp | cpx | cpy =>
      simp only [Operation.action, Action.suits] at suits ⊢
      rw [replay_load cpu answer suits, ← AddressMode.operandByte_of_hasPlace cpu answer suits]
      refine frame_of_test rfl rfl rfl (Status.agree_test_carry _ _ _) ?_ rfl rfl
      rintro _ ⟨⟩
      exact ⟨rfl, rfl⟩
  | bit =>
      simp only [Operation.action, Action.suits] at suits ⊢
      rw [replay_load cpu answer suits]
      refine frame_of_test rfl rfl rfl (Status.agree_testBits _ _ _ _) ?_ rfl rfl
      rintro _ ⟨⟩
  | sta | stx | sty =>
      simp only [Operation.action, Action.suits, Bool.and_eq_true] at suits ⊢
      rw [replay_store cpu answer suits.1]
      exact frame_of_flow rfl rfl rfl rfl rfl rfl
  | asl | lsr | rol | ror | inc | dec => exact frame_of_modify cpu answer rfl suits cycles
  | inx | dex | tax | tsx =>
      cases beq_iff_eq.mp suits
      exact frame_of_load .x rfl rfl rfl rfl rfl rfl rfl
  | iny | dey | tay =>
      cases beq_iff_eq.mp suits
      exact frame_of_load .y rfl rfl rfl rfl rfl rfl rfl
  | txa | tya =>
      cases beq_iff_eq.mp suits
      exact frame_of_load .a rfl rfl rfl rfl rfl rfl rfl
  | pla =>
      cases beq_iff_eq.mp suits
      simp only [Operation.action, replay_pull]
      exact frame_of_load .a rfl rfl rfl rfl rfl rfl rfl
  | clc | sec | cli | sei | cld | sed | clv =>
      cases beq_iff_eq.mp suits
      refine frame_of_put rfl rfl rfl ?_ ?_ rfl rfl
      · intro flag unlisted
        cases flag <;> simp_all [Operation.flags, Status.get]
      · rintro _ _ ⟨⟩
        rfl
  | plp =>
      cases beq_iff_eq.mp suits
      simp only [Operation.action, replay_pull]
      exact frame_of_pull rfl rfl rfl rfl rfl rfl
  | rti =>
      cases beq_iff_eq.mp suits
      simp only [Operation.action, replay_interruptReturn]
      exact frame_of_pull rfl rfl rfl rfl rfl rfl
  | brk =>
      cases beq_iff_eq.mp suits
      simp only [Operation.action, replay_softwareBreak]
      refine frame_of_put rfl rfl rfl ?_ ?_ rfl rfl
      · intro flag unlisted
        cases flag <;> simp_all [Operation.flags, Status.get]
      · rintro _ _ ⟨⟩
        rfl
  | bcc | bcs | beq | bmi | bne | bpl | bvc | bvs => exact frame_of_branch cpu answer rfl suits cycles
  | jmp =>
      simp only [Operation.action]
      rw [replay_jump cpu answer (Action.hasPlace_of_jump suits)]
      exact frame_of_flow rfl rfl rfl rfl rfl rfl
  | jsr =>
      cases beq_iff_eq.mp suits
      simp only [Operation.action, replay_call]
      exact frame_of_flow rfl rfl rfl rfl rfl rfl
  | rts =>
      cases beq_iff_eq.mp suits
      simp only [Operation.action, replay_return]
      exact frame_of_flow rfl rfl rfl rfl rfl rfl
  | pha | php | txs | nop =>
      cases beq_iff_eq.mp suits
      exact frame_of_flow rfl rfl rfl rfl rfl rfl

end

/-- What a step with these answers may change, if no interrupt is due. -/
def StepFrame (cpu : Cpu) (answer : Nat → UInt8) (after : Cpu) : Prop :=
  match decode (answer 0) with
  | some instruction => cpu.Frame answer instruction after
  | none => after = { cpu with pc := cpu.pc + 1, cycles := cpu.cycles + 2 }

/-- On every device a step that is no interrupt entry changes only what its instruction is there to
change; an undefined opcode moves the program counter on. -/
theorem step_frame (cpu : Cpu) (h : cpu.due = none) :
    cpu.step.OnEveryDevice fun result accesses =>
      cpu.StepFrame (Access.answerAt accesses) result.2 := by
  refine Transaction.OnEveryDevice.of_replay (P := fun answer (result : Nat × Cpu) _ =>
    cpu.StepFrame answer result.2) fun answer => ?_
  unfold StepFrame
  cases decoded : decode (answer 0) with
  | some instruction =>
      rw [replay_step_instruction cpu answer h decoded]
      exact (replay_act_frame cpu answer decoded).count _
  | none =>
      rw [replay_step_undefined cpu answer h decoded]
      rfl

/-- A request that the status masks is no interrupt. -/
theorem step_frame_masked :
    ({ initial with irqLine := true } : Cpu).due = none ∧
      ({ initial with irqLine := true } : Cpu).step.OnEveryDevice fun result accesses =>
        ({ initial with irqLine := true } : Cpu).StepFrame (Access.answerAt accesses) result.2 :=
  ⟨rfl, step_frame _ rfl⟩

end Cpu

end AppleOne
