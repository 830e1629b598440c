import AppleOne.Proofs.Cpu.Digits
import AppleOne.Proofs.Cpu.Returning

/-!
Arithmetic on numbers of any length. A program loads the bytes of one number, the lowest first, and adds or
subtracts those of another one, the carry going from each pair to the next. In binary it leaves the bytes of
the sum or difference, with carry, sign and overflow of the whole numbers; in decimal, those of packed
decimal numbers.
-/

namespace AppleOne

open Access (answerAt)
open Arithmetic (Operator add subtract addDecimal subtractDecimal)
open Digits (ripple)

variable {ε σ : Type} [Device (EStateM ε σ)]

/-- A step that loads reads its operand last. -/
theorem Cpu.replay_step_load (cpu : Cpu) (answer : Nat → UInt8) {instruction : Instruction}
    (due : cpu.due = none) (decoded : decode (answer 0) = some instruction) {penalised : Bool}
    {apply : Cpu → UInt8 → Cpu} (loads : instruction.operation.action = .load penalised apply) :
    ∃ cycles n number before place, cpu.step.replay answer 0 =
      ((cycles, (apply (cpu.past n) (answer number)).counted cycles),
        before ++ [.read place (answer number)]) := by
  have inMemory := suits_of_decode decoded
  rw [loads] at inMemory
  have replay := cpu.replay_step_instruction answer due decoded
  rw [loads, replay_load _ _ inMemory] at replay
  exact ⟨_, _, _, .read cpu.pc (answer 0) :: _, _, replay⟩

namespace Computer

/-- The next step runs an instruction with this operation, and `value` is its operand: the byte that the
step reads last. -/
def Takes (ε : Type) [Device (EStateM ε σ)] (computer : Computer σ) (operation : Operation)
    (value : UInt8) : Prop :=
  computer.cpu.due = none ∧ ∃ cycles cpu memory opcode instruction between place,
    (computer.cpu.step.perform : EStateM ε (Watched σ) (Nat × Cpu)) (.start computer.memory) =
      .ok (cycles, cpu) ⟨memory, .read computer.cpu.pc opcode :: between ++ [.read place value]⟩ ∧
    decode opcode = some instruction ∧ instruction.operation = operation

variable {computer start : Computer σ} {operation : Operation} {value : UInt8}

theorem Takes.exists_step (takes : computer.Takes ε operation value) {penalised : Bool}
    {apply : Cpu → UInt8 → Cpu} (loads : operation.action = .load penalised apply) :
    ∃ cycles n memory,
      computer.step ε = .ok cycles ⟨(apply (computer.cpu.past n) value).counted cycles, memory⟩ := by
  obtain ⟨due, cycles, cpu, memory, opcode, instruction, between, place, done, decoded, rfl⟩ := takes
  have plain := computer.cpu.step.perform_watched (ε := ε) (.start computer.memory)
  have explained := computer.cpu.step.perform_explained (ε := ε) computer.memory []
  rw [show (⟨computer.memory, []⟩ : Watched σ) = .start computer.memory from rfl, done] at explained
  rw [done] at plain
  change (computer.cpu.step.perform : EStateM ε σ (Nat × Cpu)) computer.memory = _ at plain
  obtain ⟨made, rfl, replayed⟩ := explained
  generalize answered : answerAt _ = answer at replayed
  have first : answer 0 = opcode := by rw [← answered]; rfl
  obtain ⟨again, n, number, before, last, replay⟩ :=
    computer.cpu.replay_step_load answer due (first.symm ▸ decoded) loads
  have same := replayed.symm.trans replay
  injection same with result accesses
  injection result with sameCycles sameCpu
  obtain ⟨-, operand⟩ := List.append_inj' accesses rfl
  injection operand with operand
  injection operand with _ operand
  refine ⟨cycles, n, memory, ?_⟩
  rw [step, plain, operand, sameCpu, sameCycles]

/-! ### Chains of pairs -/

/-- Steps that load the first byte of each pair and combine the second one with it, pair by pair. -/
structure Combines (ε : Type) [Device (EStateM ε σ)] (operation : Operation)
    (pairs : List (UInt8 × UInt8)) (start : Computer σ) : Prop where
  loads : ∀ i pair, pairs[i]? = some pair → ∀ between, Steps ε (2 * i) start between →
    between.Takes ε .lda pair.1
  combines : ∀ i pair, pairs[i]? = some pair → ∀ between, Steps ε (2 * i + 1) start between →
    between.Takes ε operation pair.2

variable {pair : UInt8 × UInt8} {rest : List (UInt8 × UInt8)} {loaded next : Computer σ} {cycles more : Nat}

theorem Combines.tail (combines : start.Combines ε operation (pair :: rest))
    (first : start.step ε = .ok cycles loaded) (second : loaded.step ε = .ok more next) :
    next.Combines ε operation rest := by
  have behind : ∀ {k between}, Steps ε k next between → Steps ε (k + 1 + 1) start between :=
    fun steps => (steps_succ_iff first).mpr ((steps_succ_iff second).mpr steps)
  constructor
  · intro i pair found between steps
    exact combines.loads (i + 1) pair found between (behind steps)
  · intro i pair found between steps
    exact combines.combines (i + 1) pair found between (behind steps)

theorem combines_nil (start : Computer σ) : start.Combines ε operation [] := ⟨nofun, nofun⟩

theorem Combines.cons (load : start.Takes ε .lda pair.1) (first : start.step ε = .ok cycles loaded)
    (combine : loaded.Takes ε operation pair.2) (second : loaded.step ε = .ok more next)
    (later : next.Combines ε operation rest) : start.Combines ε operation (pair :: rest) := by
  constructor
  · intro i other found between steps
    cases i with
    | zero =>
        cases found
        cases steps
        exact load
    | succ i =>
        exact later.loads i other found between
          ((steps_succ_iff second).mp ((steps_succ_iff first).mp steps))
  · intro i other found between steps
    cases i with
    | zero =>
        cases found
        cases (steps_succ_iff first).mp steps
        exact combine
    | succ i =>
        exact later.combines i other found between
          ((steps_succ_iff second).mp ((steps_succ_iff first).mp steps))

end Computer

/-- The operation puts through the operator what is in the accumulator and its operand. -/
structure Operation.Performs (operation : Operation) (decimal : Bool) (operator : Operator) : Prop where
  loads : ∃ penalised apply, operation.action = .load penalised apply ∧
    ∀ cpu value, cpu.decimalMode = decimal →
      apply cpu value = cpu.accumulate (operator cpu.status cpu.a value)
  decimal : ∀ s a b, (operator s a b).2.decimal = s.decimal

namespace Operation

theorem performs_adc : adc.Performs false add where
  loads := ⟨_, _, rfl, fun cpu value mode => by rw [Cpu.addWithCarry, mode]; rfl⟩
  decimal _ _ _ := rfl

theorem performs_sbc : sbc.Performs false subtract where
  loads := ⟨_, _, rfl, fun cpu value mode => by rw [Cpu.subtractWithBorrow, mode]; rfl⟩
  decimal _ _ _ := rfl

theorem performs_adc_decimal : adc.Performs true addDecimal where
  loads := ⟨_, _, rfl, fun cpu value mode => by rw [Cpu.addWithCarry, mode]; rfl⟩
  decimal _ _ _ := rfl

theorem performs_sbc_decimal : sbc.Performs true subtractDecimal where
  loads := ⟨_, _, rfl, fun cpu value mode => by rw [Cpu.subtractWithBorrow, mode]; rfl⟩
  decimal _ _ _ := rfl

end Operation

namespace Computer

variable {computer start : Computer σ} {operation : Operation} {mode : Bool} {operator : Operator}
  {value : UInt8} {pairs : List (UInt8 × UInt8)}

theorem Takes.exists_loaded (takes : computer.Takes ε .lda value) :
    ∃ cycles loaded, computer.step ε = .ok cycles loaded ∧ loaded.cpu.a = value ∧
      loaded.cpu.status = computer.cpu.status.test value ∧
      loaded.cpu.decimalMode = computer.cpu.decimalMode := by
  obtain ⟨cycles, n, memory, done⟩ := takes.exists_step rfl
  exact ⟨cycles, _, done, rfl, rfl, rfl⟩

theorem Takes.exists_combined (takes : computer.Takes ε operation value)
    (performs : operation.Performs mode operator) (inMode : computer.cpu.decimalMode = mode) :
    ∃ cycles combined, computer.step ε = .ok cycles combined ∧
      (combined.cpu.a, combined.cpu.status) = operator computer.cpu.status computer.cpu.a value ∧
      combined.cpu.decimalMode = mode := by
  obtain ⟨_, apply, loads, applied⟩ := performs.loads
  obtain ⟨cycles, n, memory, done⟩ := takes.exists_step loads
  rw [applied (computer.cpu.past n) value inMode] at done
  refine ⟨cycles, _, done, rfl, ?_⟩
  rw [← inMode]
  exact congrArg (computer.cpu.decimalEnabled && ·) (performs.decimal _ _ _)

/-- A chain comes to its end, with the bytes and the status that the operator makes of the pairs. -/
theorem Combines.exists_last (combines : start.Combines ε operation pairs)
    (performs : operation.Performs mode operator) (inMode : start.cpu.decimalMode = mode) :
    ∃ last, Steps ε (2 * pairs.length) start last ∧
      last.cpu.status = (ripple operator start.cpu.status pairs).2 ∧
      ∀ i pair, pairs[i]? = some pair →
        ∃ loaded combined, Steps ε (2 * i + 1) start loaded ∧ loaded.cpu.a = pair.1 ∧
          Steps ε (2 * (i + 1)) start combined ∧
          (ripple operator start.cpu.status pairs).1[i]? = some combined.cpu.a := by
  induction pairs generalizing start with
  | nil => exact ⟨start, rfl, rfl, nofun⟩
  | cons pair rest ih =>
      -- Two steps are made for the pair; the rest of the chain starts after them, with the status they leave.
      obtain ⟨x, y⟩ := pair
      obtain ⟨_, loaded, first, rfl, tested, sameMode⟩ :=
        (combines.loads 0 (x, y) rfl start rfl).exists_loaded
      have second := combines.combines 0 (loaded.cpu.a, y) rfl loaded (steps_one first)
      obtain ⟨_, next, step, made, nextMode⟩ := second.exists_combined performs (sameMode.trans inMode)
      obtain ⟨last, steps, status, bytes⟩ := ih (combines.tail first step) nextMode
      have behind : ∀ {k between}, Steps ε k next between → Steps ε (k + 1 + 1) start between :=
        fun steps => (steps_succ_iff first).mpr ((steps_succ_iff step).mpr steps)
      rw [Digits.ripple_cons, ← tested, ← made]
      refine ⟨last, behind steps, status, ?_⟩
      intro i pair found
      cases i with
      | zero =>
          cases found
          exact ⟨loaded, next, steps_one first, rfl, behind rfl, rfl⟩
      | succ i =>
          obtain ⟨later, combined, stepsLater, held, stepsCombined, out⟩ := bytes i pair found
          exact ⟨later, combined, behind stepsLater, held, behind stepsCombined, out⟩

/-! ### Sums and differences -/

/-- What a chain leaves in the accumulator: the bytes of a number, and digits all the way. -/
structure Leaves (ε : Type) [Device (EStateM ε σ)] (digits : Digits) (places number : Nat)
    (start last : Computer σ) : Prop where
  reached : Steps ε (2 * places) start last
  bytes : ∀ i < places, ∃ between, Steps ε (2 * (i + 1)) start between ∧
    between.cpu.a = digits.byteAt number i
  fits : ∀ k, 0 < k → k ≤ 2 * places → ∀ between, Steps ε k start between → digits.fits between.cpu.a

structure LeavesSum (ε : Type) [Device (EStateM ε σ)] (digits : Digits) (pairs : List (UInt8 × UInt8))
    (start last : Computer σ) : Prop where
  leaves : Leaves ε digits pairs.length
    ((digits.total (pairs.map Prod.fst) + digits.total (pairs.map Prod.snd) +
      start.cpu.status.carry.toNat) % digits.base ^ pairs.length) start last
  carry : last.cpu.status.carry = true ↔
    digits.base ^ pairs.length ≤ digits.total (pairs.map Prod.fst) + digits.total (pairs.map Prod.snd) +
      start.cpu.status.carry.toNat

structure LeavesDifference (ε : Type) [Device (EStateM ε σ)] (digits : Digits)
    (pairs : List (UInt8 × UInt8)) (start last : Computer σ) : Prop where
  leaves : Leaves ε digits pairs.length
    (((digits.total (pairs.map Prod.fst) : Int) - digits.total (pairs.map Prod.snd) -
      (!start.cpu.status.carry).toNat) % digits.base ^ pairs.length).toNat start last
  carry : last.cpu.status.carry = true ↔
    digits.total (pairs.map Prod.snd) + (!start.cpu.status.carry).toNat ≤ digits.total (pairs.map Prod.fst)

section

variable {digits : Digits} {addend : UInt8 → Nat} {last : Computer σ}

theorem Combines.exists_leaves (combines : start.Combines ε operation pairs)
    (performs : operation.Performs mode operator) (inMode : start.cpu.decimalMode = mode)
    (adder : digits.Adder addend operator) (fit : digits.Fit pairs) :
    ∃ last, Leaves ε digits pairs.length (digits.total (ripple operator start.cpu.status pairs).1)
        start last ∧
      last.cpu.status = (ripple operator start.cpu.status pairs).2 := by
  obtain ⟨last, steps, status, bytes⟩ := combines.exists_last performs inMode
  obtain ⟨fits, -⟩ := adder.total_ripple (s := start.cpu.status) fit
  refine ⟨last, ⟨steps, ?_, ?_⟩, status⟩
  · intro i below
    obtain ⟨_, combined, -, -, steps, out⟩ := bytes i pairs[i] (List.getElem?_eq_getElem below)
    obtain ⟨inside, held⟩ := List.getElem?_eq_some_iff.mp out
    exact ⟨combined, steps, by rw [← held, Digits.getElem_eq_byteAt fits]⟩
  · intro k positive most between steps
    obtain ⟨i, rfl | rfl⟩ : ∃ i, k = 2 * i + 1 ∨ k = 2 * (i + 1) := ⟨(k - 1) / 2, by omega⟩
    all_goals
      have below : i < pairs.length := by omega
      obtain ⟨loaded, combined, first, held, second, out⟩ :=
        bytes i pairs[i] (List.getElem?_eq_getElem below)
    · rw [first.unique steps, held]
      exact (fit _ (List.getElem_mem below)).1
    · rw [second.unique steps]
      exact fits _ (List.mem_of_getElem? out)

theorem Combines.exists_sum (combines : start.Combines ε operation pairs)
    (performs : operation.Performs mode operator) (inMode : start.cpu.decimalMode = mode)
    (adder : digits.Adder digits.value operator) (fit : digits.Fit pairs) :
    ∃ last, LeavesSum ε digits pairs start last ∧
      last.cpu.status = (ripple operator start.cpu.status pairs).2 := by
  obtain ⟨last, leaves, status⟩ := combines.exists_leaves performs inMode adder fit
  obtain ⟨total, carry⟩ := adder.sum_ripple (s := start.cpu.status) fit
  exact ⟨last, ⟨total ▸ leaves, by rw [status, carry, decide_eq_true_eq]⟩, status⟩

theorem Combines.exists_difference (combines : start.Combines ε operation pairs)
    (performs : operation.Performs mode operator) (inMode : start.cpu.decimalMode = mode)
    (adder : digits.Adder digits.complement operator) (fit : digits.Fit pairs) :
    ∃ last, LeavesDifference ε digits pairs start last ∧
      last.cpu.status = (ripple operator start.cpu.status pairs).2 := by
  obtain ⟨last, leaves, status⟩ := combines.exists_leaves performs inMode adder fit
  obtain ⟨total, carry⟩ := adder.difference_ripple (s := start.cpu.status) fit
  exact ⟨last, ⟨total ▸ leaves, by rw [status, carry, decide_eq_true_eq]⟩, status⟩

end

/-! ### Binary numbers -/

theorem binary_fit (pairs : List (UInt8 × UInt8)) : Digits.binary.Fit pairs := fun _ _ => ⟨trivial, trivial⟩

structure LeavesBinarySum (ε : Type) [Device (EStateM ε σ)] (pairs : List (UInt8 × UInt8))
    (start last : Computer σ) : Prop extends LeavesSum ε .binary pairs start last where
  negative : last.cpu.status.negative = true ↔
    256 ^ pairs.length ≤ 2 * ((Digits.binary.total (pairs.map Prod.fst) +
      Digits.binary.total (pairs.map Prod.snd) + start.cpu.status.carry.toNat) % 256 ^ pairs.length)
  overflow : last.cpu.status.overflow = true ↔
    ¬Digits.InRange pairs.length
      (Digits.signed pairs.length (Digits.binary.total (pairs.map Prod.fst)) +
        Digits.signed pairs.length (Digits.binary.total (pairs.map Prod.snd)) +
        start.cpu.status.carry.toNat)

structure LeavesBinaryDifference (ε : Type) [Device (EStateM ε σ)] (pairs : List (UInt8 × UInt8))
    (start last : Computer σ) : Prop extends LeavesDifference ε .binary pairs start last where
  negative : last.cpu.status.negative = true ↔
    256 ^ pairs.length ≤ 2 * (((Digits.binary.total (pairs.map Prod.fst) : Int) -
      Digits.binary.total (pairs.map Prod.snd) - (!start.cpu.status.carry).toNat) %
        256 ^ pairs.length).toNat
  overflow : last.cpu.status.overflow = true ↔
    ¬Digits.InRange pairs.length
      (Digits.signed pairs.length (Digits.binary.total (pairs.map Prod.fst)) -
        Digits.signed pairs.length (Digits.binary.total (pairs.map Prod.snd)) -
        (!start.cpu.status.carry).toNat)

variable {last : Computer σ}

theorem decimalMode_eq_false (off : start.cpu.decimalEnabled = false ∨ start.cpu.status.decimal = false) :
    start.cpu.decimalMode = false := by
  rw [Cpu.decimalMode]
  obtain off | off := off
  · rw [off, Bool.false_and]
  · rw [off, Bool.and_false]

theorem Combines.exists_binarySum (combines : start.Combines ε .adc pairs)
    (inMode : start.cpu.decimalMode = false) (nonempty : pairs ≠ []) :
    ∃ last, LeavesBinarySum ε pairs start last := by
  have fit := binary_fit pairs
  obtain ⟨last, sum, status⟩ := combines.exists_sum Operation.performs_adc inMode Digits.adder_add fit
  obtain ⟨total, -⟩ := Digits.adder_add.sum_ripple (s := start.cpu.status) fit
  refine ⟨last, sum, ?_, ?_⟩
  · rw [status, Digits.negative_ripple_iff nonempty, total]
    rfl
  · rw [status, Digits.overflow_ripple_iff nonempty]

theorem Combines.exists_binaryDifference (combines : start.Combines ε .sbc pairs)
    (inMode : start.cpu.decimalMode = false) (nonempty : pairs ≠ []) :
    ∃ last, LeavesBinaryDifference ε pairs start last := by
  have fit := binary_fit pairs
  obtain ⟨last, difference, status⟩ :=
    combines.exists_difference Operation.performs_sbc inMode Digits.adder_subtract fit
  obtain ⟨total, -⟩ := Digits.adder_subtract.difference_ripple (s := start.cpu.status) fit
  refine ⟨last, difference, ?_, ?_⟩
  · rw [status, Digits.negative_ripple_subtract_iff nonempty, total]
    rfl
  · rw [status, Digits.overflow_ripple_subtract_iff nonempty]

/-- To subtract what was added brings back the first number, byte by byte. -/
theorem Combines.exists_undone (added : start.Combines ε .adc pairs)
    (inMode : start.cpu.decimalMode = false) (clear : start.cpu.status.carry = false)
    {again : Computer σ} (againMode : again.cpu.decimalMode = false)
    (set : again.cpu.status.carry = true) {sums : List UInt8} (many : sums.length = pairs.length)
    (left : ∀ i < pairs.length, ∀ between, Steps ε (2 * (i + 1)) start between →
      sums[i]? = some between.cpu.a)
    (subtracted : again.Combines ε .sbc (sums.zip (pairs.map Prod.snd))) :
    ∀ i pair, pairs[i]? = some pair →
      ∃ between, Steps ε (2 * (i + 1)) again between ∧ between.cpu.a = pair.1 := by
  obtain ⟨_, -, -, bytes⟩ := added.exists_last Operation.performs_adc inMode
  have same : sums = (ripple add start.cpu.status pairs).1 := by
    apply List.ext_getElem (many.trans (Digits.length_ripple _ _ _).symm)
    intro i inside _
    rw [many] at inside
    obtain ⟨_, between, -, -, steps, out⟩ := bytes i pairs[i] (List.getElem?_eq_getElem inside)
    obtain ⟨_, held⟩ := List.getElem?_eq_some_iff.mp out
    obtain ⟨_, kept⟩ := List.getElem?_eq_some_iff.mp (left i inside between steps)
    exact kept.trans held.symm
  have lengths : sums.length = (pairs.map Prod.snd).length := by rw [many, List.length_map]
  obtain ⟨_, -, -, bytesBack⟩ := subtracted.exists_last Operation.performs_sbc againMode
  have back : (ripple subtract again.cpu.status (sums.zip (pairs.map Prod.snd))).1 = pairs.map Prod.fst := by
    rw [same]
    exact Digits.ripple_undo (by rw [set, clear]; rfl)
  intro i pair found
  have inside : i < (sums.zip (pairs.map Prod.snd)).length := by
    rw [List.length_zip, ← lengths, many, Nat.min_self]
    exact (List.getElem?_eq_some_iff.mp found).1
  obtain ⟨_, between, -, -, steps, out⟩ := bytesBack i _ (List.getElem?_eq_getElem inside)
  rw [back, List.getElem?_map, found] at out
  exact ⟨between, steps, (Option.some.inj out).symm⟩

/-! ### Programs in memory -/

/-- The pairs are immediate operands in memory, behind the opcodes of a load and of another instruction. -/
def Listed (opcode : UInt8) (memory : Memory) : List (UInt8 × UInt8) → UInt16 → Prop
  | [], _ => True
  | (x, y) :: rest, place =>
    memory.get place = 0xA9 ∧ memory.get (place + 1) = x ∧
    memory.get (place + 2) = opcode ∧ memory.get (place + 2 + 1) = y ∧
    Listed opcode memory rest (place + 2 + 2)

theorem takes_immediate {cpu : Cpu} {memory : Memory} (due : cpu.due = none) {opcode value : UInt8}
    {operation : Operation} {cycles : Nat} {penalised : Bool} {apply : Cpu → UInt8 → Cpu}
    (first : memory.get cpu.pc = opcode) (second : memory.get (cpu.pc + 1) = value)
    (decoded : decode opcode = some ⟨operation, .immediate, cycles⟩)
    (loads : operation.action = .load penalised apply) :
    Takes ε ⟨cpu, memory⟩ operation value ∧
      step ε ⟨cpu, memory⟩ =
        .ok cycles ⟨(apply (cpu.jumped (cpu.pc + 2)) value).counted cycles, memory⟩ := by
  have behind : cpu.pc + 1 + 1 = cpu.pc + 2 := by grind
  have acts : (cpu.jumped (cpu.pc + 1)).act .immediate (.load penalised apply) =
      .read (cpu.pc + 1) fun value => .done (0, apply (cpu.jumped (cpu.pc + 2)) value) := by
    rw [← behind]
    cases penalised <;> rfl
  obtain ⟨next, step_eq, rest⟩ := Cpu.step_of_decode due decoded
  subst first second
  rw [loads, acts] at rest
  have watched : (cpu.step.perform : EStateM ε (Watched Memory) (Nat × Cpu)) (.start memory) =
      ((next (memory.get cpu.pc)).perform : EStateM ε (Watched Memory) (Nat × Cpu))
        ⟨memory, [.read cpu.pc (memory.get cpu.pc)]⟩ := by
    rw [step_eq]
    rfl
  have plain : (cpu.step.perform : EStateM ε Memory (Nat × Cpu)) memory =
      ((next (memory.get cpu.pc)).perform : EStateM ε Memory (Nat × Cpu)) memory := by
    rw [step_eq]
    rfl
  constructor
  · refine ⟨due, cycles, (apply (cpu.jumped (cpu.pc + 2)) (memory.get (cpu.pc + 1))).counted cycles,
      memory, memory.get cpu.pc, _, [], cpu.pc + 1, ?_, decoded, rfl⟩
    rw [watched, rest]
    rfl
  · rw [step, plain, rest]
    rfl

/-- Immediate operands in memory make a chain where nothing interrupts. -/
theorem combines_of_listed {opcode : UInt8} {operation : Operation} {cycles : Nat} {penalised : Bool}
    {apply : Cpu → UInt8 → Cpu} (decoded : decode opcode = some ⟨operation, .immediate, cycles⟩)
    (loads : operation.action = .load penalised apply)
    (keeps : ∀ cpu value, (apply cpu value).pc = cpu.pc ∧ (apply cpu value).irqLine = cpu.irqLine ∧
      (apply cpu value).nmiPending = cpu.nmiPending)
    {cpu : Cpu} {memory : Memory} (line : cpu.irqLine = false) (edge : cpu.nmiPending = false)
    (listed : Listed opcode memory pairs cpu.pc) : Combines ε operation pairs ⟨cpu, memory⟩ := by
  have quiet : ∀ {cpu : Cpu}, cpu.irqLine = false → cpu.nmiPending = false → cpu.due = none := by
    intro cpu line edge
    rw [Cpu.due, edge, line]
    rfl
  have decodedLoad : decode 0xA9 = some ⟨.lda, .immediate, 2⟩ := by
    rw [decode_eq_lookup]
    rfl
  induction pairs generalizing cpu with
  | nil => exact combines_nil _
  | cons pair rest ih =>
      obtain ⟨load, x, combine, y, listed⟩ := listed
      obtain ⟨takes, first⟩ := takes_immediate (ε := ε) (quiet line edge) load x decodedLoad rfl
      have undisturbed : (((cpu.jumped (cpu.pc + 2)).loadA pair.1).counted 2).due = none := quiet line edge
      obtain ⟨combines, last⟩ := takes_immediate (ε := ε) undisturbed combine y decoded loads
      obtain ⟨pc, lineKept, edgeKept⟩ :=
        keeps ((((cpu.jumped (cpu.pc + 2)).loadA pair.1).counted 2).jumped (cpu.pc + 2 + 2)) pair.2
      change _ = cpu.pc + 2 + 2 at pc
      rw [← pc] at listed
      exact .cons takes first combines last (ih (lineKept.trans line) (edgeKept.trans edge) listed)

section

variable {cpu : Cpu} {memory : Memory} (line : cpu.irqLine = false) (edge : cpu.nmiPending = false)
include line edge

theorem adds_of_listed (listed : Listed 0x69 memory pairs cpu.pc) : Combines ε .adc pairs ⟨cpu, memory⟩ := by
  have decoded : decode 0x69 = some ⟨.adc, .immediate, 2⟩ := by
    rw [decode_eq_lookup]
    rfl
  have loads : Operation.adc.action = .load _ Cpu.addWithCarry := rfl
  exact combines_of_listed decoded loads (fun _ _ => ⟨rfl, rfl, rfl⟩) line edge listed

theorem subtracts_of_listed (listed : Listed 0xE9 memory pairs cpu.pc) :
    Combines ε .sbc pairs ⟨cpu, memory⟩ := by
  have decoded : decode 0xE9 = some ⟨.sbc, .immediate, 2⟩ := by
    rw [decode_eq_lookup]
    rfl
  have loads : Operation.sbc.action = .load _ Cpu.subtractWithBorrow := rfl
  exact combines_of_listed decoded loads (fun _ _ => ⟨rfl, rfl, rfl⟩) line edge listed

end

/-! ### Chains as arithmetic -/

theorem chains_compute_binary (nonempty : pairs ≠ [])
    (off : start.cpu.decimalEnabled = false ∨ start.cpu.status.decimal = false) :
    (start.Combines ε .adc pairs → ∃ last, LeavesBinarySum ε pairs start last) ∧
    (start.Combines ε .sbc pairs → ∃ last, LeavesBinaryDifference ε pairs start last) ∧
    (start.Combines ε .adc pairs → start.cpu.status.carry = false →
      ∀ (sums : List UInt8) (again : Computer σ), sums.length = pairs.length →
        (∀ i < pairs.length, ∀ between, Steps ε (2 * (i + 1)) start between →
          sums[i]? = some between.cpu.a) →
        (again.cpu.decimalEnabled = false ∨ again.cpu.status.decimal = false) →
        again.cpu.status.carry = true → again.Combines ε .sbc (sums.zip (pairs.map Prod.snd)) →
        ∀ i pair, pairs[i]? = some pair →
          ∃ between, Steps ε (2 * (i + 1)) again between ∧ between.cpu.a = pair.1) := by
  have inMode := decimalMode_eq_false off
  refine ⟨fun added => added.exists_binarySum inMode nonempty,
    fun subtracted => subtracted.exists_binaryDifference inMode nonempty, ?_⟩
  intro added clear sums again many left offAgain set subtracted
  exact added.exists_undone inMode clear (decimalMode_eq_false offAgain) set many left subtracted

theorem chains_compute_binary_twice :
    let code := (Memory.zero.write 0x0200 [0xA9, 0xFF, 0x69, 0x01, 0xA9, 0x7F, 0x69, 0x00]).write 0x0300
      [0xA9, 0x00, 0xE9, 0x01, 0xA9, 0x80, 0xE9, 0x00]
    let pairs : List (UInt8 × UInt8) := [(0xFF, 0x01), (0x7F, 0x00)]
    let start : Computer Memory := ⟨{ Cpu.initial with pc := 0x0200 }, code⟩
    let again : Computer Memory :=
      ⟨{ Cpu.initial with pc := 0x0300, status := { Cpu.initial.status with carry := true } }, code⟩
    (∃ last, LeavesBinarySum Empty pairs start last) ∧
    (∃ last, LeavesBinaryDifference Empty [(0x00, 0x01), (0x80, 0x00)] again last) ∧
    ∀ i pair, pairs[i]? = some pair →
      ∃ between, Steps Empty (2 * (i + 1)) again between ∧ between.cpu.a = pair.1 := by
  intro code pairs start again
  have added : start.Combines Empty .adc pairs := by
    refine adds_of_listed rfl rfl ?_
    simp [Listed, pairs, code, Memory.write, Memory.get_set]
  have subtracted : again.Combines Empty .sbc [(0x00, 0x01), (0x80, 0x00)] := by
    refine subtracts_of_listed rfl rfl ?_
    simp [Listed, code, Memory.write, Memory.get_set]
  have off : start.cpu.decimalEnabled = false ∨ start.cpu.status.decimal = false := .inr rfl
  have offAgain : again.cpu.decimalEnabled = false ∨ again.cpu.status.decimal = false := .inr rfl
  have nonempty : pairs ≠ [] := List.cons_ne_nil _ _
  obtain ⟨sum, -, undone⟩ := chains_compute_binary (ε := Empty) nonempty off
  obtain ⟨-, difference, -⟩ := chains_compute_binary (ε := Empty) (List.cons_ne_nil (0x00, 0x01) [(0x80, 0x00)])
    offAgain
  obtain ⟨last, leaves⟩ := sum added
  refine ⟨⟨last, leaves⟩, difference subtracted, ?_⟩
  refine undone added rfl [0x00, 0x80] again rfl ?_ (.inr rfl) rfl subtracted
  intro i below between steps
  obtain ⟨reached, steps', held⟩ := leaves.leaves.bytes i below
  rw [steps'.unique steps, held]
  obtain rfl | rfl : i = 0 ∨ i = 1 := by
    change i < 2 at below
    omega
  · decide
  · decide

theorem chains_compute_decimal (nonempty : pairs ≠ []) :
    (start.cpu.decimalEnabled = true → start.cpu.status.decimal = true → Digits.decimal.Fit pairs →
      (start.Combines ε .adc pairs → ∃ last, LeavesSum ε .decimal pairs start last) ∧
      (start.Combines ε .sbc pairs → ∃ last, LeavesDifference ε .decimal pairs start last)) ∧
    (start.cpu.decimalEnabled = false ∨ start.cpu.status.decimal = false →
      (start.Combines ε .adc pairs → ∃ last, LeavesBinarySum ε pairs start last) ∧
      (start.Combines ε .sbc pairs → ∃ last, LeavesBinaryDifference ε pairs start last)) := by
  constructor
  · intro enabled set fit
    have inMode : start.cpu.decimalMode = true := by rw [Cpu.decimalMode, enabled, set, Bool.and_self]
    constructor
    · intro added
      obtain ⟨last, sum, -⟩ :=
        added.exists_sum Operation.performs_adc_decimal inMode Digits.adder_addDecimal fit
      exact ⟨last, sum⟩
    · intro subtracted
      obtain ⟨last, difference, -⟩ := subtracted.exists_difference Operation.performs_sbc_decimal inMode
        Digits.adder_subtractDecimal fit
      exact ⟨last, difference⟩
  · intro off
    have inMode := decimalMode_eq_false off
    exact ⟨fun added => added.exists_binarySum inMode nonempty,
      fun subtracted => subtracted.exists_binaryDifference inMode nonempty⟩

theorem chains_compute_decimal_twice :
    let code := Memory.zero.write 0x0200 [0xA9, 0x99, 0x69, 0x01, 0xA9, 0x12, 0x69, 0x00]
    let pairs : List (UInt8 × UInt8) := [(0x99, 0x01), (0x12, 0x00)]
    let status := { Cpu.initial.status with decimal := true }
    (∃ last, Leaves Empty .decimal 2 1300
      (⟨{ Cpu.initial with pc := 0x0200, status, decimalEnabled := true }, code⟩ : Computer Memory) last) ∧
    ∃ last, LeavesBinarySum Empty pairs
      (⟨{ Cpu.initial with pc := 0x0200, status, decimalEnabled := false }, code⟩ : Computer Memory)
      last := by
  intro code pairs status
  let start : Bool → Computer Memory := fun decimalEnabled =>
    ⟨{ Cpu.initial with pc := 0x0200, status, decimalEnabled }, code⟩
  have added : ∀ decimalEnabled, (start decimalEnabled).Combines Empty .adc pairs := by
    intro decimalEnabled
    refine adds_of_listed rfl rfl ?_
    simp [Listed, pairs, code, Memory.write, Memory.get_set]
  have fit : Digits.decimal.Fit pairs := by
    intro pair among
    simp only [pairs, List.mem_cons, List.not_mem_nil, or_false] at among
    obtain rfl | rfl := among
    · exact ⟨⟨by decide, by decide⟩, by decide, by decide⟩
    · exact ⟨⟨by decide, by decide⟩, by decide, by decide⟩
  have nonempty : pairs ≠ [] := List.cons_ne_nil _ _
  have enabled : (start true).cpu.decimalEnabled = true := rfl
  have disabled : (start false).cpu.decimalEnabled = false := rfl
  obtain ⟨inDecimal, -⟩ := (chains_compute_decimal (ε := Empty) nonempty).1 enabled rfl fit
  obtain ⟨inBinary, -⟩ := (chains_compute_decimal (ε := Empty) nonempty).2 (.inl disabled)
  obtain ⟨last, sum⟩ := inDecimal (added true)
  refine ⟨⟨last, ?_⟩, inBinary (added false)⟩
  have number : (Digits.decimal.total (pairs.map Prod.fst) + Digits.decimal.total (pairs.map Prod.snd) +
      false.toNat) % Digits.decimal.base ^ pairs.length = 1300 := by decide
  exact number ▸ sum.leaves

end Computer

end AppleOne
