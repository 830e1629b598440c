import AppleOne.Proofs.Bus.Cells
import AppleOne.Proofs.Cpu.Returning
import AppleOne.Proofs.Cpu.Rotation

/-!
Shifts of numbers of any length. The bytes stand in memory, and each instruction shifts one of them in its
place, or they are handed to the accumulator one by one.
-/

namespace AppleOne

open Digits (binary)
open Shift (series)

variable {ε σ : Type} [Device (EStateM ε σ)]

/-! ### Operands -/

namespace Cpu

theorem locate_reads (cpu : Cpu) (mode : AddressMode) : (cpu.locate mode).Reads := by
  cases mode with
  | implied | accumulator | immediate | relative => exact .done _
  | zeroPage | zeroPageX | zeroPageY => exact .read _ fun _ => .done _
  | absolute | absoluteX | absoluteY => exact .read _ fun _ => .read _ fun _ => .done _
  | indexedIndirect | indirectIndexed =>
      exact .read _ fun _ => .read _ fun _ => .read _ fun _ => .done _
  | indirect => exact .read _ fun _ => .read _ fun _ => .read _ fun _ => .read _ fun _ => .done _

theorem status_of_locate {cpu after : Cpu} {mode : AddressMode} {operand : Operand} {memory located : σ}
    (done : ((cpu.locate mode).perform : EStateM ε σ (Operand × Cpu)) memory =
      .ok (operand, after) located) : after.status = cpu.status := by
  obtain ⟨answer, replayed⟩ := Transaction.exists_replay_of_perform done
  have same : ((cpu.locate mode).replay answer 0).1.2.status = cpu.status := by cases mode <;> rfl
  rwa [replayed] at same

end Cpu

namespace Computer

/-- The next step runs this instruction. -/
def Fetches (ε : Type) [Device (EStateM ε σ)] (computer : Computer σ) (instruction : Instruction)
    (fetched : σ) : Prop :=
  computer.cpu.due = none ∧ ∃ opcode,
    (Device.read computer.cpu.pc : EStateM ε σ UInt8) computer.memory = .ok opcode fetched ∧
      decode opcode = some instruction

/-- The next step shifts the accumulator. -/
def ShiftsAccumulator (ε : Type) [Device (EStateM ε σ)] (computer : Computer σ) (shift : Shift) :
    Prop :=
  ∃ instruction fetched, computer.Fetches ε instruction fetched ∧
    instruction.operation = shift.operation ∧ instruction.mode = .accumulator

/-- The next step shifts the byte at a place; by what mode the instruction names it is left open. -/
def ShiftsPlace (ε : Type) [Device (EStateM ε σ)] (computer : Computer σ) (shift : Shift)
    (place : UInt16) : Prop :=
  ∃ instruction fetched crossed cpu located, computer.Fetches ε instruction fetched ∧
    instruction.operation = shift.operation ∧ instruction.mode ≠ .accumulator ∧
    (((computer.cpu.jumped (computer.cpu.pc + 1)).locate instruction.mode).perform :
      EStateM ε σ (Cpu.Operand × Cpu)) fetched = .ok (⟨place, crossed⟩, cpu) located

variable {computer : Computer σ} {shift : Shift} {place : UInt16}

theorem Fetches.step_eq {instruction : Instruction} {fetched memory : σ} {penalty : Nat} {cpu : Cpu}
    (fetches : computer.Fetches ε instruction fetched)
    (acts : (((computer.cpu.jumped (computer.cpu.pc + 1)).act instruction.mode
      instruction.operation.action).perform : EStateM ε σ (Nat × Cpu)) fetched =
        .ok (penalty, cpu) memory) :
    computer.step ε = .ok (instruction.cycles + penalty)
      ⟨cpu.counted (instruction.cycles + penalty), memory⟩ := by
  obtain ⟨due, opcode, read, decoded⟩ := fetches
  obtain ⟨next, step_eq, rest⟩ := Cpu.step_of_decode due decoded
  rw [Computer.step, step_eq]
  simp only [Transaction.perform, bind, EStateM.bind, read]
  rw [rest, Transaction.perform_bind]
  simp only [bind, EStateM.bind, acts]
  rfl

theorem ShiftsAccumulator.exists_step (shifts : computer.ShiftsAccumulator ε shift) :
    let made := shift.apply computer.cpu.status computer.cpu.a
    ∃ cycles next, computer.step ε = .ok cycles next ∧ next.cpu.a = made.1 ∧ next.cpu.status = made.2 ∧
      ∀ cells : Cells ε σ, cells.fit computer.memory → cells.fit next.memory ∧
        ∀ place, cells.cell place →
          cells.shows next.memory place = cells.shows computer.memory place := by
  obtain ⟨instruction, fetched, fetches, performs, accumulator⟩ := shifts
  have acts : (((computer.cpu.jumped (computer.cpu.pc + 1)).act instruction.mode
      instruction.operation.action).perform : EStateM ε σ (Nat × Cpu)) fetched =
      .ok (0, (computer.cpu.jumped (computer.cpu.pc + 1)).accumulate
        (shift.apply computer.cpu.status computer.cpu.a)) fetched := by
    rw [performs, shift.action_eq, accumulator]
    rfl
  have step := fetches.step_eq acts
  obtain ⟨-, opcode, read, -⟩ := fetches
  exact ⟨_, _, step, rfl, rfl, fun cells fit => cells.of_read fit read⟩

theorem ShiftsPlace.exists_step (shifts : computer.ShiftsPlace ε shift place) {cells : Cells ε σ}
    (fit : cells.fit computer.memory) (cell : cells.cell place) :
    let made := shift.apply computer.cpu.status (cells.shows computer.memory place)
    ∃ cycles next, computer.step ε = .ok cycles next ∧ next.cpu.status = made.2 ∧
      cells.fit next.memory ∧ ∀ other, cells.cell other →
        cells.shows next.memory other = withByte (cells.shows computer.memory) place made.1 other := by
  intro made
  obtain ⟨instruction, fetched, crossed, cpu, located, fetches, performs, inMemory, found⟩ := shifts
  obtain ⟨-, opcode, read, -⟩ := id fetches
  obtain ⟨fit, opcodeKeeps⟩ := cells.of_read fit read
  obtain ⟨fit, locateKeeps⟩ := cells.of_reads (Cpu.locate_reads _ _) fit found
  have same : ∀ other, cells.cell other → cells.shows located other = cells.shows computer.memory other :=
    fun other cell => (locateKeeps other cell).trans (opcodeKeeps other cell)
  obtain ⟨between, operand⟩ := cells.read fit cell
  obtain ⟨fit, operandKeeps⟩ := cells.of_read fit operand
  obtain ⟨memory, write, fit, wrote⟩ := cells.write made.1 fit cell
  have status : cpu.status = computer.cpu.status := (Cpu.status_of_locate found :)
  have acts : (((computer.cpu.jumped (computer.cpu.pc + 1)).act instruction.mode
      instruction.operation.action).perform : EStateM ε σ (Nat × Cpu)) fetched =
      .ok (0, { cpu with status := made.2 }) memory := by
    rw [performs, shift.action_eq, Cpu.act, if_neg inMemory, Transaction.perform_bind]
    simp only [bind, EStateM.bind, found]
    change ((Device.read place : EStateM ε σ UInt8) >>= fun value => _) located = _
    simp only [bind, EStateM.bind, operand, same place cell, status]
    change ((Device.write place made.1 : EStateM ε σ Unit) >>= fun _ => _) between = _
    simp only [bind, EStateM.bind, write]
    rfl
  refine ⟨_, _, fetches.step_eq acts, rfl, fit, fun other cellOther => ?_⟩
  change cells.shows memory other = _
  rw [wrote other cellOther, withByte, withByte, operandKeeps other cellOther, same other cellOther]

/-! ### Chains in memory -/

/-- Step by step, each link shifts the byte at its place. -/
def Works (ε : Type) [Device (EStateM ε σ)] (start : Computer σ) (chain : List (Shift × UInt16)) :
    Prop :=
  ∀ i shift place, chain[i]? = some (shift, place) → ∀ between, Steps ε i start between →
    between.ShiftsPlace ε shift place

variable {start next between : Computer σ} {link : Shift × UInt16} {chain later : List (Shift × UInt16)}
  {cycles : Nat}

theorem Works.tail (works : start.Works ε (link :: chain)) (first : start.step ε = .ok cycles next) :
    next.Works ε chain := by
  intro i shift place found between steps
  exact works (i + 1) shift place found between ((steps_succ_iff first).mpr steps)

theorem Works.left (works : start.Works ε (chain ++ later)) : start.Works ε chain := by
  intro i shift place found
  exact works i shift place (List.getElem?_append_left (List.getElem?_eq_some_iff.mp found).1 ▸ found)

theorem Works.right (works : start.Works ε (chain ++ later)) (steps : Steps ε chain.length start between) :
    between.Works ε later := by
  intro i shift place found reached more
  refine works (chain.length + i) shift place ?_ reached (steps.append more)
  rw [List.getElem?_append_right (Nat.le_add_right _ _), Nat.add_sub_cancel_left, found]

/-- A chain comes to its end, and nothing but the bytes at its places changes. -/
theorem Works.exists_last (works : start.Works ε chain) {cells : Cells ε σ} (fit : cells.fit start.memory)
    (inside : ∀ place ∈ chain.map Prod.snd, cells.cell place) (apart : (chain.map Prod.snd).Nodup) :
    ∃ last, Steps ε chain.length start last ∧ cells.fit last.memory ∧
      ((chain.map Prod.snd).map (cells.shows last.memory), last.cpu.status.carry) =
        Shift.pass start.cpu.status.carry (chain.map (Prod.map id (cells.shows start.memory))) ∧
      ∀ place, cells.cell place → place ∉ chain.map Prod.snd →
        cells.shows last.memory place = cells.shows start.memory place := by
  induction chain generalizing start with
  | nil => exact ⟨start, rfl, fit, rfl, fun _ _ _ => rfl⟩
  | cons link rest ih =>
      obtain ⟨shift, place⟩ := link
      simp only [List.map_cons, List.forall_mem_cons, List.nodup_cons, Prod.map_apply, id_eq, Shift.pass]
        at inside apart ⊢
      obtain ⟨cell, inside⟩ := inside
      obtain ⟨fresh, apart⟩ := apart
      obtain ⟨cycles, next, step, status, fit, shown⟩ :=
        (works 0 shift place rfl start rfl).exists_step fit cell
      obtain ⟨last, steps, fit, made, kept⟩ := ih (works.tail step) fit inside apart
      -- The rest of the chain finds its own bytes as they were.
      have same : rest.map (Prod.map id (cells.shows next.memory)) =
          rest.map (Prod.map id (cells.shows start.memory)) := by
        refine List.map_congr_left fun link among => ?_
        have other : link.2 ∈ rest.map Prod.snd := List.mem_map_of_mem among
        rw [Prod.map, Prod.map, shown _ (inside _ other),
          withByte_of_ne _ _ (ne_of_mem_of_not_mem other fresh)]
      rw [same, status, shift.apply_carry] at made
      refine ⟨last, (steps_succ_iff step).mpr steps, fit, ?_, ?_⟩
      · rw [← made, kept place cell fresh, shown place cell, withByte_self, shift.apply_fst]
      · intro other cellOther outside
        rw [List.mem_cons, not_or] at outside
        rw [kept other cellOther outside.2, shown other cellOther, withByte_of_ne _ _ outside.1]

/-! ### Turns of the accumulator -/

/-- Shifts of the accumulator one after the other. What is done between two of them leaves the carry
alone. -/
def HandsOn (ε : Type) [Device (EStateM ε σ)] : Bool → List (Shift × Computer σ) → Prop
  | _, [] => True
  | carry, (shift, turn) :: rest =>
    turn.cpu.status.carry = carry ∧ turn.ShiftsAccumulator ε shift ∧
      ∀ cycles after, turn.step ε = .ok cycles after → HandsOn ε after.cpu.status.carry rest

/-- At each turn the step leaves a byte in the accumulator, and the last one leaves the carry. -/
def HandsBack (ε : Type) [Device (EStateM ε σ)] (turns : List (Computer σ)) (bytes : List UInt8)
    (carry : Bool) : Prop :=
  ∃ afters, List.Forall₂ (fun turn after => ∃ cycles, turn.step ε = .ok cycles after) turns afters ∧
    afters.map (·.cpu.a) = bytes ∧ ∀ last ∈ afters.getLast?, last.cpu.status.carry = carry

variable {carry : Bool} {turns more : List (Shift × Computer σ)}

theorem HandsOn.tail {turn after : Computer σ} (hands : HandsOn ε carry ((shift, turn) :: turns))
    (step : turn.step ε = .ok cycles after)
    (status : after.cpu.status = (shift.apply turn.cpu.status turn.cpu.a).2) :
    HandsOn ε (shift.out turn.cpu.a) turns := by
  rw [← shift.apply_carry turn.cpu.status, ← status]
  exact hands.2.2 cycles after step

theorem HandsOn.left (hands : HandsOn ε carry (turns ++ more)) : HandsOn ε carry turns := by
  induction turns generalizing carry with
  | nil => exact trivial
  | cons first rest ih =>
      exact ⟨hands.1, hands.2.1, fun cycles after step => ih (hands.2.2 cycles after step)⟩

theorem HandsOn.right (hands : HandsOn ε carry (turns ++ more)) :
    HandsOn ε (Shift.pass carry (turns.map (Prod.map id (·.cpu.a)))).2 more := by
  induction turns generalizing carry with
  | nil => exact hands
  | cons first rest ih =>
      obtain ⟨shift, turn⟩ := first
      obtain ⟨cycles, after, step, -, status, -⟩ := hands.2.1.exists_step
      exact ih (hands.tail step status)

theorem HandsOn.exists_afters (hands : HandsOn ε carry turns) :
    ∃ afters, List.Forall₂ (fun turn after => ∃ cycles, turn.step ε = .ok cycles after)
        (turns.map Prod.snd) afters ∧
      (afters.map (·.cpu.a), (afters.map (·.cpu.status.carry)).getLastD carry) =
        Shift.pass carry (turns.map (Prod.map id (·.cpu.a))) := by
  induction turns generalizing carry with
  | nil => exact ⟨[], .nil, rfl⟩
  | cons first rest ih =>
      obtain ⟨shift, turn⟩ := first
      obtain ⟨cycles, after, step, byte, status, -⟩ := hands.2.1.exists_step
      obtain ⟨afters, steps, bytes⟩ := ih (hands.tail step status)
      obtain ⟨rfl, -, -⟩ := hands
      refine ⟨after :: afters, .cons ⟨cycles, step⟩ steps, ?_⟩
      simp only [List.map_cons, List.getLastD_cons, Prod.map_apply, id_eq, Shift.pass]
      rw [← bytes, byte, shift.apply_fst, status, shift.apply_carry]

theorem HandsOn.handsBack (hands : HandsOn ε carry turns) :
    HandsBack ε (turns.map Prod.snd) (Shift.pass carry (turns.map (Prod.map id (·.cpu.a)))).1
      (Shift.pass carry (turns.map (Prod.map id (·.cpu.a)))).2 := by
  obtain ⟨afters, steps, made⟩ := hands.exists_afters
  obtain ⟨bytes, out⟩ := Prod.ext_iff.mp made
  refine ⟨afters, steps, bytes, fun last among => ?_⟩
  rw [← out, List.getLastD_eq_getLast?, List.getLast?_map, among]
  rfl

/-- The number whose bytes are handed to the accumulator, the lowest first. -/
def handed (turns : List (Computer σ)) : Nat := binary.total (turns.map (·.cpu.a))

theorem HandsOn.exists_double {turns : List (Computer σ)} (nonempty : turns ≠ [])
    (hands : HandsOn ε carry (series .asl .rol turns)) :
    ∃ bytes, HandsBack ε turns bytes ((handed turns).testBit (8 * turns.length - 1)) ∧
      binary.total bytes = 2 * handed turns % 256 ^ turns.length := by
  have back := hands.handsBack
  have nonempty : turns.map (·.cpu.a) ≠ [] := by simpa using nonempty
  obtain ⟨number, top⟩ := Shift.pass_asl_rol_eq carry nonempty
  rw [Shift.map_snd_series, Shift.map_series, top, List.length_map] at back
  rw [List.length_map] at number
  exact ⟨_, back, number⟩

theorem HandsOn.exists_half {turns : List (Computer σ)} (nonempty : turns ≠ [])
    (hands : HandsOn ε carry (series .lsr .ror turns.reverse)) :
    ∃ bytes, HandsBack ε turns.reverse bytes.reverse ((handed turns).testBit 0) ∧
      binary.total bytes = handed turns / 2 := by
  have back := hands.handsBack
  have nonempty : turns.map (·.cpu.a) ≠ [] := by simpa using nonempty
  obtain ⟨number, low⟩ := Shift.pass_lsr_ror_eq carry nonempty
  rw [Shift.map_snd_series, Shift.map_series, List.map_reverse, low] at back
  exact ⟨_, by rwa [List.reverse_reverse], number⟩

theorem HandsOn.exists_restored {ups downs : List (Computer σ)}
    (hands : HandsOn ε carry (series .rol .rol ups ++ series .ror .ror downs)) :
    ∃ bytes between, HandsBack ε ups bytes between ∧
      (downs.map (·.cpu.a) = bytes.reverse → HandsBack ε downs (ups.map (·.cpu.a)).reverse carry) := by
  have up := hands.left.handsBack
  have down := hands.right.handsBack
  rw [Shift.map_snd_series, Shift.map_series] at up
  rw [Shift.map_snd_series, Shift.map_series, Shift.map_series] at down
  refine ⟨_, _, up, fun again => ?_⟩
  rwa [again, Shift.pass_ror_rol] at down

end Computer

/-! ### Numbers -/

namespace Cells

open Computer (HandsOn HandsBack handed)

variable (cells : Cells ε σ)

/-- The number whose bytes are at these places, the lowest first. -/
def number (memory : σ) (places : List UInt16) : Nat := binary.total (places.map (cells.shows memory))

structure Operand (start : Computer σ) (places : List UInt16) : Prop where
  nonempty : places ≠ []
  fit : cells.fit start.memory
  inside : ∀ place ∈ places, cells.cell place
  apart : places.Nodup

/-- After some steps there is another number at the places, and no other byte has changed. -/
structure Becomes (places : List UInt16) (count : Nat) (start last : Computer σ) (number : Nat)
    (carry : Bool) : Prop where
  reached : start.Steps ε count last
  number : cells.number last.memory places = number
  carry : last.cpu.status.carry = carry
  others : ∀ place, cells.cell place → place ∉ places →
    cells.shows last.memory place = cells.shows start.memory place

/-- Shifts of numbers of any length, in memory and handed to the accumulator. -/
structure ShiftsNumbers : Prop where
  doubles : ∀ start places, cells.Operand start places → start.Works ε (series .asl .rol places) →
    ∃ last, cells.Becomes places places.length start last
      (2 * cells.number start.memory places % 256 ^ places.length)
      ((cells.number start.memory places).testBit (8 * places.length - 1))
  halves : ∀ start places, cells.Operand start places → start.Works ε (series .lsr .ror places.reverse) →
    ∃ last, cells.Becomes places places.length start last
      (cells.number start.memory places / 2) ((cells.number start.memory places).testBit 0)
  restores : ∀ start places, cells.Operand start places →
    start.Works ε (series .rol .rol places ++ series .ror .ror places.reverse) →
    ∃ last, cells.Becomes places (2 * places.length) start last
      (cells.number start.memory places) start.cpu.status.carry
  doublesHanded : ∀ carry (turns : List (Computer σ)), turns ≠ [] →
    HandsOn ε carry (series .asl .rol turns) →
    ∃ bytes, HandsBack ε turns bytes ((handed turns).testBit (8 * turns.length - 1)) ∧
      binary.total bytes = 2 * handed turns % 256 ^ turns.length
  halvesHanded : ∀ carry (turns : List (Computer σ)), turns ≠ [] →
    HandsOn ε carry (series .lsr .ror turns.reverse) →
    ∃ bytes, HandsBack ε turns.reverse bytes.reverse ((handed turns).testBit 0) ∧
      binary.total bytes = handed turns / 2
  restoresHanded : ∀ carry (ups downs : List (Computer σ)),
    HandsOn ε carry (series .rol .rol ups ++ series .ror .ror downs) →
    ∃ bytes between, HandsBack ε ups bytes between ∧
      (downs.map (·.cpu.a) = bytes.reverse → HandsBack ε downs (ups.map (·.cpu.a)).reverse carry)
  /-- On the same byte and status, memory and accumulator get the same byte and status. -/
  agrees : ∀ shift place (inPlace turn : Computer σ), cells.fit inPlace.memory → cells.cell place →
    inPlace.ShiftsPlace ε shift place → turn.ShiftsAccumulator ε shift →
    turn.cpu.a = cells.shows inPlace.memory place → turn.cpu.status = inPlace.cpu.status →
    ∃ cycles shifted cyclesTurn after, inPlace.step ε = .ok cycles shifted ∧
      turn.step ε = .ok cyclesTurn after ∧ after.cpu.a = cells.shows shifted.memory place ∧
      after.cpu.status = shifted.cpu.status
  spares : ∀ shift (turn : Computer σ), cells.fit turn.memory → turn.ShiftsAccumulator ε shift →
    ∃ cycles after, turn.step ε = .ok cycles after ∧
      ∀ place, cells.cell place → cells.shows after.memory place = cells.shows turn.memory place

variable {cells} {start last : Computer σ} {places : List UInt16} {chain : List (Shift × UInt16)}

theorem Operand.exists_pass (operand : cells.Operand start places) (works : start.Works ε chain)
    (order : (chain.map Prod.snd).Perm places) :
    ∃ last, start.Steps ε places.length last ∧ cells.Operand last places ∧
      ((chain.map Prod.snd).map (cells.shows last.memory), last.cpu.status.carry) =
        Shift.pass start.cpu.status.carry (chain.map (Prod.map id (cells.shows start.memory))) ∧
      ∀ place, cells.cell place → place ∉ places →
        cells.shows last.memory place = cells.shows start.memory place := by
  obtain ⟨last, steps, fit, made, others⟩ := works.exists_last operand.fit
    (fun place among => operand.inside place (order.mem_iff.mp among)) (order.nodup_iff.mpr operand.apart)
  rw [← List.length_map Prod.snd, order.length_eq] at steps
  refine ⟨last, steps, ⟨operand.nonempty, fit, operand.inside, operand.apart⟩, made, ?_⟩
  intro place cell outside
  exact others place cell fun among => outside (order.mem_iff.mp among)

theorem Operand.exists_double (operand : cells.Operand start places)
    (works : start.Works ε (series .asl .rol places)) :
    ∃ last, cells.Becomes places places.length start last
      (2 * cells.number start.memory places % 256 ^ places.length)
      ((cells.number start.memory places).testBit (8 * places.length - 1)) := by
  obtain ⟨last, steps, -, made, others⟩ := operand.exists_pass works (by rw [Shift.map_snd_series])
  rw [Shift.map_snd_series, Shift.map_series] at made
  obtain ⟨bytes, carry⟩ := Prod.ext_iff.mp made
  have nonempty : places.map (cells.shows start.memory) ≠ [] := by simpa using operand.nonempty
  obtain ⟨number, top⟩ := Shift.pass_asl_rol_eq start.cpu.status.carry nonempty
  rw [List.length_map] at number top
  exact ⟨last, steps, (congrArg binary.total bytes).trans number, carry.trans top, others⟩

theorem Operand.exists_half (operand : cells.Operand start places)
    (works : start.Works ε (series .lsr .ror places.reverse)) :
    ∃ last, cells.Becomes places places.length start last
      (cells.number start.memory places / 2) ((cells.number start.memory places).testBit 0) := by
  obtain ⟨last, steps, -, made, others⟩ := operand.exists_pass works
    (by rw [Shift.map_snd_series]; exact places.reverse_perm)
  rw [Shift.map_snd_series, Shift.map_series, List.map_reverse, List.map_reverse] at made
  obtain ⟨bytes, carry⟩ := Prod.ext_iff.mp made
  have nonempty : places.map (cells.shows start.memory) ≠ [] := by simpa using operand.nonempty
  obtain ⟨number, low⟩ := Shift.pass_lsr_ror_eq start.cpu.status.carry nonempty
  rw [← bytes, List.reverse_reverse] at number
  exact ⟨last, steps, number, carry.trans low, others⟩

theorem Operand.exists_restored (operand : cells.Operand start places)
    (works : start.Works ε (series .rol .rol places ++ series .ror .ror places.reverse)) :
    ∃ last, cells.Becomes places (2 * places.length) start last
      (cells.number start.memory places) start.cpu.status.carry := by
  obtain ⟨middle, up, operandMiddle, madeUp, othersUp⟩ :=
    operand.exists_pass works.left (by rw [Shift.map_snd_series])
  rw [Shift.map_snd_series, Shift.map_series] at madeUp
  rw [← Shift.length_series .rol .rol places] at up
  obtain ⟨last, down, -, madeDown, othersDown⟩ := operandMiddle.exists_pass (works.right up)
    (by rw [Shift.map_snd_series]; exact places.reverse_perm)
  rw [Shift.map_snd_series, Shift.map_series, List.map_reverse, List.map_reverse] at madeDown
  have undone := Shift.pass_ror_rol start.cpu.status.carry (places.map (cells.shows start.memory))
  rw [← madeUp, ← madeDown, Prod.mk.injEq, List.reverse_inj] at undone
  obtain ⟨bytes, carry⟩ := undone
  refine ⟨last, ?_, congrArg binary.total bytes, carry, fun place cell outside => ?_⟩
  · rw [Shift.length_series] at up
    rw [Nat.two_mul]
    exact up.append down
  · rw [othersDown place cell outside, othersUp place cell outside]

theorem agrees_of_shifts {shift : Shift} {place : UInt16} {inPlace turn : Computer σ}
    (fit : cells.fit inPlace.memory) (cell : cells.cell place) (shifts : inPlace.ShiftsPlace ε shift place)
    (shiftsTurn : turn.ShiftsAccumulator ε shift) (byte : turn.cpu.a = cells.shows inPlace.memory place)
    (status : turn.cpu.status = inPlace.cpu.status) :
    ∃ cycles shifted cyclesTurn after, inPlace.step ε = .ok cycles shifted ∧
      turn.step ε = .ok cyclesTurn after ∧ after.cpu.a = cells.shows shifted.memory place ∧
      after.cpu.status = shifted.cpu.status := by
  obtain ⟨cycles, shifted, step, statusShifted, -, shown⟩ := shifts.exists_step fit cell
  obtain ⟨cyclesTurn, after, stepTurn, byteAfter, statusAfter, -⟩ := shiftsTurn.exists_step
  refine ⟨cycles, shifted, cyclesTurn, after, step, stepTurn, ?_, ?_⟩
  · rw [byteAfter, shown place cell, withByte_self, byte, status]
  · rw [statusAfter, statusShifted, byte, status]

theorem shiftsNumbers (cells : Cells ε σ) : cells.ShiftsNumbers where
  doubles _ _ operand works := operand.exists_double works
  halves _ _ operand works := operand.exists_half works
  restores _ _ operand works := operand.exists_restored works
  doublesHanded _ _ nonempty hands := hands.exists_double nonempty
  halvesHanded _ _ nonempty hands := hands.exists_half nonempty
  restoresHanded _ _ _ hands := hands.exists_restored
  agrees _ _ _ _ fit cell shifts shiftsTurn byte status :=
    agrees_of_shifts fit cell shifts shiftsTurn byte status
  spares _ _ fit shifts := by
    obtain ⟨cycles, after, step, -, -, kept⟩ := shifts.exists_step
    exact ⟨cycles, after, step, (kept cells fit).2⟩

end Cells

/-! ### Programs in memory -/

namespace Computer

theorem shifts_zeroPage {cpu : Cpu} {memory : Memory} (due : cpu.due = none) {opcode low : UInt8}
    {shift : Shift} {cycles : Nat} (first : memory.get cpu.pc = opcode)
    (second : memory.get (cpu.pc + 1) = low)
    (decoded : decode opcode = some ⟨shift.operation, .zeroPage, cycles⟩) :
    let made := shift.apply cpu.status (memory.get low.toUInt16)
    ShiftsPlace ε ⟨cpu, memory⟩ shift low.toUInt16 ∧
      step ε ⟨cpu, memory⟩ = .ok cycles
        ⟨({ cpu.jumped (cpu.pc + 1 + 1) with status := made.2 }).counted cycles,
          memory.set low.toUInt16 made.1⟩ := by
  intro made
  subst second
  have fetches : (⟨cpu, memory⟩ : Computer Memory).Fetches ε ⟨shift.operation, .zeroPage, cycles⟩ memory :=
    ⟨due, opcode, first ▸ rfl, decoded⟩
  have acts : (((cpu.jumped (cpu.pc + 1)).act .zeroPage shift.operation.action).perform :
      EStateM ε Memory (Nat × Cpu)) memory =
        .ok (0, { cpu.jumped (cpu.pc + 1 + 1) with status := made.2 })
          (memory.set (memory.get (cpu.pc + 1)).toUInt16 made.1) := by
    rw [shift.action_eq]
    rfl
  exact ⟨⟨_, memory, false, _, memory, fetches, rfl, nofun, rfl⟩, fetches.step_eq acts⟩

end Computer

theorem shifts_compute : (∀ ε, (Memory.cells ε).ShiftsNumbers) ∧
    ∀ ramSize, (Board.cells ramSize).ShiftsNumbers :=
  ⟨fun ε => (Memory.cells ε).shiftsNumbers, fun ramSize => (Board.cells ramSize).shiftsNumbers⟩

/-- `ASL $10` and `ROL $11` double the number C081. -/
theorem shifts_compute_twice :
    let memory := (Memory.zero.write 0x0200 [0x06, 0x10, 0x26, 0x11]).write 0x0010 [0x81, 0xC0]
    let start : Computer Memory := ⟨{ Cpu.initial with pc := 0x0200 }, memory⟩
    ∃ last, (Memory.cells Empty).Becomes [0x10, 0x11] 2 start last 0x8102 true := by
  intro memory start
  have asl : decode 0x06 = some ⟨Shift.asl.operation, .zeroPage, 5⟩ := by
    rw [decode_eq_lookup]
    rfl
  have rol : decode 0x26 = some ⟨Shift.rol.operation, .zeroPage, 5⟩ := by
    rw [decode_eq_lookup]
    rfl
  have opcode : memory.get start.cpu.pc = 0x06 := by simp [start, memory, Memory.write, Memory.get_set]
  have place : memory.get (start.cpu.pc + 1) = 0x10 := by
    simp [start, memory, Memory.write, Memory.get_set]
  obtain ⟨first, step⟩ := Computer.shifts_zeroPage (ε := Empty) rfl opcode place asl
  have works : start.Works Empty (series .asl .rol [0x10, 0x11]) := by
    intro i shift place found between steps
    cases i with
    | zero =>
        cases found
        cases steps
        exact first
    | succ i =>
        cases i with
        | zero =>
            cases found
            cases (Computer.steps_succ_iff step).mp steps
            change Computer.ShiftsPlace Empty _ .rol (0x11 : UInt8).toUInt16
            refine (Computer.shifts_zeroPage rfl ?_ ?_ rol).1
            all_goals simp [start, memory, Cpu.jumped, Cpu.counted, Memory.write, Memory.get_set]
        | succ i => cases found
  have operand : (Memory.cells Empty).Operand start [0x10, 0x11] :=
    ⟨List.cons_ne_nil _ _, trivial, fun _ _ => trivial, by decide⟩
  obtain ⟨last, becomes⟩ := (shifts_compute.1 Empty).doubles start _ operand works
  have number : (Memory.cells Empty).number memory [0x10, 0x11] = 0xC081 := by
    simp [Cells.number, Memory.cells, memory, Memory.write, Memory.get_set, Digits.total, binary,
      Nat.ofDigits_cons]
  refine ⟨last, ?_⟩
  rw [number] at becomes
  exact becomes

end AppleOne
