import AppleOne.Proofs.Bus.StackRam
import AppleOne.Proofs.Machine.Firmware

/-!
A processor at work on a memory with a stack. Four instructions and the interrupt entries use the stack
for more than one byte; here is what each of them does to processor and memory.
-/

namespace AppleOne

open Cpu (stackAddress)

variable {α ε σ : Type} [Device (EStateM ε σ)]

/-- A processor with its memory. -/
structure Computer (σ : Type) where
  cpu : Cpu
  memory : σ

namespace Computer

/-- One step; the result is its cycles. -/
def step (ε : Type) [Device (EStateM ε σ)] (computer : Computer σ) :
    EStateM.Result ε (Computer σ) Nat :=
  match (computer.cpu.step.perform : EStateM ε σ (Nat × Cpu)) computer.memory with
  | .ok (cycles, cpu) memory => .ok cycles ⟨cpu, memory⟩
  | .error failure memory => .error failure ⟨computer.cpu, memory⟩

/-- The next step runs an instruction with this operation. -/
def Executes (ε : Type) [Device (EStateM ε σ)] (computer : Computer σ) (operation : Operation) :
    Prop :=
  computer.cpu.due = none ∧ ∃ opcode instruction after,
    (Device.read computer.cpu.pc : EStateM ε σ UInt8) computer.memory = .ok opcode after ∧
      decode opcode = some instruction ∧ instruction.operation = operation

/-- Calls one after the other, with all their accesses. -/
inductive Runs (ε : Type) [Device (EStateM ε σ)] :
    Computer σ → List Cpu.Call → List Access → Computer σ → Prop where
  | refl (computer : Computer σ) : Runs ε computer [] [] computer
  | head {before between after : Computer σ} {call : Cpu.Call} {calls : List Cpu.Call}
      {cycles : Nat} {accesses later : List Access} :
      ((call.transaction before.cpu).perform : EStateM ε (Watched σ) (Nat × Cpu))
          (.start before.memory) = .ok (cycles, between.cpu) ⟨between.memory, accesses⟩ →
      Runs ε between calls later after → Runs ε before (call :: calls) (accesses ++ later) after

end Computer

namespace StackRam

variable (ram : StackRam ε σ)

/-- Whatever was called for, the byte at a place of the stack is what it was: it was not written, or not to
another value in the end. -/
def Spares (accesses : List Access) (before after : Computer σ) (sp : UInt8) : Prop :=
  (∀ value, .write (stackAddress sp) value ∉ accesses) ∨
    ram.shows after.memory (stackAddress sp) = ram.shows before.memory (stackAddress sp)

variable {ram} {before after : Computer σ} {calls : List Cpu.Call} {accesses : List Access}

theorem spared_of_runs (runs : before.Runs ε calls accesses after) (fit : ram.fit before.memory) :
    ram.Spared before.memory ⟨after.memory, accesses⟩ := by
  induction runs with
  | refl computer => exact ⟨fit, fun _ _ => rfl⟩
  | @head before between after call calls cycles accesses later done _ ih =>
      have begun : ram.Spared before.memory (.start before.memory) := ⟨fit, fun _ _ => rfl⟩
      obtain ⟨fits, first⟩ := begun.perform done
      obtain ⟨fits, spared⟩ := ih fits
      refine ⟨fits, fun sp unwritten => (spared sp fun value => ?_).trans (first sp fun value => ?_)⟩
      · exact fun written => unwritten value (List.mem_append_right _ written)
      · exact fun written => unwritten value (List.mem_append_left _ written)

theorem Spares.shows_eq {sp : UInt8} (spares : ram.Spares accesses before after sp)
    (runs : before.Runs ε calls accesses after) (fit : ram.fit before.memory) :
    ram.shows after.memory (stackAddress sp) = ram.shows before.memory (stackAddress sp) :=
  spares.elim ((spared_of_runs runs fit).2 sp) id

end StackRam

/-! ### Words on the stack -/

theorem wordOf_bytes (word : UInt16) : wordOf word.toUInt8 (word >>> 8).toUInt8 = word := by
  apply UInt16.toNat_inj.mp
  have high : word.toNat / 256 < 256 := by have := word.toNat_lt; omega
  have low : word.toNat % 256 < 2 ^ 8 := Nat.mod_lt _ (by decide)
  have shifted : (word.toNat / 256) <<< 8 < 65536 := by rw [Nat.shiftLeft_eq]; omega
  simp only [wordOf, UInt16.toNat_or, UInt16.toNat_shiftLeft, UInt8.toNat_toUInt16,
    UInt16.toNat_toUInt8, UInt16.toNat_shiftRight]
  simp only [UInt16.reduceToNat, Nat.reduceMod, Nat.shiftRight_eq_div_pow, Nat.reducePow]
  rw [Nat.mod_eq_of_lt high, Nat.mod_eq_of_lt shifted, ← Nat.shiftLeft_add_eq_or_of_lt low,
    Nat.shiftLeft_eq]
  omega

/-- What is shown after a word was pushed, high byte first. -/
def withWord (shown : UInt16 → UInt8) (sp : UInt8) (word : UInt16) : UInt16 → UInt8 :=
  withByte (withByte shown (stackAddress sp) (word >>> 8).toUInt8)
    (stackAddress (sp - 1)) word.toUInt8

section

variable (shown : UInt16 → UInt8) (sp : UInt8) (word : UInt16)

theorem withWord_low : withWord shown sp word (stackAddress (sp - 1)) = word.toUInt8 :=
  withByte_self ..

theorem withWord_high : withWord shown sp word (stackAddress sp) = (word >>> 8).toUInt8 := by
  have below : stackAddress sp ≠ stackAddress (sp - 1) := by
    rw [ne_eq, Cpu.stackAddress_inj]
    grind
  rw [withWord, withByte_of_ne _ _ below, withByte_self]

theorem withWord_of_ne {place : UInt16} (high : place ≠ stackAddress sp)
    (low : place ≠ stackAddress (sp - 1)) : withWord shown sp word place = shown place := by
  rw [withWord, withByte_of_ne _ _ low, withByte_of_ne _ _ high]

end

/-! ### Instructions as transactions -/

namespace Cpu

variable (cpu : Cpu)

/-- The processor after a call. -/
def called (target : UInt16) : Cpu := { cpu with pc := target, sp := cpu.sp - 1 - 1 }

/-- The processor after a return, `last` being the last byte of the call. -/
def returned (last : UInt16) : Cpu := { cpu with pc := last + 1, sp := cpu.sp + 1 + 1 }

/-- The processor after a return from an interrupt. -/
def resumed (status : UInt8) (pc : UInt16) : Cpu :=
  { cpu with pc := pc, sp := cpu.sp + 1 + 1 + 1, status := .pulled status }

theorem act_call {last : UInt16} (h : cpu.pc + 1 + 1 - 1 = last) :
    cpu.act .absolute .call = cpu.addressed fun target =>
      .write (stackAddress cpu.sp) (last >>> 8).toUInt8 <|
      .write (stackAddress (cpu.sp - 1)) last.toUInt8 <| .done (0, cpu.called target) := by
  subst h
  rfl

theorem act_return :
    cpu.act .implied .ret = .read (stackAddress (cpu.sp + 1)) fun low =>
      .read (stackAddress (cpu.sp + 1 + 1)) fun high => .done (0, cpu.returned (wordOf low high)) := rfl

theorem act_interruptReturn :
    cpu.act .implied .interruptReturn = .read (stackAddress (cpu.sp + 1)) fun status =>
      .read (stackAddress (cpu.sp + 1 + 1)) fun low =>
      .read (stackAddress (cpu.sp + 1 + 1 + 1)) fun high =>
      .done (0, cpu.resumed status (wordOf low high)) := rfl

end Cpu

/-! ### Accesses to the memory -/

namespace StackRam

variable (α) (ram : StackRam ε σ) {memory : σ}

theorem exists_addressed (fit : ram.fit memory) (cpu : Cpu) :
    ∃ target after, (∀ next : UInt16 → Transaction α,
        ((cpu.addressed next).perform : EStateM ε σ α) memory =
          ((next target).perform : EStateM ε σ α) after) ∧ ram.fit after ∧
      (∀ sp, ram.shows after (stackAddress sp) = ram.shows memory (stackAddress sp)) ∧
      ((ram.silent cpu.pc ∨ ram.shows memory cpu.pc < 0x80) →
        (ram.silent (cpu.pc + 1) ∨ ram.shows memory (cpu.pc + 1) < 0x80) →
        ram.shows after = ram.shows memory ∧
        target = wordOf (ram.shows memory cpu.pc) (ram.shows memory (cpu.pc + 1))) := by
  obtain ⟨between, readLow, fit, stackLow, sameLow⟩ := ram.exists_read _ fit cpu.pc
  obtain ⟨after, readHigh, fit, stackHigh, sameHigh⟩ := ram.exists_read _ fit (cpu.pc + 1)
  refine ⟨_, after, fun next => (readLow _).trans (readHigh _), fit, fun sp => ?_, fun low high => ?_⟩
  · exact (stackHigh sp).trans (stackLow sp)
  · have same := sameLow low
    rw [same] at sameHigh ⊢
    exact ⟨sameHigh high, rfl⟩

theorem exists_wordPushed (fit : ram.fit memory) (sp : UInt8) (word : UInt16) :
    ∃ after, (∀ next : Transaction α,
        ((Transaction.write (stackAddress sp) (word >>> 8).toUInt8 <|
          .write (stackAddress (sp - 1)) word.toUInt8 next).perform : EStateM ε σ α) memory =
            (next.perform : EStateM ε σ α) after) ∧ ram.fit after ∧
      ram.shows after = withWord (ram.shows memory) sp word := by
  obtain ⟨between, pushedHigh, fit, high⟩ := ram.exists_pushed _ fit sp (word >>> 8).toUInt8
  obtain ⟨after, pushedLow, fit, low⟩ := ram.exists_pushed _ fit (sp - 1) word.toUInt8
  exact ⟨after, fun next => (pushedHigh _).trans (pushedLow _), fit, by rw [low, high, withWord]⟩

theorem exists_wordPulled (fit : ram.fit memory) (sp : UInt8) :
    ∃ after, (∀ next : UInt8 → UInt8 → Transaction α,
        ((Transaction.read (stackAddress sp) fun low => .read (stackAddress (sp + 1)) fun high =>
          next low high).perform : EStateM ε σ α) memory =
            ((next (ram.shows memory (stackAddress sp)) (ram.shows memory (stackAddress (sp + 1)))).perform :
              EStateM ε σ α) after) ∧ ram.fit after ∧ ram.shows after = ram.shows memory := by
  obtain ⟨between, pulledLow, fit, low⟩ := ram.exists_pulled _ fit sp
  obtain ⟨after, pulledHigh, fit, high⟩ := ram.exists_pulled _ fit (sp + 1)
  refine ⟨after, fun next => ?_, fit, high.trans low⟩
  rw [pulledLow, pulledHigh, low]

/-! ### Instructions on the memory -/

variable {ram} {computer : Computer σ}

/-- An opcode that is no key is fetched without any effect, and the rest of the step is what the
instruction does. -/
theorem exists_fetched (fit : ram.fit computer.memory) {operation : Operation}
    (executes : computer.Executes ε operation) {opcode : UInt8} {instruction : Instruction}
    (only : ∀ row ∈ documented, row.2.operation = operation → row = (opcode, instruction))
    (quiet : opcode < 0x80) :
    ∃ fetched, ram.fit fetched ∧ ram.shows fetched = ram.shows computer.memory ∧ ∀ cpu memory,
      (((computer.cpu.jumped (computer.cpu.pc + 1)).act instruction.mode
        instruction.operation.action).perform : EStateM ε σ (Nat × Cpu)) fetched = .ok (0, cpu) memory →
      computer.step ε = .ok instruction.cycles ⟨cpu.counted instruction.cycles, memory⟩ := by
  obtain ⟨due, opcode', instruction', _, read, decoded, performs⟩ := executes
  cases only _ (mem_documented_of_decode decoded) performs
  obtain ⟨next, step_eq, rest⟩ := Cpu.step_of_decode due decoded
  obtain ⟨fetched, performed, fits, -, same⟩ := ram.exists_read _ fit computer.cpu.pc
  obtain ⟨_, again, -⟩ := ram.read computer.cpu.pc fit
  rw [read] at again
  cases again
  refine ⟨fetched, fits, same (.inr quiet), fun cpu memory acts => ?_⟩
  rw [Computer.step, step_eq, performed, rest, Transaction.perform_bind]
  simp only [bind, EStateM.bind, acts]
  rfl

/-- A call pushes the address of its own last byte. An operand byte that is a key is taken. -/
theorem exists_called (fit : ram.fit computer.memory) (executes : computer.Executes ε .jsr) :
    ∃ target shown memory,
      computer.step ε = .ok 6 ⟨(computer.cpu.called target).counted 6, memory⟩ ∧ ram.fit memory ∧
      ram.shows memory = withWord shown computer.cpu.sp (computer.cpu.pc + 2) ∧
      (∀ sp, shown (stackAddress sp) = ram.shows computer.memory (stackAddress sp)) ∧
      ((ram.silent (computer.cpu.pc + 1) ∨ ram.shows computer.memory (computer.cpu.pc + 1) < 0x80) →
        (ram.silent (computer.cpu.pc + 2) ∨ ram.shows computer.memory (computer.cpu.pc + 2) < 0x80) →
        shown = ram.shows computer.memory ∧
        target = wordOf (ram.shows computer.memory (computer.cpu.pc + 1))
          (ram.shows computer.memory (computer.cpu.pc + 2))) := by
  have only : ∀ row ∈ documented, row.2.operation = .jsr →
      row = (0x20, ⟨.jsr, .absolute, 6⟩) := eq_of_rows rfl
  have second : computer.cpu.pc + 1 + 1 = computer.cpu.pc + 2 := by grind
  have last : (computer.cpu.jumped (computer.cpu.pc + 1)).pc + 1 + 1 - 1 = computer.cpu.pc + 2 := by
    change computer.cpu.pc + 1 + 1 + 1 - 1 = _
    grind
  obtain ⟨fetched, fit, same, steps⟩ := exists_fetched fit executes only (by decide)
  obtain ⟨target, addressed, located, fit, stack, quiet⟩ :=
    ram.exists_addressed _ fit (computer.cpu.jumped (computer.cpu.pc + 1))
  obtain ⟨memory, pushed, fit, shown⟩ :=
    ram.exists_wordPushed _ fit computer.cpu.sp (computer.cpu.pc + 2)
  rw [same] at stack quiet
  refine ⟨target, ram.shows addressed, memory, ?_, fit, shown, stack, ?_⟩
  · refine steps (computer.cpu.called target) memory ?_
    dsimp only [Operation.action]
    rw [Cpu.act_call _ last, located]
    exact pushed _
  · intro low high
    exact second ▸ quiet low (second ▸ high)

/-- A return goes on past the address that it pulls. -/
theorem exists_returned (fit : ram.fit computer.memory) (executes : computer.Executes ε .rts) :
    ∃ memory,
      computer.step ε = .ok 6 ⟨(computer.cpu.returned <|
        wordOf (ram.shows computer.memory (stackAddress (computer.cpu.sp + 1)))
          (ram.shows computer.memory (stackAddress (computer.cpu.sp + 1 + 1)))).counted 6, memory⟩ ∧
      ram.fit memory ∧ ram.shows memory = ram.shows computer.memory := by
  have only : ∀ row ∈ documented, row.2.operation = .rts →
      row = (0x60, ⟨.rts, .implied, 6⟩) := eq_of_rows rfl
  obtain ⟨fetched, fit, same, steps⟩ := exists_fetched fit executes only (by decide)
  obtain ⟨memory, pulled, fit, shown⟩ := ram.exists_wordPulled _ fit (computer.cpu.sp + 1)
  refine ⟨memory, steps (computer.cpu.returned _) memory ?_, fit, shown.trans same⟩
  dsimp only [Operation.action]
  rw [Cpu.act_return, ← same]
  exact pulled _

/-- A return from an interrupt pulls the status before the address. -/
theorem exists_resumed (fit : ram.fit computer.memory) (executes : computer.Executes ε .rti) :
    ∃ memory,
      computer.step ε = .ok 6
        ⟨(computer.cpu.resumed (ram.shows computer.memory (stackAddress (computer.cpu.sp + 1))) <|
          wordOf (ram.shows computer.memory (stackAddress (computer.cpu.sp + 1 + 1)))
            (ram.shows computer.memory (stackAddress (computer.cpu.sp + 1 + 1 + 1)))).counted 6,
          memory⟩ ∧
      ram.fit memory ∧ ram.shows memory = ram.shows computer.memory := by
  have only : ∀ row ∈ documented, row.2.operation = .rti →
      row = (0x40, ⟨.rti, .implied, 6⟩) := eq_of_rows rfl
  obtain ⟨fetched, fit, same, steps⟩ := exists_fetched fit executes only (by decide)
  obtain ⟨status, pulledStatus, fit, statusSame⟩ := ram.exists_pulled _ fit (computer.cpu.sp + 1)
  obtain ⟨memory, pulled, fit, shown⟩ := ram.exists_wordPulled _ fit (computer.cpu.sp + 1 + 1)
  refine ⟨memory, steps (computer.cpu.resumed _ _) memory ?_, fit, shown.trans (statusSame.trans same)⟩
  dsimp only [Operation.action]
  rw [Cpu.act_interruptReturn, ← same]
  refine (pulledStatus _).trans ?_
  rw [← statusSame]
  exact pulled _

end StackRam

end AppleOne
