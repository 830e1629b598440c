import AppleOne.Proofs.Cpu.Computer

/-!
Interrupts do not disturb the program that they interrupt. Whatever runs in between, a return from the
interrupt that finds the three saved bytes restores program counter, stack pointer and status
(`interrupts_transparent`).
-/

namespace AppleOne

open Cpu (stackAddress)

variable {α ε σ : Type} [Device (EStateM ε σ)]

/-- The next step saves program counter and status and goes on through a vector, either because an
interrupt is due or at a break, whose second byte is skipped. The program goes on at `resume`. -/
inductive Computer.Interrupted (ε : Type) [Device (EStateM ε σ)] (computer : Computer σ) :
    (source : Interrupt) → (resume : UInt16) → Prop where
  | entry {source : Interrupt} :
      computer.cpu.due = some source → Interrupted ε computer source computer.cpu.pc
  | softwareBreak :
      computer.Executes ε .brk → Interrupted ε computer .irq (computer.cpu.pc + 2)

namespace Status

theorem pulled_pushed (s : Status) (byInstruction : Bool) :
    pulled (s.pushed byInstruction).toByte = { s with bit5 := true, breakMark := false } := by
  rw [pulled, ofByte_toByte]
  rfl

theorem toByte_restored (s : Status) :
    ({ s with bit5 := true, breakMark := false } : Status).toByte = (s.toByte ||| 0x20) &&& 0xEF := by
  rw [← toByte_pulled, pulled, ofByte_toByte]

end Status

namespace Cpu

variable (cpu : Cpu)

theorem nmiPending_of_due_none (idle : cpu.due = none) : cpu.nmiPending = false := by
  cases pending : cpu.nmiPending with
  | false => rfl
  | true => exact absurd (cpu.due_eq_nmi_iff.mpr pending) (by rw [idle]; nofun)

/-- The processor at the start of a handler, before the cycles are counted. -/
def diverted (handler : UInt16) : Cpu :=
  { cpu with
    pc := handler
    sp := cpu.sp - 1 - 1 - 1
    status := { cpu.status with interruptsOff := true } }

/-- A break is entered as interrupts are; its second byte is skipped. -/
theorem act_break {resume : UInt16} (h : cpu.pc + 1 = resume) :
    cpu.act .implied .softwareBreak =
      entry cpu.sp (resume >>> 8).toUInt8 resume.toUInt8 (cpu.status.pushed true).toByte
        Interrupt.irq.vector (.broke (cpu.pc - 1)) fun handler => (0, cpu.diverted handler) := by
  subst h
  rfl

end Cpu

namespace StackRam

variable {ram : StackRam ε σ} {memory : σ} {computer : Computer σ}

theorem sub_two (sp : UInt8) : sp - 2 = sp - 1 - 1 := by grind

/-- What the memory shows after an interrupt was entered. -/
def withFrame (shown : UInt16 → UInt8) (sp : UInt8) (resume : UInt16) (status : UInt8) :
    UInt16 → UInt8 :=
  withByte (withWord shown sp resume) (stackAddress (sp - 1 - 1)) status

section

variable (shown : UInt16 → UInt8) (sp : UInt8) (resume : UInt16) (status : UInt8)

theorem withFrame_status : withFrame shown sp resume status (stackAddress (sp - 1 - 1)) = status :=
  withByte_self ..

theorem withFrame_of_ne {place : UInt16} (apart : place ≠ stackAddress (sp - 1 - 1)) :
    withFrame shown sp resume status place = withWord shown sp resume place :=
  withByte_of_ne _ _ apart

theorem withFrame_low : withFrame shown sp resume status (stackAddress (sp - 1)) = resume.toUInt8 := by
  rw [withFrame_of_ne, withWord_low]
  rw [ne_eq, Cpu.stackAddress_inj]
  grind

theorem withFrame_high :
    withFrame shown sp resume status (stackAddress sp) = (resume >>> 8).toUInt8 := by
  rw [withFrame_of_ne, withWord_high]
  rw [ne_eq, Cpu.stackAddress_inj]
  grind

end

theorem exists_entry (fit : ram.fit memory) (sp : UInt8) (resume : UInt16) (status : UInt8)
    (source : Interrupt) (report : UInt16 → Log.Diagnostic) (result : UInt16 → α) :
    ∃ after, ((Cpu.entry sp (resume >>> 8).toUInt8 resume.toUInt8 status source.vector report
        result).perform : EStateM ε σ α) memory =
      .ok (result (wordOf (ram.shows memory source.vector) (ram.shows memory (source.vector + 1)))) after ∧
      ram.fit after ∧ ram.shows after = withFrame (ram.shows memory) sp resume status := by
  obtain ⟨wordMemory, pushedWord, fit, word⟩ := ram.exists_wordPushed α fit sp resume
  obtain ⟨frameMemory, pushedStatus, fit, frame⟩ :=
    ram.exists_pushed α fit (sp - 1 - 1) status
  obtain ⟨lowMemory, readLow, fit, -, low⟩ := ram.exists_read α fit source.vector
  obtain ⟨highMemory, readHigh, fit, -, high⟩ := ram.exists_read α fit (source.vector + 1)
  -- The vectors are neither on the stack nor the register that gives a key away.
  have quiet : source.vector ≠ Pia.keyboardData ∧ source.vector + 1 ≠ Pia.keyboardData := by
    cases source <;> decide
  have low := low (.inl (ram.silent_of_ne quiet.1))
  have high := high (.inl (ram.silent_of_ne quiet.2))
  have apart : ∀ sp, source.vector ≠ stackAddress sp ∧ source.vector + 1 ≠ stackAddress sp := by
    have above : 0x200 ≤ source.vector ∧ 0x200 ≤ source.vector + 1 := by cases source <;> decide
    exact fun sp => ⟨(Cpu.stackAddress_ne (.inr above.1) sp).symm,
      (Cpu.stackAddress_ne (.inr above.2) sp).symm⟩
  have shown : ram.shows frameMemory = withFrame (ram.shows memory) sp resume status := by
    rw [frame, word, withFrame]
  have vectorLow : ram.shows frameMemory source.vector = ram.shows memory source.vector := by
    rw [shown, withFrame_of_ne _ _ _ _ (apart _).1, withWord_of_ne _ _ _ (apart _).1 (apart _).1]
  have vectorHigh : ram.shows lowMemory (source.vector + 1) = ram.shows memory (source.vector + 1) := by
    rw [low, shown, withFrame_of_ne _ _ _ _ (apart _).2,
      withWord_of_ne _ _ _ (apart _).2 (apart _).2]
  obtain ⟨after, noted, fit, same⟩ := ram.exists_noted α fit
    (report (wordOf (ram.shows memory source.vector) (ram.shows memory (source.vector + 1))))
  refine ⟨after, ?_, fit, ?_⟩
  · rw [Cpu.entry, pushedWord, pushedStatus, readLow, readHigh, vectorLow, vectorHigh, noted]
    rfl
  · rw [same, high, low, shown]

/-- The handler starts with interrupts off, and with program counter and status on the stack. -/
theorem exists_entered (fit : ram.fit computer.memory) {source : Interrupt} {resume : UInt16}
    (interrupted : computer.Interrupted ε source resume) :
    ∃ byInstruction memory,
      computer.step ε = .ok 7
        ⟨{ computer.cpu with nmiPending := false }.handling <|
          wordOf (ram.shows computer.memory source.vector) (ram.shows computer.memory (source.vector + 1)),
        memory⟩ ∧ ram.fit memory ∧
      ram.shows memory = withFrame (ram.shows computer.memory) computer.cpu.sp resume
        (computer.cpu.status.pushed byInstruction).toByte := by
  cases interrupted with
  | entry due =>
      obtain ⟨memory, done, kept⟩ := exists_entry fit computer.cpu.sp computer.cpu.pc
        (computer.cpu.status.pushed false).toByte source (.interrupted source computer.cpu.pc)
        fun handler => (Cpu.interruptCycles, { computer.cpu with nmiPending := false }.handling handler)
      refine ⟨false, memory, ?_, kept⟩
      rw [Computer.step, Cpu.step_of_due due, done]
      rfl
  | softwareBreak executes =>
      have only : ∀ row ∈ documented, row.2.operation = .brk →
          row = (0x00, ⟨.brk, .implied, 7⟩) := eq_of_rows rfl
      have idle : { computer.cpu with nmiPending := false } = computer.cpu := by
        rw [← computer.cpu.nmiPending_of_due_none executes.1]
      have second : computer.cpu.pc + 1 + 1 = computer.cpu.pc + 2 := by grind
      obtain ⟨fetched, fit, same, steps⟩ := exists_fetched fit executes only (by decide)
      obtain ⟨memory, done, kept⟩ := exists_entry fit computer.cpu.sp (computer.cpu.pc + 2)
        (computer.cpu.status.pushed true).toByte .irq (.broke (computer.cpu.pc + 1 - 1))
        fun handler => (0, computer.cpu.diverted handler)
      rw [same] at done kept
      refine ⟨true, memory, ?_, kept⟩
      rw [idle]
      refine steps (computer.cpu.diverted _) memory ?_
      dsimp only [Operation.action]
      rw [Cpu.act_break _ second]
      exact done

variable {start last : Computer σ} {resume : UInt16} {status : Status} {byInstruction : Bool}

/-- The return finds what the entry saved, wherever the stack wraps around. -/
theorem exists_back (fit : ram.fit last.memory) (executes : last.Executes ε .rti)
    (sp : last.cpu.sp = start.cpu.sp - 1 - 1 - 1)
    (saved : ∀ n < 3, ram.shows last.memory (stackAddress (start.cpu.sp - n)) =
      withFrame (ram.shows start.memory) start.cpu.sp resume
        (status.pushed byInstruction).toByte (stackAddress (start.cpu.sp - n))) :
    ∃ memory,
      last.step ε = .ok 6 ⟨{ last.cpu with
        pc := resume
        sp := start.cpu.sp
        status := { status with bit5 := true, breakMark := false }
        cycles := last.cpu.cycles + 6 }, memory⟩ ∧
      ram.fit memory ∧ ram.shows memory = ram.shows last.memory := by
  have third : last.cpu.sp + 1 = start.cpu.sp - 1 - 1 := by rw [sp]; grind
  have second : last.cpu.sp + 1 + 1 = start.cpu.sp - 1 := by rw [sp]; grind
  have first : last.cpu.sp + 1 + 1 + 1 = start.cpu.sp := by rw [sp]; grind
  have status_eq := saved 2 (by decide)
  have low_eq := saved 1 (by decide)
  have high_eq := saved 0 (by decide)
  rw [sub_two, withFrame_status] at status_eq
  rw [withFrame_low] at low_eq
  rw [UInt8.sub_zero, withFrame_high] at high_eq
  obtain ⟨memory, stepped, kept⟩ := exists_resumed fit executes
  refine ⟨memory, stepped.trans ?_, kept⟩
  rw [first, second, third, status_eq, low_eq, high_eq, wordOf_bytes, Cpu.resumed, first,
    Status.pulled_pushed]
  rfl

end StackRam

/-- A program goes on as if there had been no interrupt. -/
structure Computer.Resumed (start back : Computer σ) (resume : UInt16) : Prop where
  pc : back.cpu.pc = resume
  sp : back.cpu.sp = start.cpu.sp
  status : back.cpu.status.toByte = (start.cpu.status.toByte ||| 0x20) &&& 0xEF

/-- Nothing else has changed but three bytes of the stack. -/
structure Computer.Untouched (ram : StackRam ε σ) (start back : Computer σ) : Prop where
  a : back.cpu.a = start.cpu.a
  x : back.cpu.x = start.cpu.x
  y : back.cpu.y = start.cpu.y
  memory : ∀ place, (∀ n < 3, place ≠ stackAddress (start.cpu.sp - n)) →
    ram.shows back.memory place = ram.shows start.memory place

/-- An interrupt, or a break, is transparent: the handler may call for anything, and when it returns from
the interrupt with the stack pointer where it started, and with the three bytes that were saved, the
program goes on. -/
def StackRam.Transparent (ram : StackRam ε σ) : Prop :=
  ∀ (start : Computer σ) (source : Interrupt) (resume : UInt16), ram.fit start.memory →
    start.Interrupted ε source resume →
    ∃ entered, start.step ε = .ok 7 entered ∧ entered.cpu.sp = start.cpu.sp - 3 ∧
      ∀ calls accesses last, entered.Runs ε calls accesses last → last.Executes ε .rti →
        last.cpu.sp = entered.cpu.sp →
        (∀ n < 3, ram.Spares accesses entered last (start.cpu.sp - n)) →
        ∃ back, last.step ε = .ok 6 back ∧ start.Resumed back resume ∧
          (calls = [] → start.Untouched ram back)

theorem StackRam.transparent (ram : StackRam ε σ) : ram.Transparent := by
  intro start source resume fit interrupted
  obtain ⟨byInstruction, memory, stepped, entered, shown⟩ := exists_entered fit interrupted
  have depth : start.cpu.sp - 1 - 1 - 1 = start.cpu.sp - 3 := by grind
  refine ⟨_, stepped, depth, fun calls accesses last runs executes sp spares => ?_⟩
  have saved := fun n below => (spares n below).shows_eq runs entered
  simp only [shown] at saved
  obtain ⟨back, returned, -, same⟩ := exists_back (spared_of_runs runs entered).1 executes sp saved
  refine ⟨_, returned, ⟨rfl, rfl, Status.toByte_restored _⟩, ?_⟩
  rintro rfl
  cases runs
  refine ⟨rfl, rfl, rfl, fun place apart => ?_⟩
  have high := apart 0 (by decide)
  have low := apart 1 (by decide)
  have third := apart 2 (by decide)
  rw [UInt8.sub_zero] at high
  rw [sub_two] at third
  rw [same, shown, withFrame_of_ne _ _ _ _ third, withWord_of_ne _ _ _ high low]

/-- Interrupts and breaks are transparent on flat memory, and on the board if its RAM has a page one. -/
theorem interrupts_transparent :
    (∀ ε, (Memory.stackRam ε).Transparent) ∧ Board.stackRam.Transparent :=
  ⟨fun ε => (Memory.stackRam ε).transparent, Board.stackRam.transparent⟩

/-- A break whose frame goes around the end of page one, for a handler that returns at once. -/
theorem interrupts_transparent_wrapped :
    let memory := Memory.zero.set 0 0x40
    let start : Computer Memory := ⟨{ Cpu.initial with pc := 0x8000, sp := 1 }, memory⟩
    ∃ entered back, start.step Empty = .ok 7 entered ∧ entered.cpu.sp = 0xFE ∧
      entered.step Empty = .ok 6 back ∧ start.Resumed back 0x8002 ∧
      start.Untouched (Memory.stackRam Empty) back := by
  intro memory start
  have shown : ∀ place, place ≠ 0 → memory.get place = 0 := fun place other => by
    rw [Memory.get_set, if_neg other.symm, Memory.get_zero]
  have breaks : start.Interrupted Empty .irq 0x8002 := by
    refine .softwareBreak ⟨rfl, 0, ⟨.brk, .implied, 7⟩, memory, ?_, (decode_eq_lookup _).trans rfl, rfl⟩
    exact congrArg (EStateM.Result.ok · memory) (shown 0x8000 (by decide))
  have fits : (Memory.stackRam Empty).fit start.memory := trivial
  obtain ⟨_, handling, stepped, -, frame⟩ := StackRam.exists_entered fits breaks
  obtain ⟨entered, same, sp, returns⟩ := interrupts_transparent.1 Empty start .irq 0x8002 fits breaks
  cases stepped.symm.trans same
  -- Both bytes of the vector are zero, where the handler is.
  have handler : wordOf (memory.get 0xFFFE) (memory.get 0xFFFF) = 0 := by
    rw [shown 0xFFFE (by decide), shown 0xFFFF (by decide)]
    rfl
  have outside : ∀ sp, (0 : UInt16) ≠ stackAddress sp := fun sp =>
    (Cpu.stackAddress_ne (.inl (by decide)) sp).symm
  have opcode : handling.get 0 = 0x40 := by
    refine (congrFun frame 0).trans ?_
    rw [StackRam.withFrame_of_ne _ _ _ _ (outside _), withWord_of_ne _ _ _ (outside _) (outside _)]
    exact (Memory.get_set ..).trans (if_pos rfl)
  have executes : Computer.Executes Empty ⟨{ start.cpu with nmiPending := false }.handling
      (wordOf (memory.get 0xFFFE) (memory.get 0xFFFF)), handling⟩ .rti := by
    refine ⟨rfl, 0x40, ⟨.rti, .implied, 6⟩, handling, ?_, (decode_eq_lookup _).trans rfl, rfl⟩
    rw [handler]
    exact congrArg (EStateM.Result.ok · handling) opcode
  obtain ⟨back, returned, resumed, untouched⟩ := returns [] [] _ (.refl _) executes rfl
    fun _ _ => .inl fun _ => List.not_mem_nil
  have around : (1 : UInt8) - 3 = 0xFE := by decide
  exact ⟨_, back, stepped, sp.trans around, returned, resumed, untouched rfl⟩

end AppleOne
