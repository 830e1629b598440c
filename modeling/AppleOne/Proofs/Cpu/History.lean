import AppleOne.Proofs.Cpu.Servicing
import AppleOne.Proofs.Machine.Reachable

/-!
Bit 5 and the break mark of the status over whole histories of a processor, on any memory: bit 5 is
always on (`History.bit5`), and the mark is that of the registers last restored, unless it was cleared
since (`History.breakMark`). Copies on the stack are marked by what pushes them (`CopiesStatus`).
-/

namespace AppleOne

open Access (answerAt)

variable {ε σ : Type} [Device (EStateM ε σ)]

namespace Status

/-- A copy has bit 5 on and a mark of its own; the other six bits are those of the status. -/
structure IsCopy (s : Status) (mark : Bool) (copy : UInt8) : Prop where
  bit5 : copy &&& 0x20 = 0x20
  mark : copy &&& 0x10 = if mark then 0x10 else 0
  flags : copy &&& 0xCF = s.toByte &&& 0xCF

theorem isCopy_pushed (s : Status) (mark : Bool) : s.IsCopy mark (s.pushed mark).toByte := by
  have kept : ∀ byte : UInt8, (byte ||| 0x30) &&& 0x20 = 0x20 ∧ (byte ||| 0x30) &&& 0x10 = 0x10 ∧
      (byte ||| 0x30) &&& 0xCF = byte &&& 0xCF := by decide +kernel
  have cleared : ∀ byte : UInt8, (byte &&& 0xEF ||| 0x20) &&& 0x20 = 0x20 ∧
      (byte &&& 0xEF ||| 0x20) &&& 0x10 = 0 ∧ (byte &&& 0xEF ||| 0x20) &&& 0xCF = byte &&& 0xCF := by
    decide +kernel
  rw [toByte_pushed]
  cases mark with
  | true =>
      obtain ⟨bit5, mark, flags⟩ := kept s.toByte
      exact ⟨bit5, mark, flags⟩
  | false =>
      obtain ⟨bit5, mark, flags⟩ := cleared s.toByte
      exact ⟨bit5, mark, flags⟩

end Status

namespace Cpu

/-! ### Copies on the stack -/

/-- Where a step pushes the status: an interrupt does it without the mark, a break and a push of the status
with it. -/
structure CopiesStatus (cpu : Cpu) (accesses : List Access) : Prop where
  interrupt : ∀ source, cpu.due = some source → ∃ copy low high, cpu.status.IsCopy false copy ∧
    accesses = [
      .write (stackAddress cpu.sp) (cpu.pc >>> 8).toUInt8,
      .write (stackAddress (cpu.sp - 1)) cpu.pc.toUInt8,
      .write (stackAddress (cpu.sp - 2)) copy,
      .read source.vector low, .read (source.vector + 1) high]
  softwareBreak : cpu.due = none → accesses.head? = some (.read cpu.pc 0x00) →
    ∃ copy low high, cpu.status.IsCopy true copy ∧
      accesses = [
        .read cpu.pc 0x00,
        .write (stackAddress cpu.sp) ((cpu.pc + 2) >>> 8).toUInt8,
        .write (stackAddress (cpu.sp - 1)) (cpu.pc + 2).toUInt8,
        .write (stackAddress (cpu.sp - 2)) copy,
        .read Interrupt.irq.vector low, .read (Interrupt.irq.vector + 1) high]
  push : cpu.due = none → accesses.head? = some (.read cpu.pc 0x08) →
    ∃ copy, cpu.status.IsCopy true copy ∧
      accesses = [.read cpu.pc 0x08, .write (stackAddress cpu.sp) copy]

theorem opcode_of_head {cpu : Cpu} {answer : Nat → UInt8} {opcode : UInt8} (idle : cpu.due = none)
    (head : (cpu.step.replay answer 0).2.head? = some (.read cpu.pc opcode)) : answer 0 = opcode := by
  rw [step, advance_of_due_none cpu idle] at head
  exact (Access.read.inj (Option.some.inj head)).2

theorem replay_step_copiesStatus (cpu : Cpu) (answer : Nat → UInt8) :
    cpu.CopiesStatus (cpu.step.replay answer 0).2 := by
  constructor
  · intro source due
    rw [replay_step_interrupt cpu answer due]
    exact ⟨_, _, _, cpu.status.isCopy_pushed false, rfl⟩
  · intro idle head
    have opcode := opcode_of_head idle head
    have decoded : decode (answer 0) = some ⟨.brk, .implied, 7⟩ := by
      rw [opcode, decode_eq_lookup]
      rfl
    rw [replay_step_instruction cpu answer idle decoded, opcode]
    dsimp only [Operation.action]
    rw [replay_softwareBreak]
    exact ⟨_, _, _, cpu.status.isCopy_pushed true, rfl⟩
  · intro idle head
    have opcode := opcode_of_head idle head
    have decoded : decode (answer 0) = some ⟨.php, .implied, 3⟩ := by
      rw [opcode, decode_eq_lookup]
      rfl
    rw [replay_step_instruction cpu answer idle decoded, opcode]
    exact ⟨_, cpu.status.isCopy_pushed true, rfl⟩

/-! ### Outcomes -/

theorem Frame.breakMark {cpu after : Cpu} {answer : Nat → UInt8} {instruction : Instruction}
    (h : cpu.Frame answer instruction after) :
    after.status.breakMark = if instruction.operation.pullsStatus then false
      else cpu.status.breakMark := by
  cases pulls : instruction.operation.pullsStatus with
  | true => exact congrArg Status.breakMark (Status.eq_pulled (h.pulled pulls))
  | false =>
      have unlisted : .breakMark ∉ instruction.operation.flags := by
        revert pulls
        cases instruction.operation <;> decide
      exact h.flags .breakMark unlisted

/-- A step with these accesses runs an instruction that takes the status from the stack. -/
def pullsStatus : List Access → Bool
  | .read _ opcode :: _ => (decode opcode).any (·.operation.pullsStatus)
  | _ => false

theorem replay_step_breakMark (cpu : Cpu) (answer : Nat → UInt8) :
    (cpu.step.replay answer 0).1.2.status.breakMark =
      if pullsStatus (cpu.step.replay answer 0).2 then false else cpu.status.breakMark := by
  cases due : cpu.due with
  | some source =>
      rw [replay_step_interrupt cpu answer due]
      rfl
  | none =>
      cases decoded : decode (answer 0) with
      | none =>
          rw [replay_step_undefined cpu answer due decoded, pullsStatus, decoded]
          rfl
      | some instruction =>
          rw [replay_step_instruction cpu answer due decoded, pullsStatus, decoded]
          exact (replay_act_frame cpu answer decoded).breakMark

namespace Outcome

variable {o : Outcome}

/-- The break mark that a call leaves, unless it leaves the mark alone. -/
def mark? (o : Outcome) : Option Bool :=
  match o.call with
  | .step => if pullsStatus o.accesses then some false else none
  | .reset => some false
  | .nmi | .setIrq _ => none

theorem eq_false_of_mark? {mark : Bool} (left : o.mark? = some mark) : mark = false := by
  obtain ⟨call, before, after, cycles, accesses⟩ := o
  cases call with
  | step =>
      dsimp only [mark?] at left
      split at left <;> cases left
      rfl
  | reset =>
      cases left
      rfl
  | nmi | setIrq => cases left

theorem Replayed.bit5 (replayed : o.Replayed) (on : o.before.status.bit5 = true) :
    o.after.status.bit5 = true := by
  obtain ⟨call, before, after, cycles, accesses⟩ := o
  have same : ((call.transaction before).replay (answerAt accesses) 0).1.2 = after :=
    congrArg (·.1.2) replayed
  subst same
  cases call with
  | step => exact (replay_step_kept before _).1 on
  | nmi => exact on
  | setIrq level => exact on
  | reset => rfl

theorem Replayed.breakMark (replayed : o.Replayed) :
    o.after.status.breakMark = o.mark?.getD o.before.status.breakMark := by
  obtain ⟨call, before, after, cycles, accesses⟩ := o
  have same : ((call.transaction before).replay (answerAt accesses) 0).1.2 = after :=
    congrArg (·.1.2) replayed
  cases call with
  | step =>
      have mark := replay_step_breakMark before (answerAt accesses)
      rw [show before.step.replay _ 0 = _ from replayed] at mark
      refine mark.trans ?_
      dsimp only [mark?]
      split <;> rfl
  | nmi => exact same ▸ rfl
  | setIrq level => exact same ▸ rfl
  | reset => exact same ▸ rfl

theorem Replayed.copiesStatus (replayed : o.Replayed) (step : o.call = .step) :
    o.before.CopiesStatus o.accesses := by
  obtain ⟨call, before, after, cycles, accesses⟩ := o
  cases step
  have copies := replay_step_copiesStatus before (answerAt accesses)
  rw [show before.step.replay _ 0 = _ from replayed] at copies
  exact copies

end Outcome

/-! ### Histories -/

/-- What may be done to a processor that has to do with its status. -/
inductive Deed where
  | called (outcome : Outcome)
  | restored (registers : Registers)

/-- The break mark that is there after a deed, unless the deed leaves the mark alone. -/
def Deed.mark? : Deed → Option Bool
  | called outcome => outcome.mark?
  | restored registers => some registers.status.breakMark

/-- A processor as it was made, and all that was done to it, the latest deed first. Its memory may be
another one for each call, and all but the registers may be set between calls. -/
inductive History (ε σ : Type) [Device (EStateM ε σ)] : List Deed → Cpu → Prop where
  | made : History ε σ [] Cpu.initial
  | called {deeds : List Deed} {cpu after : Cpu} {call : Call} {device : σ} {cycles : Nat}
      {watched : Watched σ} :
      History ε σ deeds cpu →
      ((call.transaction cpu).perform : EStateM ε (Watched σ) (Nat × Cpu)) (.start device) =
        .ok (cycles, after) watched →
      History ε σ (.called ⟨call, cpu, after, cycles, watched.accesses⟩ :: deeds) after
  | restored {deeds : List Deed} {cpu : Cpu} (registers : Registers) :
      History ε σ deeds cpu →
      History ε σ (.restored registers :: deeds) (cpu.setRegisters registers)
  | aside {deeds : List Deed} {cpu after : Cpu} :
      History ε σ deeds cpu → after.registers = cpu.registers → History ε σ deeds after

namespace History

variable {deeds : List Deed} {cpu after : Cpu}

theorem status_eq (same : after.registers = cpu.registers) : after.status = cpu.status :=
  congrArg Registers.status same

theorem bit5 (history : History ε σ deeds cpu) : cpu.status.bit5 = true := by
  induction history with
  | made => rfl
  | called _ done ih => exact (Outcome.replayed_of_perform done).bit5 ih
  | restored registers _ _ => rfl
  | aside _ same ih =>
      rw [status_eq same]
      exact ih

theorem copiesStatus (history : History ε σ deeds cpu) {o : Outcome} (called : .called o ∈ deeds)
    (step : o.call = .step) : o.before.CopiesStatus o.accesses := by
  induction history with
  | made => cases called
  | called _ done ih =>
      cases called with
      | head => exact (Outcome.replayed_of_perform done).copiesStatus step
      | tail _ earlier => exact ih earlier
  | restored registers _ ih =>
      cases called with
      | tail _ earlier => exact ih earlier
  | aside _ _ ih => exact ih called

/-- The mark is the one that was left last. -/
theorem breakMark (history : History ε σ deeds cpu) :
    cpu.status.breakMark = (deeds.findSome? Deed.mark?).getD false := by
  induction history with
  | made => rfl
  | @called _ cpu after call _ cycles watched _ done ih =>
      rw [(Outcome.replayed_of_perform done).breakMark, ih, List.findSome?_cons, Deed.mark?]
      cases Outcome.mark? ⟨call, cpu, after, cycles, watched.accesses⟩ <;> rfl
  | restored registers _ _ => rfl
  | aside _ same ih =>
      rw [status_eq same]
      exact ih

/-- On a memory without faults any call can follow. -/
theorem exists_called (unfailing : Unfailing ε σ) (history : History ε σ deeds cpu) (call : Call)
    (device : σ) : ∃ o : Outcome, o.call = call ∧ o.before = cpu ∧
      History ε σ (.called o :: deeds) o.after := by
  have watched := (call.transaction cpu).perform_watched (ε := ε) (Watched.start device)
  obtain ⟨result, after, done⟩ := unfailing.perform (call.transaction cpu) device
  cases outcome : ((call.transaction cpu).perform : EStateM ε (Watched σ) (Nat × Cpu)) (.start device) with
  | ok result watched => exact ⟨_, rfl, rfl, history.called outcome⟩
  | error failure _ =>
      rw [outcome] at watched
      exact absurd (done.symm.trans watched) nofun

/-- Where no registers with the mark are restored, it is off. -/
theorem breakMark_eq_false (history : History ε σ deeds cpu)
    (unmarked : ∀ registers, .restored registers ∈ deeds → registers.status.breakMark = false) :
    cpu.status.breakMark = false := by
  rw [history.breakMark]
  cases last : deeds.findSome? Deed.mark? with
  | none => rfl
  | some mark =>
      obtain ⟨deed, member, left⟩ := List.exists_of_findSome?_eq_some last
      cases deed with
      | called outcome => exact outcome.eq_false_of_mark? left
      | restored registers => exact (Option.some.inj left).symm.trans (unmarked registers member)

end History

end Cpu

end AppleOne
