import AppleOne.Bus.Memory
import AppleOne.Proofs.Cpu.Frame

/-!
Interrupts over whole runs. The calls before a step settle what it does: it enters the handler of the
interrupt that was latched, or that of the request line, or it runs one instruction (`serve_services`).
-/

namespace AppleOne

open Access (answerAt)

variable {α ε σ : Type}

/-! ### Memories without faults -/

/-- Every access succeeds. -/
structure Unfailing (ε σ : Type) [Device (EStateM ε σ)] : Prop where
  read : ∀ (address : UInt16) (device : σ), ∃ value after,
    (Device.read address : EStateM ε σ UInt8) device = .ok value after
  write : ∀ (address : UInt16) (value : UInt8) (device : σ), ∃ after,
    (Device.write address value : EStateM ε σ Unit) device = .ok () after
  note : ∀ (diagnostic : Log.Diagnostic) (device : σ), ∃ after,
    (Device.note diagnostic : EStateM ε σ Unit) device = .ok () after

theorem Unfailing.perform [Device (EStateM ε σ)] (unfailing : Unfailing ε σ) (t : Transaction α)
    (device : σ) : ∃ result after, (t.perform : EStateM ε σ α) device = .ok result after := by
  induction t generalizing device with
  | done result => exact ⟨result, device, rfl⟩
  | read address next ih =>
      obtain ⟨value, between, done⟩ := unfailing.read address device
      obtain ⟨result, after, rest⟩ := ih value between
      refine ⟨result, after, ?_⟩
      simpa only [Transaction.perform, bind, EStateM.bind, done] using rest
  | write address value next ih =>
      obtain ⟨between, done⟩ := unfailing.write address value device
      obtain ⟨result, after, rest⟩ := ih between
      refine ⟨result, after, ?_⟩
      simpa only [Transaction.perform, bind, EStateM.bind, done] using rest
  | note diagnostic next ih =>
      obtain ⟨between, done⟩ := unfailing.note diagnostic device
      obtain ⟨result, after, rest⟩ := ih between
      refine ⟨result, after, ?_⟩
      simpa only [Transaction.perform, bind, EStateM.bind, done] using rest

namespace Memory

instance : Device (EStateM ε Memory) where
  read address := fun memory => .ok (memory.get address) memory
  write address value := fun memory => .ok () (memory.set address value)
  note _ := pure ()

theorem unfailing : Unfailing ε Memory where
  read _ _ := ⟨_, _, rfl⟩
  write _ _ _ := ⟨_, rfl⟩
  note _ _ := ⟨_, rfl⟩

end Memory

namespace Cpu

/-! ### Runs -/

/-- What a host asks of a processor. -/
inductive Call where
  | step
  | nmi
  | setIrq (level : Bool)
  | reset
  deriving DecidableEq, Repr

namespace Call

/-- What a call does, with the cycles it takes. -/
def transaction (cpu : Cpu) : Call → Transaction (Nat × Cpu)
  | step => cpu.step
  | nmi => .done (0, cpu.nmi)
  | setIrq level => .done (0, cpu.setIrq level)
  | reset => Prod.mk 0 <$> cpu.reset

end Call

/-- A call that was made, and what came of it. -/
structure Outcome where
  call : Call
  before : Cpu
  after : Cpu
  cycles : Nat
  accesses : List Access

/-- Makes calls one after the other, up to the first access that fails. -/
def serve (ε : Type) [Device (EStateM ε σ)] : List Call → Cpu → σ → List Outcome
  | [], _, _ => []
  | call :: rest, cpu, device =>
    match ((call.transaction cpu).perform : EStateM ε (Watched σ) (Nat × Cpu)) (.start device) with
    | .ok (cycles, after) watched =>
      ⟨call, cpu, after, cycles, watched.accesses⟩ :: serve ε rest after watched.device
    | .error _ _ => []

theorem serve_prefix [Device (EStateM ε σ)] (calls : List Call) (cpu : Cpu) (device : σ) :
    (serve ε calls cpu device).map Outcome.call <+: calls := by
  induction calls generalizing cpu device with
  | nil => exact List.prefix_rfl
  | cons call rest ih =>
      rw [serve]
      split
      · exact List.prefix_cons_inj call |>.mpr (ih _ _)
      · exact List.nil_prefix

theorem serve_complete [Device (EStateM ε σ)] (unfailing : Unfailing ε σ) (calls : List Call)
    (cpu : Cpu) (device : σ) : (serve ε calls cpu device).map Outcome.call = calls := by
  induction calls generalizing cpu device with
  | nil => rfl
  | cons call rest ih =>
      rw [serve]
      split
      · exact congrArg (call :: ·) (ih _ _)
      · rename_i failed
        have watched := (call.transaction cpu).perform_watched (ε := ε) (Watched.start device)
        obtain ⟨result, after, done⟩ := unfailing.perform (call.transaction cpu) device
        rw [failed] at watched
        exact absurd (done.symm.trans watched) nofun

namespace Outcome

/-- What came of a call is what the call does, given the bytes that its reads brought. -/
def Replayed (o : Outcome) : Prop :=
  (o.call.transaction o.before).replay (answerAt o.accesses) 0 = ((o.cycles, o.after), o.accesses)

theorem replayed_of_perform [Device (EStateM ε σ)] {call : Call} {cpu after : Cpu} {device : σ}
    {cycles : Nat} {watched : Watched σ}
    (done : ((call.transaction cpu).perform : EStateM ε (Watched σ) (Nat × Cpu)) (.start device) =
      .ok (cycles, after) watched) :
    Replayed ⟨call, cpu, after, cycles, watched.accesses⟩ := by
  have explained := (call.transaction cpu).perform_explained (ε := ε) device []
  rw [show ((call.transaction cpu).perform : EStateM ε (Watched σ) _) ⟨device, []⟩ = _ from done]
    at explained
  obtain ⟨made, split, replayed⟩ := explained
  rw [List.nil_append] at split
  rw [Replayed, split]
  rw [split] at replayed
  exact replayed

end Outcome

/-- Each call goes on where the one before it ended. -/
inductive Linked : Cpu → List Outcome → Prop where
  | nil (cpu : Cpu) : Linked cpu []
  | cons {o : Outcome} {rest : List Outcome} :
      o.Replayed → Linked o.after rest → Linked o.before (o :: rest)

theorem linked_serve [Device (EStateM ε σ)] (calls : List Call) (cpu : Cpu) (device : σ) :
    Linked cpu (serve ε calls cpu device) := by
  induction calls generalizing cpu device with
  | nil => exact .nil cpu
  | cons call rest ih =>
      rw [serve]
      split
      · rename_i cycles after watched done
        exact .cons (Outcome.replayed_of_perform done) (ih after watched.device)
      · exact .nil cpu

/-! ### Latch and line -/

namespace Call

/-- The level that a call gives the request line. -/
def level? : Call → Option Bool
  | setIrq level => some level
  | _ => none

/-- Whether a non-maskable interrupt is latched after a call. -/
def latch (pending : Bool) : Call → Bool
  | step | reset => false
  | nmi => true
  | setIrq _ => pending

end Call

/-- A non-maskable interrupt was asked for, and neither a step nor a reset came since. -/
def Asked (calls : List Call) : Prop :=
  ∃ earlier later, calls = earlier ++ .nmi :: later ∧ .step ∉ later ∧ .reset ∉ later

/-- The level that was last given to the request line. -/
def lineAfter (initial : Bool) (calls : List Call) : Bool :=
  (calls.reverse.findSome? Call.level?).getD initial

theorem not_asked_nil : ¬Asked [] := by
  rintro ⟨earlier, later, none, -⟩
  simp at none

theorem asked_cons {call : Call} {rest : List Call} :
    Asked (call :: rest) ↔ Asked rest ∨ call = .nmi ∧ .step ∉ rest ∧ .reset ∉ rest := by
  constructor
  · rintro ⟨earlier, later, split, quiet⟩
    cases earlier with
    | nil =>
        obtain ⟨rfl, rfl⟩ := List.cons_eq_cons.mp split
        exact .inr ⟨rfl, quiet⟩
    | cons first earlier =>
        obtain ⟨-, rfl⟩ := List.cons_eq_cons.mp split
        exact .inl ⟨earlier, later, rfl, quiet⟩
  · rintro (⟨earlier, later, rfl, quiet⟩ | ⟨rfl, quiet⟩)
    · exact ⟨call :: earlier, later, rfl, quiet⟩
    · exact ⟨[], rest, rfl, quiet⟩

theorem lineAfter_cons (initial : Bool) (call : Call) (rest : List Call) :
    lineAfter initial (call :: rest) = lineAfter (call.level?.getD initial) rest := by
  rw [lineAfter, List.reverse_cons, List.findSome?_append, lineAfter]
  cases List.findSome? Call.level? rest.reverse with
  | some level => rfl
  | none => cases call <;> rfl

theorem replay_step_inputs (cpu : Cpu) (answer : Nat → UInt8) :
    (cpu.step.replay answer 0).1.2.nmiPending = false ∧
      (cpu.step.replay answer 0).1.2.irqLine = cpu.irqLine := by
  cases due : cpu.due with
  | some source =>
      rw [replay_step_interrupt cpu answer due]
      exact ⟨rfl, rfl⟩
  | none =>
      have idle : cpu.nmiPending = false := by
        rw [← Bool.not_eq_true, ← due_eq_nmi_iff, due]
        nofun
      cases decoded : decode (answer 0) with
      | none =>
          rw [replay_step_undefined cpu answer due decoded]
          exact ⟨idle, rfl⟩
      | some instruction =>
          rw [replay_step_instruction cpu answer due decoded]
          have frame := replay_act_frame cpu answer decoded
          exact ⟨frame.nmiPending.trans idle, frame.irqLine⟩

namespace Outcome

variable {o : Outcome}

theorem Replayed.inputs (replayed : o.Replayed) :
    o.after.nmiPending = o.call.latch o.before.nmiPending ∧
      o.after.irqLine = o.call.level?.getD o.before.irqLine := by
  obtain ⟨call, before, after, cycles, accesses⟩ := o
  have same : ((call.transaction before).replay (answerAt accesses) 0).1.2 = after :=
    congrArg (·.1.2) replayed
  subst same
  cases call with
  | step => exact replay_step_inputs before _
  | nmi => exact ⟨rfl, rfl⟩
  | setIrq level => exact ⟨rfl, rfl⟩
  | reset => exact ⟨rfl, rfl⟩

end Outcome

section

variable {cpu : Cpu} {past rest : List Outcome} {o : Outcome}

theorem Linked.pending_iff (linked : Linked cpu (past ++ o :: rest)) :
    o.before.nmiPending = true ↔ Asked (past.map Outcome.call) ∨
      cpu.nmiPending = true ∧ .step ∉ past.map Outcome.call ∧ .reset ∉ past.map Outcome.call := by
  induction past generalizing cpu with
  | nil =>
      cases linked
      simp [not_asked_nil]
  | cons first past ih =>
      cases linked with
      | cons replayed further =>
          obtain ⟨latch, -⟩ := replayed.inputs
          rw [ih further, List.map_cons, asked_cons, latch]
          cases first.call <;> grind [Call.latch]

theorem Linked.line_eq (linked : Linked cpu (past ++ o :: rest)) :
    o.before.irqLine = lineAfter cpu.irqLine (past.map Outcome.call) := by
  induction past generalizing cpu with
  | nil =>
      cases linked
      rfl
  | cons first past ih =>
      cases linked with
      | cons replayed further =>
          obtain ⟨-, line⟩ := replayed.inputs
          rw [ih further, List.map_cons, lineAfter_cons, line]

end

/-! ### Steps -/

namespace Outcome

/-- A step that saves program counter and status, and goes on where the vector of an interrupt says. -/
structure Enters (o : Outcome) (source : Interrupt) : Prop where
  call : o.call = .step
  cycles : o.cycles = 7
  accesses : o.accesses = [
    .write (stackAddress o.before.sp) (o.before.pc >>> 8).toUInt8,
    .write (stackAddress (o.before.sp - 1)) o.before.pc.toUInt8,
    .write (stackAddress (o.before.sp - 2)) (o.before.status.pushed false).toByte,
    .read source.vector (answerAt o.accesses 0),
    .read (source.vector + 1) (answerAt o.accesses 1)]
  pc : o.after.pc = wordOf (answerAt o.accesses 0) (answerAt o.accesses 1)
  interruptsOff : o.after.status.interruptsOff = true

/-- A step that fetches one opcode and does nothing but what that instruction does. -/
structure Executes (o : Outcome) : Prop where
  call : o.call = .step
  fetch : ∃ opcode rest, o.accesses = .read o.before.pc opcode :: rest
  instruction : ∃ next,
    o.before.instruction.replay (answerAt o.accesses) 0 = ((o.cycles, next), o.accesses) ∧
      o.after = { next with cycles := next.cycles + UInt64.ofNat o.cycles }

instance (o : Outcome) (source : Interrupt) : Decidable (o.Enters source) :=
  decidable_of_iff (_ ∧ _ ∧ _ ∧ _ ∧ _)
    ⟨fun ⟨call, cycles, accesses, pc, interruptsOff⟩ => ⟨call, cycles, accesses, pc, interruptsOff⟩,
      fun h => ⟨h.call, h.cycles, h.accesses, h.pc, h.interruptsOff⟩⟩

variable {o : Outcome} {source other : Interrupt}

theorem Enters.source_eq (enters : o.Enters source) (entersOther : o.Enters other) :
    source = other := by
  have same := enters.accesses.symm.trans entersOther.accesses
  cases source <;> cases other <;> simp_all [Interrupt.vector]

/-- An entry starts with a push, an instruction with a fetch. -/
theorem Enters.not_executes (enters : o.Enters source) : ¬o.Executes := by
  rintro ⟨-, ⟨opcode, rest, fetched⟩, -⟩
  rw [enters.accesses] at fetched
  cases fetched

theorem Replayed.enters (replayed : o.Replayed) (call : o.call = .step)
    (due : o.before.due = some source) : o.Enters source := by
  rw [Replayed, call, Call.transaction, replay_step_interrupt _ _ due] at replayed
  simp only [Prod.mk.injEq] at replayed
  obtain ⟨⟨cycles, after⟩, accesses⟩ := replayed
  exact ⟨call, cycles.symm, accesses.symm, after ▸ rfl, after ▸ rfl⟩

theorem Replayed.executes (replayed : o.Replayed) (call : o.call = .step)
    (due : o.before.due = none) : o.Executes := by
  rw [Replayed, call, Call.transaction, step, advance_of_due_none _ due, Transaction.replay_bind]
    at replayed
  have fetched : ∃ opcode rest, (o.before.instruction.replay (answerAt o.accesses) 0).2 =
      .read o.before.pc opcode :: rest := ⟨_, _, rfl⟩
  generalize run : o.before.instruction.replay (answerAt o.accesses) 0 = outcome at replayed fetched
  obtain ⟨⟨cycles, next⟩, accesses⟩ := outcome
  simp only [Transaction.pure_eq, Transaction.replay_done, List.append_nil, Prod.mk.injEq] at replayed
  obtain ⟨⟨cycles, after⟩, accesses⟩ := replayed
  subst cycles accesses
  exact ⟨call, fetched, next, run, after.symm⟩

theorem Replayed.enters_iff (replayed : o.Replayed) (call : o.call = .step) :
    o.Enters source ↔ o.before.due = some source := by
  refine ⟨fun enters => ?_, replayed.enters call⟩
  cases due : o.before.due with
  | some other => rw [enters.source_eq (replayed.enters call due)]
  | none => exact absurd (replayed.executes call due) enters.not_executes

theorem Replayed.executes_iff (replayed : o.Replayed) (call : o.call = .step) :
    o.Executes ↔ o.before.due = none := by
  refine ⟨fun executes => ?_, replayed.executes call⟩
  cases due : o.before.due with
  | some source => exact absurd executes (replayed.enters call due).not_executes
  | none => rfl

end Outcome

/-- What a step does after some calls, if the request line started at a level and nothing was latched. -/
structure Outcome.Services (line : Bool) (history : List Call) (o : Outcome) : Prop where
  nmi : o.Enters .nmi ↔ Asked history
  irq : o.Enters .irq ↔
    ¬o.Enters .nmi ∧ lineAfter line history = true ∧ o.before.status.interruptsOff = false
  executes : o.Executes ↔ ¬o.Enters .nmi ∧ ¬o.Enters .irq

section

variable {cpu : Cpu} {outcomes past between rest : List Outcome} {o : Outcome}

theorem Linked.drop (linked : Linked cpu (past ++ o :: rest)) : o.Replayed ∧ Linked o.after rest := by
  induction past generalizing cpu with
  | nil =>
      cases linked with
      | cons replayed further => exact ⟨replayed, further⟩
  | cons first past ih =>
      cases linked with
      | cons _ further => exact ih further

theorem Linked.services (linked : Linked cpu (past ++ o :: rest)) (idle : cpu.nmiPending = false)
    (call : o.call = .step) : o.Services cpu.irqLine (past.map Outcome.call) := by
  have replayed := linked.drop.1
  have nmi : o.Enters .nmi ↔ Asked (past.map Outcome.call) := by
    rw [replayed.enters_iff call, due_eq_nmi_iff, linked.pending_iff, idle]
    simp
  refine ⟨nmi, ?_, ?_⟩
  · rw [replayed.enters_iff call, replayed.enters_iff call, due_eq_irq_iff, due_eq_nmi_iff,
      Bool.not_eq_true, ← linked.line_eq]
  · rw [replayed.executes_iff call, replayed.enters_iff call, replayed.enters_iff call]
    rcases o.before.due with _ | _ | _ <;> simp

theorem Linked.countP_enters_le (linked : Linked cpu outcomes) :
    outcomes.countP (·.Enters .nmi) ≤
      (outcomes.map Outcome.call).count .nmi + cpu.nmiPending.toNat := by
  induction linked with
  | nil => exact Nat.zero_le _
  | @cons o rest replayed _ ih =>
      obtain ⟨latch, -⟩ := replayed.inputs
      rw [latch] at ih
      rw [List.countP_cons, List.map_cons, List.count_cons]
      by_cases enters : o.Enters .nmi
      · have pending := (due_eq_nmi_iff _).mp ((replayed.enters_iff enters.call).mp enters)
        rw [enters.call] at ih ⊢
        simp [Call.latch, pending, enters] at ih ⊢
        omega
      · cases call : o.call <;> simp [Call.latch, call, enters] at ih ⊢ <;> omega

/-- Between two steps the mask stays on. -/
theorem Linked.interruptsOff (linked : Linked cpu (between ++ o :: rest))
    (noStep : ∀ other ∈ between, other.call ≠ .step) (off : cpu.status.interruptsOff = true) :
    o.before.status.interruptsOff = true := by
  induction between generalizing cpu with
  | nil =>
      cases linked
      exact off
  | cons first between ih =>
      cases linked with
      | cons replayed further =>
          refine ih further (fun other later => noStep other (List.mem_cons_of_mem _ later)) ?_
          have notStep := noStep first List.mem_cons_self
          obtain ⟨call, before, after, cycles, accesses⟩ := first
          have same : ((call.transaction before).replay (answerAt accesses) 0).1.2 = after :=
            congrArg (·.1.2) replayed
          subst same
          cases call with
          | step => exact absurd rfl notStep
          | nmi => exact off
          | setIrq level => exact off
          | reset => rfl

end

/-- Whatever the host asks for in between, a step enters the handler of a non-maskable interrupt just if
one was asked for since the step before and the last reset, else that of the request line just if the line
is up and not masked, and else it runs one instruction. -/
theorem serve_services [Device (EStateM ε σ)] (calls : List Call) {cpu : Cpu}
    (idle : cpu.nmiPending = false) (device : σ) :
    (serve ε calls cpu device).map Outcome.call <+: calls ∧
    (Unfailing ε σ → (serve ε calls cpu device).map Outcome.call = calls) ∧
    (∀ past o rest, serve ε calls cpu device = past ++ o :: rest → o.call = .step →
      o.Services cpu.irqLine (past.map Outcome.call)) ∧
    (serve ε calls cpu device).countP (·.Enters .nmi) ≤ calls.count .nmi ∧
    ∀ past first between second rest,
      serve ε calls cpu device = past ++ first :: (between ++ second :: rest) →
      (∀ o ∈ between, o.call ≠ .step) → ¬(first.Enters .irq ∧ second.Enters .irq) := by
  have linked := linked_serve (ε := ε) calls cpu device
  have made := serve_prefix (ε := ε) calls cpu device
  refine ⟨made, fun unfailing => serve_complete unfailing calls cpu device, ?_, ?_, ?_⟩
  · intro past o rest split call
    rw [split] at linked
    exact linked.services idle call
  · have counted := linked.countP_enters_le
    rw [idle] at counted
    exact Nat.le_trans counted (made.sublist.count_le _)
  · rintro past first between second rest split noStep ⟨entered, again⟩
    rw [split] at linked
    have further := linked.drop.2
    have off := further.interruptsOff noStep entered.interruptsOff
    have due := (further.drop.1.enters_iff again.call).mp again
    obtain ⟨-, -, on⟩ := (due_eq_irq_iff _).mp due
    exact absurd (off.symm.trans on) nofun

/-- A latched interrupt is entered before one that the line asks for, and only once. -/
theorem serve_services_latched :
    Cpu.initial.nmiPending = false ∧ Unfailing Empty Memory ∧
    ∃ raised latched entry next,
      serve Empty [.setIrq true, .nmi, .step, .step] Cpu.initial Memory.zero =
        [raised, latched, entry, next] ∧
      entry.Enters .nmi ∧ ¬next.Enters .nmi := by
  have idle : Cpu.initial.nmiPending = false := rfl
  obtain ⟨-, complete, services, -⟩ :=
    serve_services (ε := Empty) [.setIrq true, .nmi, .step, .step] idle Memory.zero
  have calls := complete Memory.unfailing
  simp only [List.map_eq_cons_iff, List.map_eq_nil_iff] at calls
  obtain ⟨raised, _, all, setIrq, latched, _, rfl, nmi, entry, _, rfl, step, next, _, rfl, again, rfl⟩ :=
    calls
  refine ⟨idle, Memory.unfailing, raised, latched, entry, next, all, ?_, ?_⟩
  · have entered := services [raised, latched] entry [next] all step
    refine entered.nmi.mpr ⟨[.setIrq true], [], ?_, nofun, nofun⟩
    rw [List.map_cons, List.map_cons, setIrq, nmi]
    rfl
  · rw [(services [raised, latched, entry] next [] all again).nmi]
    simp [asked_cons, not_asked_nil, setIrq, nmi, step]

end Cpu

end AppleOne
