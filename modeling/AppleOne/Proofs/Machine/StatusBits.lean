import AppleOne.Proofs.Cpu.History
import AppleOne.Proofs.Machine.RoundTrip

/-!
Bit 5 and the break mark in machines. All that a host can do with a machine is a history of its
processor (`Driven.traced`), so bit 5 is always on, and copies on the stack are marked by what
pushes them (`bit5_on_copies_marked`). The mark of the status itself comes from registers and states that
are restored (`breakMark_last_restored`), which may have it on (`breakMark_not_always_off`).
-/

namespace AppleOne

namespace Machine

open Cpu (Call Deed History)

/-- The command gives the processor these registers. -/
def Command.Restores (machine : Machine) (command : Command) (registers : Registers) : Prop :=
  command = .setRegisters registers ∨ ∃ state saved, command = .loadState state ∧
    SavedState.ofJson machine.ramSize state = .ok saved ∧ saved.registers = registers

/-- Built, and driven by commands without a fault and by the decimal switch, where all registers that
were restored are as allowed. -/
inductive Driven (allowed : Registers → Prop) : Machine → Prop where
  | build {config : Config} {roms : Roms} {terminal : Terminal} {journal : Log.Journal}
      {machine : Machine} :
      Machine.build config roms terminal journal = .ok machine → Driven allowed machine
  | run {machine after : Machine} (command : Command) {reply : Reply} :
      Driven allowed machine → (∀ registers, command.Restores machine registers → allowed registers) →
      command.run machine = .ok reply after → Driven allowed after
  | setDecimal {machine : Machine} (enabled : Bool) :
      Driven allowed machine →
      Driven allowed { machine with cpu := machine.cpu.setDecimal enabled }

/-- The processor has a history on boards, with registers restored as allowed. -/
def Traced (allowed : Registers → Prop) (machine : Machine) : Prop :=
  ∃ deeds, History Fault Board deeds machine.cpu ∧
    ∀ registers, .restored registers ∈ deeds → allowed registers

variable {allowed : Registers → Prop} {machine after : Machine}

theorem Traced.aside (traced : machine.Traced allowed)
    (same : after.cpu.registers = machine.cpu.registers) : after.Traced allowed := by
  obtain ⟨deeds, history, restored⟩ := traced
  exact ⟨deeds, history.aside same, restored⟩

theorem Traced.restored (traced : machine.Traced allowed) {registers : Registers}
    (fit : allowed registers) (same : after.cpu = machine.cpu.setRegisters registers) :
    after.Traced allowed := by
  obtain ⟨deeds, history, restored⟩ := traced
  refine ⟨.restored registers :: deeds, same ▸ history.restored registers, fun other member => ?_⟩
  cases member with
  | head => exact fit
  | tail _ earlier => exact restored other earlier

theorem keeps_call (call : Call) : Keeps (Traced allowed) (perform fun cpu => call.transaction cpu) := by
  rintro ⟨cpu, config, board⟩ traced
  have watched := (call.transaction cpu).perform_watched (ε := Fault) (Watched.start board)
  rw [perform]
  cases outcome : ((call.transaction cpu).perform : EStateM Fault (Watched Board) (Nat × Cpu))
      (.start board) with
  | ok result after =>
      rw [outcome] at watched
      rw [show ((call.transaction cpu).perform : EStateM Fault Board _) board = _ from watched]
      obtain ⟨deeds, history, restored⟩ := traced
      refine ⟨_, history.called outcome, fun registers member => ?_⟩
      cases member with
      | tail _ earlier => exact restored registers earlier
  | error fault after =>
      rw [outcome] at watched
      rw [show ((call.transaction cpu).perform : EStateM Fault Board _) board = _ from watched]
      exact traced

theorem Traced.reset (traced : machine.Traced allowed) : machine.reset.Traced allowed := by
  rw [reset_eq_final 0]
  exact keeps_call .reset machine traced

theorem Traced.nmi (traced : machine.Traced allowed) : machine.nmi.Traced allowed :=
  keeps_call .nmi machine traced

theorem Traced.setIrq (traced : machine.Traced allowed) (level : Bool) :
    (machine.setIrq level).Traced allowed :=
  keeps_call (.setIrq level) machine traced

/-- Whatever leaves the processor alone keeps its history. -/
theorem keeps_traced_of_cpu {α : Type} {x : Run α}
    (same : ∀ machine, (final (x machine)).cpu = machine.cpu) : Keeps (Traced allowed) x :=
  fun machine traced => traced.aside (congrArg Cpu.registers (same machine))

theorem keeps_traced_runCycles (budget : UInt32) : Keeps (Traced allowed) (runCycles budget) :=
  keeps_iff_lockstep.mpr ((keeps_iff_lockstep.mp (keeps_call .step)).repeatWithin _ _ _)

theorem cpu_peek (address : UInt16) (machine : Machine) :
    (final (peek address machine)).cpu = machine.cpu := by
  rw [peek]
  split <;> rfl

theorem cpu_poke (address : UInt16) (value : UInt8) (machine : Machine) :
    (final (poke address value machine)).cpu = machine.cpu := by
  rw [poke]
  split <;> rfl

theorem cpu_advance (span : Duration) (machine : Machine) :
    (final (advance span machine)).cpu = machine.cpu := by
  rw [advance]
  split <;> rfl

theorem Traced.handleKey (traced : machine.Traced allowed) (key : HostKey) :
    (machine.handleKey key).Traced allowed := by
  rw [Machine.handleKey]
  split
  · rename_i action _
    cases action with
    | key code => exact traced
    | reset => exact traced.reset
  · exact traced

theorem Traced.loadImage {address : UInt16} {image : Array UInt8} (traced : machine.Traced allowed)
    (done : machine.loadImage address image = .ok after) : after.Traced allowed := by
  obtain ⟨-, rfl⟩ := loadImage_eq_ok done
  exact traced

theorem Traced.loadState {state : Json} (traced : machine.Traced allowed)
    (fit : ∀ registers, (Command.loadState state).Restores machine registers → allowed registers)
    (done : machine.loadState state = .ok after) : after.Traced allowed := by
  obtain ⟨saved, read, ⟨⟩⟩ := bind_eq_ok.mp done
  have restored : Traced allowed { machine with cpu := machine.cpu.setRegisters saved.registers } :=
    traced.restored (fit _ (.inr ⟨state, saved, rfl, read, rfl⟩)) rfl
  exact restored.aside rfl

theorem Traced.request {f : Machine → Except Error Machine} (traced : machine.Traced allowed)
    (accepted : ∀ after, f machine = .ok after → after.Traced allowed) :
    (final (request f machine)).Traced allowed := by
  rw [Machine.request]
  split
  · exact accepted _ ‹_›
  · exact traced

theorem Traced.run (traced : machine.Traced allowed) (command : Command)
    (fit : ∀ registers, command.Restores machine registers → allowed registers) :
    (final (command.run machine)).Traced allowed := by
  cases command with
  | step => exact (keeps_call .step).map _ machine traced
  | tick => exact Keeps.map _ (fun machine => keeps_traced_runCycles _ machine) machine traced
  | runCycles budget => exact (keeps_traced_runCycles budget).map _ machine traced
  | reset => exact traced.reset
  | press code => exact traced
  | handleKey key => exact traced.handleKey key
  | setIrq level => exact traced.setIrq level
  | nmi => exact traced.nmi
  | peek address => exact (keeps_traced_of_cpu (cpu_peek address)).map _ machine traced
  | poke address value => exact (keeps_traced_of_cpu (cpu_poke address value)).map _ machine traced
  | loadImage address image => exact traced.request fun _ => traced.loadImage
  | saveRegion start last => exact traced
  | advance span => exact (keeps_traced_of_cpu (cpu_advance span)).map _ machine traced
  | setTime time => exact traced
  | setRegisters registers => exact traced.restored (fit registers (.inl rfl)) rfl
  | saveState => exact traced
  | loadState state => exact traced.request fun _ => traced.loadState fit

theorem Driven.traced (driven : Driven allowed machine) : machine.Traced allowed := by
  induction driven with
  | build built =>
      obtain ⟨-, -, -, rfl⟩ := build_eq_ok_iff.mp built
      exact Traced.reset ⟨[], .aside .made rfl, nofun⟩
  | run command _ fit done ih =>
      have kept := ih.run command fit
      rw [done] at kept
      exact kept
  | setDecimal enabled _ ih => exact ih.aside rfl

/-! ### The two bits -/

/-- Bit 5 is always on. So it is in every copy on the stack, where the mark tells what pushed the copy,
whatever the mark of the status. -/
theorem bit5_on_copies_marked :
    (∀ (ε σ : Type) [Device (EStateM ε σ)] (deeds : List Deed) (cpu : Cpu),
      History ε σ deeds cpu → cpu.status.bit5 = true ∧
        ∀ o, .called o ∈ deeds → o.call = .step → o.before.CopiesStatus o.accesses) ∧
    (∀ machine, Driven (fun _ => True) machine → machine.cpu.status.bit5 = true) ∧
    ∀ cpu : Cpu, cpu.step.OnEveryDevice fun _ accesses => cpu.CopiesStatus accesses := by
  refine ⟨fun ε σ _ deeds cpu history => ?_, fun machine driven => ?_, fun cpu => ?_⟩
  · exact ⟨history.bit5, fun o => history.copiesStatus⟩
  · obtain ⟨deeds, history, -⟩ := driven.traced
    exact history.bit5
  · exact Transaction.OnEveryDevice.of_replay (P := fun _ _ accesses => cpu.CopiesStatus accesses)
      cpu.replay_step_copiesStatus

/-- Registers with the break mark on. -/
def marked : Registers :=
  { Registers.initial with status := { Status.initial with breakMark := true } }

theorem driven_blank : Driven allowed blank := by
  have built : build .standard .blank .recorder .initial = .ok blank := rfl
  exact .build built

/-- The status is marked, but the copy that an interrupt pushes is not. -/
theorem bit5_on_copies_marked_nmi :
    blank.cpu.status.bit5 = true ∧ ∃ o : Cpu.Outcome,
      o.before.status.breakMark = true ∧ o.after.status.bit5 = true ∧
      ∃ copy : UInt8, copy &&& 0x10 = 0 ∧ o.accesses[2]? = some (.write 0x01FB copy) := by
  obtain ⟨onHistories, onMachines, -⟩ := bit5_on_copies_marked
  have latched : History Empty Memory [.restored marked] (Cpu.initial.setRegisters marked).nmi :=
    .aside (.restored marked .made) rfl
  obtain ⟨o, call, before, history⟩ := latched.exists_called Memory.unfailing .step Memory.zero
  obtain ⟨bit5, copies⟩ := onHistories _ _ _ _ history
  have due : o.before.due = some .nmi := by rw [before]; rfl
  obtain ⟨copy, _, _, isCopy, accesses⟩ := (copies o List.mem_cons_self call).interrupt .nmi due
  refine ⟨onMachines blank driven_blank, o, ?_, bit5, copy, isCopy.mark, ?_⟩
  · rw [before]
    rfl
  · rw [accesses, before]
    rfl

/-- The break mark is that of the registers that were restored last, unless a reset, PLP or RTI came since;
at first it is off. So it stays off in a machine that restores no registers with the mark. -/
theorem breakMark_last_restored {ε σ : Type} [Device (EStateM ε σ)] {deeds : List Deed} {cpu : Cpu}
    {machine : Machine} :
    (History ε σ deeds cpu → cpu.status.breakMark = (deeds.findSome? Deed.mark?).getD false) ∧
    (Driven (·.status.breakMark = false) machine → machine.cpu.status.breakMark = false) := by
  refine ⟨fun history => history.breakMark, fun driven => ?_⟩
  obtain ⟨deeds, history, unmarked⟩ := driven.traced
  exact history.breakMark_eq_false unmarked

/-- After marked registers were restored, a reset takes the mark away. -/
theorem breakMark_last_restored_reset :
    blank.cpu.status.breakMark = false ∧ ∃ o : Cpu.Outcome,
      o.before.status.breakMark = true ∧ o.after.status.breakMark = false := by
  have restored : History Empty Memory [.restored marked] (Cpu.initial.setRegisters marked) :=
    .restored marked .made
  obtain ⟨o, call, before, history⟩ := restored.exists_called Memory.unfailing .reset Memory.zero
  obtain ⟨left, unmarked⟩ := @breakMark_last_restored Empty Memory _ _ _ blank
  refine ⟨unmarked driven_blank, o, ?_, ?_⟩
  · rw [before]
    rfl
  · rw [left history, List.findSome?_cons, Deed.mark?, Cpu.Outcome.mark?, call]
    rfl

/-- The same machine with a marked status. -/
def mark (machine : Machine) : Machine :=
  { machine with cpu := machine.cpu.setRegisters marked }

theorem load_mark (machine : Machine) :
    (Command.loadState machine.mark.saveState).run machine =
      .ok .done (machine.restore machine.mark.saved) := by
  have accepted : machine.loadState machine.mark.saveState = .ok (machine.restore machine.mark.saved) :=
    loadState_eq_restore rfl
  rw [Command.run, Machine.request, accepted]

theorem breakMark_load (machine : Machine) :
    (machine.restore machine.mark.saved).cpu.status.breakMark = true := rfl

/-- The mark can be on, in a processor whose registers were restored and in a machine that loaded a
state. -/
theorem breakMark_not_always_off :
    (¬∀ (ε σ : Type) [Device (EStateM ε σ)] (deeds : List Deed) (cpu : Cpu),
      History ε σ deeds cpu → cpu.status.breakMark = false) ∧
    ¬∀ machine, Driven (fun _ => True) machine → machine.cpu.status.breakMark = false := by
  constructor
  · intro always
    have off := always Empty Memory _ _ (.restored marked .made)
    cases off
  · intro always
    have loaded : Driven (fun _ => True) (blank.restore blank.mark.saved) :=
      .run _ driven_blank (fun _ _ => trivial) (load_mark blank)
    exact absurd ((breakMark_load blank).symm.trans (always _ loaded)) nofun

end Machine

end AppleOne
