import AppleOne.Proofs.Machine.AddressSpace
import AppleOne.Proofs.Machine.RoundTrip

/-!
Interrupts across a load. The request line and its mask are part of a saved state; the latch for
non-maskable interrupts is not, and stays that of the machine that loads.
-/

namespace AppleOne.Machine

variable {machine origin : Machine}

theorem due_restore (machine origin : Machine) :
    (machine.restore origin.saved).cpu.due =
      { origin.cpu with nmiPending := machine.cpu.nmiPending }.due := rfl

/-- After a load the next step enters the handler that the latch of the machine that loads and the line
of the machine that saved ask for. It is what the latter would enter just if the latches agree. -/
theorem due_after_load (reachable : machine.Reachable) (size : machine.ramSize = origin.ramSize) :
    ∃ loaded, machine.loadState origin.saveState = .ok loaded ∧
      (loaded.cpu.due = some .nmi ↔ machine.cpu.nmiPending = true) ∧
      (loaded.cpu.due = some .irq ↔ machine.cpu.nmiPending = false ∧ origin.cpu.irqLine = true ∧
        origin.cpu.status.interruptsOff = false) ∧
      (loaded.cpu.due = origin.cpu.due ↔ machine.cpu.nmiPending = origin.cpu.nmiPending) ∧
      ∀ source, loaded.cpu.due = some source → ∃ after, step loaded = .ok 7 after ∧
        after.cpu.pc = machine.board.roms.word source.vector := by
  have room : (machine.restore origin.saved).board.ram.size ≤ Board.maxRam := by
    change origin.ramSize ≤ Board.maxRam
    rw [← size]
    exact reachable.ramSize_le
  refine ⟨machine.restore origin.saved, loadState_eq_restore size, Cpu.due_eq_nmi_iff _,
    Cpu.due_eq_irq_iff _, ?_, fun source due => ?_⟩
  · rw [due_restore]
    constructor
    -- Line and mask are the same on both sides, so the latch is all that is left to tell apart.
    · intro same
      have asked := Cpu.due_eq_nmi_iff { origin.cpu with nmiPending := machine.cpu.nmiPending }
      rw [same] at asked
      exact Bool.eq_iff_iff.mpr (asked.symm.trans origin.cpu.due_eq_nmi_iff)
    · intro same
      rw [same]
  · obtain ⟨board, entered⟩ := step_enters room due
    exact ⟨_, entered, rfl⟩

theorem nmi_keeps_setup (machine : Machine) :
    machine.nmi.ramSize = machine.ramSize ∧ machine.nmi.config = machine.config ∧
      machine.nmi.board.roms = machine.board.roms ∧ machine.nmi.cpu.due = some .nmi :=
  ⟨rfl, rfl, rfl, (Cpu.due_eq_nmi_iff _).mpr rfl⟩

theorem not_due_blank : blank.cpu.due ≠ some .nmi := by
  rw [blank_eq]
  decide

/-- The machine that saves has latched an interrupt, the one that loads has not. -/
theorem due_after_load_lost :
    blank.Reachable ∧ blank.ramSize = blank.nmi.ramSize ∧ blank.nmi.cpu.due = some .nmi ∧
    ∃ loaded, blank.loadState blank.nmi.saveState = .ok loaded ∧ loaded.cpu.due ≠ some .nmi := by
  obtain ⟨size, -, -, due⟩ := nmi_keeps_setup blank
  obtain ⟨loaded, accepted, nmi, -⟩ := due_after_load reachable_blank size.symm
  refine ⟨reachable_blank, size.symm, due, loaded, accepted, ?_⟩
  intro kept
  exact not_due_blank ((Cpu.due_eq_nmi_iff _).mpr (nmi.mp kept))

/-- A load does not carry over which interrupt is due: one that the machine has latched before is not
dropped. -/
theorem due_not_carried :
    ¬∀ machine origin loaded : Machine, machine.Reachable → origin.Reachable →
      machine.config = origin.config → machine.board.roms = origin.board.roms →
      machine.loadState origin.saveState = .ok loaded →
      (loaded.cpu.due = some .nmi ↔ origin.cpu.due = some .nmi) ∧
        (loaded.cpu.due = some .irq ↔ origin.cpu.due = some .irq) := by
  intro carried
  obtain ⟨size, config, roms, due⟩ := nmi_keeps_setup blank
  have reachable : blank.nmi.Reachable := .run .nmi reachable_blank rfl
  have accepted : blank.nmi.loadState blank.saveState = .ok (blank.nmi.restore blank.saved) :=
    loadState_eq_restore size
  have dueLoaded : (blank.nmi.restore blank.saved).cpu.due = some .nmi := (Cpu.due_eq_nmi_iff _).mpr rfl
  obtain ⟨nmi, -⟩ := carried _ _ _ reachable reachable_blank config roms accepted
  exact not_due_blank (nmi.mp dueLoaded)

end AppleOne.Machine
