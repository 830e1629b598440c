import AppleOne.Proofs.Machine.Handlers
import AppleOne.Proofs.Machine.Twins

/-!
Save states carry a machine over. What a reachable machine saves can be loaded into every machine with
as much RAM, which then saves the same; and it goes on like the first one if what is not saved agrees.
-/

namespace AppleOne.Machine

/-- What a save state takes for granted. -/
structure SameSetup (machine origin : Machine) : Prop where
  config : machine.config = origin.config
  roms : machine.board.roms = origin.board.roms
  nmiPending : machine.cpu.nmiPending = origin.cpu.nmiPending
  readyAt : machine.board.pia.readyAt = origin.board.pia.readyAt
  time : machine.board.time = origin.board.time

variable {machine origin : Machine}

/-- The loader puts bit 5 on and cuts the key to seven bits, which is so already. -/
theorem saved_restore (machine : Machine) (sound : origin.Sound) :
    (machine.restore origin.saved).saved = origin.saved := by
  have registers : ({ origin.cpu.registers with
      status := { origin.cpu.registers.status with bit5 := true } } : Registers) =
        origin.cpu.registers := by
    rw [← show origin.cpu.registers.status.bit5 = true from sound.bit5]
  have key : origin.board.pia.key.map Pia.sevenBits = origin.board.pia.key := by
    cases held : origin.board.pia.key with
    | none => rfl
    | some code => exact congrArg some (Pia.sevenBits_of_lt (sound.board.key code held))
  dsimp only [saved, restore, Cpu.setRegisters, Pia.restore]
  rw [key]
  exact congrArg (SavedState.mk _ _ · _ _) registers

theorem twins_restore (sound : origin.Sound) (setup : machine.SameSetup origin)
    (decimal : machine.cpu.decimalEnabled = origin.cpu.decimalEnabled) :
    Twins (machine.restore origin.saved).board.terminal origin.board.terminal
      (machine.restore origin.saved) origin := by
  obtain ⟨cycles, irqLine, registers, ram, key⟩ := SavedState.mk.inj (saved_restore machine sound)
  refine ⟨?_, setup.config, ram, setup.roms, ?_, setup.time, [], rfl, rfl⟩
  · exact (Cpu.mk.injEq ..).mpr ⟨registers, cycles, irqLine, setup.nmiPending, decimal⟩
  · exact (Pia.mk.injEq ..).mpr ⟨key, setup.readyAt⟩

/-- A machine with as much RAM takes over what a reachable machine has saved. With the same setup the
two cannot be told apart from then on. -/
theorem loadState_saveState (machine : Machine) (reachable : origin.Reachable)
    (size : machine.ramSize = origin.ramSize) :
    ∃ loaded, machine.loadState origin.saveState = .ok loaded ∧
      loaded.cpu.registers = origin.cpu.registers ∧ loaded.cpu.cycles = origin.cpu.cycles ∧
      loaded.cpu.irqLine = origin.cpu.irqLine ∧ loaded.board.ram = origin.board.ram ∧
      loaded.board.pia.key = origin.board.pia.key ∧ loaded.saveState = origin.saveState ∧
      (machine.SameSetup origin →
        machine.Reachable ∨ machine.cpu.decimalEnabled = origin.cpu.decimalEnabled →
        ∀ commands, Alike (Twins loaded.board.terminal origin.board.terminal)
          (session commands loaded) (session commands origin)) := by
  have sound := reachable.sound
  have same := saved_restore machine sound
  obtain ⟨cycles, irqLine, registers, ram, key⟩ := SavedState.mk.inj same
  have read : machine.loadState origin.saveState = .ok (machine.restore origin.saved) := by
    rw [loadState, size, ofJson_saveState]
    rfl
  refine ⟨machine.restore origin.saved, read, registers, cycles, irqLine, ram, key,
    saveState_congr same, ?_⟩
  intro setup decimal commands
  -- A machine that was built has its decimal switch as its configuration says.
  have decimal : machine.cpu.decimalEnabled = origin.cpu.decimalEnabled := by
    rcases decimal with reachable | decimal
    · rw [reachable.sound.decimal, setup.config, sound.decimal]
    · exact decimal
  exact lockstep_session commands _ _ (twins_restore sound setup decimal)

/-- The standard machine without programs. -/
def blank : Machine :=
  reset {
    cpu := Cpu.initial.setDecimal true
    config := .standard
    board := {
      ram := .replicate 16384 0
      roms := .blank
      pia := .initial
      terminal := .recorder
      time := .zero
      journal := .initial } }

theorem blank_eq : blank = {
    cpu := (Cpu.initial.setDecimal true).restarted 0xFF00
    config := .standard
    board := {
      ram := .replicate 16384 0
      roms := .blank
      pia := .initial
      terminal := .recorder
      time := .zero
      journal := Log.Journal.initial.note (.reset 0xFF00) } } := by
  have room : (Array.replicate 16384 (0 : UInt8)).size ≤ Board.maxRam := by
    rw [Array.size_replicate]
    decide
  exact reset_eq_restarted room

theorem reachable_blank : blank.Reachable := by
  have built : build .standard .blank .recorder .initial = .ok blank := rfl
  exact .build built

theorem press_keeps_setup (machine : Machine) (code : UInt8) :
    machine.ramSize = (machine.press code).ramSize ∧ machine.SameSetup (machine.press code) :=
  ⟨rfl, rfl, rfl, rfl, rfl, rfl⟩

/-- A key code with its top bit on waits in the machine that saves; the other one has no key. -/
theorem loadState_saveState_pressed :
    (blank.press 0xC1).Reachable ∧ blank.ramSize = (blank.press 0xC1).ramSize ∧
      ∃ loaded, blank.loadState (blank.press 0xC1).saveState = .ok loaded ∧
        loaded.board.pia.key = (blank.press 0xC1).board.pia.key ∧
        loaded.saveState = (blank.press 0xC1).saveState ∧
        ∀ commands, Alike (Twins loaded.board.terminal (blank.press 0xC1).board.terminal)
          (session commands loaded) (session commands (blank.press 0xC1)) := by
  have reachable : (blank.press 0xC1).Reachable := .run (.press 0xC1) reachable_blank rfl
  obtain ⟨size, setup⟩ := press_keeps_setup blank 0xC1
  obtain ⟨loaded, read, -, -, -, -, key, saves, goesOn⟩ := loadState_saveState blank reachable size
  exact ⟨reachable, size, loaded, read, key, saves, goesOn setup (.inl reachable_blank)⟩

end AppleOne.Machine
