import AppleOne.Proofs.Cpu.Frame
import AppleOne.Proofs.Machine.Command
import AppleOne.Proofs.Machine.SavedState

/-!
What holds of every machine that a host can reach (`Reachable.sound`), and that every command keeps it.
-/

namespace AppleOne

/-! ### The processor -/

namespace Cpu

/-- What no step takes away: bit 5 of the status, and the position of the decimal switch. -/
def Kept (before after : Cpu) : Prop :=
  (before.status.bit5 = true → after.status.bit5 = true) ∧
    after.decimalEnabled = before.decimalEnabled

theorem Frame.kept {cpu after : Cpu} {answer : Nat → UInt8} {instruction : Instruction}
    (h : cpu.Frame answer instruction after) : cpu.Kept after := by
  refine ⟨fun on => ?_, h.decimalEnabled⟩
  cases pulls : instruction.operation.pullsStatus with
  | true => exact congrArg Status.bit5 (Status.eq_pulled (h.pulled pulls))
  | false =>
      have unlisted : .bit5 ∉ instruction.operation.flags := by
        revert pulls
        cases instruction.operation <;> decide
      exact (h.flags .bit5 unlisted).trans on

theorem replay_step_kept (cpu : Cpu) (answer : Nat → UInt8) :
    cpu.Kept (cpu.step.replay answer 0).1.2 := by
  cases due : cpu.due with
  | some source =>
      rw [replay_step_interrupt cpu answer due]
      exact ⟨id, rfl⟩
  | none =>
      cases decoded : decode (answer 0) with
      | none =>
          rw [replay_step_undefined cpu answer due decoded]
          exact ⟨id, rfl⟩
      | some instruction =>
          rw [replay_step_instruction cpu answer due decoded]
          exact ((replay_act_frame cpu answer decoded).count _).kept

theorem replay_reset_kept (cpu : Cpu) (answer : Nat → UInt8) :
    cpu.Kept ((Prod.mk () <$> cpu.reset).replay answer 0).1.2 :=
  ⟨fun _ => rfl, rfl⟩

end Cpu

/-! ### The board -/

namespace Pia

theorem toNat_sevenBits (code : UInt8) : (sevenBits code).toNat = code.toNat % 128 := by
  rw [sevenBits, UInt8.toNat_and]
  exact Nat.and_two_pow_sub_one_eq_mod code.toNat 7

theorem sevenBits_lt (code : UInt8) : sevenBits code < 0x80 := by
  rw [UInt8.lt_iff_toNat_lt, toNat_sevenBits]
  exact Nat.mod_lt _ (by decide)

theorem sevenBits_of_lt {code : UInt8} (h : code < 0x80) : sevenBits code = code := by
  rw [← UInt8.toNat_inj, toNat_sevenBits]
  exact Nat.mod_eq_of_lt h

theorem ne_zero_of_topBit (code : UInt8) : code ||| 0x80 ≠ 0 := by
  intro zero
  have top : (0x80 : UInt8) ≤ code ||| 0x80 := UInt8.right_le_or
  rw [zero] at top
  exact absurd top (by decide)

/-- A key that is read has its top bit on, so it is no zero. -/
theorem delivered (code : UInt8) (seven : code < 0x80) :
    code ||| 0x80 ≠ 0 ∧ (code ||| 0x80) &&& 0x7F = code := by
  refine ⟨ne_zero_of_topBit code, ?_⟩
  rw [and_or_distrib]
  exact UInt8.or_zero.trans (sevenBits_of_lt seven)

theorem read_latch (pia : Pia) (now : Duration) (address : UInt16) :
    (pia.read now address).2.1 = pia ∨ (pia.read now address).2.1 = { pia with key := none } := by
  rw [read]
  split
  · split
    · exact .inr rfl
    · exact .inl rfl
  · split
    · exact .inl rfl
    · split <;> exact .inl rfl

theorem write?_key {pia : Pia} {now : Duration} {address : UInt16} {value : UInt8}
    {written : Written} (h : pia.write? now address value = some written) :
    written.pia.key = pia.key := by
  rw [write?] at h
  split at h
  · split at h <;> cases h
    rfl
  · cases h
    rfl

end Pia

namespace Board

/-- The key latch holds seven bits, and there is as much RAM as there was. -/
structure Sound (ramSize : Nat) (board : Board) : Prop where
  key : ∀ code, board.pia.key = some code → code < 0x80
  ramSize : board.ram.size = ramSize

variable {ramSize : Nat}

theorem keeps_read (address : UInt16) : Keeps (Sound ramSize) (read address) := by
  rintro ⟨ram, roms, pia, terminal, time, journal⟩ sound
  rw [read]
  split
  · exact sound
  · split
    · refine ⟨fun code held => ?_, sound.ramSize⟩
      change (pia.read time address).2.1.key = some code at held
      rcases pia.read_latch time address with same | taken
      · rw [same] at held
        exact sound.key code held
      · rw [taken] at held
        cases held
    · exact sound

theorem keeps_write (address : UInt16) (value : UInt8) :
    Keeps (Sound ramSize) (write address value) := by
  rintro ⟨ram, roms, pia, terminal, time, journal⟩ sound
  dsimp only [write]
  by_cases inside : address.toNat < ram.size
  · rw [dif_pos inside]
    exact ⟨sound.key, (Array.size_set inside).trans sound.ramSize⟩
  · rw [dif_neg inside]
    split
    · cases done : pia.write? time address value with
      | some written =>
          exact ⟨fun code held => sound.key code (Pia.write?_key done ▸ held), sound.ramSize⟩
      | none => exact sound
    · exact ⟨sound.key, sound.ramSize⟩

theorem keeps_note (diagnostic : Log.Diagnostic) : Keeps (Sound ramSize) (note diagnostic) :=
  fun _ sound => ⟨sound.key, sound.ramSize⟩

theorem keeps_perform {α : Type} (t : Transaction α) :
    Keeps (Sound ramSize) (t.perform : EStateM Fault Board α) :=
  .perform keeps_read keeps_write keeps_note t

theorem press_sound {board : Board} (sound : board.Sound ramSize) (code : UInt8) :
    (board.press code).Sound ramSize where
  key held latched := by
    cases latched
    exact Pia.sevenBits_lt code
  ramSize := sound.ramSize

end Board

/-! ### The machine -/

theorem Lockstep.repeatWithin {ε σ : Type} {R : σ → σ → Prop} {step : EStateM ε σ Nat}
    (h : Lockstep R step) (fuel budget executed : Nat) :
    Lockstep R (Machine.repeatWithin step fuel budget executed) := by
  induction fuel generalizing executed with
  | zero => exact .pure executed
  | succ fuel ih =>
      rw [Machine.repeatWithin]
      split
      · exact h.bind fun cycles => ih _
      · exact .pure executed

theorem Simulates.repeatWithin {ε σ τ : Type} {R : σ → τ → Prop} {x : EStateM ε σ Nat}
    {y : EStateM ε τ Nat} (h : Simulates R x y) (fuel budget executed : Nat) :
    Simulates R (Machine.repeatWithin x fuel budget executed)
      (Machine.repeatWithin y fuel budget executed) := by
  induction fuel generalizing executed with
  | zero => exact .pure executed
  | succ fuel ih =>
      rw [Machine.repeatWithin, Machine.repeatWithin]
      split
      · exact h.bind fun cycles => ih _
      · exact .pure executed

namespace Machine

/-- What holds of every machine that a host can reach. -/
structure Sound (machine : Machine) : Prop where
  bit5 : machine.cpu.status.bit5 = true
  decimal : machine.cpu.decimalEnabled = machine.config.decimalMode
  board : machine.board.Sound machine.config.ramSize.toNat

theorem keeps_perform {α : Type} {act : Cpu → Transaction (α × Cpu)}
    (kept : ∀ (cpu : Cpu) (answer : Nat → UInt8), cpu.Kept ((act cpu).replay answer 0).1.2) :
    Keeps Sound (perform act) := by
  rintro ⟨cpu, config, board⟩ sound
  have boards := Board.keeps_perform (act cpu) board sound.board
  rw [perform]
  cases outcome : ((act cpu).perform : EStateM Fault Board (α × Cpu)) board with
  | ok result after =>
      obtain ⟨answer, replayed⟩ := Transaction.exists_replay_of_perform outcome
      obtain ⟨bit5, decimal⟩ := kept cpu answer
      rw [replayed] at bit5 decimal
      rw [outcome] at boards
      exact ⟨bit5 sound.bit5, decimal.trans sound.decimal, boards⟩
  | error fault after =>
      rw [outcome] at boards
      exact ⟨sound.bit5, sound.decimal, boards⟩

theorem keeps_step : Keeps Sound step := keeps_perform Cpu.replay_step_kept

theorem keeps_peek (address : UInt16) : Keeps Sound (peek address) := by
  rw [peek_eq]
  exact keeps_perform fun _ _ => ⟨id, rfl⟩

theorem keeps_poke (address : UInt16) (value : UInt8) : Keeps Sound (poke address value) := by
  rw [poke_eq]
  exact keeps_perform fun _ _ => ⟨id, rfl⟩

theorem reset_sound {machine : Machine} (sound : machine.Sound) : machine.reset.Sound := by
  rw [reset_eq]
  exact keeps_perform Cpu.replay_reset_kept machine sound

theorem keeps_runCycles (budget : UInt32) : Keeps Sound (runCycles budget) :=
  keeps_iff_lockstep.mpr ((keeps_iff_lockstep.mp keeps_step).repeatWithin _ _ _)

theorem keeps_advance (span : Duration) : Keeps Sound (advance span) := by
  intro machine sound
  rw [advance]
  split
  · exact ⟨sound.bit5, sound.decimal, sound.board.key, sound.board.ramSize⟩
  · exact sound

/-- A machine that is switched on and not reset yet. -/
def switchedOn (config : Config) (roms : Roms) (terminal : Terminal) (journal : Log.Journal) :
    Machine where
  cpu := Cpu.initial.setDecimal config.decimalMode
  config := config
  board := {
    ram := .replicate config.ramSize.toNat 0
    roms := roms
    pia := .initial
    terminal := terminal
    time := .zero
    journal := journal }

theorem build_eq_ok_iff {config : Config} {roms : Roms} {terminal : Terminal} {journal : Log.Journal}
    {machine : Machine} :
    build config roms terminal journal = .ok machine ↔
      config.cyclesPerTick ≠ 0 ∧ config.cyclesPerTick ≤ maxTickBudget ∧
        config.ramSize.toNat ≤ Board.maxRam ∧
        machine = (switchedOn config roms terminal journal).reset := by
  rw [build]
  by_cases zero : config.cyclesPerTick = 0
  · rw [if_pos zero]
    exact ⟨nofun, fun ⟨nonzero, _⟩ => absurd zero nonzero⟩
  rw [if_neg zero]
  by_cases much : maxTickBudget < config.cyclesPerTick
  · rw [if_pos much]
    exact ⟨nofun, fun ⟨_, most, _⟩ => absurd most (UInt32.not_le.mpr much)⟩
  rw [if_neg much]
  by_cases large : Board.maxRam < config.ramSize.toNat
  · rw [if_pos large]
    exact ⟨nofun, fun ⟨_, _, room, _⟩ => absurd room (Nat.not_le.mpr large)⟩
  rw [if_neg large]
  constructor
  · rintro ⟨⟩
    exact ⟨zero, UInt32.not_lt.mp much, Nat.le_of_not_lt large, rfl⟩
  · rintro ⟨-, -, -, rfl⟩
    rfl

theorem build_sound {config : Config} {roms : Roms} {terminal : Terminal} {journal : Log.Journal}
    {machine : Machine} (h : build config roms terminal journal = .ok machine) : machine.Sound := by
  obtain ⟨-, -, -, rfl⟩ := build_eq_ok_iff.mp h
  refine reset_sound ⟨rfl, rfl, ?_, Array.size_replicate⟩
  rintro code ⟨⟩

theorem loadImage_eq_ok {machine after : Machine} {address : UInt16} {image : Array UInt8}
    (h : machine.loadImage address image = .ok after) :
    address.toNat + image.size ≤ machine.board.ram.size ∧
      after = { machine with board := { machine.board with
        ram := overlay machine.board.ram image address.toNat
        journal := machine.board.journal.note (.imageLoaded image.size address) } } := by
  rw [loadImage] at h
  split at h
  · cases h
  · by_cases large : machine.ramSize < address.toNat + image.size
    · rw [if_pos large] at h
      cases h
    · rw [if_neg large] at h
      cases h
      exact ⟨Nat.le_of_not_lt large, rfl⟩

theorem loadImage_sound {machine after : Machine} {address : UInt16} {image : Array UInt8}
    (sound : machine.Sound) (h : machine.loadImage address image = .ok after) : after.Sound := by
  obtain ⟨fits, rfl⟩ := loadImage_eq_ok h
  exact ⟨sound.bit5, sound.decimal, sound.board.key, (size_overlay fits).trans sound.board.ramSize⟩

theorem loadState_sound {machine after : Machine} {state : Json} (sound : machine.Sound)
    (h : machine.loadState state = .ok after) : after.Sound := by
  obtain ⟨saved, read, ⟨⟩⟩ := bind_eq_ok.mp h
  obtain ⟨-, size⟩ := SavedState.ofJson_eq_ok_iff.mp read
  refine ⟨rfl, sound.decimal, ?_, size.trans sound.board.ramSize⟩
  intro code held
  obtain ⟨raw, -, rfl⟩ := Option.map_eq_some_iff.mp held
  exact Pia.sevenBits_lt raw

theorem keeps_change {reply : Reply} {f : Machine → Machine}
    (h : ∀ machine, machine.Sound → (f machine).Sound) : Keeps Sound (change reply f) := h

theorem keeps_request {f : Machine → Except Error Machine}
    (h : ∀ machine after, machine.Sound → f machine = .ok after → after.Sound) :
    Keeps Sound (request f) := by
  intro machine sound
  rw [request]
  split
  · exact h _ _ sound ‹_›
  · exact sound

theorem handleKey_sound {machine : Machine} (sound : machine.Sound) (key : HostKey) :
    (machine.handleKey key).Sound := by
  simp only [handleKey, act]
  split
  · split
    · exact ⟨sound.bit5, sound.decimal, Board.press_sound sound.board _⟩
    · exact reset_sound sound
  · exact sound

theorem Command.keeps (command : Command) : Keeps Sound command.run := by
  cases command with
  | step => exact keeps_step.map _
  | tick => exact Keeps.map _ fun machine => keeps_runCycles _ machine
  | runCycles budget => exact (keeps_runCycles budget).map _
  | reset => exact keeps_change fun _ => reset_sound
  | press code =>
      exact keeps_change fun _ sound => ⟨sound.bit5, sound.decimal, Board.press_sound sound.board code⟩
  | handleKey key => exact keeps_change fun _ sound => handleKey_sound sound key
  | setIrq level => exact keeps_change fun _ sound => ⟨sound.bit5, sound.decimal, sound.board⟩
  | nmi => exact keeps_change fun _ sound => ⟨sound.bit5, sound.decimal, sound.board⟩
  | peek address => exact (keeps_peek address).map _
  | poke address value => exact (keeps_poke address value).map _
  | loadImage address image => exact keeps_request fun _ _ => loadImage_sound
  | saveRegion start last => exact fun _ sound => sound
  | advance span => exact (keeps_advance span).map _
  | setTime time =>
      exact keeps_change fun _ sound =>
        ⟨sound.bit5, sound.decimal, sound.board.key, sound.board.ramSize⟩
  | setRegisters registers => exact keeps_change fun _ sound => ⟨rfl, sound.decimal, sound.board⟩
  | saveState => exact fun _ sound => sound
  | loadState state => exact keeps_request fun _ _ => loadState_sound

theorem Reachable.sound {machine : Machine} (h : machine.Reachable) : machine.Sound := by
  induction h with
  | build built => exact build_sound built
  | run command _ done ih =>
      have kept := command.keeps _ ih
      rw [done] at kept
      exact kept

end Machine

end AppleOne
