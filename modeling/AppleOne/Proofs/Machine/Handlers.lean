import AppleOne.Proofs.Board.Decoding
import AppleOne.Proofs.Cpu.Arithmetic
import AppleOne.Proofs.Cpu.Execution
import AppleOne.Proofs.Machine.Command

/-!
Where the machine goes on after a reset, an interrupt or a break. The stack lies below the interface
adapter and the vectors above it, so none of these can fail, and the images decide the place.
-/

namespace AppleOne

namespace Cpu

/-- Three pushes, and a result that depends on the word at a vector. -/
def entry {α : Type} (sp first second third : UInt8) (vector : UInt16)
    (report : UInt16 → Log.Diagnostic) (result : UInt16 → α) : Transaction α :=
  .write (stackAddress sp) first <|
  .write (stackAddress (sp - 1)) second <|
  .write (stackAddress (sp - 1 - 1)) third <|
  .read vector fun low => .read (vector + 1) fun high =>
  .note (report (wordOf low high)) (.done (result (wordOf low high)))

/-- The processor at the start of a handler, seven cycles later. -/
def handling (cpu : Cpu) (handler : UInt16) : Cpu :=
  { cpu with
    pc := handler
    sp := cpu.sp - 1 - 1 - 1
    status := { cpu.status with interruptsOff := true }
    cycles := cpu.cycles + UInt64.ofNat interruptCycles }

theorem step_of_due {cpu : Cpu} {source : Interrupt} (h : cpu.due = some source) :
    cpu.step = entry cpu.sp (cpu.pc >>> 8).toUInt8 cpu.pc.toUInt8 (cpu.status.pushed false).toByte
      source.vector (.interrupted source cpu.pc) fun handler =>
        (interruptCycles, { cpu with nmiPending := false }.handling handler) := by
  rw [due] at h
  by_cases nmi : cpu.nmiPending
  · rw [if_pos nmi] at h
    cases h
    rw [step, advance, if_pos nmi]
    rfl
  · rw [if_neg nmi] at h
    by_cases irq : cpu.irqLine && !cpu.status.interruptsOff
    · rw [if_pos irq] at h
      cases h
      have idle : { cpu with nmiPending := false } = cpu := by
        rw [← Bool.eq_false_iff.mpr nmi]
      rw [step, advance, if_neg nmi, if_pos irq, idle]
      rfl
    · rw [if_neg irq] at h
      cases h

/-- A break instruction shares the handler of the request line. -/
theorem step_of_break {cpu : Cpu} (h : cpu.due = none) :
    ∃ next, cpu.step = .read cpu.pc next ∧
      next 0 = entry cpu.sp ((cpu.pc + 1 + 1) >>> 8).toUInt8 (cpu.pc + 1 + 1).toUInt8
        (cpu.status.pushed true).toByte Interrupt.irq.vector (.broke (cpu.pc + 1 - 1)) fun handler =>
          (interruptCycles, cpu.handling handler) := by
  have decoded : decode 0 = some ⟨.brk, .implied, 7⟩ := (decode_eq_lookup _).trans rfl
  rw [step, advance_of_due_none cpu h]
  refine ⟨_, rfl, ?_⟩
  simp only [Transaction.bind, Transaction.pure_eq, decoded]
  rfl

/-- The processor after a reset. -/
def restarted (cpu : Cpu) (start : UInt16) : Cpu :=
  { cpu with
    toRegisters := { Registers.initial with pc := start }
    cycles := 0
    nmiPending := false }

theorem reset_transaction (cpu : Cpu) :
    Prod.mk () <$> cpu.reset =
      .read resetVector fun low => .read (resetVector + 1) fun high =>
        .note (.reset (wordOf low high)) (.done ((), cpu.restarted (wordOf low high))) := rfl

end Cpu

namespace Roms

variable (roms : Roms)

/-- The word that a vector holds. -/
def word (vector : UInt16) : UInt16 := wordOf (roms.read vector) (roms.read (vector + 1))

/-- The reset vector is fixed. -/
theorem word_reset : roms.word resetVector = 0xFF00 := by
  have low : roms.read resetVector = 0 := rfl
  have high : roms.read (resetVector + 1) = 0xFF := rfl
  rw [word, low, high]
  decide

/-- Nothing answers at the vector of the request line. -/
theorem word_irq : roms.word Interrupt.irq.vector = 0 := by
  have low : roms.read Interrupt.irq.vector = 0 := rfl
  have high : roms.read (Interrupt.irq.vector + 1) = 0 := rfl
  rw [word, low, high]
  decide

theorem word_nmi : roms.word Interrupt.nmi.vector = wordOf roms.monitor[0xFA] roms.monitor[0xFB] := rfl

end Roms

namespace Board

variable {α : Type} {board : Board}

theorem write_stack (board : Board) (sp value : UInt8) :
    ∃ after, board.write (Cpu.stackAddress sp) value = .ok () after ∧ after.roms = board.roms ∧
      after.ram.size = board.ram.size := by
  by_cases inside : (Cpu.stackAddress sp).toNat < board.ram.size
  · rw [write_ram inside]
    exact ⟨_, rfl, rfl, Array.size_set inside⟩
  · rw [write_elsewhere (Nat.le_of_not_lt inside) (Cpu.stackAddress_ne (.inr (by decide)) sp)]
    exact ⟨_, rfl, rfl, rfl⟩

theorem read_rom (room : board.ram.size ≤ maxRam) {address : UInt16} (high : 0xD013 < address.toNat) :
    board.read address = .ok (board.roms.read address) board := by
  have uncovered : ¬Pia.covers address := by
    rw [Pia.covers_iff]
    omega
  have notKey : address ≠ Pia.keyboardData := fun same => uncovered (same ▸ rfl)
  unfold maxRam at room
  rw [read_eq room, shows_rom (by omega) uncovered, if_neg notKey]

theorem perform_entry (room : board.ram.size ≤ maxRam) (source : Interrupt)
    (sp first second third : UInt8) (report : UInt16 → Log.Diagnostic) (result : UInt16 → α) :
    ∃ after, ((Cpu.entry sp first second third source.vector report result).perform :
        EStateM Fault Board α) board = .ok (result (board.roms.word source.vector)) after := by
  obtain ⟨board₁, pushed₁, roms₁, size₁⟩ := write_stack board sp first
  obtain ⟨board₂, pushed₂, roms₂, size₂⟩ := write_stack board₁ (sp - 1) second
  obtain ⟨board₃, pushed₃, roms₃, size₃⟩ := write_stack board₂ (sp - 1 - 1) third
  have room₃ : board₃.ram.size ≤ maxRam := by rw [size₃, size₂, size₁]; exact room
  have roms : board₃.roms = board.roms := by rw [roms₃, roms₂, roms₁]
  -- Wherever the pushes went, the vectors are past RAM and adapter, and still the same.
  have low : 0xD013 < source.vector.toNat := by cases source <;> decide
  have high : 0xD013 < (source.vector + 1).toNat := by cases source <;> decide
  rw [Cpu.entry, perform_write pushed₁, perform_write pushed₂, perform_write pushed₃,
    perform_read (read_rom room₃ low), perform_read (read_rom room₃ high), roms]
  exact ⟨_, rfl⟩

end Board

namespace Machine

variable {machine : Machine}

/-- An interrupt that is due is entered, through its vector. -/
theorem step_enters (room : machine.board.ram.size ≤ Board.maxRam) {source : Interrupt}
    (due : machine.cpu.due = some source) :
    ∃ board, step machine = .ok Cpu.interruptCycles ⟨{ machine.cpu with nmiPending := false }.handling
      (machine.board.roms.word source.vector), machine.config, board⟩ := by
  obtain ⟨after, done⟩ := Board.perform_entry room source machine.cpu.sp (machine.cpu.pc >>> 8).toUInt8
    machine.cpu.pc.toUInt8 (machine.cpu.status.pushed false).toByte (.interrupted source machine.cpu.pc)
    fun handler => (Cpu.interruptCycles, { machine.cpu with nmiPending := false }.handling handler)
  rw [← Cpu.step_of_due due] at done
  obtain ⟨cpu, config, board⟩ := machine
  rw [step, perform, done]
  exact ⟨after, rfl⟩

/-- If no interrupt is due, a zero byte at the program counter breaks. -/
theorem step_breaks (room : machine.board.ram.size ≤ Board.maxRam) (due : machine.cpu.due = none)
    {between : Board} (read : machine.board.read machine.cpu.pc = .ok 0 between) :
    ∃ board, step machine = .ok Cpu.interruptCycles ⟨machine.cpu.handling
      (machine.board.roms.word Interrupt.irq.vector), machine.config, board⟩ := by
  obtain ⟨next, step_eq, broken⟩ := Cpu.step_of_break due
  -- The read may change the board, but not what an entry depends on.
  obtain ⟨ram, roms⟩ := Board.of_read_ok read
  have roomBetween : between.ram.size ≤ Board.maxRam := ram ▸ room
  obtain ⟨after, done⟩ := Board.perform_entry roomBetween .irq machine.cpu.sp
    ((machine.cpu.pc + 1 + 1) >>> 8).toUInt8 (machine.cpu.pc + 1 + 1).toUInt8
    (machine.cpu.status.pushed true).toByte (.broke (machine.cpu.pc + 1 - 1))
    fun handler => (Cpu.interruptCycles, machine.cpu.handling handler)
  rw [← broken, roms, ← Board.perform_read read next, ← step_eq] at done
  obtain ⟨cpu, config, board⟩ := machine
  rw [step, perform, done]
  exact ⟨after, rfl⟩

/-- The reset button only reads, which never fails. -/
theorem perform_reset :
    perform (fun cpu => Prod.mk () <$> cpu.reset) = fun machine => .ok () machine.reset := by
  funext machine
  have done : ∃ after, perform (fun cpu => Prod.mk () <$> cpu.reset) machine = .ok () after := by
    obtain ⟨cpu, config, board⟩ := machine
    obtain ⟨low, between, first, -⟩ := board.exists_read resetVector
    obtain ⟨high, after, second, -⟩ := between.exists_read (resetVector + 1)
    rw [perform, cpu.reset_transaction, Board.perform_read first, Board.perform_read second]
    exact ⟨_, rfl⟩
  obtain ⟨after, done⟩ := done
  rw [reset_eq, done]
  rfl

/-- A reset restarts the processor at the start of the monitor, and nothing else happens. -/
theorem reset_eq_restarted (room : machine.board.ram.size ≤ Board.maxRam) :
    machine.reset = { machine with
      cpu := machine.cpu.restarted 0xFF00
      board := { machine.board with journal := machine.board.journal.note (.reset 0xFF00) } } := by
  have low : 0xD013 < resetVector.toNat := by decide
  have high : 0xD013 < (resetVector + 1).toNat := by decide
  obtain ⟨cpu, config, board⟩ := machine
  have start := board.roms.word_reset
  rw [Roms.word] at start
  rw [reset_eq, perform, cpu.reset_transaction, Board.perform_read (Board.read_rom room low),
    Board.perform_read (Board.read_rom room high)]
  dsimp only
  rw [start]
  rfl

end Machine

end AppleOne
