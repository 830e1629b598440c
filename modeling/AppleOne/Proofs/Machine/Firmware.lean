import AppleOne.Proofs.Machine.Handlers

/-!
Programs in the read-only memories: what single instructions of theirs do, and how steps add up to
runs.
-/

namespace AppleOne

/-- Bytes that stand above the interface adapter, from an address on. -/
def Roms.Holds (roms : Roms) (address : UInt16) : List UInt8 → Prop
  | [] => True
  | byte :: rest => 0xD013 < address.toNat ∧ roms.read address = byte ∧ roms.Holds (address + 1) rest

theorem Roms.Holds.drop {roms : Roms} {address : UInt16} {bytes : List UInt8}
    (holds : roms.Holds address bytes) (n : Nat) :
    roms.Holds (address + UInt16.ofNat n) (bytes.drop n) := by
  induction n generalizing address bytes with
  | zero => simpa using holds
  | succ n ih =>
      cases bytes with
      | nil => trivial
      | cons byte rest =>
          have place : address + UInt16.ofNat (n + 1) = address + 1 + UInt16.ofNat n := by
            rw [UInt16.ofNat_add, UInt16.add_comm (UInt16.ofNat n), ← UInt16.add_assoc]
            rfl
          rw [place]
          exact ih holds.2.2

/-- The monitor's image stands at the end of the address space. -/
theorem Roms.holds_monitor {roms : Roms} {bytes : List UInt8} (start : Nat)
    (fits : start + bytes.length ≤ 0xFC) (begins : bytes <+: roms.monitor.toList.drop start) :
    roms.Holds (0xFF00 + UInt16.ofNat start) bytes := by
  induction bytes generalizing start with
  | nil => trivial
  | cons byte rest ih =>
      have fits : start + rest.length + 1 ≤ 0xFC := fits
      have inside : start < roms.monitor.toList.length := by
        rw [Vector.length_toList]
        omega
      rw [List.drop_eq_getElem_cons inside, List.cons_prefix_cons] at begins
      obtain ⟨same, begins⟩ := begins
      have place : (0xFF00 + UInt16.ofNat start).toNat = 0xFF00 + start := by
        rw [UInt16.toNat_add, UInt16.toNat_ofNat']
        change (0xFF00 + start % 65536) % 65536 = _
        omega
      refine ⟨by omega, ?_, ?_⟩
      · rw [Roms.read, dif_neg (by omega), dif_pos (by omega)]
        simp [place, same]
      · have next : 0xFF00 + UInt16.ofNat start + 1 = 0xFF00 + UInt16.ofNat (start + 1) := by
          rw [UInt16.ofNat_add, ← UInt16.add_assoc]
          rfl
        rw [next]
        exact ih (start + 1) (by omega) begins

namespace Cpu

/-! ### Instructions as transactions -/

variable (cpu : Cpu)

def counted (cycles : Nat) : Cpu :=
  { cpu with cycles := cpu.cycles + UInt64.ofNat cycles }

def jumped (target : UInt16) : Cpu := { cpu with pc := target }

/-- Reads an absolute address, and goes on with it. -/
def addressed {α : Type} (next : UInt16 → Transaction α) : Transaction α :=
  .read cpu.pc fun low => .read (cpu.pc + 1) fun high => next (wordOf low high)

theorem act_load (penalised : Bool) (apply : Cpu → UInt8 → Cpu) :
    cpu.act .absolute (.load penalised apply) = cpu.addressed fun address =>
      .read address fun value => .done (0, apply (cpu.jumped (cpu.pc + 1 + 1)) value) := by
  cases penalised <;> rfl

theorem act_store (value : Cpu → UInt8) :
    cpu.act .absolute (.store value) = cpu.addressed fun address =>
      .write address (value (cpu.jumped (cpu.pc + 1 + 1)))
        (.done (0, cpu.jumped (cpu.pc + 1 + 1))) := rfl

theorem act_jump :
    cpu.act .absolute .jump = cpu.addressed fun address => .done (0, cpu.jumped address) := rfl

/-- Where a branch goes, and what it costs on top. -/
def branched (taken : Status → Bool) (offset : UInt8) : Nat × UInt16 :=
  let target := cpu.pc + 1 + displacement offset
  if taken cpu.status then (if crossesPage target (cpu.pc + 1) then 2 else 1, target)
  else (0, cpu.pc + 1)

theorem act_branch (taken : Status → Bool) :
    cpu.act .relative (.branch taken) = .read cpu.pc fun offset =>
      .done ((cpu.branched taken offset).1, cpu.jumped (cpu.branched taken offset).2) := by
  rw [act]
  cases holds : taken cpu.status <;>
    simp [fetch, Transaction.byteAt, branched, jumped, holds]

variable {cpu}

theorem step_of_decode (due : cpu.due = none) {opcode : UInt8} {instruction : Instruction}
    (decoded : decode opcode = some instruction) :
    ∃ next, cpu.step = .read cpu.pc next ∧
      next opcode = (do
        let (penalty, cpu) ← (cpu.jumped (cpu.pc + 1)).act instruction.mode instruction.operation.action
        return (instruction.cycles + penalty, cpu.counted (instruction.cycles + penalty))) := by
  rw [step, advance_of_due_none cpu due]
  refine ⟨_, rfl, ?_⟩
  simp only [Transaction.bind, Transaction.pure_eq, decoded]
  exact Transaction.bind_bind _ _ _

theorem branched_of_not {taken : Status → Bool} (stays : taken cpu.status = false) (offset : UInt8) :
    cpu.branched taken offset = (0, cpu.pc + 1) := by
  simp [branched, stays]

theorem branched_of_taken {taken : Status → Bool} (goes : taken cpu.status = true) {offset : UInt8}
    {target : UInt16} (lands : cpu.pc + 1 + displacement offset = target)
    (near : crossesPage target (cpu.pc + 1) = false) : cpu.branched taken offset = (1, target) := by
  simp [branched, goes, lands, near]

end Cpu

theorem Board.perform_fetch {α : Type} {board : Board} (room : board.ram.size ≤ maxRam) {pc : UInt16}
    {byte : UInt8} {rest : List UInt8} (code : board.roms.Holds pc (byte :: rest))
    (next : UInt8 → Transaction α) :
    ((Transaction.read pc next).perform : EStateM Fault Board α) board =
      ((next byte).perform : EStateM Fault Board α) board := by
  obtain ⟨above, rfl, -⟩ := code
  exact perform_read (read_rom room above) next

namespace Machine

/-! ### Instructions on the machine -/

/-- About to run the instruction at an address, on that board, no interrupt being asked for. -/
structure At (config : Config) (board : Board) (pc : UInt16) (machine : Machine) : Prop where
  config : machine.config = config
  board : machine.board = board
  pc : machine.cpu.pc = pc
  nmiPending : machine.cpu.nmiPending = false
  irqLine : machine.cpu.irqLine = false

namespace At

variable {config : Config} {board later : Board} {pc : UInt16} {machine : Machine}
  {opcode low high value : UInt8} {rest : List UInt8} {operation : Operation} {cycles : Nat}
  {apply : Cpu → UInt8 → Cpu}

theorem due (here : At config board pc machine) : machine.cpu.due = none := by
  rw [Cpu.due, here.nmiPending, here.irqLine]
  rfl

/-- The opcode is fetched, and the rest of the step is what the instruction does. -/
theorem step_eq (here : At config board pc machine) (room : board.ram.size ≤ Board.maxRam)
    (code : board.roms.Holds pc (opcode :: rest)) {instruction : Instruction}
    (decoded : decode opcode = some instruction) {penalty : Nat} {cpu : Cpu}
    (acts : (((machine.cpu.jumped (pc + 1)).act instruction.mode instruction.operation.action).perform :
      EStateM Fault Board (Nat × Cpu)) board = .ok (penalty, cpu) later) :
    step machine = .ok (instruction.cycles + penalty)
      ⟨cpu.counted (instruction.cycles + penalty), config, later⟩ := by
  obtain ⟨next, step_eq, fetched⟩ := Cpu.step_of_decode here.due decoded
  obtain ⟨cpu, _, _⟩ := machine
  obtain ⟨rfl, rfl, rfl, -, -⟩ := here
  rw [step, perform, step_eq, Board.perform_fetch room code, fetched, Transaction.perform_bind]
  simp only [bind, EStateM.bind, acts]
  rfl

/-- The same with an absolute address, which is fetched too. -/
theorem step_addressed (here : At config board pc machine) (room : board.ram.size ≤ Board.maxRam)
    (code : board.roms.Holds pc (opcode :: low :: high :: rest))
    (decoded : decode opcode = some ⟨operation, .absolute, cycles⟩)
    {next : UInt16 → Transaction (Nat × Cpu)} {cpu : Cpu}
    (acts : (machine.cpu.jumped (pc + 1)).act .absolute operation.action =
      (machine.cpu.jumped (pc + 1)).addressed next)
    (done : ((next (wordOf low high)).perform : EStateM Fault Board (Nat × Cpu)) board =
      .ok (0, cpu) later) :
    step machine = .ok cycles ⟨cpu.counted cycles, config, later⟩ := by
  have performed : (((machine.cpu.jumped (pc + 1)).act .absolute operation.action).perform :
      EStateM Fault Board (Nat × Cpu)) board = .ok (0, cpu) later := by
    rw [acts]
    exact (Board.perform_fetch room code.2.2 _).trans <|
      (Board.perform_fetch room code.2.2.2.2 _).trans done
  exact here.step_eq room code decoded performed

theorem load (here : At config board pc machine) (room : board.ram.size ≤ Board.maxRam)
    (code : board.roms.Holds pc (opcode :: low :: high :: rest))
    (decoded : decode opcode = some ⟨operation, .absolute, cycles⟩) {penalised : Bool}
    (loads : operation.action = .load penalised apply)
    (read : board.read (wordOf low high) = .ok value later) :
    step machine = .ok cycles
      ⟨(apply (machine.cpu.jumped (pc + 1 + 1 + 1)) value).counted cycles, config, later⟩ := by
  have acts := (machine.cpu.jumped (pc + 1)).act_load penalised apply
  rw [← loads] at acts
  exact here.step_addressed room code decoded acts (Board.perform_read read _)

theorem store (here : At config board pc machine) (room : board.ram.size ≤ Board.maxRam)
    (code : board.roms.Holds pc (opcode :: low :: high :: rest))
    (decoded : decode opcode = some ⟨operation, .absolute, cycles⟩) {value : Cpu → UInt8}
    (stores : operation.action = .store value)
    (write : board.write (wordOf low high) (value (machine.cpu.jumped (pc + 1 + 1 + 1))) =
      .ok () later) :
    step machine = .ok cycles ⟨(machine.cpu.jumped (pc + 1 + 1 + 1)).counted cycles, config, later⟩ := by
  have acts := (machine.cpu.jumped (pc + 1)).act_store value
  rw [← stores] at acts
  exact here.step_addressed room code decoded acts (Board.perform_write write _)

theorem jump (here : At config board pc machine) (room : board.ram.size ≤ Board.maxRam)
    (code : board.roms.Holds pc (opcode :: low :: high :: rest))
    (decoded : decode opcode = some ⟨operation, .absolute, cycles⟩) (jumps : operation.action = .jump) :
    step machine =
      .ok cycles ⟨(machine.cpu.jumped (wordOf low high)).counted cycles, config, board⟩ := by
  have acts := (machine.cpu.jumped (pc + 1)).act_jump
  rw [← jumps] at acts
  exact here.step_addressed room code decoded acts rfl

theorem branch (here : At config board pc machine) (room : board.ram.size ≤ Board.maxRam)
    (code : board.roms.Holds pc (opcode :: low :: rest))
    (decoded : decode opcode = some ⟨operation, .relative, cycles⟩) {taken : Status → Bool}
    (branches : operation.action = .branch taken) {penalty : Nat} {target : UInt16}
    (goes : (machine.cpu.jumped (pc + 1)).branched taken low = (penalty, target)) :
    step machine = .ok (cycles + penalty)
      ⟨(machine.cpu.jumped target).counted (cycles + penalty), config, board⟩ := by
  have acts : (((machine.cpu.jumped (pc + 1)).act .relative operation.action).perform :
      EStateM Fault Board (Nat × Cpu)) board = .ok (penalty, machine.cpu.jumped target) board := by
    rw [branches, Cpu.act_branch]
    refine (Board.perform_fetch room code.2.2 _).trans ?_
    rw [goes]
    rfl
  exact here.step_eq room code decoded acts

end At

theorem decoded_jmp : decode 0x4C = some ⟨.jmp, .absolute, 3⟩ := by
  rw [decode_eq_lookup]
  rfl

/-! ### Runs -/

/-- So many steps one after the other, with their cycles. -/
inductive Runs : Machine → (steps cycles : Nat) → Machine → Prop where
  | refl (machine : Machine) : Runs machine 0 0 machine
  | head {machine between after : Machine} {first steps cycles : Nat} :
      step machine = .ok first between → Runs between steps cycles after →
      Runs machine (steps + 1) (first + cycles) after

/-- What runs within the budget is the beginning of what the budget runs. -/
theorem Runs.repeatWithin {machine after : Machine} {steps cycles : Nat}
    (runs : Runs machine steps cycles after) {budget : Nat} (most : budget ≤ maxCount)
    (fuel executed : Nat) (within : executed + cycles < budget) :
    Machine.repeatWithin step (fuel + steps) budget executed machine =
      Machine.repeatWithin step fuel budget (executed + cycles) after := by
  induction runs generalizing executed with
  | refl machine => rfl
  | @head machine between after first steps cycles stepped runs ih =>
      have below : executed < budget := by omega
      have exact : min maxCount (executed + first) = executed + first := by omega
      rw [← Nat.add_assoc, Machine.repeatWithin, if_pos below]
      simp only [bind, EStateM.bind, stepped, exact]
      rw [ih _ (by omega), Nat.add_assoc]

end Machine

end AppleOne
