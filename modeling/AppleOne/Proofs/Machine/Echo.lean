import AppleOne.Machine.Typing
import AppleOne.Proofs.Host.Keyboard
import AppleOne.Proofs.Machine.AddressSpace
import AppleOne.Proofs.Machine.Display
import AppleOne.Proofs.Machine.Firmware

/-!
A program that shows every key that is typed, from the keyboard through the processor to the terminal
(`typeKeys_echoes`).
-/

namespace AppleOne

/-- Waits for a key at `FF00`, takes it, waits at `FF08` for the display, and sends the key there. -/
def echoProgram : List UInt8 := [
  0xAD, 0x11, 0xD0, -- FF00  LDA D011
  0x10, 0xFB,       -- FF03  BPL FF00
  0xAD, 0x10, 0xD0, -- FF05  LDA D010
  0x2C, 0x12, 0xD0, -- FF08  BIT D012
  0x30, 0xFB,       -- FF0B  BMI FF08
  0x8D, 0x12, 0xD0, -- FF0D  STA D012
  0x4C, 0x00, 0xFF] -- FF10  JMP FF00

/-- What is shown of a key: capitals, digits and signs, and a new line for Return. -/
def HostKey.echo? : HostKey → Option Terminal.Event
  | .enter => some .newLine
  | .char c =>
    if c.toNat < 0x80 ∧ 0x20 ≤ c.toUpper.toNat ∧ c.toUpper.toNat ≤ 0x5F then
      some (.char c.toUpper.toNat.toUInt8)
    else none
  | .backspace | .escape => none

/-- A key that can be typed is to be shown as the display shows its code. -/
theorem HostKey.echo?_eq {key : HostKey} (typed : key ≠ .char '\r') :
    key.echo? = key.code?.bind Pia.shown? := by
  cases key with
  | enter | backspace | escape => decide
  | char c =>
      by_cases ascii : c.toNat < 0x80
      · revert typed
        refine forall_ascii ascii ?_
        decide +kernel
      · rw [echo?, if_neg fun shown => ascii shown.1, code?, action, if_neg ascii]
        rfl

namespace Machine

/-! ### One key -/

section

variable {config : Config} {board : Board} {machine : Machine}

/-- A board with the program. -/
structure Echoing (board : Board) : Prop where
  room : board.ram.size ≤ Board.maxRam
  program : board.roms.Holds 0xFF00 echoProgram

/-- In the loop that waits for a key, without having seen one. -/
def Listening (config : Config) (board : Board) (machine : Machine) : Prop :=
  At config board 0xFF00 machine ∨
    At config board 0xFF03 machine ∧ machine.cpu.status.negative = false

theorem decoded_lda : decode 0xAD = some ⟨.lda, .absolute, 4⟩ := by
  rw [decode_eq_lookup]
  rfl

theorem decoded_bit : decode 0x2C = some ⟨.bit, .absolute, 4⟩ := by
  rw [decode_eq_lookup]
  rfl

theorem decoded_sta : decode 0x8D = some ⟨.sta, .absolute, 4⟩ := by
  rw [decode_eq_lookup]
  rfl

theorem decoded_bpl : decode 0x10 = some ⟨.bpl, .relative, 2⟩ := by
  rw [decode_eq_lookup]
  rfl

theorem decoded_bmi : decode 0x30 = some ⟨.bmi, .relative, 2⟩ := by
  rw [decode_eq_lookup]
  rfl

/-- The keyboard is asked; the sign tells whether a key waits. -/
theorem At.asks (here : At config board 0xFF00 machine) (echoing : Echoing board) :
    ∃ after, step machine = .ok 4 after ∧ At config board 0xFF03 after ∧
      after.cpu.status.negative = board.pia.keyPending := by
  have read : board.read (wordOf 0x11 0xD0) = .ok (Pia.flag board.pia.keyPending) board := by
    rw [show wordOf 0x11 0xD0 = Pia.keyboardControl by decide, Board.read_eq echoing.room,
      Board.shows_control echoing.room, if_neg (by decide)]
  refine ⟨_, here.load echoing.room echoing.program decoded_lda rfl read, ?_, ?_⟩
  · exact ⟨rfl, rfl, rfl, here.nmiPending, here.irqLine⟩
  · cases board.pia.keyPending <;> rfl

/-- Without a key back to the question. -/
theorem At.asksAgain (here : At config board 0xFF03 machine) (echoing : Echoing board)
    (nothing : machine.cpu.status.negative = false) :
    ∃ after, step machine = .ok 3 after ∧ At config board 0xFF00 after := by
  have taken : (!machine.cpu.status.negative) = true := by rw [nothing]; rfl
  have goes : (machine.cpu.jumped (0xFF03 + 1)).branched (!·.negative) 0xFB = (1, 0xFF00) :=
    Cpu.branched_of_taken taken (by decide : 0xFF03 + 1 + 1 + Cpu.displacement 0xFB = 0xFF00)
      (by decide : crossesPage 0xFF00 (0xFF03 + 1 + 1) = false)
  refine ⟨_, here.branch echoing.room (echoing.program.drop 3) decoded_bpl rfl goes, ?_⟩
  exact ⟨rfl, rfl, rfl, here.nmiPending, here.irqLine⟩

theorem At.goesOn (here : At config board 0xFF03 machine) (echoing : Echoing board)
    (waits : machine.cpu.status.negative = true) :
    ∃ after, step machine = .ok 2 after ∧ At config board 0xFF05 after := by
  have stays : (!machine.cpu.status.negative) = false := by rw [waits]; rfl
  have goes : (machine.cpu.jumped (0xFF03 + 1)).branched (!·.negative) 0xFB = (0, 0xFF05) :=
    Cpu.branched_of_not stays 0xFB
  refine ⟨_, here.branch echoing.room (echoing.program.drop 3) decoded_bpl rfl goes, ?_⟩
  exact ⟨rfl, rfl, rfl, here.nmiPending, here.irqLine⟩

theorem At.takesKey (here : At config board 0xFF05 machine) (echoing : Echoing board) {code : UInt8}
    (key : board.pia.key = some code) :
    ∃ after, step machine = .ok 4 after ∧ At config board.keyTaken 0xFF08 after ∧
      after.cpu.a = code ||| 0x80 := by
  have read : board.read (wordOf 0x10 0xD0) = .ok (code ||| 0x80) board.keyTaken := by
    rw [show wordOf 0x10 0xD0 = Pia.keyboardData by decide, Board.read_eq echoing.room,
      Board.shows_key echoing.room, key, if_pos rfl]
    rfl
  refine ⟨_, here.load echoing.room (echoing.program.drop 5) decoded_lda rfl read, ?_, rfl⟩
  exact ⟨rfl, rfl, rfl, here.nmiPending, here.irqLine⟩

theorem At.asksDisplay (here : At config board 0xFF08 machine) (echoing : Echoing board) :
    ∃ after, step machine = .ok 4 after ∧ At config board 0xFF0B after ∧
      after.cpu.a = machine.cpu.a ∧ after.cpu.status.negative = board.displayBusy := by
  have read : board.read (wordOf 0x12 0xD0) = .ok (Pia.flag board.displayBusy) board := by
    rw [show wordOf 0x12 0xD0 = Pia.displayData by decide]
    exact Board.read_display echoing.room (.inl rfl)
  refine ⟨_, here.load echoing.room (echoing.program.drop 8) decoded_bit rfl read, ?_, rfl, ?_⟩
  · exact ⟨rfl, rfl, rfl, here.nmiPending, here.irqLine⟩
  · cases board.displayBusy <;> rfl

theorem At.passes (here : At config board 0xFF0B machine) (echoing : Echoing board)
    (ready : machine.cpu.status.negative = false) :
    ∃ after, step machine = .ok 2 after ∧ At config board 0xFF0D after ∧
      after.cpu.a = machine.cpu.a := by
  have goes : (machine.cpu.jumped (0xFF0B + 1)).branched (·.negative) 0xFB = (0, 0xFF0D) := by
    rw [Cpu.branched_of_not]
    · rfl
    · exact ready
  have passed := here.branch echoing.room (echoing.program.drop 11) decoded_bmi rfl goes
  exact ⟨_, passed, ⟨rfl, rfl, rfl, here.nmiPending, here.irqLine⟩, rfl⟩

theorem At.displays (here : At config board 0xFF0D machine) (echoing : Echoing board) {ready : Duration}
    (sum : board.time.add? board.pia.busyTime = some ready) :
    ∃ after, step machine = .ok 4 after ∧
      At config (board.displayed machine.cpu.a ready) 0xFF10 after := by
  have write : board.write (wordOf 0x12 0xD0) machine.cpu.a =
      .ok () (board.displayed machine.cpu.a ready) := by
    rw [show wordOf 0x12 0xD0 = Pia.displayData by decide, Board.write_display echoing.room, sum]
  refine ⟨_, here.store echoing.room (echoing.program.drop 13) decoded_sta rfl write, ?_⟩
  exact ⟨rfl, rfl, rfl, here.nmiPending, here.irqLine⟩

theorem At.returns (here : At config board 0xFF10 machine) (echoing : Echoing board) :
    ∃ after, step machine = .ok 3 after ∧ At config board 0xFF00 after := by
  refine ⟨_, here.jump echoing.room (echoing.program.drop 16) decoded_jmp rfl, ?_⟩
  exact ⟨rfl, rfl, (by decide : wordOf 0x00 0xFF = 0xFF00), here.nmiPending, here.irqLine⟩

/-- A key that waits is shown, if the display is ready. -/
theorem At.echoes (here : At config board 0xFF00 machine) (echoing : Echoing board) {code : UInt8}
    (key : board.pia.key = some code) (ready : board.displayBusy = false) {readyAt : Duration}
    (sum : board.time.add? ⟨1700, by decide⟩ = some readyAt) :
    ∃ after, Runs machine 7 23 after ∧
      At config (board.keyTaken.displayed (code ||| 0x80) readyAt) 0xFF00 after := by
  have taken : Echoing board.keyTaken := ⟨echoing.room, echoing.program⟩
  have pending : board.pia.keyPending = true := by rw [Pia.keyPending, key]; rfl
  obtain ⟨asked, step₁, here, sign⟩ := here.asks echoing
  obtain ⟨seen, step₂, here⟩ := here.goesOn echoing (sign.trans pending)
  obtain ⟨holding, step₃, here, a⟩ := here.takesKey echoing key
  obtain ⟨looked, step₄, here, same, busy⟩ := here.asksDisplay taken
  obtain ⟨free, step₅, here, still⟩ := here.passes taken (busy.trans ready)
  obtain ⟨shown, step₆, here⟩ := here.displays taken sum
  obtain ⟨after, step₇, here⟩ := here.returns ⟨echoing.room, echoing.program⟩
  rw [still, same, a] at here
  exact ⟨after, .head step₁ <| .head step₂ <| .head step₃ <| .head step₄ <| .head step₅ <|
    .head step₆ <| .head step₇ <| .refl after, here⟩

theorem Listening.echoes (listening : Listening config board machine) (echoing : Echoing board)
    {code : UInt8} (key : board.pia.key = some code) (ready : board.displayBusy = false)
    {readyAt : Duration} (sum : board.time.add? ⟨1700, by decide⟩ = some readyAt) :
    ∃ steps cycles after, steps ≤ 8 ∧ cycles ≤ 26 ∧ Runs machine steps cycles after ∧
      Listening config (board.keyTaken.displayed (code ||| 0x80) readyAt) after := by
  rcases listening with here | ⟨here, nothing⟩
  · obtain ⟨after, runs, here⟩ := here.echoes echoing key ready sum
    exact ⟨7, 23, after, by decide, by decide, runs, .inl here⟩
  -- The key came right after the question, so the answer is still that there is none.
  · obtain ⟨again, step, here⟩ := here.asksAgain echoing nothing
    obtain ⟨after, runs, here⟩ := here.echoes echoing key ready sum
    exact ⟨8, 26, after, by decide, by decide, .head step runs, .inl here⟩

theorem Listening.step (listening : Listening config board machine) (echoing : Echoing board)
    (free : board.pia.key = none) :
    ∃ cycles after, Machine.step machine = .ok cycles after ∧ Listening config board after := by
  have pending : board.pia.keyPending = false := by rw [Pia.keyPending, free]; rfl
  rcases listening with here | ⟨here, nothing⟩
  · obtain ⟨after, step, here, sign⟩ := here.asks echoing
    exact ⟨4, after, step, .inr ⟨here, sign.trans pending⟩⟩
  · obtain ⟨after, step, here⟩ := here.asksAgain echoing nothing
    exact ⟨3, after, step, .inl here⟩

/-- Without a key the loop goes on for as long as it is run. -/
theorem Listening.repeatWithin (listening : Listening config board machine) (echoing : Echoing board)
    (free : board.pia.key = none) (fuel budget executed : Nat) :
    ∃ cycles after, Machine.repeatWithin Machine.step fuel budget executed machine = .ok cycles after ∧
      Listening config board after := by
  induction fuel generalizing executed machine with
  | zero => exact ⟨executed, machine, rfl, listening⟩
  | succ fuel ih =>
      by_cases below : executed < budget
      · obtain ⟨cycles, between, step, listening⟩ := listening.step echoing free
        obtain ⟨total, after, ran, listening⟩ := ih listening (min maxCount (executed + cycles))
        refine ⟨total, after, ?_, listening⟩
        rw [Machine.repeatWithin, if_pos below]
        simp only [bind, EStateM.bind, step]
        exact ran
      · refine ⟨executed, machine, ?_, listening⟩
        rw [Machine.repeatWithin, if_neg below]
        rfl

/-- Where the processor is does not depend on the board. -/
theorem Listening.onBoard (listening : Listening config board machine) (other : Board) :
    Listening config other { machine with board := other } := by
  rcases listening with here | ⟨here, nothing⟩
  · exact .inl ⟨here.config, rfl, here.pc, here.nmiPending, here.irqLine⟩
  · exact .inr ⟨⟨here.config, rfl, here.pc, here.nmiPending, here.irqLine⟩, nothing⟩

theorem Listening.exists_at (listening : Listening config board machine) :
    ∃ pc, At config board pc machine := by
  rcases listening with here | ⟨here, -⟩
  · exact ⟨_, here⟩
  · exact ⟨_, here⟩

theorem Listening.tick (listening : Listening config board machine) (echoing : Echoing board)
    (free : board.pia.key = none) :
    ∃ cycles after, Machine.tick machine = .ok cycles after ∧ Listening config board after := by
  rw [Machine.tick, runCycles, repeatStep]
  exact listening.repeatWithin echoing free _ _ _

/-- A tick is long enough for one key. -/
theorem Listening.tick_echoes (listening : Listening config board machine) (echoing : Echoing board)
    (least : 64 ≤ config.cyclesPerTick) (most : config.cyclesPerTick ≤ maxTickBudget) {code : UInt8}
    (key : board.pia.key = some code) (ready : board.displayBusy = false) {readyAt : Duration}
    (sum : board.time.add? ⟨1700, by decide⟩ = some readyAt) :
    ∃ cycles after, Machine.tick machine = .ok cycles after ∧
      Listening config (board.keyTaken.displayed (code ||| 0x80) readyAt) after := by
  obtain ⟨steps, cycles, between, few, short, runs, listens⟩ := listening.echoes echoing key ready sum
  have least : 64 ≤ config.cyclesPerTick.toNat := least
  have most : config.cyclesPerTick.toNat ≤ maxCount := Nat.le_trans most (by decide)
  -- The key takes fewer cycles than the budget has; in the rest of the tick the loop only waits.
  have split : config.cyclesPerTick.toNat = config.cyclesPerTick.toNat - steps + steps := by omega
  have begun := runs.repeatWithin most (config.cyclesPerTick.toNat - steps) 0 (by omega)
  rw [← split] at begun
  obtain ⟨_, here⟩ := listening.exists_at
  rw [Machine.tick, runCycles, repeatStep, here.config, begun]
  exact listens.repeatWithin ⟨echoing.room, echoing.program⟩ rfl _ _ _

end

/-! ### A text -/

/-- Between two ticks: everything typed was shown, and the display is ready from some time on. -/
structure Waiting (config : Config) (shown : List Terminal.Event) (now readyFrom : Nat)
    (machine : Machine) : Prop where
  listening : Listening config machine.board machine
  echoing : Echoing machine.board
  free : machine.board.pia.key = none
  terminal : machine.board.terminal = .recording shown.toArray
  time : machine.board.time.nanoseconds = now
  ready : ∀ later : Duration, readyFrom ≤ later.nanoseconds → machine.board.pia.busy later = false

namespace Waiting

variable {config : Config} {shown : List Terminal.Event} {now readyFrom : Nat} {machine : Machine}

theorem later (waiting : Waiting config shown now readyFrom machine) {readyLater : Nat}
    (later : readyFrom ≤ readyLater) : Waiting config shown now readyLater machine :=
  { waiting with ready := fun time past => waiting.ready time (Nat.le_trans later past) }

theorem tick (waiting : Waiting config shown now readyFrom machine) :
    ∃ cycles after, Machine.tick machine = .ok cycles after ∧
      Waiting config shown now readyFrom after := by
  obtain ⟨cycles, after, ran, listening⟩ := waiting.listening.tick waiting.echoing waiting.free
  obtain ⟨_, _, same, -⟩ := listening.exists_at
  exact ⟨cycles, after, ran, same ▸ listening, same ▸ waiting.echoing, same ▸ waiting.free,
    same ▸ waiting.terminal, same ▸ waiting.time, same ▸ waiting.ready⟩

theorem press_tick (waiting : Waiting config shown now readyFrom machine)
    (least : 64 ≤ config.cyclesPerTick) (most : config.cyclesPerTick ≤ maxTickBudget)
    (ready : readyFrom ≤ now) (bound : now + 1700 < Duration.limit) {code : UInt8}
    (seven : code < 0x80) :
    ∃ cycles after, Machine.tick (machine.press code) = .ok cycles after ∧
      Waiting config (shown ++ (Pia.shown? code).toList) now (now + 1701) after := by
  have sum : machine.board.time.add? ⟨1700, by decide⟩ = some ⟨now + 1700, bound⟩ :=
    Duration.add?_eq_some_iff.mpr (by rw [waiting.time])
  have key : (machine.board.press code).pia.key = some code :=
    congrArg some (Pia.sevenBits_of_lt seven)
  have quiet : (machine.board.press code).displayBusy = false :=
    waiting.ready machine.board.time (waiting.time ▸ ready)
  have pressed := waiting.listening.onBoard (machine.board.press code)
  obtain ⟨cycles, after, ran, listening⟩ := pressed.tick_echoes
    ⟨waiting.echoing.room, waiting.echoing.program⟩ least most key quiet sum
  obtain ⟨_, _, same, -⟩ := listening.exists_at
  refine ⟨cycles, after, ran, ?_, ?_, ?_, ?_, ?_, ?_⟩
  · exact same ▸ listening
  · rw [same]
    exact ⟨waiting.echoing.room, waiting.echoing.program⟩
  · rw [same]
    rfl
  · have terminal : (machine.board.press code).keyTaken.terminal = .recording shown.toArray :=
      waiting.terminal
    rw [same, Board.displayed, Pia.sevenBits, (Pia.delivered code seven).2, terminal]
    cases Pia.shown? code with
    | none => simp
    | some event => simp [Terminal.put]
  · rw [same]
    exact waiting.time
  · intro later past
    rw [same]
    have passed : ¬later.nanoseconds ≤ now + 1700 := by omega
    exact decide_eq_false passed

theorem advance (waiting : Waiting config shown now readyFrom machine) (pause : Duration)
    (bound : now + pause.nanoseconds < Duration.limit) :
    ∃ after, Machine.advance pause machine = .ok () after ∧
      Waiting config shown (now + pause.nanoseconds) readyFrom after := by
  have sum : machine.board.time.add? pause = some ⟨now + pause.nanoseconds, bound⟩ :=
    Duration.add?_eq_some_iff.mpr (by rw [waiting.time])
  rw [Machine.advance, sum]
  refine ⟨_, rfl, waiting.listening.onBoard _, ?_, waiting.free, waiting.terminal, rfl, waiting.ready⟩
  exact ⟨waiting.echoing.room, waiting.echoing.program⟩

theorem reset (waiting : Waiting config shown now readyFrom machine) :
    Waiting config shown now readyFrom machine.reset := by
  obtain ⟨_, here⟩ := waiting.listening.exists_at
  rw [reset_eq_restarted waiting.echoing.room]
  refine ⟨.inl ⟨here.config, rfl, rfl, rfl, here.irqLine⟩, ?_, waiting.free, waiting.terminal,
    waiting.time, waiting.ready⟩
  exact ⟨waiting.echoing.room, waiting.echoing.program⟩

/-- A key without a code leaves everything as it is. -/
theorem handleKey (waiting : Waiting config shown now readyFrom machine) {key : HostKey}
    (codeless : key.code? = none) : Waiting config shown now readyFrom (machine.handleKey key) := by
  rw [Machine.handleKey]
  cases action : key.action with
  | none => exact waiting
  | some action' =>
      cases action' with
      | key code =>
          have offered := HostKey.code?_eq_some_iff.mpr action
          rw [codeless] at offered
          cases offered
      | reset => exact waiting.reset

/-- A key that is handed over is shown within the tick. -/
theorem handleKey_tick (waiting : Waiting config shown now readyFrom machine)
    (least : 64 ≤ config.cyclesPerTick) (most : config.cyclesPerTick ≤ maxTickBudget)
    (ready : readyFrom ≤ now) (bound : now + 1700 < Duration.limit) {key : HostKey}
    (typed : key ≠ .char '\r') :
    ∃ cycles after, Machine.tick (machine.handleKey key) = .ok cycles after ∧
      Waiting config (shown ++ key.echo?.toList) now (now + 1701) after := by
  rw [HostKey.echo?_eq typed]
  cases offered : key.code? with
  | none =>
      obtain ⟨cycles, after, ran, waiting⟩ := (waiting.handleKey offered).tick
      refine ⟨cycles, after, ran, ?_⟩
      rw [Option.bind_none, Option.toList_none, List.append_nil]
      exact waiting.later (by omega)
  | some code =>
      have action := HostKey.code?_eq_some_iff.mp offered
      have pressed : machine.handleKey key = machine.press code := by
        rw [Machine.handleKey, action]
        rfl
      rw [pressed]
      exact waiting.press_tick least most ready bound (HostKey.code_lt action)

end Waiting

theorem typingTick_eq {pause : Duration} {keys left : List HostKey}
    {machine offered between after : Machine} {cycles : Nat}
    (offers : offerKey keys machine = (left, offered)) (ran : tick offered = .ok cycles between)
    (moved : advance pause between = .ok () after) :
    typingTick pause keys machine = .ok left after := by
  simp only [typingTick_offered, bind, EStateM.bind, offers, ran, moved]
  rfl

theorem go_eq {pause : Duration} {keys left : List HostKey} {machine after : Machine}
    (ticked : typingTick pause keys machine = .ok left after) (fuel idleTicks ticks : Nat) :
    typeKeys.go pause (fuel + 1) (idleTicks + 1) keys ticks machine =
      typeKeys.go pause fuel (if idle keys machine then idleTicks else idleTicks + 1) left (ticks + 1)
        after := by
  simp only [go_succ, bind, EStateM.bind, ticked]

namespace Waiting

variable {config : Config} {shown : List Terminal.Event} {now readyFrom : Nat} {machine : Machine}
  {pause : Duration}

theorem keyPending_eq (waiting : Waiting config shown now readyFrom machine) :
    machine.board.pia.keyPending = false := by
  rw [Pia.keyPending, waiting.free]
  rfl

theorem go_idle (waiting : Waiting config shown now readyFrom machine) {fuel idleTicks : Nat}
    (enough : idleTicks ≤ fuel) (bound : now + idleTicks * pause.nanoseconds < Duration.limit)
    (ticks : Nat) :
    ∃ after, typeKeys.go pause fuel idleTicks [] ticks machine = .ok (ticks + idleTicks) after ∧
      Waiting config shown (now + idleTicks * pause.nanoseconds) readyFrom after := by
  induction idleTicks generalizing fuel now machine ticks with
  | zero =>
      rw [Nat.zero_mul]
      refine ⟨machine, ?_, waiting⟩
      cases fuel <;> rfl
  | succ idleTicks ih =>
      obtain ⟨fuel, rfl⟩ : ∃ less, fuel = less + 1 := ⟨fuel - 1, by omega⟩
      have sum : now + (idleTicks + 1) * pause.nanoseconds =
          now + pause.nanoseconds + idleTicks * pause.nanoseconds := by
        rw [Nat.succ_mul]
        omega
      rw [sum] at bound ⊢
      have offers : offerKey [] machine = ([], machine) := by
        rw [offerKey, waiting.keyPending_eq]
        rfl
      obtain ⟨cycles, between, ran, later⟩ := waiting.tick
      obtain ⟨after, moved, later⟩ := later.advance pause (by omega)
      have enough : idleTicks ≤ fuel := by omega
      obtain ⟨last, went, done⟩ := ih later enough bound (ticks + 1)
      have idles : idle [] machine = true := by
        rw [idle, waiting.keyPending_eq]
        rfl
      have total : ticks + 1 + idleTicks = ticks + (idleTicks + 1) := by omega
      rw [total] at went
      refine ⟨last, ?_, done⟩
      rw [go_eq (typingTick_eq offers ran moved), if_pos idles]
      exact went

/-- Every key takes a tick, and then the idle ticks follow. -/
theorem go_types (waiting : Waiting config shown now readyFrom machine)
    (least : 64 ≤ config.cyclesPerTick) (most : config.cyclesPerTick ≤ maxTickBudget)
    (ready : readyFrom ≤ now) (long : 1701 ≤ pause.nanoseconds) {keys : List HostKey}
    (typed : ∀ key ∈ keys, key ≠ .char '\r') {fuel idleTicks : Nat} (idles : 1 ≤ idleTicks)
    (enough : keys.length + idleTicks ≤ fuel)
    (bound : now + (keys.length + idleTicks) * pause.nanoseconds < Duration.limit) (ticks : Nat) :
    ∃ after, typeKeys.go pause fuel idleTicks keys ticks machine =
        .ok (ticks + (keys.length + idleTicks)) after ∧
      ∃ last, Waiting config (shown ++ keys.filterMap HostKey.echo?) last last after := by
  induction keys generalizing fuel now readyFrom shown machine ticks with
  | nil =>
      rw [List.length_nil, Nat.zero_add] at *
      obtain ⟨after, went, done⟩ := waiting.go_idle enough bound ticks
      refine ⟨after, went, now + idleTicks * pause.nanoseconds, ?_⟩
      rw [List.filterMap_nil, List.append_nil]
      exact done.later (Nat.le_add_right_of_le ready)
  | cons key rest ih =>
      rw [List.length_cons] at *
      obtain ⟨fuel, rfl⟩ : ∃ less, fuel = less + 1 := ⟨fuel - 1, by omega⟩
      obtain ⟨idleTicks, rfl⟩ : ∃ less, idleTicks = less + 1 := ⟨idleTicks - 1, by omega⟩
      have sum : now + (rest.length + 1 + (idleTicks + 1)) * pause.nanoseconds =
          now + pause.nanoseconds + (rest.length + (idleTicks + 1)) * pause.nanoseconds := by
        rw [Nat.add_right_comm, Nat.succ_mul]
        omega
      rw [sum] at bound
      have offers : offerKey (key :: rest) machine = (rest, machine.handleKey key) := by
        rw [offerKey, waiting.keyPending_eq]
        rfl
      -- The pause is longer than the display is busy, so it is ready again for the next key.
      obtain ⟨cycles, between, ran, later⟩ :=
        waiting.handleKey_tick least most ready (by omega) (typed key List.mem_cons_self)
      obtain ⟨after, moved, later⟩ := later.advance pause (by omega)
      have others : ∀ key ∈ rest, key ≠ .char '\r' := fun key member =>
        typed key (List.mem_cons_of_mem _ member)
      have enough : rest.length + (idleTicks + 1) ≤ fuel := by omega
      obtain ⟨last, went, done⟩ := ih later (by omega) others enough bound (ticks + 1)
      have busy : idle (key :: rest) machine = false := rfl
      have total : ticks + 1 + (rest.length + (idleTicks + 1)) =
          ticks + (rest.length + 1 + (idleTicks + 1)) := by omega
      have shows : shown ++ key.echo?.toList ++ rest.filterMap HostKey.echo? =
          shown ++ (key :: rest).filterMap HostKey.echo? := by
        cases echo : key.echo? <;> simp [echo]
      rw [total] at went
      rw [shows] at done
      refine ⟨last, ?_, done⟩
      rw [go_eq (typingTick_eq offers ran moved), busy]
      exact went

end Waiting

theorem waiting_reset {config : Config} {roms : Roms} (journal : Log.Journal)
    (room : config.ramSize.toNat ≤ Board.maxRam) (program : roms.Holds 0xFF00 echoProgram) :
    Waiting config [] 0 0 (switchedOn config roms .recorder journal).reset := by
  have size : (switchedOn config roms .recorder journal).board.ram.size ≤ Board.maxRam := by
    rw [switchedOn, Array.size_replicate]
    exact room
  rw [reset_eq_restarted size]
  exact ⟨.inl ⟨rfl, rfl, rfl, rfl, rfl⟩, ⟨size, program⟩, rfl, rfl, rfl, fun _ _ => rfl⟩

/-- With the program at the start of the monitor every text is shown, key by key. -/
theorem typeKeys_echoes (config : Config) {monitor basic : Array UInt8} (journal : Log.Journal)
    (room : config.ramSize.toNat ≤ 0xD00F) (least : 64 ≤ config.cyclesPerTick)
    (most : config.cyclesPerTick ≤ maxTickBudget) (monitorSize : monitor.size = 256)
    (program : echoProgram <+: monitor.toList) (basicSize : basic.size = 4096) (text : String)
    (pause : Duration) (limit idleTicks : Nat) (idles : 1 ≤ idleTicks)
    (long : 1701 ≤ pause.nanoseconds) (cap : (HostKey.ofText text).length + idleTicks ≤ limit)
    (bound : ((HostKey.ofText text).length + idleTicks) * pause.nanoseconds < Duration.limit) :
    ∃ start after, ofImages config monitor basic .recorder journal = .ok start ∧
      typeKeys pause limit idleTicks (HostKey.ofText text) start =
        .ok ((HostKey.ofText text).length + idleTicks) after ∧
      after.board.pia.key = none ∧
      after.board.terminal.events.toList = (HostKey.ofText text).filterMap HostKey.echo? := by
  have nonzero : config.cyclesPerTick ≠ 0 := by
    rintro zero
    rw [zero] at least
    exact absurd least (by decide)
  let roms : Roms := ⟨⟨monitor, monitorSize⟩, ⟨basic, basicSize⟩⟩
  have built : build config roms .recorder journal =
      .ok (switchedOn config roms .recorder journal).reset :=
    build_eq_ok_iff.mpr ⟨nonzero, most, room, rfl⟩
  have holds : roms.Holds 0xFF00 echoProgram := Roms.holds_monitor 0 (by decide) program
  have waiting := waiting_reset journal room holds
  have typed : ∀ key ∈ HostKey.ofText text, key ≠ .char '\r' := fun _ => HostKey.ne_return_of_mem_ofChars
  rw [← Nat.zero_add (_ * _)] at bound
  obtain ⟨after, went, last, done⟩ :=
    waiting.go_types least most (Nat.le_refl 0) long typed idles cap bound 0
  refine ⟨_, after, (Layout.ofImages_eq monitorSize basicSize).trans built, ?_, done.free, ?_⟩
  · rw [typeKeys, went, Nat.zero_add]
  · rw [done.terminal]
    rfl

/-- A small letter, a line break of two characters, and the reset key. -/
theorem typeKeys_echoes_line :
    (0 : UInt64).toNat ≤ 0xD00F ∧ (echoProgram ++ .replicate 237 0).toArray.size = 256 ∧
      echoProgram <+: (echoProgram ++ .replicate 237 0).toArray.toList ∧
      (Array.replicate 4096 (0 : UInt8)).size = 4096 ∧
      ∃ start after, ofImages ⟨0, 64, true⟩ (echoProgram ++ .replicate 237 0).toArray (.replicate 4096 0)
          .recorder .initial = .ok start ∧
        typeKeys ⟨1701, by decide⟩ 4 1 (HostKey.ofText "a\r\n\x1b") start = .ok 4 after ∧
        after.board.terminal.events.toList = [.char 0x41, .newLine] := by
  have room : (0 : UInt64).toNat ≤ 0xD00F := by decide
  have monitorSize : (echoProgram ++ .replicate 237 0).toArray.size = 256 := by
    rw [List.size_toArray, List.length_append, List.length_replicate]
    rfl
  have program : echoProgram <+: (echoProgram ++ .replicate 237 0).toArray.toList := ⟨_, rfl⟩
  have basicSize : (Array.replicate 4096 (0 : UInt8)).size = 4096 := Array.size_replicate
  obtain ⟨start, after, built, ran, -, shown⟩ :=
    typeKeys_echoes ⟨0, 64, true⟩ .initial room (by decide) (by decide) monitorSize program basicSize
      "a\r\n\x1b" ⟨1701, by decide⟩ 4 1 (by decide) (by decide) (by decide) (by decide)
  exact ⟨room, monitorSize, program, basicSize, start, after, built, ran, shown⟩

end Machine

end AppleOne
