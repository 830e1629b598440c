import AppleOne.Proofs.Machine.Budget
import AppleOne.Proofs.Machine.Checked
import AppleOne.Proofs.Machine.RoundTrip
import AppleOne.Proofs.Machine.AddressSpace

/-!
The end of time. It is the only thing that stops a command: the clock would be moved past it, or a
character is sent to the display so late that the display would be busy past it (`checked_session`).
-/

namespace AppleOne

variable {α : Type}

/-! ### Writes that are asked for -/

/-- A transaction, begun on a board, asks for a write, and the board is `now` at that point. -/
inductive Transaction.Asks (address : UInt16) (value : UInt8) (now : Board) :
    Transaction α → Board → Prop where
  | here (next : Transaction α) : Asks address value now (.write address value next) now
  | read {place : UInt16} {next : UInt8 → Transaction α} {board after : Board} {byte : UInt8} :
      board.read place = .ok byte after → Asks address value now (next byte) after →
      Asks address value now (.read place next) board
  | write {place : UInt16} {byte : UInt8} {next : Transaction α} {board after : Board} :
      board.write place byte = .ok () after → Asks address value now next after →
      Asks address value now (.write place byte next) board
  | note {diagnostic : Log.Diagnostic} {next : Transaction α} {board after : Board} :
      board.note diagnostic = .ok () after → Asks address value now next after →
      Asks address value now (.note diagnostic next) board

namespace Board

/-- A character would keep the display busy past the end of time. -/
structure Late (board : Board) : Prop where
  free : board.pia.key = none
  late : Duration.limit ≤ board.time.nanoseconds + 1700

theorem add?_busyTime_eq_none_iff {board : Board} :
    board.time.add? board.pia.busyTime = none ↔ board.Late := by
  have inTime := board.time.bounded
  rw [Duration.add?_eq_none_iff]
  cases held : board.pia.key with
  | none =>
      have busy : board.pia.busyTime.nanoseconds = 1700 := by
        rw [Pia.busyTime, Pia.keyPending, held]
        rfl
      rw [busy]
      exact ⟨fun late => ⟨held, late⟩, Late.late⟩
  | some code =>
      have busy : board.pia.busyTime.nanoseconds = 0 := by
        rw [Pia.busyTime, Pia.keyPending, held]
        rfl
      rw [busy]
      constructor
      · intro late
        omega
      · intro late
        cases held.symm.trans late.free

theorem write_error_iff {board : Board} (room : board.ram.size ≤ maxRam) (address : UInt16)
    (value : UInt8) :
    (∃ fault after, board.write address value = .error fault after) ↔
      address = Pia.displayData ∧ board.Late := by
  by_cases inside : address.toNat < board.ram.size
  · rw [write_ram inside]
    constructor
    · rintro ⟨_, _, ⟨⟩⟩
    · rintro ⟨rfl, -⟩
      exact absurd inside (outside_of_covers room rfl)
  · by_cases display : address = Pia.displayData
    · subst display
      rw [write_display room, ← add?_busyTime_eq_none_iff]
      cases board.time.add? board.pia.busyTime with
      | none => exact ⟨fun _ => ⟨rfl, rfl⟩, fun _ => ⟨_, _, rfl⟩⟩
      | some ready => simp
    · rw [write_elsewhere (Nat.le_of_not_lt inside) display]
      simp [display]

theorem perform_error_iff (t : Transaction α) {board : Board} (room : board.ram.size ≤ maxRam) :
    (∃ fault after, (t.perform : EStateM Fault Board α) board = .error fault after) ↔
      ∃ value now, t.Asks Pia.displayData value now board ∧ now.Late := by
  induction t generalizing board with
  | done result =>
      constructor
      · rintro ⟨_, _, ⟨⟩⟩
      · rintro ⟨_, _, ⟨⟩, _⟩
  | read address next ih =>
      obtain ⟨byte, after, done, ram, -⟩ := board.exists_read address
      rw [perform_read done, ih byte (ram ▸ room)]
      constructor
      · rintro ⟨value, now, asks, late⟩
        exact ⟨value, now, .read done asks, late⟩
      · rintro ⟨value, now, asks, late⟩
        cases asks with
        | read again asks =>
            cases done.symm.trans again
            exact ⟨value, now, asks, late⟩
  | write address byte next ih =>
      cases done : board.write address byte with
      | ok _ after =>
          rw [perform_write done, ih ((kept_by_write room done).1 ▸ room)]
          constructor
          · rintro ⟨value, now, asks, late⟩
            exact ⟨value, now, .write done asks, late⟩
          · rintro ⟨value, now, asks, late⟩
            cases asks with
            | here =>
                -- This is a write that would have failed.
                obtain ⟨_, _, failed⟩ := (write_error_iff room _ byte).mpr ⟨rfl, late⟩
                cases done.symm.trans failed
            | write again asks =>
                cases done.symm.trans again
                exact ⟨value, now, asks, late⟩
      | error fault after =>
          obtain ⟨rfl, late⟩ := (write_error_iff room _ _).mp ⟨fault, after, done⟩
          refine ⟨fun _ => ⟨byte, board, .here next, late⟩, fun _ => ⟨fault, after, ?_⟩⟩
          simp only [Transaction.perform, Device.write, bind, EStateM.bind, done]
  | note diagnostic next ih =>
      -- A note changes nothing but the log.
      refine (@ih { board with journal := board.journal.note diagnostic } room).trans ?_
      constructor
      · rintro ⟨value, now, asks, late⟩
        exact ⟨value, now, .note rfl asks, late⟩
      · rintro ⟨value, now, asks, late⟩
        cases asks with
        | note noted asks =>
            cases noted
            exact ⟨value, now, asks, late⟩

end Board

/-- Time stands still in the course of a transaction. -/
theorem Transaction.Asks.time {t : Transaction α} {address : UInt16} {value : UInt8} {now board : Board}
    (asks : t.Asks address value now board) (room : board.ram.size ≤ Board.maxRam) :
    now.time = board.time := by
  induction asks with
  | here next => rfl
  | read done _ ih =>
      obtain ⟨size, same⟩ := Board.kept_by_read room done
      exact (ih (size ▸ room)).trans same
  | write done _ ih =>
      obtain ⟨size, same⟩ := Board.kept_by_write room done
      exact (ih (size ▸ room)).trans same
  | note noted _ ih =>
      cases noted
      exact ih room

theorem Board.keeps_time (time : Duration) (t : Transaction α) :
    Keeps (fun board : Board => board.ram.size ≤ maxRam ∧ board.time = time)
      (t.perform : EStateM Fault Board α) := by
  apply Keeps.perform
  · rintro address board ⟨room, same⟩
    obtain ⟨value, after, done, -⟩ := board.exists_read address
    obtain ⟨size, still⟩ := kept_by_read room done
    simp only [Device.read, done]
    exact ⟨size ▸ room, still.trans same⟩
  · rintro address value board ⟨room, same⟩
    simp only [Device.write]
    cases done : board.write address value with
    | ok _ after =>
        obtain ⟨size, still⟩ := kept_by_write room done
        exact ⟨size ▸ room, still.trans same⟩
    | error fault after =>
        rw [of_write_error done]
        exact ⟨room, same⟩
  · rintro diagnostic board ⟨room, same⟩
    exact ⟨room, same⟩

/-! ### Commands -/

/-- The program ends in a failure. -/
def Fails {ε σ : Type} (x : EStateM ε σ α) (s : σ) : Prop := ∃ failure after, x s = .error failure after

section

variable {β ε σ : Type}

theorem fails_map_iff {f : α → β} {x : EStateM ε σ α} {s : σ} : Fails (f <$> x) s ↔ Fails x s := by
  simp only [Fails, Functor.map, EStateM.map]
  cases x s <;> simp

theorem exists_ok_of_not_fails {x : EStateM ε σ α} {s : σ} (h : ¬Fails x s) :
    ∃ result after, x s = .ok result after := by
  cases done : x s with
  | ok result after => exact ⟨result, after, rfl⟩
  | error failure after => exact absurd ⟨failure, after, done⟩ h

theorem fails_widen_iff {x : EStateM Fault σ α} {s : σ} : Fails (widen x) s ↔ Fails x s := by
  simp only [Fails, widen]
  cases x s with
  | ok result after => simp
  | error fault after => exact ⟨fun _ => ⟨_, _, rfl⟩, fun _ => ⟨_, _, rfl⟩⟩

end

namespace Machine

/-- One of the steps that are made before a budget is used up asks for a write to the display. -/
def SendsWithin (machine : Machine) (budget : Nat) (value : UInt8) (now : Board) : Prop :=
  ∃ steps cycles before, Runs machine steps cycles before ∧ cycles < budget ∧
    before.cpu.step.Asks Pia.displayData value now before.board

/-- In the course of the command, a write to the display is asked for. -/
def Command.Sends (machine : Machine) (value : UInt8) (now : Board) : Command → Prop
  | .step => machine.cpu.step.Asks Pia.displayData value now machine.board
  | .tick => machine.SendsWithin machine.config.cyclesPerTick.toNat value now
  | .runCycles budget => machine.SendsWithin budget.toNat value now
  | .reset => machine.cpu.reset.Asks Pia.displayData value now machine.board
  | .handleKey key =>
    key.action = some .reset ∧ machine.cpu.reset.Asks Pia.displayData value now machine.board
  | .peek address => (Transaction.byteAt address).Asks Pia.displayData value now machine.board
  | .poke address byte => (Transaction.store address byte).Asks Pia.displayData value now machine.board
  | _ => False

/-- The command sends a character to the display too late, or moves the clock too far. -/
def Command.MeetsEnd (command : Command) (machine : Machine) : Prop :=
  (∃ value now, command.Sends machine value now ∧ now.Late) ∨
    ∃ span, command = .advance span ∧
      Duration.limit ≤ machine.board.time.nanoseconds + span.nanoseconds

variable {machine after : Machine}

theorem fails_perform_iff (room : machine.board.ram.size ≤ Board.maxRam)
    (act : Cpu → Transaction (α × Cpu)) :
    Fails (perform act) machine ↔
      ∃ value now, (act machine.cpu).Asks Pia.displayData value now machine.board ∧ now.Late := by
  rw [← Board.perform_error_iff _ room]
  obtain ⟨cpu, config, board⟩ := machine
  simp only [Fails, perform]
  cases ((act cpu).perform : EStateM Fault Board (α × Cpu)) board <;> simp

theorem Reachable.after_step {cycles : Nat} (reachable : machine.Reachable)
    (stepped : step machine = .ok cycles after) : after.Reachable := by
  have done : Command.step.run machine = .ok (.cycles cycles) after := by
    simp only [Command.run, Functor.map, EStateM.map, stepped]
  exact .run .step reachable done

theorem Runs.reachable {steps cycles : Nat} (runs : Runs machine steps cycles after)
    (reachable : machine.Reachable) : after.Reachable := by
  induction runs with
  | refl machine => exact reachable
  | head stepped _ ih => exact ih (reachable.after_step stepped)

theorem fails_runCycles_iff (reachable : machine.Reachable) (budget : UInt32) :
    Fails (runCycles budget) machine ↔
      ∃ value now, machine.SendsWithin budget.toNat value now ∧ now.Late := by
  constructor
  · rintro ⟨fault, after, failed⟩
    rcases runCycles_cases machine budget with ⟨_, _, _, -, done⟩ | ⟨fault, after, stops, -⟩
    · cases done.symm.trans failed
    · obtain ⟨steps, cycles, before, runs, below, failed⟩ := stops
      have room := (runs.reachable reachable).ramSize_le
      obtain ⟨value, now, asks, late⟩ := (fails_perform_iff room Cpu.step).mp ⟨fault, after, failed⟩
      exact ⟨value, now, ⟨steps, cycles, before, runs, below, asks⟩, late⟩
  · rintro ⟨value, now, ⟨steps, cycles, before, runs, below, asks⟩, late⟩
    have room := (runs.reachable reachable).ramSize_le
    obtain ⟨fault, after, failed⟩ := (fails_perform_iff room Cpu.step).mpr ⟨value, now, asks, late⟩
    have stops : Stops machine budget.toNat fault after :=
      ⟨steps, cycles, before, runs, below, failed⟩
    rcases runCycles_cases machine budget with ⟨_, _, _, spends, -⟩ | ⟨fault, after, -, failed⟩
    · exact absurd spends stops.not_spends
    · exact ⟨fault, after, failed⟩

theorem not_fails_change (reply : Reply) (f : Machine → Machine) : ¬Fails (change reply f) machine := by
  rintro ⟨_, _, ⟨⟩⟩

theorem not_fails_query (f : Machine → Reply) : ¬Fails (query f) machine := by
  rintro ⟨_, _, ⟨⟩⟩

theorem not_fails_request (f : Machine → Except Error Machine) : ¬Fails (request f) machine := by
  rintro ⟨fault, after, failed⟩
  rw [request] at failed
  split at failed <;> cases failed

theorem not_fails_peek (address : UInt16) : ¬Fails (peek address) machine := by
  rintro ⟨fault, after, failed⟩
  obtain ⟨cpu, config, board⟩ := machine
  obtain ⟨byte, after, done, -⟩ := board.exists_read address
  rw [peek, done] at failed
  cases failed

theorem fails_poke_iff (room : machine.board.ram.size ≤ Board.maxRam) (address : UInt16)
    (byte : UInt8) :
    Fails (poke address byte) machine ↔ address = Pia.displayData ∧ machine.board.Late := by
  rw [← Board.write_error_iff room address byte]
  obtain ⟨cpu, config, board⟩ := machine
  simp only [Fails, poke]
  cases board.write address byte <;> simp

theorem fails_advance_iff (span : Duration) :
    Fails (advance span) machine ↔
      Duration.limit ≤ machine.board.time.nanoseconds + span.nanoseconds := by
  rw [← Duration.add?_eq_none_iff]
  simp only [Fails, advance]
  cases machine.board.time.add? span with
  | none => exact ⟨fun _ => rfl, fun _ => ⟨_, _, rfl⟩⟩
  | some time => simp

theorem not_asks_reset {value : UInt8} {now : Board} (cpu : Cpu) (board : Board) :
    ¬cpu.reset.Asks Pia.displayData value now board := by
  have reset : cpu.reset = .read resetVector fun low => .read (resetVector + 1) fun high =>
      .note (.reset (wordOf low high)) (.done (cpu.restarted (wordOf low high))) := rfl
  rw [reset]
  rintro (_ | ⟨-, _ | ⟨-, _ | _ | _ | ⟨-, ⟨⟩⟩⟩⟩)

theorem asks_store_iff {value byte : UInt8} {now board : Board} {address : UInt16} :
    (Transaction.store address byte).Asks Pia.displayData value now board ↔
      address = Pia.displayData ∧ byte = value ∧ now = board := by
  constructor
  · rintro (_ | _ | ⟨-, ⟨⟩⟩)
    exact ⟨rfl, rfl, rfl⟩
  · rintro ⟨rfl, rfl, rfl⟩
    exact .here _

theorem Command.meetsEnd_iff {command : Command} (still : ∀ span, command ≠ .advance span) :
    command.MeetsEnd machine ↔ ∃ value now, command.Sends machine value now ∧ now.Late :=
  or_iff_left fun ⟨span, same, _⟩ => still span same

theorem Command.not_meetsEnd_of_not_sends {command : Command} (still : ∀ span, command ≠ .advance span)
    (nothing : ∀ value now, ¬command.Sends machine value now) : ¬command.MeetsEnd machine := by
  rw [meetsEnd_iff still]
  rintro ⟨value, now, sends, -⟩
  exact nothing value now sends

/-- Commands fail at the end of time, and nothing else makes them fail. -/
theorem Command.fails_iff (reachable : machine.Reachable) (command : Command) :
    Fails command.run machine ↔ command.MeetsEnd machine := by
  have room : machine.board.ram.size ≤ Board.maxRam := reachable.ramSize_le
  cases command with
  | step =>
      refine Iff.trans ?_ (meetsEnd_iff (by nofun)).symm
      exact fails_map_iff.trans (fails_perform_iff room Cpu.step)
  | tick =>
      refine Iff.trans ?_ (meetsEnd_iff (by nofun)).symm
      exact fails_map_iff.trans (fails_runCycles_iff reachable _)
  | runCycles budget =>
      refine Iff.trans ?_ (meetsEnd_iff (by nofun)).symm
      exact fails_map_iff.trans (fails_runCycles_iff reachable budget)
  | poke address byte =>
      refine Iff.trans ?_ (meetsEnd_iff (by nofun)).symm
      refine (fails_map_iff.trans (fails_poke_iff room address byte)).trans ?_
      constructor
      · rintro ⟨display, late⟩
        exact ⟨byte, machine.board, asks_store_iff.mpr ⟨display, rfl, rfl⟩, late⟩
      · rintro ⟨value, now, asks, late⟩
        obtain ⟨display, -, rfl⟩ := asks_store_iff.mp asks
        exact ⟨display, late⟩
  | advance span =>
      refine (fails_map_iff.trans (fails_advance_iff span)).trans ⟨fun late => .inr ⟨span, rfl, late⟩, ?_⟩
      rintro (⟨value, now, ⟨⟩, -⟩ | ⟨_, ⟨⟩, late⟩)
      exact late
  | peek address =>
      refine iff_of_false (mt fails_map_iff.mp (not_fails_peek address)) ?_
      refine not_meetsEnd_of_not_sends nofun ?_
      rintro value now (_ | ⟨-, ⟨⟩⟩)
  | reset =>
      exact iff_of_false (not_fails_change _ _)
        (not_meetsEnd_of_not_sends nofun fun _ _ => not_asks_reset _ _)
  | handleKey key =>
      exact iff_of_false (not_fails_change _ _)
        (not_meetsEnd_of_not_sends nofun fun _ _ sends => not_asks_reset _ _ sends.2)
  | press | setIrq | nmi | setTime | setRegisters =>
      exact iff_of_false (not_fails_change _ _) (not_meetsEnd_of_not_sends nofun fun _ _ => id)
  | saveRegion | saveState =>
      exact iff_of_false (not_fails_query _) (not_meetsEnd_of_not_sends nofun fun _ _ => id)
  | loadImage | loadState =>
      exact iff_of_false (not_fails_request _) (not_meetsEnd_of_not_sends nofun fun _ _ => id)

/-! ### The clock -/

/-- Time stands still while the processor runs. -/
theorem time_of_step (room : machine.board.ram.size ≤ Board.maxRam) {cycles : Nat}
    (stepped : step machine = .ok cycles after) :
    after.board.time = machine.board.time := by
  obtain ⟨cpu, config, board⟩ := machine
  have kept := Board.keeps_time board.time cpu.step board ⟨room, rfl⟩
  rw [step, perform] at stepped
  cases done : (cpu.step.perform : EStateM Fault Board (Nat × Cpu)) board with
  | ok result between =>
      rw [done] at stepped kept
      cases stepped
      exact kept.2
  | error fault between =>
      rw [done] at stepped
      cases stepped

theorem Runs.time {steps cycles : Nat} (runs : Runs machine steps cycles after)
    (reachable : machine.Reachable) : after.board.time = machine.board.time := by
  induction runs with
  | refl machine => rfl
  | head stepped _ ih =>
      rw [ih (reachable.after_step stepped), time_of_step reachable.ramSize_le stepped]

theorem SendsWithin.time {budget : Nat} {value : UInt8} {now : Board}
    (sends : machine.SendsWithin budget value now) (reachable : machine.Reachable) :
    now.time = machine.board.time := by
  obtain ⟨steps, cycles, before, runs, -, asks⟩ := sends
  rw [asks.time (runs.reachable reachable).ramSize_le, runs.time reachable]

theorem Command.Sends.time {command : Command} {value : UInt8} {now : Board}
    (sends : command.Sends machine value now) (reachable : machine.Reachable) :
    now.time = machine.board.time := by
  have room : machine.board.ram.size ≤ Board.maxRam := reachable.ramSize_le
  cases command with
  | step | reset | peek | poke => exact Transaction.Asks.time sends room
  | tick | runCycles => exact SendsWithin.time sends reachable
  | handleKey key => exact Transaction.Asks.time sends.2 room
  | _ => cases sends

/-! ### Sessions -/

/-- Made by one of the two ways to build a machine. -/
inductive Built : Machine → Prop where
  | build {config : Config} {roms : Roms} {terminal : Terminal} {journal : Log.Journal}
      {machine : Machine} :
      Machine.build config roms terminal journal = .ok machine → Built machine
  | ofImages {config : Config} {monitor basic : Array UInt8} {terminal : Terminal}
      {journal : Log.Journal} {machine : Machine} :
      Machine.ofImages config monitor basic terminal journal = .ok machine → Built machine

theorem Built.reachable (built : machine.Built) : machine.Reachable := by
  cases built with
  | build built => exact .build built
  | ofImages built =>
      rw [Machine.ofImages] at built
      split at built
      · exact .build built
      · cases built

/-- Commands one after the other, with all checks, up to the first trap. -/
def checkedSession : List Command → EStateM Trap Machine (List Reply)
  | [] => pure []
  | command :: rest => do
    let reply ← command.checked
    let replies ← checkedSession rest
    return reply :: replies

theorem checkedSession_eq {commands : List Command} (inRange : ∀ command ∈ commands, command.InRange) :
    checkedSession commands = widen (session commands) := by
  induction commands with
  | nil => rfl
  | cons command rest ih =>
      obtain ⟨first, inRange⟩ := List.forall_mem_cons.mp inRange
      rw [checkedSession, session, Command.checked_eq first, ih inRange]
      simp only [widen_bind, widen_pure]

theorem reachable_of_session {commands : List Command} {replies : List Reply}
    (reachable : machine.Reachable) (ran : session commands machine = .ok replies after) :
    after.Reachable := by
  induction commands generalizing machine replies with
  | nil =>
      cases ran
      exact reachable
  | cons command rest ih =>
      rw [session] at ran
      simp only [bind, EStateM.bind] at ran
      cases first : command.run machine with
      | error fault after =>
          rw [first] at ran
          cases ran
      | ok reply between =>
          rw [first] at ran
          dsimp only at ran
          cases further : session rest between with
          | error fault after =>
              rw [further] at ran
              cases ran
          | ok replies last =>
              rw [further] at ran
              cases ran
              exact ih (.run command reachable first) further

theorem Command.not_meetsEnd {command : Command} (reachable : machine.Reachable)
    (still : ∀ span, command ≠ .advance span)
    (early : machine.board.time.nanoseconds + 1700 < Duration.limit) : ¬command.MeetsEnd machine := by
  rintro (⟨value, now, sends, late⟩ | ⟨span, same, -⟩)
  · have past := late.late
    rw [sends.time reachable] at past
    omega
  · exact still span same

/-- However a machine was built and driven, the next command finds every place inside its memory and every
sum inside its type. It is stopped just if it meets the end of time, which no command does that leaves the
clock alone while there are 1700 nanoseconds left. -/
theorem checked_session (built : machine.Built) {before : List Command} {command : Command}
    (inRange : ∀ asked ∈ before ++ [command], asked.InRange) {replies : List Reply} {reached : Machine}
    (ran : checkedSession before machine = .ok replies reached) :
    session before machine = .ok replies reached ∧ command.checked reached = widen command.run reached ∧
    (∀ trap after, command.checked reached = .error trap after → trap = .fault .endOfTime) ∧
    (Fails command.checked reached ↔ command.MeetsEnd reached) ∧
    ((∀ span, command ≠ .advance span) →
      reached.board.time.nanoseconds + 1700 < Duration.limit →
      ∃ reply after, command.checked reached = .ok reply after) := by
  obtain ⟨earlier, inRange⟩ := List.forall_mem_append.mp inRange
  have same : command.checked = widen command.run :=
    Command.checked_eq (inRange command (List.mem_singleton_self command))
  have plain : session before machine = .ok replies reached := by
    rw [checkedSession_eq earlier, widen] at ran
    split at ran
    · cases ran
      assumption
    · cases ran
  have reachable := reachable_of_session built.reachable plain
  have fails : Fails command.checked reached ↔ command.MeetsEnd reached := by
    rw [same, fails_widen_iff, Command.fails_iff reachable]
  refine ⟨plain, congrFun same reached, fun trap after stopped => ?_, fails, fun still early => ?_⟩
  · rw [same, widen] at stopped
    split at stopped
    · cases stopped
    · cases stopped
      rfl
  · exact exists_ok_of_not_fails (mt fails.mp (Command.not_meetsEnd reachable still early))

/-- The last time there is. -/
def lastTime : Duration := ⟨Duration.limit - 1, by decide⟩

theorem late_blank : (blank.setTime lastTime).board.Late := by
  rw [blank_eq]
  exact ⟨rfl, by decide⟩

theorem built_blank : blank.Built := by
  have built : build .standard .blank .recorder .initial = .ok blank := rfl
  exact .build built

theorem checked_session_last :
    blank.Built ∧ checkedSession [.setTime lastTime] blank = .ok [.done] (blank.setTime lastTime) ∧
    ∃ after, (Command.poke Pia.displayData 0x41).checked (blank.setTime lastTime) =
      .error (.fault .endOfTime) after := by
  have ran : checkedSession [.setTime lastTime] blank = .ok [.done] (blank.setTime lastTime) := rfl
  have inRange : ∀ asked ∈ [Command.setTime lastTime] ++ [.poke Pia.displayData 0x41],
      asked.InRange := by
    intro asked among
    rcases List.mem_cons.mp among with rfl | among
    · trivial
    · cases List.mem_singleton.mp among
      trivial
  obtain ⟨-, -, traps, fails, -⟩ := checked_session built_blank inRange ran
  have meets : (Command.poke Pia.displayData 0x41).MeetsEnd (blank.setTime lastTime) :=
    .inl ⟨0x41, _, .here _, late_blank⟩
  obtain ⟨trap, after, stopped⟩ := fails.mpr meets
  rw [traps trap after stopped] at stopped
  exact ⟨built_blank, ran, after, stopped⟩

end Machine

end AppleOne
