import AppleOne.Proofs.Log.Calls
import AppleOne.Proofs.Machine.Operation
import AppleOne.Proofs.Machine.Twins

/-!
Log and terminal take what they are given and give nothing back. What a machine does, answers and reports
is the same at all levels, and a log's lines are those of its messages that its levels ask for; nor does a
machine notice which terminal it shows its output on (`reporting_unnoticed`).
-/

namespace AppleOne

open Log (Diagnostic Journal)

variable {α β γ δ ε σ : Type}

/-- An outcome whose result and last state are seen through functions. -/
def through (view : α → β) (fit : σ → σ) : EStateM.Result ε σ α → EStateM.Result ε σ β
  | .ok result s => .ok (view result) (fit s)
  | .error failure s => .error failure (fit s)

theorem final_through (view : α → β) (fit : σ → σ) (outcome : EStateM.Result ε σ α) :
    final (through view fit outcome) = fit (final outcome) := by
  cases outcome <;> rfl

theorem through_id : (through id id : EStateM.Result ε σ α → EStateM.Result ε σ α) = id := by
  funext outcome
  cases outcome <;> rfl

theorem through_bind {x : EStateM ε σ α} {f f' : α → EStateM ε σ β} {view : α → γ} {view' : β → δ}
    {fit : σ → σ} {s t : σ} (first : through view id (x t) = through view fit (x s))
    (rest : ∀ result result' between, view result' = view result →
      through view' id (f' result' (fit between)) = through view' fit (f result between)) :
    through view' id ((x >>= f') t) = through view' fit ((x >>= f) s) := by
  simp only [bind, EStateM.bind]
  generalize x t = there at first ⊢
  generalize x s = here at first ⊢
  cases here with
  | ok result between =>
      cases there with
      | ok result' between' =>
          obtain ⟨same, rfl⟩ := EStateM.Result.ok.inj first
          exact rest result result' between same
      | error => cases first
  | error failure stuck =>
      cases there with
      | ok => cases first
      | error =>
          cases first
          rfl

namespace Terminal

theorem putAll_append (terminal : Terminal) (first second : List Event) :
    terminal.putAll (first ++ second) = (terminal.putAll first).putAll second := List.foldl_append

/-- A change that can be made before or after an event is shown. -/
theorem putAll_change {change : Terminal → Terminal}
    (put : ∀ terminal event, (change terminal).put event = change (terminal.put event)) (terminal : Terminal)
    (events : List Event) : (change terminal).putAll events = change (terminal.putAll events) :=
  List.foldl_hom change put

end Terminal

/-! ### Programs that only report -/

/-- Whatever log and terminal a state is fitted with, the program ends alike, with the same messages offered
to the log and the same events shown. -/
def Reports (fit : Journal → Terminal → σ → σ) (x : EStateM ε σ α) : Prop :=
  ∀ s, ∃ (messages : List Diagnostic) (events : List Terminal.Event), ∀ journal terminal,
    x (fit journal terminal s) =
      through id (fit (journal.noteAll messages) (terminal.putAll events)) (x s)

namespace Reports

variable {fit : Journal → Terminal → σ → σ}

protected theorem pure (result : α) : Reports fit (pure result : EStateM ε σ α) :=
  fun _ => ⟨[], [], fun _ _ => rfl⟩

protected theorem bind {x : EStateM ε σ α} {f : α → EStateM ε σ β} (first : Reports fit x)
    (rest : ∀ result, Reports fit (f result)) : Reports fit (x >>= f) := by
  intro s
  obtain ⟨messages, events, begun⟩ := first s
  cases done : x s with
  | ok result between =>
      obtain ⟨later, shown, ended⟩ := rest result between
      refine ⟨messages ++ later, events ++ shown, fun journal terminal => ?_⟩
      simp only [bind, EStateM.bind, begun, done, through, id, ended, Journal.noteAll_append,
        Terminal.putAll_append]
  | error failure stuck =>
      refine ⟨messages, events, fun journal terminal => ?_⟩
      simp only [bind, EStateM.bind, begun, done, through]

protected theorem map {x : EStateM ε σ α} (reports : Reports fit x) (f : α → β) : Reports fit (f <$> x) := by
  rw [map_eq_pure_bind]
  exact reports.bind fun _ => .pure _

protected theorem perform [Device (EStateM ε σ)]
    (read : ∀ address, Reports fit (Device.read address : EStateM ε σ UInt8))
    (write : ∀ address value, Reports fit (Device.write address value : EStateM ε σ Unit))
    (note : ∀ diagnostic, Reports fit (Device.note diagnostic : EStateM ε σ Unit))
    (t : Transaction α) : Reports fit (t.perform : EStateM ε σ α) := by
  induction t with
  | done result => exact .pure result
  | read address next ih => exact (read address).bind ih
  | write address value next ih => exact (write address value).bind fun _ => ih
  | note diagnostic next ih => exact (note diagnostic).bind fun _ => ih

theorem repeatWithin {x : EStateM ε σ Nat} (reports : Reports fit x) (fuel budget executed : Nat) :
    Reports fit (Machine.repeatWithin x fuel budget executed) := by
  induction fuel generalizing executed with
  | zero => exact .pure executed
  | succ fuel ih =>
      rw [Machine.repeatWithin]
      split
      · exact reports.bind fun _ => ih _
      · exact .pure executed

end Reports

/-! ### The board -/

namespace Board

/-- A board with another log and another terminal. -/
def fitted (journal : Journal) (terminal : Terminal) (board : Board) : Board :=
  { board with terminal := terminal, journal := journal }

theorem reports_read (address : UInt16) : Reports fitted (read address) := by
  rintro ⟨ram, roms, pia, terminal, time, journal⟩
  by_cases inside : address.toNat < ram.size
  · refine ⟨[], [], fun journal terminal => ?_⟩
    dsimp only [read, fitted]
    rw [dif_pos inside, dif_pos inside]
    rfl
  · by_cases covered : Pia.covers address
    · refine ⟨(pia.read time address).2.2.toList, [], fun journal terminal => ?_⟩
      dsimp only [read, fitted]
      rw [dif_neg inside, dif_neg inside, if_pos covered, if_pos covered, Journal.noteAny_eq]
      rfl
    · refine ⟨[], [], fun journal terminal => ?_⟩
      dsimp only [read, fitted]
      rw [dif_neg inside, dif_neg inside, if_neg covered, if_neg covered]
      rfl

theorem reports_write (address : UInt16) (value : UInt8) : Reports fitted (write address value) := by
  rintro ⟨ram, roms, pia, terminal, time, journal⟩
  by_cases inside : address.toNat < ram.size
  · refine ⟨[], [], fun journal terminal => ?_⟩
    dsimp only [write, fitted]
    rw [dif_pos inside, dif_pos inside]
    rfl
  · by_cases covered : Pia.covers address
    · cases done : pia.write? time address value with
      | some written =>
          obtain ⟨pia', shown, report⟩ := written
          refine ⟨[report], shown.toList, fun journal terminal => ?_⟩
          dsimp only [write, fitted]
          rw [dif_neg inside, dif_neg inside, if_pos covered, if_pos covered, done]
          cases shown <;> rfl
      | none =>
          refine ⟨[], [], fun journal terminal => ?_⟩
          dsimp only [write, fitted]
          rw [dif_neg inside, dif_neg inside, if_pos covered, if_pos covered, done]
          rfl
    · refine ⟨[.writeDiscarded value address], [], fun journal terminal => ?_⟩
      dsimp only [write, fitted]
      rw [dif_neg inside, dif_neg inside, if_neg covered, if_neg covered]
      rfl

theorem reports_note (diagnostic : Diagnostic) : Reports fitted (note diagnostic) :=
  fun _ => ⟨[diagnostic], [], fun _ _ => rfl⟩

theorem reports_perform (t : Transaction α) : Reports fitted (t.perform : EStateM Fault Board α) :=
  .perform reports_read reports_write reports_note t

end Board

namespace Machine

/-! ### Commands -/

/-- A machine with another log and another terminal. -/
def fitted (journal : Journal) (terminal : Terminal) (machine : Machine) : Machine :=
  { machine with board := machine.board.fitted journal terminal }

theorem reports_perform (act : Cpu → Transaction (α × Cpu)) : Reports fitted (perform act) := by
  rintro ⟨cpu, config, board⟩
  obtain ⟨messages, events, same⟩ := Board.reports_perform (act cpu) board
  refine ⟨messages, events, fun journal terminal => ?_⟩
  simp only [perform, fitted, same]
  cases ((act cpu).perform : EStateM Fault Board (α × Cpu)) board <;> rfl

theorem reports_runCycles (budget : UInt32) : Reports fitted (runCycles budget) :=
  (reports_perform Cpu.step).repeatWithin _ _ _

/-- A change that offers the same messages and shows the same events, whatever log and terminal the machine
is fitted with. -/
def ChangeReports (f : Machine → Machine) : Prop :=
  ∀ machine, ∃ (messages : List Diagnostic) (events : List Terminal.Event), ∀ journal terminal,
    f (fitted journal terminal machine) =
      (f machine).fitted (journal.noteAll messages) (terminal.putAll events)

theorem changeReports_quiet {f : Machine → Machine}
    (same : ∀ machine journal terminal,
      f (fitted journal terminal machine) = (f machine).fitted journal terminal) : ChangeReports f :=
  fun machine => ⟨[], [], same machine⟩

theorem ChangeReports.change {f : Machine → Machine} (reports : ChangeReports f) (reply : Reply) :
    Reports fitted (change reply f) := by
  intro machine
  obtain ⟨messages, events, same⟩ := reports machine
  exact ⟨messages, events, fun journal terminal => congrArg _ (same journal terminal)⟩

theorem changeReports_reset : ChangeReports reset := by
  intro machine
  obtain ⟨messages, events, same⟩ := reports_perform (fun cpu => Prod.mk () <$> cpu.reset) machine
  refine ⟨messages, events, fun journal terminal => ?_⟩
  rw [reset_eq, reset_eq, same, final_through]

theorem changeReports_press (code : UInt8) : ChangeReports (press code) := by
  rintro ⟨cpu, config, ram, roms, pia, terminal, time, journal⟩
  refine ⟨(pia.press code).2.toList, [], fun journal terminal => ?_⟩
  simp only [press, Board.press, fitted, Board.fitted, Journal.noteAny_eq]
  rfl

theorem changeReports_handleKey (key : HostKey) : ChangeReports (handleKey key) := by
  intro machine
  unfold handleKey
  cases key.action with
  | some action =>
      cases action with
      | key code => exact changeReports_press code machine
      | reset => exact changeReports_reset machine
  | none => exact ⟨[], [], fun _ _ => rfl⟩

theorem reports_query {f : Machine → Reply}
    (same : ∀ machine journal terminal, f (fitted journal terminal machine) = f machine) :
    Reports fitted (query f) := by
  refine fun machine => ⟨[], [], fun journal terminal => ?_⟩
  rw [query, same]
  rfl

theorem reports_loadImage (address : UInt16) (image : Array UInt8) :
    Reports fitted (request (loadImage address image)) := by
  intro machine
  by_cases outside : machine.ramSize ≤ address.toNat
  · refine ⟨[], [], fun journal terminal => ?_⟩
    have outside' : (machine.fitted journal terminal).ramSize ≤ address.toNat := outside
    simp only [request, loadImage, if_pos outside, if_pos outside']
    rfl
  · by_cases large : machine.ramSize < address.toNat + image.size
    · refine ⟨[], [], fun journal terminal => ?_⟩
      have outside' : ¬(machine.fitted journal terminal).ramSize ≤ address.toNat := outside
      have large' : (machine.fitted journal terminal).ramSize < address.toNat + image.size := large
      simp only [request, loadImage, if_neg outside, if_neg outside', if_pos large, if_pos large']
      rfl
    · refine ⟨[.imageLoaded image.size address], [], fun journal terminal => ?_⟩
      have outside' : ¬(machine.fitted journal terminal).ramSize ≤ address.toNat := outside
      have large' : ¬(machine.fitted journal terminal).ramSize < address.toNat + image.size := large
      simp only [request, loadImage, if_neg outside, if_neg outside', if_neg large, if_neg large']
      rfl

theorem reports_loadState (state : Json) : Reports fitted (request (loadState state)) := by
  refine fun machine => ⟨[], [], fun journal terminal => ?_⟩
  have size : (machine.fitted journal terminal).ramSize = machine.ramSize := rfl
  simp only [request, loadState, size]
  cases SavedState.ofJson machine.ramSize state <;> rfl

theorem reports_advance (span : Duration) : Reports fitted (advance span) := by
  refine fun machine => ⟨[], [], fun journal terminal => ?_⟩
  have time : (machine.fitted journal terminal).board.time = machine.board.time := rfl
  simp only [advance, time]
  cases machine.board.time.add? span <;> rfl

theorem Command.reports (command : Command) : Reports fitted command.run := by
  cases command with
  | step => exact (reports_perform Cpu.step).map _
  | tick =>
      refine Reports.map (fun machine => ?_) _
      exact reports_runCycles machine.config.cyclesPerTick machine
  | runCycles budget => exact (reports_runCycles budget).map _
  | reset => exact changeReports_reset.change _
  | press code => exact (changeReports_press code).change _
  | handleKey key => exact (changeReports_handleKey key).change _
  | setIrq level => exact (changeReports_quiet fun _ _ _ => rfl).change _
  | nmi => exact (changeReports_quiet fun _ _ _ => rfl).change _
  | peek address =>
      rw [run, peek_eq]
      exact (reports_perform _).map _
  | poke address value =>
      rw [run, poke_eq]
      exact (reports_perform _).map _
  | loadImage address image => exact reports_loadImage address image
  | saveRegion start last => exact reports_query fun _ _ _ => rfl
  | advance span => exact (reports_advance span).map _
  | setTime time => exact (changeReports_quiet fun _ _ _ => rfl).change _
  | setRegisters registers => exact (changeReports_quiet fun _ _ _ => rfl).change _
  | saveState => exact reports_query fun _ _ _ => rfl
  | loadState state => exact reports_loadState state

/-! ### Another log -/

/-- A machine with another log. -/
def withJournal (journal : Journal) (machine : Machine) : Machine :=
  machine.fitted journal machine.board.terminal

/-- A machine whose terminal is changed. -/
def onTerminal (change : Terminal → Terminal) (machine : Machine) : Machine :=
  machine.fitted machine.board.journal (change machine.board.terminal)

section

variable {messages : List Diagnostic} {events : List Terminal.Event} {machine : Machine} {x : Run α}
  (same : ∀ journal terminal, x (machine.fitted journal terminal) =
    through id (fitted (journal.noteAll messages) (terminal.putAll events)) (x machine))
include same

theorem final_terminal : (final (x machine)).board.terminal = machine.board.terminal.putAll events := by
  have own := congrArg final (same machine.board.journal machine.board.terminal)
  rw [final_through] at own
  exact congrArg (fun after : Machine => after.board.terminal) own

theorem final_journal : (final (x machine)).board.journal = machine.board.journal.noteAll messages := by
  have own := congrArg final (same machine.board.journal machine.board.terminal)
  rw [final_through] at own
  exact congrArg (fun after : Machine => after.board.journal) own

theorem run_withJournal (journal : Journal) :
    x (machine.withJournal journal) = through id (withJournal (journal.noteAll messages)) (x machine) := by
  rw [withJournal, same, ← final_terminal same]
  cases x machine <;> rfl

theorem run_onTerminal {change : Terminal → Terminal}
    (put : ∀ terminal event, (change terminal).put event = change (terminal.put event)) :
    x (machine.onTerminal change) = through id (onTerminal change) (x machine) := by
  rw [onTerminal, same, Terminal.putAll_change put, ← final_terminal same, ← final_journal same]
  cases x machine <;> rfl

end

theorem Operation.reports (operation : Operation) (machine : Machine) : ∃ messages : List Diagnostic,
    ∀ journal, operation.run (machine.withJournal journal) =
      through id (withJournal (journal.noteAll messages)) (operation.run machine) := by
  cases operation with
  | ask command =>
      obtain ⟨messages, events, same⟩ := (command.reports.map Answer.reply) machine
      exact ⟨messages, run_withJournal same⟩
  | look what => exact ⟨[], fun _ => by cases what <;> rfl⟩
  | takeEvents => exact ⟨[], fun _ => rfl⟩

theorem operate_reports (operations : List Operation) (machine : Machine) : ∃ messages : List Diagnostic,
    ∀ journal, operate operations (machine.withJournal journal) =
      through id (withJournal (journal.noteAll messages)) (operate operations machine) := by
  induction operations generalizing machine with
  | nil => exact ⟨[], fun _ => rfl⟩
  | cons operation rest ih =>
      obtain ⟨messages, first⟩ := operation.reports machine
      cases done : operation.run machine with
      | ok answer between =>
          obtain ⟨later, further⟩ := ih between
          refine ⟨messages ++ later, fun journal => ?_⟩
          simp only [operate, bind, EStateM.bind, first, done, through, id, further,
            Journal.noteAll_append]
          cases operate rest between <;> rfl
      | error fault stuck =>
          refine ⟨messages, fun journal => ?_⟩
          simp only [operate, bind, EStateM.bind, first, done, through]

/-! ### Another terminal -/

/-- A change of terminals that goes along with what is shown and taken, and that is not to be seen in
answers as `view` shows them. -/
structure Hides (change : Terminal → Terminal) (view : Answer → Answer) : Prop where
  put : ∀ terminal event, (change terminal).put event = change (terminal.put event)
  take : ∀ terminal, (change terminal).take.2 = change terminal.take.2
  events : ∀ terminal, view (.events (change terminal).events.toList) = view (.events terminal.events.toList)
  text : ∀ terminal, view (.text (change terminal).text) = view (.text terminal.text)

theorem hides_boxed : Hides .boxed id where
  put _ _ := rfl
  take _ := rfl
  events _ := rfl
  text _ := rfl

/-- Answers apart from those that were read off the terminal. -/
def Answer.apartFromTerminal : Answer → Answer
  | .events _ => .events []
  | .text _ => .text ""
  | answer => answer

theorem hides_discarding : Hides (fun _ => .discarding) Answer.apartFromTerminal where
  put _ _ := rfl
  take _ := rfl
  events _ := rfl
  text _ := rfl

section

variable {change : Terminal → Terminal} {view : Answer → Answer} (hides : Hides change view)
include hides

theorem Operation.run_onTerminal (operation : Operation) (machine : Machine) :
    through view id (operation.run (machine.onTerminal change)) =
      through view (onTerminal change) (operation.run machine) := by
  cases operation with
  | ask command =>
      obtain ⟨messages, events, same⟩ := (command.reports.map Answer.reply) machine
      rw [run, Machine.run_onTerminal same hides.put]
      cases (Answer.reply <$> command.run) machine <;> rfl
  | look what =>
      cases what with
      | events => exact congrArg (EStateM.Result.ok · _) (hides.events _)
      | text => exact congrArg (EStateM.Result.ok · _) (hides.text _)
      | debugInfo | displayBusy => rfl
  | takeEvents =>
      have batch := hides.events machine.board.terminal
      rw [← Terminal.take_events, ← Terminal.take_events] at batch
      have rest := hides.take machine.board.terminal
      have changed : through view id (takeEvents.run (machine.onTerminal change)) =
          .ok (view (.events (change machine.board.terminal).take.1.toList))
            (machine.fitted machine.board.journal (change machine.board.terminal).take.2) := rfl
      rw [changed, batch, rest]
      rfl

theorem operate_onTerminal (operations : List Operation) (machine : Machine) :
    through (List.map view) id (operate operations (machine.onTerminal change)) =
      through (List.map view) (onTerminal change) (operate operations machine) := by
  induction operations generalizing machine with
  | nil => rfl
  | cons operation rest ih =>
      refine through_bind (operation.run_onTerminal hides machine) fun answer answer' between same => ?_
      refine through_bind (ih between) fun answers answers' after sames => ?_
      exact congrArg (EStateM.Result.ok · _) (List.cons_eq_cons.mpr ⟨same, sames⟩)

end

/-! ### From the start -/

/-- Builds a machine and operates on it. -/
def operateNew (config : Config) (roms : Roms) (terminal : Terminal) (journal : Journal)
    (operations : List Operation) : Except Error (EStateM.Result Fault Machine (List Answer)) :=
  operate operations <$> build config roms terminal journal

/-- Building reports alike, whatever the log and the terminal. -/
theorem build_reports (config : Config) (roms : Roms) :
    ∃ (base : Except Error Machine) (messages : List Diagnostic) (events : List Terminal.Event),
      ∀ terminal journal, build config roms terminal journal =
        fitted (journal.noteAll messages) (terminal.putAll events) <$> base := by
  obtain ⟨messages, events, same⟩ := changeReports_reset (switchedOn config roms .discarding .initial)
  refine ⟨build config roms .discarding .initial, messages, events, fun terminal journal => ?_⟩
  have reset : (switchedOn config roms terminal journal).reset = _ := same journal terminal
  unfold build
  split
  · rfl
  · split
    · rfl
    · split
      · rfl
      · exact congrArg Except.ok reset

section

variable (config : Config) (roms : Roms) (terminal : Terminal) (operations : List Operation)

theorem operateNew_reports : ∃ messages : List Diagnostic, ∀ journal other,
    operateNew config roms terminal journal operations =
      through id (withJournal (journal.noteAll messages)) <$>
        operateNew config roms terminal other operations := by
  obtain ⟨base, atReset, shown, built⟩ := build_reports config roms
  cases base with
  | error cause =>
      refine ⟨[], fun journal other => ?_⟩
      rw [operateNew, operateNew, built, built]
      rfl
  | ok machine =>
      obtain ⟨later, run⟩ := operate_reports operations (machine.fitted .initial (terminal.putAll shown))
      refine ⟨atReset ++ later, fun journal other => ?_⟩
      have starting (journal : Journal) : operateNew config roms terminal journal operations =
          .ok (through id (withJournal (journal.noteAll (atReset ++ later)))
            (operate operations (machine.fitted .initial (terminal.putAll shown)))) := by
        rw [operateNew, built, Journal.noteAll_append]
        exact congrArg Except.ok (run (journal.noteAll atReset))
      rw [starting, starting]
      cases operate operations (machine.fitted .initial (terminal.putAll shown)) <;> rfl

theorem operateNew_onTerminal {change : Terminal → Terminal} {view : Answer → Answer}
    (hides : Hides change view) (journal : Journal) :
    through (List.map view) id <$> operateNew config roms (change terminal) journal operations =
      through (List.map view) (onTerminal change) <$> operateNew config roms terminal journal operations := by
  obtain ⟨base, atReset, shown, built⟩ := build_reports config roms
  rw [operateNew, operateNew, built, built, Terminal.putAll_change hides.put]
  cases base with
  | error cause => rfl
  | ok machine =>
      have same := operate_onTerminal hides operations
        (machine.fitted (journal.noteAll atReset) (terminal.putAll shown))
      exact congrArg Except.ok same

end

/-- Log and terminal only observe. A run offers its messages to every log alike: all else is as it is with
every level off, and as long as none is refused a log takes those that its levels ask for out of the ones
that it takes at the finest level. Nor does anything but looking at the terminal tell a boxed terminal, or
any other, from the one that was there. -/
theorem observers_unnoticed (config : Config) (roms : Roms) (operations : List Operation) :
    (∀ terminal, ∃ messages : List Diagnostic, ∀ journal : Journal,
      operateNew config roms terminal journal operations =
        through id (withJournal (journal.noteAll messages)) <$>
          operateNew config roms terminal journal.resetLevels operations ∧
      ((journal.noteAll messages).Unrefused → (journal.atTrace.noteAll messages).Unrefused →
        (journal.atTrace.noteAll messages).lines.toList =
          journal.lines.toList ++ messages.map journal.lineOf ∧
        (journal.noteAll messages).lines.toList = journal.lines.toList ++
          (messages.filter fun message =>
            Log.Wanted journal.globalLevel journal.levels message.category message.level).map
              journal.lineOf)) ∧
    (∀ terminal journal, operateNew config roms (.boxed terminal) journal operations =
      through id (onTerminal .boxed) <$> operateNew config roms terminal journal operations) ∧
    ∀ terminal other journal,
      through (List.map Answer.apartFromTerminal) (onTerminal fun _ => .discarding) <$>
          operateNew config roms other journal operations =
        through (List.map Answer.apartFromTerminal) (onTerminal fun _ => .discarding) <$>
          operateNew config roms terminal journal operations := by
  refine ⟨fun terminal => ?_, fun terminal journal => ?_, fun terminal other journal => ?_⟩
  · obtain ⟨messages, same⟩ := operateNew_reports config roms terminal operations
    refine ⟨messages, fun journal => ⟨same journal journal.resetLevels, fun unrefused atTrace => ?_⟩⟩
    refine ⟨?_, (Journal.lines_noteAll unrefused).2⟩
    have all : (messages.filter fun message =>
        Log.Wanted .trace (.const .trace) message.category message.level) = messages :=
      List.filter_eq_self.mpr fun message _ => decide_eq_true (Journal.wanted_atTrace message)
    have lines := (Journal.lines_noteAll atTrace).2
    have asked : journal.atTrace.globalLevel = .trace ∧ journal.atTrace.levels = .const .trace := ⟨rfl, rfl⟩
    rw [asked.1, asked.2, all] at lines
    exact lines
  · have boxed := operateNew_onTerminal config roms terminal operations hides_boxed journal
    rwa [List.map_id_fun, through_id, id_map] at boxed
  · exact (operateNew_onTerminal config roms other operations hides_discarding journal).symm.trans
      (operateNew_onTerminal config roms terminal operations hides_discarding journal)

/-- Two keys, of which the first is lost, and a look at what was shown. -/
def twoKeys : List Operation := [.ask (.press 0x41), .ask (.press 0x42), .look .events]

theorem operate_twoKeys (machine : Machine) (free : machine.board.pia.key = none)
    (empty : machine.board.terminal = .recorder) :
    operate twoKeys machine =
        .ok [.reply .done, .reply .done, .events []] ((machine.press 0x41).press 0x42) ∧
      ((machine.press 0x41).press 0x42).board.journal =
        machine.board.journal.note (.keyLost 0x41 0x42) := by
  obtain ⟨cpu, config, ram, roms, ⟨key, readyAt⟩, terminal, time, journal⟩ := machine
  cases free
  cases empty
  exact ⟨rfl, rfl⟩

theorem operateNew_twoKeys (journal : Journal) : ∃ after,
    operateNew .standard .blank .recorder journal twoKeys =
        .ok (.ok [.reply .done, .reply .done, .events []] after) ∧
      after.board.journal = journal.noteAll [.reset 0xFF00, .keyLost 0x41 0x42] := by
  have room : (switchedOn .standard .blank .recorder journal).board.ram.size ≤ Board.maxRam := by
    rw [switchedOn, Array.size_replicate]
    decide
  have started := reset_eq_restarted room
  have built : build .standard .blank .recorder journal =
      .ok (switchedOn .standard .blank .recorder journal).reset := rfl
  rw [started] at built
  obtain ⟨ran, left⟩ := operate_twoKeys { switchedOn .standard .blank .recorder journal with
    cpu := (switchedOn .standard .blank .recorder journal).cpu.restarted 0xFF00
    board := { (switchedOn .standard .blank .recorder journal).board with
      journal := journal.note (.reset 0xFF00) } } rfl rfl
  exact ⟨_, (congrArg (operate twoKeys <$> ·) built).trans (congrArg Except.ok ran), left⟩

/-- A log that is kept for the adapter alone. -/
def adapterLog : Journal := { Journal.initial with levels := (Log.PerCategory.const .off).set .pia .trace }

/-- With the adapter's messages asked for alone, the lost key is logged and the reset is not. -/
theorem observers_unnoticed_twoKeys : ∃ messages : List Diagnostic,
    (adapterLog.noteAll messages).Unrefused ∧ (adapterLog.atTrace.noteAll messages).Unrefused ∧
    messages.map adapterLog.lineOf =
      [adapterLog.lineOf (.reset 0xFF00), adapterLog.lineOf (.keyLost 0x41 0x42)] ∧
    (messages.filter fun message =>
        Log.Wanted adapterLog.globalLevel adapterLog.levels message.category message.level).map
          adapterLog.lineOf =
      [adapterLog.lineOf (.keyLost 0x41 0x42)] := by
  obtain ⟨reports, -⟩ := observers_unnoticed .standard .blank twoKeys
  obtain ⟨messages, same⟩ := reports .recorder
  have journals (journal : Journal) : journal.noteAll messages =
      journal.noteAll [.reset 0xFF00, .keyLost 0x41 0x42] := by
    obtain ⟨after, ran, left⟩ := operateNew_twoKeys journal
    obtain ⟨quiet, ranQuiet, -⟩ := operateNew_twoKeys journal.resetLevels
    have both := (same journal).1
    rw [ran, ranQuiet] at both
    obtain ⟨-, rfl⟩ := EStateM.Result.ok.inj (Except.ok.inj both)
    exact left
  have unrefused : (adapterLog.noteAll messages).Unrefused := by
    rw [journals]
    intro category
    cases category <;> rfl
  have atTrace : (adapterLog.atTrace.noteAll messages).Unrefused := by
    rw [journals]
    intro category
    cases category <;> rfl
  obtain ⟨all, wanted⟩ := (same adapterLog).2 unrefused atTrace
  rw [journals] at all wanted
  exact ⟨messages, unrefused, atTrace, all.symm, wanted.symm⟩

end Machine

end AppleOne
