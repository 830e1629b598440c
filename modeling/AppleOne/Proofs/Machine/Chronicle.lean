import AppleOne.Proofs.Bus.Replay
import AppleOne.Proofs.Machine.Handlers
import AppleOne.Proofs.Machine.Reachable

/-!
What happens on the board while a host drives the machine, written down in order. Writing it down does
not disturb (`records_session`), and what every single event keeps holds after a whole session
(`Kept.keeps_session`).
-/

namespace AppleOne

/-- What happens on a board. -/
inductive Event where
  | access (access : Access)
  /-- An image was copied into RAM. -/
  | image (start : UInt16) (bytes : Array UInt8)
  /-- RAM and key were replaced by saved ones. -/
  | restored (ram : Array UInt8) (key : Option UInt8)
  | pressed (code : UInt8)
  /-- The clock shows another time from here on. -/
  | clock (time : Duration)

namespace Machine

variable {α β : Type}

/-- A machine with what has happened on its board. -/
structure Chronicle where
  machine : Machine
  events : List Event

/-- A run that is written down. -/
abbrev Recording := EStateM Fault Chronicle

namespace Recording

def perform (act : Cpu → Transaction (α × Cpu)) : Recording α :=
  fun ⟨⟨cpu, config, board⟩, events⟩ =>
    match ((act cpu).perform : EStateM Fault (Watched Board) (α × Cpu)) (.start board) with
    | .ok (result, cpu) ⟨board, accesses⟩ =>
      .ok result ⟨⟨cpu, config, board⟩, events ++ accesses.map .access⟩
    | .error fault ⟨board, accesses⟩ =>
      .error fault ⟨⟨cpu, config, board⟩, events ++ accesses.map .access⟩

/-- What a command does to the board past the bus. -/
def noted (machine : Machine) : Command → List Event
  | .press code => [.pressed code]
  | .handleKey key =>
    match key.action with
    | some (.key code) => [.pressed code]
    | _ => []
  | .loadImage address image =>
    match machine.loadImage address image with
    | .ok _ => [.image address image]
    | .error _ => []
  | .advance span =>
    match machine.board.time.add? span with
    | some time => [.clock time]
    | none => []
  | .setTime time => [.clock (machine.board.time.longer time)]
  | .loadState state =>
    match SavedState.ofJson machine.ramSize state with
    | .ok saved => [.restored saved.ram saved.key]
    | .error _ => []
  | _ => []

/-- A command that does not use the bus. -/
def aside (command : Command) : Recording Reply := fun ⟨machine, events⟩ =>
  match command.run machine with
  | .ok reply after => .ok reply ⟨after, events ++ noted machine command⟩
  | .error fault after => .error fault ⟨after, events ++ noted machine command⟩

def resetBy (reply : Reply) : Recording Reply :=
  (fun _ => reply) <$> perform fun cpu => Prod.mk () <$> cpu.reset

def command : Command → Recording Reply
  | .step => .cycles <$> perform Cpu.step
  | .tick => .cycles <$> fun chronicle =>
    repeatStep (perform Cpu.step) chronicle.machine.config.cyclesPerTick chronicle
  | .runCycles budget => .cycles <$> repeatStep (perform Cpu.step) budget
  | .reset => resetBy .done
  | .handleKey key =>
    if key.action = some .reset then resetBy (.action key.action) else aside (.handleKey key)
  | .peek address => .byte <$> perform fun cpu => .read address fun value => .done (value, cpu)
  | .poke address value =>
    (fun _ => .done) <$> perform fun cpu => .write address value (.done ((), cpu))
  | command => aside command

def session : List Command → Recording (List Reply)
  | [] => pure []
  | first :: rest => do
    let reply ← command first
    let replies ← session rest
    return reply :: replies

/-! ### Writing down does not disturb -/

/-- Without what is written down it is that run. -/
def Records (recording : Recording α) (run : Run α) : Prop := ∀ chronicle,
  match recording chronicle with
  | .ok result after => run chronicle.machine = .ok result after.machine
  | .error fault after => run chronicle.machine = .error fault after.machine

namespace Records

protected theorem pure (result : α) : Records (pure result) (pure result) := fun _ => rfl

protected theorem bind {recording : Recording α} {run : Run α} {next : α → Recording β}
    {next' : α → Run β} (first : Records recording run)
    (rest : ∀ result, Records (next result) (next' result)) :
    Records (recording >>= next) (run >>= next') := by
  intro chronicle
  have begun := first chronicle
  simp only [bind, EStateM.bind]
  cases done : recording chronicle with
  | ok result after =>
      rw [done] at begun
      rw [show run chronicle.machine = _ from begun]
      exact rest result after
  | error fault after =>
      rw [done] at begun
      rw [show run chronicle.machine = _ from begun]

protected theorem map {recording : Recording α} {run : Run α} (f : α → β)
    (h : Records recording run) : Records (f <$> recording) (f <$> run) := by
  rw [map_eq_pure_bind, map_eq_pure_bind]
  exact h.bind fun result => .pure (f result)

theorem repeatWithin {recording : Recording Nat} {run : Run Nat} (h : Records recording run)
    (fuel budget executed : Nat) :
    Records (Machine.repeatWithin recording fuel budget executed)
      (Machine.repeatWithin run fuel budget executed) := by
  induction fuel generalizing executed with
  | zero => exact .pure executed
  | succ fuel ih =>
      rw [Machine.repeatWithin, Machine.repeatWithin]
      split
      · exact h.bind fun cycles => ih _
      · exact .pure executed

end Records

theorem records_perform (act : Cpu → Transaction (α × Cpu)) :
    Records (perform act) (Machine.perform act) := by
  rintro ⟨⟨cpu, config, board⟩, events⟩
  have watched := (act cpu).perform_watched (ε := Fault) (Watched.start board)
  dsimp only [perform, Machine.perform]
  generalize ((act cpu).perform : EStateM Fault (Watched Board) (α × Cpu)) (.start board) = outcome
    at watched ⊢
  cases outcome with
  | ok result after =>
      rw [show ((act cpu).perform : EStateM Fault Board _) board = _ from watched]
  | error fault after =>
      rw [show ((act cpu).perform : EStateM Fault Board _) board = _ from watched]

theorem records_aside (command : Command) : Records (aside command) command.run := by
  rintro ⟨machine, events⟩
  dsimp only [aside]
  cases command.run machine <;> rfl

theorem records_resetBy (reply : Reply) : Records (resetBy reply) (change reply Machine.reset) := by
  have recorded := (records_perform fun cpu => Prod.mk () <$> cpu.reset).map fun _ => reply
  rw [perform_reset] at recorded
  exact recorded

theorem records_command (command : Command) : Records (Recording.command command) command.run := by
  cases command with
  | step => exact (records_perform Cpu.step).map _
  | tick =>
      refine Records.map _ fun chronicle => ?_
      exact (records_perform Cpu.step).repeatWithin _ _ _ chronicle
  | runCycles budget => exact ((records_perform Cpu.step).repeatWithin _ _ _).map _
  | reset => exact records_resetBy .done
  | handleKey key =>
      -- The reset key is the only one that reaches the bus.
      by_cases escape : key.action = some .reset
      · rw [Recording.command, if_pos escape, Command.run, handleKey_reset escape]
        exact records_resetBy (.action key.action)
      · rw [Recording.command, if_neg escape]
        exact records_aside (.handleKey key)
  | peek address =>
      rw [Command.run, peek_eq]
      exact (records_perform _).map _
  | poke address value =>
      rw [Command.run, poke_eq]
      exact (records_perform _).map _
  | press code => exact records_aside (.press code)
  | setIrq level => exact records_aside (.setIrq level)
  | nmi => exact records_aside .nmi
  | loadImage address image => exact records_aside (.loadImage address image)
  | saveRegion start last => exact records_aside (.saveRegion start last)
  | advance span => exact records_aside (.advance span)
  | setTime time => exact records_aside (.setTime time)
  | setRegisters registers => exact records_aside (.setRegisters registers)
  | saveState => exact records_aside .saveState
  | loadState state => exact records_aside (.loadState state)

theorem records_session (commands : List Command) :
    Records (Recording.session commands) (Machine.session commands) := by
  induction commands with
  | nil => exact .pure []
  | cons first rest ih =>
      exact (records_command first).bind fun reply => ih.bind fun replies => .pure (reply :: replies)

theorem Records.final_eq {recording : Recording α} {run : Run α} (h : Records recording run)
    (chronicle : Chronicle) : (final (recording chronicle)).machine = final (run chronicle.machine) := by
  have recorded := h chronicle
  cases done : recording chronicle with
  | ok result after =>
      rw [done] at recorded
      rw [show run chronicle.machine = _ from recorded]
      rfl
  | error fault after =>
      rw [done] at recorded
      rw [show run chronicle.machine = _ from recorded]
      rfl

/-! ### What every event keeps -/

/-- What a chronicle says, if it is about events and board. -/
def Holds (I : List Event → Board → Prop) (chronicle : Chronicle) : Prop :=
  I chronicle.events chronicle.machine.board

/-- Every single event keeps what is said about the events so far and the board. -/
structure Kept (I : List Event → Board → Prop) : Prop where
  read : ∀ {events board address value after}, I events board → board.read address = .ok value after →
    I (events ++ [.access (.read address value)]) after
  write : ∀ {events board address value after}, I events board →
    board.write address value = .ok () after → I (events ++ [.access (.write address value)]) after
  journal : ∀ {events board} journal, I events board → I events { board with journal := journal }
  press : ∀ {events board} code, I events board → I (events ++ [.pressed code]) (board.press code)
  image : ∀ {events board} {start : UInt16} {bytes : Array UInt8}, I events board →
    start.toNat + bytes.size ≤ board.ram.size →
    I (events ++ [.image start bytes]) { board with ram := overlay board.ram bytes start.toNat }
  restore : ∀ {events board} {ram : Array UInt8} key, I events board → ram.size = board.ram.size →
    I (events ++ [.restored ram key]) { board with ram := ram, pia := board.pia.restore key }
  clock : ∀ {events board time}, I events board → board.time ≤ time →
    I (events ++ [.clock time]) { board with time := time }

namespace Kept

variable {I : List Event → Board → Prop} (kept : Kept I)
include kept

theorem keeps_watched (events : List Event) (t : Transaction α) :
    Keeps (fun watched => I (events ++ watched.accesses.map .access) watched.device)
      (t.perform : EStateM Fault (Watched Board) α) := by
  apply Keeps.perform
  · rintro address ⟨board, accesses⟩ holds
    obtain ⟨value, after, done, -⟩ := board.exists_read address
    have further := kept.read holds done
    simp only [Device.read, done]
    simpa [final] using further
  · rintro address value ⟨board, accesses⟩ holds
    simp only [Device.write]
    -- A write that fails is not among the accesses.
    cases done : board.write address value with
    | ok _ after => simpa [final] using kept.write holds done
    | error fault after =>
        rw [Board.of_write_error done]
        exact holds
  · rintro diagnostic ⟨board, accesses⟩ holds
    exact kept.journal _ holds

theorem keeps_perform (act : Cpu → Transaction (α × Cpu)) :
    Keeps (Holds I) (perform act) := by
  rintro ⟨⟨cpu, config, board⟩, events⟩ holds
  have watched := kept.keeps_watched events (act cpu) (.start board)
    (by simpa [Watched.start, Holds] using holds)
  dsimp only [perform]
  generalize ((act cpu).perform : EStateM Fault (Watched Board) (α × Cpu)) (.start board) = outcome
    at watched ⊢
  cases outcome with
  | ok result after => exact watched
  | error fault after => exact watched

omit kept in
theorem keeps_aside (command : Command)
    (h : ∀ events machine, I events machine.board →
      I (events ++ noted machine command) (final (command.run machine)).board) :
    Keeps (Holds I) (aside command) := by
  rintro ⟨machine, events⟩ holds
  have further := h events machine holds
  dsimp only [aside]
  cases done : command.run machine with
  | ok reply after =>
      rw [done] at further
      exact further
  | error fault after =>
      rw [done] at further
      exact further

omit kept in
/-- A command that does not touch the board keeps everything. -/
theorem keeps_idle (command : Command) (nothing : ∀ machine, noted machine command = [])
    (same : ∀ machine, (final (command.run machine)).board = machine.board) :
    Keeps (Holds I) (aside command) := by
  refine keeps_aside command fun events machine holds => ?_
  rw [nothing, same, List.append_nil]
  exact holds

theorem keeps_loadImage (address : UInt16) (image : Array UInt8) :
    Keeps (Holds I) (aside (.loadImage address image)) := by
  refine keeps_aside _ fun events machine holds => ?_
  rw [Command.run, request, noted]
  cases loaded : machine.loadImage address image with
  | ok after =>
      obtain ⟨fits, rfl⟩ := loadImage_eq_ok loaded
      exact kept.journal _ (kept.image holds fits)
  | error cause => simpa [final] using holds

theorem keeps_loadState (state : Json) :
    Keeps (Holds I) (aside (.loadState state)) := by
  refine keeps_aside _ fun events machine holds => ?_
  rw [Command.run, request, loadState, noted]
  cases read : SavedState.ofJson machine.ramSize state with
  | ok saved => exact kept.restore saved.key holds (SavedState.ofJson_eq_ok_iff.mp read).2
  | error cause =>
      rw [List.append_nil]
      exact holds

theorem keeps_advance (span : Duration) :
    Keeps (Holds I) (aside (.advance span)) := by
  refine keeps_aside _ fun events machine holds => ?_
  rw [noted]
  cases sum : machine.board.time.add? span with
  | some time =>
      have later : machine.board.time ≤ time := by
        change machine.board.time.nanoseconds ≤ time.nanoseconds
        rw [Duration.add?_eq_some_iff.mp sum]
        exact Nat.le_add_right _ _
      have moved := kept.clock holds later
      simpa [Command.run, Machine.advance, Functor.map, EStateM.map, sum, final] using moved
  | none => simpa [Command.run, Machine.advance, Functor.map, EStateM.map, sum, final] using holds

theorem keeps_setTime (time : Duration) :
    Keeps (Holds I) (aside (.setTime time)) := by
  refine keeps_aside _ fun events machine holds => ?_
  have later : machine.board.time ≤ machine.board.time.longer time := by
    change _ ≤ (machine.board.time.longer time).nanoseconds
    rw [Duration.nanoseconds_longer]
    exact Nat.le_max_left _ _
  exact kept.clock holds later

theorem keeps_handleKey (key : HostKey) (other : key.action ≠ some .reset) :
    Keeps (Holds I) (aside (.handleKey key)) := by
  refine keeps_aside _ fun events machine holds => ?_
  change I _ (machine.handleKey key).board
  rw [noted, handleKey]
  cases action : key.action with
  | none => simpa using holds
  | some action' =>
      cases action' with
      | key code => exact kept.press code holds
      | reset => exact absurd action other

theorem keeps_command (command : Command) :
    Keeps (Holds I) (Recording.command command) := by
  have step := kept.keeps_perform Cpu.step
  have run budget executed := (keeps_iff_lockstep.mp step).repeatWithin budget budget executed
  have reset reply : Keeps _ (resetBy reply) := (kept.keeps_perform _).map fun _ => reply
  cases command with
  | step => exact step.map _
  | tick => exact Keeps.map _ fun chronicle => keeps_iff_lockstep.mpr (run _ _) chronicle
  | runCycles budget => exact Keeps.map _ (keeps_iff_lockstep.mpr (run _ _))
  | reset => exact reset .done
  | handleKey key =>
      by_cases escape : key.action = some .reset
      · rw [Recording.command, if_pos escape]
        exact reset _
      · rw [Recording.command, if_neg escape]
        exact kept.keeps_handleKey key escape
  | peek address => exact (kept.keeps_perform _).map _
  | poke address value => exact (kept.keeps_perform _).map _
  | press code => exact keeps_aside (.press code) fun _ _ holds => kept.press code holds
  | loadImage address image => exact kept.keeps_loadImage address image
  | advance span => exact kept.keeps_advance span
  | setTime time => exact kept.keeps_setTime time
  | loadState state => exact kept.keeps_loadState state
  | setIrq level => exact keeps_idle (.setIrq level) (fun _ => rfl) fun _ => rfl
  | nmi => exact keeps_idle .nmi (fun _ => rfl) fun _ => rfl
  | saveRegion start last => exact keeps_idle (.saveRegion start last) (fun _ => rfl) fun _ => rfl
  | setRegisters registers => exact keeps_idle (.setRegisters registers) (fun _ => rfl) fun _ => rfl
  | saveState => exact keeps_idle .saveState (fun _ => rfl) fun _ => rfl

/-- What every event keeps holds after every session, whether it ended well or not. -/
theorem keeps_session (commands : List Command) :
    Keeps (Holds I) (Recording.session commands) := by
  induction commands with
  | nil => exact fun _ holds => holds
  | cons first rest ih =>
      -- An invariant is lockstep with oneself, so sequences are those of `Lockstep.bind`.
      refine keeps_iff_lockstep.mpr ?_
      refine (keeps_iff_lockstep.mp (kept.keeps_command first)).bind fun reply => ?_
      exact (keeps_iff_lockstep.mp ih).bind fun replies => .pure (reply :: replies)

end Kept

end Recording

/-- What a host's commands make of a machine, and what happens on the board meanwhile. -/
def chronicle (machine : Machine) (commands : List Command) : Chronicle :=
  final (Recording.session commands ⟨machine, []⟩)

theorem machine_chronicle (machine : Machine) (commands : List Command) :
    (machine.chronicle commands).machine = final (session commands machine) :=
  (Recording.records_session commands).final_eq ⟨machine, []⟩

theorem Recording.Kept.chronicle {I : List Event → Board → Prop} (kept : Kept I) {machine : Machine}
    (start : I [] machine.board) (commands : List Command) :
    I (machine.chronicle commands).events (machine.chronicle commands).machine.board :=
  kept.keeps_session commands ⟨machine, []⟩ start

end Machine

end AppleOne
