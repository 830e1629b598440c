import AppleOne.Proofs.Machine.EndOfTime
import AppleOne.Proofs.Machine.Operation

/-!
Clocks that drift apart. Two machines built alike are driven alike, except that their clocks are moved
apart. As long as the first one asks nothing of its display, nothing else comes apart, and all answers are
the same but for the one whether the display is busy (`drift_unnoticed`).
-/

namespace AppleOne

variable {α β γ δ : Type}

/-- A read that asks whether the display is busy. -/
def Event.AsksDisplay : Event → Prop
  | .access (.read address _) => address = 0xD012 ∨ address = 0xD013
  | _ => False

/-- Nothing was asked of the display. -/
def Unasked (events : List Event) : Prop := ∀ event ∈ events, ¬event.AsksDisplay

theorem Unasked.mono {some all : List Event} (unasked : Unasked all) (among : some ⊆ all) : Unasked some :=
  fun event member => unasked event (among member)

/-! ### The board -/

namespace Board

/-- Boards that are equal but for their clocks and the times up to which their displays are busy. -/
structure Drifted (a b : Board) : Prop where
  room : a.ram.size ≤ maxRam
  ram : a.ram = b.ram
  roms : a.roms = b.roms
  key : a.pia.key = b.pia.key
  terminal : a.terminal = b.terminal
  journal : a.journal = b.journal

variable {a b after after' : Board}

theorem Drifted.shows_eq (drifted : a.Drifted b) {address : UInt16}
    (other : ¬(address = Pia.displayData ∨ address = Pia.displayControl)) :
    a.shows address = b.shows address := by
  obtain ⟨ram, roms, ⟨key, readyAt⟩, terminal, time, journal⟩ := a
  obtain ⟨_, _, ⟨_, readyAt'⟩, _, time', _⟩ := b
  obtain ⟨-, ⟨⟩, ⟨⟩, ⟨⟩, ⟨⟩, ⟨⟩⟩ := drifted
  simp only [shows, if_neg other, Pia.keyPending]

theorem Drifted.keyTaken (drifted : a.Drifted b) : a.keyTaken.Drifted b.keyTaken where
  room := drifted.room
  ram := drifted.ram
  roms := drifted.roms
  key := rfl
  terminal := drifted.terminal
  journal := by rw [Board.keyTaken, Board.keyTaken, drifted.key, drifted.journal]

/-- Only a read that asks the display can bring different bytes. -/
theorem Drifted.read (drifted : a.Drifted b) {address : UInt16} {value value' : UInt8}
    (first : a.read address = .ok value after) (second : b.read address = .ok value' after') :
    after.Drifted after' ∧ (¬(Event.access (.read address value)).AsksDisplay → value = value') := by
  have room' : b.ram.size ≤ maxRam := drifted.ram ▸ drifted.room
  rw [read_eq drifted.room] at first
  rw [read_eq room'] at second
  cases first
  cases second
  refine ⟨?_, fun silent => drifted.shows_eq silent⟩
  split
  · exact drifted.keyTaken
  · exact drifted

theorem Drifted.displayed (drifted : a.Drifted b) (value : UInt8) (ready ready' : Duration) :
    (a.displayed value ready).Drifted (b.displayed value ready') where
  room := drifted.room
  ram := drifted.ram
  roms := drifted.roms
  key := drifted.key
  terminal := by rw [Board.displayed, Board.displayed, drifted.terminal]
  journal := by
    rw [Board.displayed, Board.displayed, Pia.keyPending, Pia.keyPending, drifted.key, drifted.journal]

theorem Drifted.write (drifted : a.Drifted b) {address : UInt16} {value : UInt8}
    (first : a.write address value = .ok () after) (second : b.write address value = .ok () after') :
    after.Drifted after' := by
  obtain ⟨room, ram, roms, key, terminal, journal⟩ := drifted
  have room' : b.ram.size ≤ maxRam := ram ▸ room
  by_cases inside : address.toNat < a.ram.size
  · rw [write_ram inside] at first
    rw [write_ram (ram ▸ inside)] at second
    cases first
    cases second
    refine ⟨?_, ?_, roms, key, terminal, journal⟩
    · rw [Array.size_set]
      exact room
    · simp only [ram]
  · by_cases display : address = Pia.displayData
    · subst display
      rw [write_display room] at first
      rw [write_display room'] at second
      split at first
      · split at second
        · cases first
          cases second
          exact Drifted.displayed ⟨room, ram, roms, key, terminal, journal⟩ value _ _
        · cases second
      · cases first
    · have outside := Nat.le_of_not_lt inside
      rw [write_elsewhere outside display] at first
      rw [write_elsewhere (ram ▸ outside) display] at second
      cases first
      cases second
      exact ⟨room, ram, roms, key, terminal, by rw [journal]⟩

theorem Drifted.note (drifted : a.Drifted b) (diagnostic : Log.Diagnostic) :
    { a with journal := a.journal.note diagnostic }.Drifted
      { b with journal := b.journal.note diagnostic } :=
  ⟨drifted.room, drifted.ram, drifted.roms, drifted.key, drifted.terminal, by rw [drifted.journal]⟩

theorem Drifted.press (drifted : a.Drifted b) (code : UInt8) : (a.press code).Drifted (b.press code) := by
  obtain ⟨ram, roms, ⟨key, readyAt⟩, terminal, time, journal⟩ := a
  obtain ⟨_, _, ⟨_, readyAt'⟩, _, time', _⟩ := b
  obtain ⟨room, ⟨⟩, ⟨⟩, ⟨⟩, ⟨⟩, ⟨⟩⟩ := drifted
  exact ⟨room, rfl, rfl, rfl, rfl, rfl⟩

/-- Accesses that were written down stay so. -/
theorem accesses_grow {t : Transaction α} {watched after : Watched Board} {result : α}
    (done : (t.perform : EStateM Fault (Watched Board) α) watched = .ok result after) :
    watched.accesses <+: after.accesses := by
  have explained := t.perform_explained (ε := Fault) watched.device watched.accesses
  rw [show (⟨watched.device, watched.accesses⟩ : Watched Board) = watched from rfl, done] at explained
  obtain ⟨made, split, -⟩ := explained
  exact ⟨made, split.symm⟩

theorem Drifted.perform {t : Transaction α} {watched after : Watched Board} {b after' : Board}
    {result result' : α} (drifted : watched.device.Drifted b)
    (first : (t.perform : EStateM Fault (Watched Board) α) watched = .ok result after)
    (second : (t.perform : EStateM Fault Board α) b = .ok result' after')
    (unasked : Unasked (after.accesses.map .access)) :
    result = result' ∧ after.device.Drifted after' := by
  induction t generalizing watched b with
  | done value =>
      cases first
      cases second
      exact ⟨rfl, drifted⟩
  | read address next ih =>
      obtain ⟨board, accesses⟩ := watched
      obtain ⟨value, between, done, -⟩ := board.exists_read address
      obtain ⟨value', between', done', -⟩ := b.exists_read address
      simp only [Transaction.perform, bind, EStateM.bind, Device.read, done] at first
      rw [perform_read done'] at second
      obtain ⟨still, same⟩ := drifted.read done done'
      -- This read is among those that were written down.
      have silent : ¬(Event.access (.read address value)).AsksDisplay := by
        refine unasked _ (List.mem_map_of_mem ((accesses_grow first).subset ?_))
        exact List.mem_append_right _ (List.mem_singleton_self _)
      rw [← same silent] at second
      exact ih value still first second
  | write address value next ih =>
      obtain ⟨board, accesses⟩ := watched
      cases done : board.write address value with
      | error fault stuck =>
          simp only [Transaction.perform, bind, EStateM.bind, Device.write, done] at first
          cases first
      | ok _ between =>
          cases done' : b.write address value with
          | error fault stuck =>
              simp only [Transaction.perform, bind, EStateM.bind, Device.write, done'] at second
              cases second
          | ok _ between' =>
              simp only [Transaction.perform, bind, EStateM.bind, Device.write, done] at first
              rw [perform_write done'] at second
              exact ih (drifted.write done done') first second
  | note diagnostic next ih => exact ih (drifted.note diagnostic) first second

end Board

namespace Machine

/-- Machines that are equal but for their clocks and the times up to which their displays are busy. -/
structure Drifted (a b : Machine) : Prop where
  cpu : a.cpu = b.cpu
  config : a.config = b.config
  board : a.board.Drifted b.board

namespace Recording

/-! ### Runs that agree -/

/-- Whatever was written down before stays, and on a machine that has drifted the other run brings the same
in `view`, if nothing was asked of the display. -/
structure Agrees (view : α → γ) (recording : Recording α) (run : Run α) : Prop where
  grows : ∀ {chronicle after result}, recording chronicle = .ok result after →
    chronicle.events <+: after.events
  alike : ∀ {chronicle after machine after' result result'}, chronicle.machine.Drifted machine →
    recording chronicle = .ok result after → run machine = .ok result' after' →
    Unasked after.events → view result = view result' ∧ after.machine.Drifted after'

namespace Agrees

variable {view : α → γ} {recording : Recording α} {run : Run α}

protected theorem pure {result result' : α} (same : view result = view result') :
    Agrees view (pure result) (pure result') where
  grows done := by
    cases done
    exact List.prefix_rfl
  alike drifted first second _ := by
    cases first
    cases second
    exact ⟨same, drifted⟩

protected theorem bind {view' : β → δ} {next : α → Recording β} {next' : α → Run β}
    (first : Agrees view recording run)
    (rest : ∀ result result', view result = view result' → Agrees view' (next result) (next' result')) :
    Agrees view' (recording >>= next) (run >>= next') where
  grows done := by
    obtain ⟨result, between, begun, done⟩ := exists_of_bind_ok done
    exact (first.grows begun).trans ((rest result result rfl).grows done)
  alike drifted done done' unasked := by
    obtain ⟨result, between, begun, done⟩ := exists_of_bind_ok done
    obtain ⟨result', between', begun', done'⟩ := exists_of_bind_ok done'
    have unaskedBetween := unasked.mono ((rest result result rfl).grows done).subset
    obtain ⟨same, still⟩ := first.alike drifted begun begun' unaskedBetween
    exact (rest result result' same).alike still done done' unasked

protected theorem map {view' : β → δ} {f : α → β} (agrees : Agrees view recording run)
    (same : ∀ result result', view result = view result' → view' (f result) = view' (f result')) :
    Agrees view' (f <$> recording) (f <$> run) := by
  rw [map_eq_pure_bind, map_eq_pure_bind]
  exact agrees.bind fun result result' viewed => .pure (same result result' viewed)

theorem repeatWithin {recording : Recording Nat} {run : Run Nat} (agrees : Agrees id recording run)
    (fuel budget executed : Nat) :
    Agrees id (Machine.repeatWithin recording fuel budget executed)
      (Machine.repeatWithin run fuel budget executed) := by
  induction fuel generalizing executed with
  | zero => exact .pure rfl
  | succ fuel ih =>
      rw [Machine.repeatWithin, Machine.repeatWithin]
      split
      · refine agrees.bind fun cycles cycles' same => ?_
        rw [show cycles' = cycles from same.symm]
        exact ih _
      · exact .pure rfl

end Agrees

theorem agrees_perform (act : Cpu → Transaction (α × Cpu)) :
    Agrees id (perform act) (Machine.perform act) where
  grows := by
    rintro ⟨⟨cpu, config, board⟩, events⟩ after result done
    dsimp only [perform] at done
    split at done
    · cases done
      exact List.prefix_append _ _
    · cases done
  alike := by
    rintro ⟨⟨cpu, config, board⟩, events⟩ after ⟨_, _, other⟩ after' result result' ⟨⟨⟩, ⟨⟩, drifted⟩
      first second unasked
    dsimp only [perform] at first
    dsimp only [Machine.perform] at second
    split at first
    · rename_i made cpu' between accesses done
      split at second
      · rename_i made' cpu'' between' done'
        cases first
        cases second
        have silent : Unasked (accesses.map .access) := unasked.mono (List.subset_append_right _ _)
        have start : (Watched.start board).device.Drifted other := drifted
        obtain ⟨same, still⟩ := start.perform done done' silent
        cases same
        exact ⟨rfl, rfl, rfl, still⟩
      · cases second
    · cases first

/-- A command that does not use the bus is judged by what it does to the machine alone. -/
theorem agrees_aside (command : Command)
    (alike : ∀ {a b after after' : Machine} {reply reply' : Reply}, a.Drifted b →
      command.run a = .ok reply after → command.run b = .ok reply' after' →
      reply = reply' ∧ after.Drifted after') : Agrees id (aside command) command.run where
  grows := by
    rintro ⟨machine, events⟩ after reply done
    dsimp only [aside] at done
    split at done
    · cases done
      exact List.prefix_append _ _
    · cases done
  alike := by
    rintro ⟨machine, events⟩ after other after' reply reply' drifted first second -
    dsimp only [aside] at first
    split at first
    · rename_i made between done
      cases first
      exact alike drifted done second
    · cases first

theorem agrees_change (command : Command) {reply : Reply} {f : Machine → Machine}
    (run : command.run = change reply f) (kept : ∀ {a b : Machine}, a.Drifted b → (f a).Drifted (f b)) :
    Agrees id (aside command) command.run := by
  refine agrees_aside command fun drifted first second => ?_
  rw [run] at first second
  cases first
  cases second
  exact ⟨rfl, kept drifted⟩

theorem agrees_query (command : Command) {f : Machine → Reply} (run : command.run = query f)
    (same : ∀ {a b : Machine}, a.Drifted b → f a = f b) : Agrees id (aside command) command.run := by
  refine agrees_aside command fun drifted first second => ?_
  rw [run] at first second
  cases first
  cases second
  exact ⟨same drifted, drifted⟩

end Recording

/-! ### Commands -/

theorem Drifted.ramSize_eq {a b : Machine} (drifted : a.Drifted b) : a.ramSize = b.ramSize :=
  congrArg Array.size drifted.board.ram

theorem Drifted.saved_eq {a b : Machine} (drifted : a.Drifted b) : a.saved = b.saved := by
  simp only [saved]
  rw [drifted.cpu, drifted.board.ram, drifted.board.key]

theorem Drifted.later {a b : Machine} (drifted : a.Drifted b) (time time' : Duration) :
    ({ a with board := { a.board with time := time } } : Machine).Drifted
      { b with board := { b.board with time := time' } } :=
  ⟨drifted.cpu, drifted.config, drifted.board.room, drifted.board.ram, drifted.board.roms,
    drifted.board.key, drifted.board.terminal, drifted.board.journal⟩

/-- A clock that is moved on changes nothing else. -/
theorem of_run_advance {machine after : Machine} {span : Duration} {reply : Reply}
    (done : (Command.advance span).run machine = .ok reply after) :
    reply = .done ∧ ∃ time, after = { machine with board := { machine.board with time := time } } := by
  simp only [Command.run, Functor.map, EStateM.map, advance] at done
  cases sum : machine.board.time.add? span with
  | none =>
      rw [sum] at done
      cases done
  | some time =>
      rw [sum] at done
      cases done
      exact ⟨rfl, time, rfl⟩

theorem Drifted.press {a b : Machine} (drifted : a.Drifted b) (code : UInt8) :
    (a.press code).Drifted (b.press code) :=
  ⟨drifted.cpu, drifted.config, drifted.board.press code⟩

theorem Drifted.handleKey {a b : Machine} (drifted : a.Drifted b) {key : HostKey}
    (other : key.action ≠ some .reset) : (a.handleKey key).Drifted (b.handleKey key) := by
  rw [Machine.handleKey, Machine.handleKey]
  cases action : key.action with
  | none => exact drifted
  | some action' =>
      cases action' with
      | key code => exact drifted.press code
      | reset => exact absurd action other

theorem Drifted.loadImage {a b after after' : Machine} (drifted : a.Drifted b) {address : UInt16}
    {image : Array UInt8} {reply reply' : Reply}
    (first : request (loadImage address image) a = .ok reply after)
    (second : request (loadImage address image) b = .ok reply' after') :
    reply = reply' ∧ after.Drifted after' := by
  rw [request, Machine.loadImage] at first second
  rw [← drifted.ramSize_eq] at second
  by_cases outside : a.ramSize ≤ address.toNat
  · rw [if_pos outside] at first second
    cases first
    cases second
    exact ⟨rfl, drifted⟩
  · by_cases large : a.ramSize < address.toNat + image.size
    · rw [if_neg outside, if_pos large] at first second
      cases first
      cases second
      exact ⟨rfl, drifted⟩
    · rw [if_neg outside, if_neg large] at first second
      cases first
      cases second
      refine ⟨rfl, drifted.cpu, drifted.config, ?_, ?_, drifted.board.roms, drifted.board.key,
        drifted.board.terminal, ?_⟩
      · exact Nat.le_trans (Nat.le_of_eq (size_overlay (Nat.le_of_not_lt large))) drifted.board.room
      · simp only [drifted.board.ram]
      · simp only [drifted.board.journal]

theorem Drifted.loadState {a b after after' : Machine} (drifted : a.Drifted b) {state : Json}
    {reply reply' : Reply} (first : request (loadState state) a = .ok reply after)
    (second : request (loadState state) b = .ok reply' after') :
    reply = reply' ∧ after.Drifted after' := by
  rw [request, Machine.loadState] at first second
  rw [← drifted.ramSize_eq] at second
  cases read : SavedState.ofJson a.ramSize state with
  | error cause =>
      rw [read] at first second
      cases first
      cases second
      exact ⟨rfl, drifted⟩
  | ok saved =>
      rw [read] at first second
      cases first
      cases second
      have size : saved.ram.size = a.ramSize := (SavedState.ofJson_eq_ok_iff.mp read).2
      refine ⟨rfl, ?_, drifted.config, Nat.le_trans (Nat.le_of_eq size) drifted.board.room, rfl,
        drifted.board.roms, rfl, drifted.board.terminal, drifted.board.journal⟩
      simp only [restore, drifted.cpu]

namespace Recording

theorem agrees_advance (span : Duration) : Agrees id (aside (.advance span)) (Command.advance span).run := by
  refine agrees_aside _ fun drifted first second => ?_
  obtain ⟨rfl, time, rfl⟩ := of_run_advance first
  obtain ⟨rfl, time', rfl⟩ := of_run_advance second
  exact ⟨rfl, drifted.later time time'⟩

theorem agrees_resetBy (reply : Reply) : Agrees id (resetBy reply) (change reply Machine.reset) := by
  have agrees : Agrees id ((fun _ => reply) <$> _) ((fun _ => reply) <$> _) :=
    (agrees_perform fun cpu => Prod.mk () <$> cpu.reset).map fun _ _ _ => rfl
  rw [perform_reset] at agrees
  exact agrees

theorem agrees_command (command : Command) : Agrees id (Recording.command command) command.run := by
  have step := agrees_perform Cpu.step
  have count {recording : Recording Nat} {run : Run Nat} (agrees : Agrees id recording run) :
      Agrees id (Reply.cycles <$> recording) (Reply.cycles <$> run) :=
    agrees.map fun _ _ same => congrArg Reply.cycles same
  cases command with
  | step => exact count step
  | runCycles budget => exact count (step.repeatWithin _ _ _)
  | tick =>
      refine count ⟨fun {chronicle _ _} done => (step.repeatWithin _ _ _).grows done, ?_⟩
      intro chronicle after machine after' result result' drifted first second
      -- Both run for the budget of the same configuration.
      rw [Machine.tick, ← drifted.config] at second
      exact (step.repeatWithin _ _ _).alike drifted first second
  | reset => exact agrees_resetBy .done
  | handleKey key =>
      by_cases escape : key.action = some .reset
      · rw [Recording.command, if_pos escape, Command.run, handleKey_reset escape]
        exact agrees_resetBy _
      · rw [Recording.command, if_neg escape]
        exact agrees_change (.handleKey key) rfl fun drifted => drifted.handleKey escape
  | peek address =>
      rw [Command.run, peek_eq]
      exact (agrees_perform _).map fun _ _ same => congrArg Reply.byte same
  | poke address value =>
      rw [Command.run, poke_eq]
      exact (agrees_perform _).map fun _ _ _ => rfl
  | press code => exact agrees_change (.press code) rfl fun drifted => drifted.press code
  | setIrq level =>
      exact agrees_change (.setIrq level) rfl fun drifted =>
        ⟨congrArg (Cpu.setIrq · level) drifted.cpu, drifted.config, drifted.board⟩
  | nmi =>
      exact agrees_change .nmi rfl fun drifted =>
        ⟨congrArg Cpu.nmi drifted.cpu, drifted.config, drifted.board⟩
  | setTime time =>
      exact agrees_change (.setTime time) rfl fun drifted => drifted.later _ _
  | setRegisters registers =>
      exact agrees_change (.setRegisters registers) rfl fun drifted =>
        ⟨congrArg (Cpu.setRegisters · registers) drifted.cpu, drifted.config, drifted.board⟩
  | advance span => exact agrees_advance span
  | loadImage address image =>
      exact agrees_aside (.loadImage address image) fun drifted first second =>
        drifted.loadImage first second
  | loadState state =>
      exact agrees_aside (.loadState state) fun drifted first second => drifted.loadState first second
  | saveState =>
      exact agrees_query .saveState rfl fun drifted => by
        rw [saveState_congr drifted.saved_eq]
  | saveRegion start last =>
      refine agrees_query (.saveRegion start last) rfl fun {a b} drifted => ?_
      have same : a.saveRegion start last = b.saveRegion start last := by
        rw [saveRegion, saveRegion, drifted.ramSize_eq, drifted.board.ram]
      rw [same]

end Recording

/-! ### Driving two machines alike -/

/-- An answer without what it says about whether the display is busy. -/
def Answer.apartFromBusy : Answer → Answer
  | .info shown => .info { shown with displayBusy := false }
  | .busy _ => .busy false
  | answer => answer

theorem Drifted.seen_eq {a b : Machine} (drifted : a.Drifted b) (what : Look) :
    (what.seen a).apartFromBusy = (what.seen b).apartFromBusy := by
  cases what with
  | events => simp only [Look.seen, drifted.board.terminal]
  | text => simp only [Look.seen, drifted.board.terminal]
  | debugInfo =>
      simp only [Look.seen, debugInfo, Answer.apartFromBusy, drifted.cpu, drifted.ramSize_eq, Pia.keyPending,
        drifted.board.key]
  | displayBusy => rfl

theorem Drifted.taken {a b after after' : Machine} (drifted : a.Drifted b)
    {events events' : List Terminal.Event} (first : takeEvents a = .ok events after)
    (second : takeEvents b = .ok events' after') : events = events' ∧ after.Drifted after' := by
  rw [takeEvents] at first second
  cases first
  cases second
  refine ⟨by rw [drifted.board.terminal], drifted.cpu, drifted.config, drifted.board.room,
    drifted.board.ram, drifted.board.roms, drifted.board.key, ?_, drifted.board.journal⟩
  simp only [drifted.board.terminal]

/-- A move of a clock. -/
inductive ClockMove where
  | advance (span : Duration)
  | set (time : Duration)

def ClockMove.command : ClockMove → Command
  | advance span => .advance span
  | set time => .setTime time

theorem of_moved {move : ClockMove} {machine after : Machine} {result : Unit}
    (done : ((fun _ => ()) <$> (Operation.ask move.command).run) machine = .ok result after) :
    ∃ time, after = { machine with board := { machine.board with time := time } } := by
  obtain ⟨_, asked⟩ := exists_of_map_ok done
  obtain ⟨_, ran⟩ := exists_of_map_ok asked
  cases move with
  | set time =>
      cases ran
      exact ⟨_, rfl⟩
  | advance span => exact (of_run_advance ran).2

/-- One of two machines. -/
inductive Side where
  | first
  | second
  deriving DecidableEq

/-- What two machines live through that are driven alike: an operation on both, or a move of one clock. -/
inductive Moment where
  | both (operation : Operation)
  | clock (side : Side) (move : ClockMove)

section

variable {m : Type → Type} [Monad m] (perform : Operation → m Answer) (side : Side)

/-- Moves the clock if it is the one of this side. -/
def moveOn (moved : Side) (move : ClockMove) : m Unit :=
  if moved = side then (fun _ => ()) <$> perform (.ask move.command) else pure ()

/-- What one of the machines lives through; the results are the answers to what both are asked. -/
def drive : List Moment → m (List Answer)
  | [] => pure []
  | .both operation :: rest => do
    let answer ← perform operation
    let answers ← drive rest
    return answer :: answers
  | .clock moved move :: rest => do
    moveOn perform side moved move
    drive rest

theorem drive_append [LawfulMonad m] (before later : List Moment) :
    drive perform side (before ++ later) = do
      let answers ← drive perform side before
      let further ← drive perform side later
      return answers ++ further := by
  induction before with
  | nil => simp [drive]
  | cons moment rest ih => cases moment <;> simp [drive, ih]

end

namespace Recording

theorem records_drive (side : Side) (moments : List Moment) :
    Records (drive operation side moments) (drive Operation.run side moments) := by
  induction moments with
  | nil => exact .pure []
  | cons moment rest ih =>
      cases moment with
      | both operation =>
          exact (records_operation operation).bind fun answer => ih.bind fun answers => .pure _
      | clock moved move =>
          refine Records.bind ?_ fun _ => ih
          unfold moveOn
          split
          · exact (records_operation _).map _
          · exact .pure ()

theorem agrees_operation (operation : Operation) :
    Agrees Answer.apartFromBusy (Recording.operation operation) operation.run := by
  cases operation with
  | ask command =>
      exact (agrees_command command).map fun _ _ same => congrArg _ (congrArg Answer.reply same)
  | look what =>
      refine ⟨fun done => ?_, fun drifted first second _ => ?_⟩
      · cases done
        exact List.prefix_rfl
      · cases first
        cases second
        exact ⟨drifted.seen_eq what, drifted⟩
  | takeEvents =>
      have agrees : Agrees id Recording.takeEvents Machine.takeEvents := by
        refine ⟨fun done => ?_, fun drifted first second _ => ?_⟩
        · cases done
          exact List.prefix_rfl
        · cases first
          exact drifted.taken rfl second
      exact agrees.map fun _ _ same => congrArg _ (congrArg Answer.events same)

/-- A clock that is moved on the first machine alone. -/
theorem agrees_moved_first (move : ClockMove) :
    Agrees id ((fun _ => ()) <$> operation (.ask move.command)) (pure ()) := by
  have agrees : Agrees id ((fun _ => ()) <$> operation (.ask move.command)) _ :=
    (agrees_operation (.ask move.command)).map fun _ _ _ => rfl
  refine ⟨agrees.grows, ?_⟩
  rintro chronicle after other after' _ _ drifted first second -
  cases second
  have plain := (records_operation (.ask move.command)).map (fun _ => ()) chronicle
  rw [first] at plain
  obtain ⟨time, moved⟩ := of_moved plain
  rw [moved]
  exact ⟨rfl, drifted.later time other.board.time⟩

/-- A clock that is moved on the second machine alone. -/
theorem agrees_moved_second (move : ClockMove) :
    Agrees id (pure ()) ((fun _ => ()) <$> (Operation.ask move.command).run) := by
  have agrees : Agrees id (pure ()) (pure ()) := .pure rfl
  refine ⟨agrees.grows, ?_⟩
  rintro chronicle after other after' _ _ drifted first second -
  cases first
  obtain ⟨time, moved⟩ := of_moved second
  rw [moved]
  exact ⟨rfl, drifted.later chronicle.machine.board.time time⟩

theorem agrees_moveOn (moved : Side) (move : ClockMove) :
    Agrees id (moveOn operation .first moved move) (moveOn Operation.run .second moved move) := by
  cases moved with
  | first => exact agrees_moved_first move
  | second => exact agrees_moved_second move

theorem agrees_drive (moments : List Moment) :
    Agrees (List.map Answer.apartFromBusy) (drive operation .first moments)
      (drive Operation.run .second moments) := by
  induction moments with
  | nil => exact .pure rfl
  | cons moment rest ih =>
      cases moment with
      | both operation =>
          refine (agrees_operation operation).bind fun answer answer' same => ?_
          exact ih.bind fun answers answers' sames => .pure (List.cons_eq_cons.mpr ⟨same, sames⟩)
      | clock moved move => exact (agrees_moveOn moved move).bind fun _ _ _ => ih

end Recording

/-! ### Every point of two runs -/

variable {start other : Machine} {answers others : List Answer} {chronicle : Chronicle}

/-- Two machines are built alike and driven alike, with different clocks. If the first one is never asked
whether its display is busy, they are equal at every point but for clock and display timer, and so are all
answers but for what they say about the display being busy. -/
theorem drift_unnoticed (built : start.Built) (moments : List Moment)
    (first : drive Recording.operation .first moments ⟨start, []⟩ = .ok answers chronicle)
    (second : drive Operation.run .second moments start = .ok others other)
    (unasked : Unasked chronicle.events) {before : List Moment} (begun : before <+: moments) :
    ∃ answers others after other, drive Operation.run .first before start = .ok answers after ∧
      drive Operation.run .second before start = .ok others other ∧ after.Drifted other ∧
      answers.map Answer.apartFromBusy = others.map Answer.apartFromBusy := by
  obtain ⟨later, rfl⟩ := begun
  have drifted : start.Drifted start :=
    ⟨rfl, rfl, built.reachable.ramSize_le, rfl, rfl, rfl, rfl, rfl⟩
  rw [drive_append] at first second
  obtain ⟨answers, between, first, further⟩ := exists_of_bind_ok first
  obtain ⟨others, other, second, -⟩ := exists_of_bind_ok second
  have grows : between.events <+: chronicle.events := by
    obtain ⟨_, _, done, ⟨⟩⟩ := exists_of_bind_ok further
    exact (Recording.agrees_drive later).grows done
  obtain ⟨same, still⟩ :=
    (Recording.agrees_drive before).alike drifted first second (unasked.mono grows.subset)
  have plain := Recording.records_drive .first before ⟨start, []⟩
  rw [first] at plain
  exact ⟨answers, others, between.machine, other, plain, second, still, same⟩

/-! ### A display that is busy on one of them -/

theorem recorded_poke_display {machine : Machine} (room : machine.board.ram.size ≤ Board.maxRam)
    {ready : Duration} (sum : machine.board.time.add? machine.board.pia.busyTime = some ready)
    (value : UInt8) (events : List Event) :
    Recording.command (.poke Pia.displayData value) ⟨machine, events⟩ =
      .ok .done ⟨machine.sent value ready, events ++ [.access (.write Pia.displayData value)]⟩ := by
  have written : machine.board.write Pia.displayData value =
      .ok () (machine.board.displayed value ready) := by rw [Board.write_display room, sum]
  obtain ⟨cpu, config, board⟩ := machine
  simp only [Recording.command, Recording.perform, Functor.map, EStateM.map, Transaction.perform, bind,
    EStateM.bind, Device.write, Watched.start, written]
  rfl

/-- A letter is shown, one clock is moved on, and then both machines are asked whether their displays are
busy and what they have shown. -/
def letterSeen (span : Duration) : List Moment :=
  [.both (.ask (.poke Pia.displayData 0x41)), .clock .second (.advance span), .both (.look .displayBusy),
    .both .takeEvents]

/-- The machine that has shown the letter, at a later time and with the events taken away. -/
def letterTaken (machine : Machine) (ready time : Duration) : Machine :=
  let board := machine.board.displayed 0x41 ready
  { machine with board := { board with time := time, terminal := .recorder } }

section

variable {σ : Type} {perform : Operation → EStateM Fault σ Answer} {side : Side} {s between after : σ}
  {answers : List Answer} {later : List Moment}

theorem map_of_ok {x : EStateM Fault σ α} {result : α} (done : x s = .ok result after) (f : α → β) :
    (f <$> x) s = .ok (f result) after := by
  simp only [Functor.map, EStateM.map, done]

theorem drive_both {operation : Operation} {answer : Answer} (asked : perform operation s = .ok answer between)
    (rest : drive perform side later between = .ok answers after) :
    drive perform side (.both operation :: later) s = .ok (answer :: answers) after := by
  simp only [drive, bind, EStateM.bind, asked, rest, pure, EStateM.pure]

theorem drive_clock {moved : Side} {move : ClockMove}
    (done : moveOn perform side moved move s = .ok () between)
    (rest : drive perform side later between = .ok answers after) :
    drive perform side (.clock moved move :: later) s = .ok answers after := by
  simp only [drive, bind, EStateM.bind, done, rest]

end

section

variable {machine : Machine} (room : machine.board.ram.size ≤ Board.maxRam)
  (empty : machine.board.terminal = .recorder) {ready time : Duration}
  (sum : machine.board.time.add? machine.board.pia.busyTime = some ready)
include empty

theorem sent_letter_terminal :
    (machine.board.displayed 0x41 ready).terminal = .recording #[.char 0x41] := by
  change machine.board.terminal.put (.char 0x41) = _
  rw [empty]
  rfl

theorem takeEvents_sent (time : Duration) :
    takeEvents { machine.sent 0x41 ready with board := { machine.board.displayed 0x41 ready with time := time } } =
      .ok [.char 0x41] (machine.letterTaken ready time) := by
  rw [takeEvents, sent_letter_terminal empty]
  rfl

include room sum

theorem letterSeen_first (span : Duration) :
    drive Recording.operation .first (letterSeen span) ⟨machine, []⟩ =
      .ok [.reply .done, .busy (decide (machine.board.time ≤ ready)), .events [.char 0x41]]
        ⟨machine.letterTaken ready machine.board.time, [.access (.write Pia.displayData 0x41)]⟩ := by
  refine drive_both (map_of_ok (recorded_poke_display room sum 0x41 []) _) ?_
  refine drive_clock rfl (drive_both rfl (drive_both ?_ rfl))
  refine map_of_ok ?_ _
  have shown : (machine.sent 0x41 ready).board.terminal = _ := sent_letter_terminal empty
  dsimp only [Recording.takeEvents]
  rw [shown]
  rfl

theorem letterSeen_plain (span : Duration) :
    drive Operation.run .first (letterSeen span) machine =
      .ok [.reply .done, .busy (decide (machine.board.time ≤ ready)), .events [.char 0x41]]
        (machine.letterTaken ready machine.board.time) := by
  have plain := Recording.records_drive .first (letterSeen span) ⟨machine, []⟩
  rw [letterSeen_first room empty sum span] at plain
  exact plain

theorem letterSeen_second {span : Duration} (moved : machine.board.time.add? span = some time) :
    drive Operation.run .second (letterSeen span) machine =
      .ok [.reply .done, .busy (decide (time ≤ ready)), .events [.char 0x41]]
        (machine.letterTaken ready time) := by
  have advanced : advance span (machine.sent 0x41 ready) =
      .ok () { machine.sent 0x41 ready with
        board := { machine.board.displayed 0x41 ready with time := time } } := by
    rw [advance, show (machine.sent 0x41 ready).board.time.add? span = some time from moved]
    rfl
  refine drive_both (map_of_ok (run_poke_display room sum 0x41) _) ?_
  refine drive_clock (map_of_ok (map_of_ok (map_of_ok advanced _) _) _) (drive_both rfl (drive_both ?_ rfl))
  exact map_of_ok (takeEvents_sent empty time) _

end

/-- One display is still busy and the other is not; both have shown the letter, and nothing else is
different. -/
theorem drift_unnoticed_letter :
    blank.Built ∧ Unasked [.access (.write Pia.displayData 0x41)] ∧
    ∃ ready time, drive Recording.operation .first (letterSeen time) ⟨blank, []⟩ =
      .ok [.reply .done, .busy true, .events [.char 0x41]]
        ⟨blank.letterTaken ready blank.board.time, [.access (.write Pia.displayData 0x41)]⟩ ∧
    drive Operation.run .second (letterSeen time) blank =
      .ok [.reply .done, .busy false, .events [.char 0x41]] (blank.letterTaken ready time) ∧
    (blank.letterTaken ready blank.board.time).Drifted (blank.letterTaken ready time) := by
  have unasked : Unasked [.access (.write Pia.displayData 0x41)] := by
    intro event member
    cases List.mem_singleton.mp member
    exact id
  have empty : blank.board.terminal = .recorder := by rw [blank_eq]
  have start : blank.board.time = .zero := by rw [blank_eq]
  obtain ⟨ready, soon, sum⟩ : ∃ ready : Duration, ready.nanoseconds = 1700 ∧
      blank.board.time.add? blank.board.pia.busyTime = some ready := by
    rw [blank_eq]
    exact ⟨⟨1700, by decide⟩, rfl, Duration.add?_eq_some_iff.mpr rfl⟩
  obtain ⟨time, late, moved⟩ : ∃ time : Duration, time.nanoseconds = 5000 ∧
      blank.board.time.add? time = some time := by
    rw [start]
    exact ⟨⟨5000, by decide⟩, rfl, Duration.add?_eq_some_iff.mpr (Nat.zero_add 5000).symm⟩
  have first := letterSeen_first reachable_blank.ramSize_le empty sum time
  have second := letterSeen_second reachable_blank.ramSize_le empty sum moved
  obtain ⟨answers, others, after, other, first', second', drifted, -⟩ :=
    drift_unnoticed built_blank (letterSeen time) first second unasked List.prefix_rfl
  have plain := letterSeen_plain reachable_blank.ramSize_le empty sum time
  obtain ⟨-, rfl⟩ := EStateM.Result.ok.inj (first'.symm.trans plain)
  obtain ⟨-, rfl⟩ := EStateM.Result.ok.inj (second'.symm.trans second)
  have busy : decide (blank.board.time ≤ ready) = true := by
    rw [start]
    exact decide_eq_true (Nat.zero_le _)
  have free : decide (time ≤ ready) = false := by
    refine decide_eq_false fun (before : time.nanoseconds ≤ ready.nanoseconds) => ?_
    omega
  rw [busy] at first
  rw [free] at second
  exact ⟨built_blank, unasked, ready, time, first, second, drifted⟩

end Machine

end AppleOne
