import AppleOne.Proofs.Machine.Reachable

/-!
Machines that differ in nothing but their logs and in what their displays have shown before. They
answer every command alike and go on to show the same.
-/

namespace AppleOne

namespace Terminal

def putAll (terminal : Terminal) (events : List Event) : Terminal := events.foldl put terminal

theorem putAll_concat (terminal : Terminal) (events : List Event) (event : Event) :
    terminal.putAll (events ++ [event]) = (terminal.putAll events).put event := by
  simp [putAll]

end Terminal

/-! ### The board -/

namespace Board

/-- Boards that are equal but for their logs, and that have shown the same since their terminals were
`left` and `right`. -/
structure Twins (left right : Terminal) (a b : Board) : Prop where
  ram : a.ram = b.ram
  roms : a.roms = b.roms
  pia : a.pia = b.pia
  time : a.time = b.time
  shown : ∃ events, a.terminal = left.putAll events ∧ b.terminal = right.putAll events

variable {left right : Terminal}

theorem lockstep_read (address : UInt16) : Lockstep (Twins left right) (read address) := by
  rintro ⟨ram, roms, pia, terminal, time, journal⟩ ⟨_, _, _, terminal', _, journal'⟩
    ⟨⟨⟩, ⟨⟩, ⟨⟩, ⟨⟩, shown⟩
  simp only [read]
  split
  · exact .ok _ ⟨rfl, rfl, rfl, rfl, shown⟩
  · split
    · exact .ok _ ⟨rfl, rfl, rfl, rfl, shown⟩
    · exact .ok _ ⟨rfl, rfl, rfl, rfl, shown⟩

theorem lockstep_write (address : UInt16) (value : UInt8) :
    Lockstep (Twins left right) (write address value) := by
  rintro ⟨ram, roms, pia, terminal, time, journal⟩ ⟨_, _, _, terminal', _, journal'⟩
    ⟨⟨⟩, ⟨⟩, ⟨⟩, ⟨⟩, shown⟩
  dsimp only [write]
  split
  · exact .ok () ⟨rfl, rfl, rfl, rfl, shown⟩
  · split
    · cases pia.write? time address value with
      | some written =>
          refine .ok () ⟨rfl, rfl, rfl, rfl, ?_⟩
          obtain ⟨events, same, same'⟩ := shown
          cases written.shown with
          | some event =>
              refine ⟨events ++ [event], ?_, ?_⟩
              · rw [Terminal.putAll_concat, ← same]
              · rw [Terminal.putAll_concat, ← same']
          | none => exact ⟨events, same, same'⟩
      | none => exact .error _ ⟨rfl, rfl, rfl, rfl, shown⟩
    · exact .ok () ⟨rfl, rfl, rfl, rfl, shown⟩

theorem lockstep_note (diagnostic : Log.Diagnostic) : Lockstep (Twins left right) (note diagnostic) :=
  fun _ _ twins => .ok () ⟨twins.ram, twins.roms, twins.pia, twins.time, twins.shown⟩

theorem lockstep_perform {α : Type} (t : Transaction α) :
    Lockstep (Twins left right) (t.perform : EStateM Fault Board α) :=
  .perform lockstep_read lockstep_write lockstep_note t

theorem Twins.press {a b : Board} (twins : Twins left right a b) (code : UInt8) :
    Twins left right (a.press code) (b.press code) := by
  obtain ⟨ram, roms, pia, terminal, time, journal⟩ := a
  obtain ⟨_, _, _, terminal', _, journal'⟩ := b
  obtain ⟨⟨⟩, ⟨⟩, ⟨⟩, ⟨⟩, shown⟩ := twins
  exact ⟨rfl, rfl, rfl, rfl, shown⟩

end Board

namespace Machine

/-! ### The machine -/

/-- Machines that are equal but for log and terminal. -/
structure Twins (left right : Terminal) (a b : Machine) : Prop where
  cpu : a.cpu = b.cpu
  config : a.config = b.config
  board : a.board.Twins left right b.board

variable {left right : Terminal} {a b : Machine}

theorem lockstep_perform {α : Type} (act : Cpu → Transaction (α × Cpu)) :
    Lockstep (Twins left right) (perform act) := by
  rintro ⟨cpu, config, board⟩ ⟨_, _, board'⟩ ⟨⟨⟩, ⟨⟩, boards⟩
  have alike := Board.lockstep_perform (act cpu) board board' boards
  dsimp only [perform]
  generalize ((act cpu).perform : EStateM Fault Board (α × Cpu)) board = here at alike ⊢
  generalize ((act cpu).perform : EStateM Fault Board (α × Cpu)) board' = there at alike ⊢
  cases alike with
  | ok result boards => exact .ok result.1 ⟨rfl, rfl, boards⟩
  | error fault boards => exact .error fault ⟨rfl, rfl, boards⟩

theorem lockstep_runCycles (budget : UInt32) : Lockstep (Twins left right) (runCycles budget) :=
  (lockstep_perform Cpu.step).repeatWithin _ _ _

theorem Twins.reset (twins : Twins left right a b) : Twins left right a.reset b.reset := by
  rw [reset_eq, reset_eq]
  exact (lockstep_perform _ a b twins).final

theorem Twins.press (twins : Twins left right a b) (code : UInt8) :
    Twins left right (a.press code) (b.press code) :=
  ⟨twins.cpu, twins.config, twins.board.press code⟩

theorem Twins.handleKey (twins : Twins left right a b) (key : HostKey) :
    Twins left right (a.handleKey key) (b.handleKey key) := by
  simp only [Machine.handleKey, act]
  split
  · split
    · exact twins.press _
    · exact twins.reset
  · exact twins

theorem lockstep_advance (span : Duration) : Lockstep (Twins left right) (advance span) := by
  rintro ⟨cpu, config, ram, roms, pia, terminal, time, journal⟩
    ⟨_, _, _, _, _, terminal', _, journal'⟩ ⟨⟨⟩, ⟨⟩, ⟨⟩, ⟨⟩, ⟨⟩, ⟨⟩, shown⟩
  dsimp only [advance]
  cases time.add? span with
  | some later => exact .ok () ⟨rfl, rfl, rfl, rfl, rfl, rfl, shown⟩
  | none => exact .error _ ⟨rfl, rfl, rfl, rfl, rfl, rfl, shown⟩

theorem lockstep_change {reply : Reply} {f : Machine → Machine}
    (h : ∀ a b, Twins left right a b → Twins left right (f a) (f b)) :
    Lockstep (Twins left right) (change reply f) :=
  fun a b twins => .ok reply (h a b twins)

theorem lockstep_query {f : Machine → Reply} (h : ∀ a b, Twins left right a b → f a = f b) :
    Lockstep (Twins left right) (query f) := by
  intro a b twins
  rw [query, h a b twins]
  exact .ok _ twins

theorem lockstep_loadImage (address : UInt16) (image : Array UInt8) :
    Lockstep (Twins left right) (request (loadImage address image)) := by
  rintro ⟨cpu, config, ram, roms, pia, terminal, time, journal⟩
    ⟨_, _, _, _, _, terminal', _, journal'⟩ ⟨⟨⟩, ⟨⟩, ⟨⟩, ⟨⟩, ⟨⟩, ⟨⟩, shown⟩
  unfold request loadImage ramSize
  dsimp only
  by_cases outside : ram.size ≤ address.toNat
  · simp only [if_pos outside]
    exact .ok _ ⟨rfl, rfl, rfl, rfl, rfl, rfl, shown⟩
  · by_cases large : ram.size < address.toNat + image.size
    · simp only [if_neg outside, if_pos large]
      exact .ok _ ⟨rfl, rfl, rfl, rfl, rfl, rfl, shown⟩
    · simp only [if_neg outside, if_neg large]
      exact .ok _ ⟨rfl, rfl, rfl, rfl, rfl, rfl, shown⟩

theorem lockstep_loadState (state : Json) :
    Lockstep (Twins left right) (request (loadState state)) := by
  rintro ⟨cpu, config, ram, roms, pia, terminal, time, journal⟩
    ⟨_, _, _, _, _, terminal', _, journal'⟩ ⟨⟨⟩, ⟨⟩, ⟨⟩, ⟨⟩, ⟨⟩, ⟨⟩, shown⟩
  dsimp only [request, loadState, ramSize]
  cases SavedState.ofJson ram.size state with
  | ok saved => exact .ok _ ⟨rfl, rfl, rfl, rfl, rfl, rfl, shown⟩
  | error cause => exact .ok _ ⟨rfl, rfl, rfl, rfl, rfl, rfl, shown⟩

theorem Twins.saved_eq (twins : Twins left right a b) : a.saved = b.saved := by
  simp only [saved]
  rw [twins.cpu, twins.board.ram, twins.board.pia]

theorem Twins.saveRegion_eq (twins : Twins left right a b) (start last : UInt16) :
    a.saveRegion start last = b.saveRegion start last := by
  unfold saveRegion ramSize
  rw [twins.board.ram]

theorem Command.lockstep (command : Command) : Lockstep (Twins left right) command.run := by
  cases command with
  | step => exact (lockstep_perform Cpu.step).map _
  | tick =>
      refine Lockstep.map _ fun a b twins => ?_
      rw [Machine.tick, twins.config]
      exact lockstep_runCycles _ a b twins
  | runCycles budget => exact (lockstep_runCycles budget).map _
  | reset => exact lockstep_change fun _ _ twins => twins.reset
  | press code => exact lockstep_change fun _ _ twins => twins.press code
  | handleKey key => exact lockstep_change fun _ _ twins => twins.handleKey key
  | setIrq level =>
      refine lockstep_change fun a b twins => ⟨?_, twins.config, twins.board⟩
      exact congrArg (Cpu.setIrq · level) twins.cpu
  | nmi =>
      refine lockstep_change fun a b twins => ⟨?_, twins.config, twins.board⟩
      exact congrArg Cpu.nmi twins.cpu
  | peek address =>
      rw [run, peek_eq]
      exact (lockstep_perform _).map _
  | poke address value =>
      rw [run, poke_eq]
      exact (lockstep_perform _).map _
  | loadImage address image => exact lockstep_loadImage address image
  | saveRegion start last =>
      refine lockstep_query fun a b twins => ?_
      rw [twins.saveRegion_eq start last]
  | advance span => exact (lockstep_advance span).map _
  | setTime time =>
      refine lockstep_change fun a b twins => ?_
      obtain ⟨cpu, config, board⟩ := twins
      refine ⟨cpu, config, board.ram, board.roms, board.pia, ?_, board.shown⟩
      exact congrArg (Duration.longer · time) board.time
  | setRegisters registers =>
      refine lockstep_change fun a b twins => ⟨?_, twins.config, twins.board⟩
      exact congrArg (Cpu.setRegisters · registers) twins.cpu
  | saveState =>
      refine lockstep_query fun a b twins => ?_
      rw [saveState_congr twins.saved_eq]
  | loadState state => exact lockstep_loadState state

/-- Twins answer every session alike, and stay twins. -/
theorem lockstep_session (commands : List Command) :
    Lockstep (Twins left right) (session commands) := by
  induction commands with
  | nil => exact .pure []
  | cons command rest ih =>
      exact command.lockstep.bind fun reply => ih.bind fun replies => .pure (reply :: replies)

end Machine

end AppleOne
