import AppleOne.Proofs.Machine.Display

/-!
What becomes of the bytes that are sent to the display. However often a host takes the recorded events
away, the batches and what is still held are the image of these bytes, in order (`uses_taken_held`).
-/

namespace AppleOne

/-! ### Bytes and what they show -/

namespace Terminal

/-- What a byte shows that is sent to the display. Its top bit does not count. -/
def shownBy (value : UInt8) : Option Event :=
  let code := value &&& 0x7F
  if code = 0x0D then some .newLine
  else if 0x20 ≤ code ∧ code ≤ 0x5F then some (.char code)
  else none

/-- What a byte can show. -/
def Event.Showable : Event → Prop
  | char code => 0x20 ≤ code ∧ code ≤ 0x5F
  | newLine => True

theorem showable_of_shownBy {value : UInt8} {event : Event} (shown : shownBy value = some event) :
    event.Showable := by
  rw [shownBy] at shown
  split at shown
  · cases shown
    trivial
  · split at shown
    · rename_i range
      cases shown
      exact range
    · cases shown

theorem Event.toNat_toChar (code : UInt8) : (Event.char code).toChar.toNat = code.toNat := by
  have valid : code.toNat.isValidChar := .inl (Nat.lt_trans code.toNat_lt (by decide))
  rw [toChar, Char.ofNat, dif_pos valid]
  rfl

theorem Event.toChar_inj {first second : Event} (showableFirst : first.Showable)
    (showableSecond : second.Showable) (same : first.toChar = second.toChar) : first = second := by
  -- A new line is no printable character.
  have apart (code : UInt8) (printable : 0x20 ≤ code) :
      (Event.char code).toChar ≠ Event.newLine.toChar := by
    intro same
    have number := congrArg Char.toNat same
    rw [toNat_toChar] at number
    rw [UInt8.le_iff_toNat_le, number] at printable
    exact absurd printable (by decide)
  cases first with
  | char code =>
      cases second with
      | char other =>
          have codes := congrArg Char.toNat same
          rw [toNat_toChar, toNat_toChar, UInt8.toNat_inj] at codes
          rw [codes]
      | newLine => exact absurd same (apart code showableFirst.1)
  | newLine =>
      cases second with
      | char other => exact absurd same.symm (apart other showableSecond.1)
      | newLine => rfl

theorem textOf_inj {first second : List Event} (showableFirst : ∀ event ∈ first, event.Showable)
    (showableSecond : ∀ event ∈ second, event.Showable) (same : textOf first = textOf second) :
    first = second := by
  have chars : first.map Event.toChar = second.map Event.toChar := String.ofList_injective same
  clear same
  induction first generalizing second with
  | nil => exact (List.map_eq_nil_iff.mp chars.symm).symm
  | cons event first ih =>
      cases second with
      | nil => cases chars
      | cons other second =>
          obtain ⟨head, tail⟩ := List.cons_eq_cons.mp chars
          rw [Event.toChar_inj (showableFirst event List.mem_cons_self)
            (showableSecond other List.mem_cons_self) head]
          refine congrArg (other :: ·) (ih ?_ ?_ tail)
          · exact fun event later => showableFirst event (List.mem_cons_of_mem _ later)
          · exact fun event later => showableSecond event (List.mem_cons_of_mem _ later)

end Terminal

/-- The byte that an event sends to the display. -/
def Event.sent? : Event → Option UInt8
  | .access (.write address value) => if address = 0xD012 then some value else none
  | _ => none

/-- What the bytes show that some events send to the display. -/
def outputOf (events : List Event) : List Terminal.Event :=
  (events.filterMap Event.sent?).filterMap Terminal.shownBy

theorem outputOf_concat (events : List Event) (event : Event) :
    outputOf (events ++ [event]) = outputOf events ++ (event.sent?.bind Terminal.shownBy).toList := by
  rw [outputOf, List.filterMap_append, List.filterMap_append, outputOf]
  cases sent : event.sent? with
  | none => simp [sent]
  | some value => cases shown : Terminal.shownBy value <;> simp [sent, shown]

theorem showable_of_mem_outputOf {events : List Event} {event : Terminal.Event}
    (member : event ∈ outputOf events) : event.Showable := by
  obtain ⟨value, -, shown⟩ := List.mem_filterMap.mp member
  exact Terminal.showable_of_shownBy shown

/-! ### The recording on the board -/

namespace Board

/-- What was taken from the recording and what it holds are what some events show. -/
structure Heard (taken : List Terminal.Event) (events : List Event) (board : Board) : Prop where
  room : board.ram.size ≤ maxRam
  recording : board.terminal.isRecording
  output : taken ++ board.terminal.events.toList = outputOf events

variable {taken : List Terminal.Event} {events : List Event} {board : Board}

/-- An event that sends nothing to the display. -/
theorem Heard.concat (heard : Heard taken events board) {event : Event} {after : Board}
    (silent : event.sent? = none) (room : after.ram.size ≤ maxRam)
    (same : after.terminal = board.terminal) : Heard taken (events ++ [event]) after where
  room := room
  recording := same ▸ heard.recording
  output := by
    rw [outputOf_concat, silent, same, heard.output]
    exact (List.append_nil _).symm

theorem Heard.read (heard : Heard taken events board) {address : UInt16} {value : UInt8}
    {after : Board} (done : board.read address = .ok value after) :
    Heard taken (events ++ [.access (.read address value)]) after := by
  rw [read_eq heard.room] at done
  cases done
  split
  · exact heard.concat rfl heard.room rfl
  · exact heard.concat rfl heard.room rfl

theorem Heard.display (heard : Heard taken events board) (value : UInt8) (ready : Duration) :
    Heard taken (events ++ [.access (.write Pia.displayData value)]) (board.displayed value ready) := by
  have shown : Pia.shown? (Pia.sevenBits value) = Terminal.shownBy value := rfl
  have sent : (Event.access (.write Pia.displayData value)).sent? = some value := rfl
  refine ⟨heard.room, ?_, ?_⟩
  · dsimp only [displayed]
    cases Pia.shown? (Pia.sevenBits value) with
    | some event => exact (board.terminal.isRecording_put event).trans heard.recording
    | none => exact heard.recording
  · rw [outputOf_concat, sent, Option.bind_some, ← shown, ← heard.output]
    dsimp only [displayed]
    cases Pia.shown? (Pia.sevenBits value) with
    | some event =>
        rw [Terminal.events_put heard.recording, Array.toList_push, List.append_assoc]
        rfl
    | none => exact (List.append_nil _).symm

theorem Heard.write (heard : Heard taken events board) {address : UInt16} {value : UInt8}
    {after : Board} (done : board.write address value = .ok () after) :
    Heard taken (events ++ [.access (.write address value)]) after := by
  have silent (other : address ≠ Pia.displayData) : (Event.access (.write address value)).sent? = none :=
    if_neg (show ¬address = 0xD012 from other)
  rcases of_write_ok heard.room done with ⟨inside, rfl⟩ | ⟨rfl, ready, -, rfl⟩ | ⟨-, other, journal, rfl⟩
  · have other : address ≠ Pia.displayData := by
      rintro rfl
      have low : 0xD012 < board.ram.size := inside
      have room := heard.room
      unfold maxRam at room
      omega
    exact heard.concat (silent other) (by rw [Array.size_set]; exact heard.room) rfl
  · exact heard.display value ready
  · exact heard.concat (silent other) heard.room rfl

theorem kept_heard (taken : List Terminal.Event) : Machine.Recording.Kept (Heard taken) where
  read heard done := heard.read done
  write heard done := heard.write done
  journal _ heard := ⟨heard.room, heard.recording, heard.output⟩
  press code heard := heard.concat rfl heard.room rfl
  image heard fits := heard.concat rfl (by rw [Machine.size_overlay fits]; exact heard.room) rfl
  restore key heard same := heard.concat rfl (by rw [same]; exact heard.room) rfl
  clock heard _ := heard.concat rfl heard.room rfl

/-- What is taken is no longer held. -/
theorem Heard.take (heard : Heard taken events board) :
    Heard (taken ++ board.terminal.take.1.toList) events
      { board with terminal := board.terminal.take.2 } := by
  refine ⟨heard.room, board.terminal.isRecording_take.trans heard.recording, ?_⟩
  rw [← heard.output, Terminal.take_events, Terminal.events_take]
  exact List.append_nil _

end Board

/-! ### Taking events away -/

namespace Machine

/-- Takes the recorded events away. -/
def takeEvents : Run (List Terminal.Event) := fun machine =>
  .ok machine.board.terminal.take.1.toList
    { machine with board := { machine.board with terminal := machine.board.terminal.take.2 } }

/-- What a host does with a machine and its recording. -/
inductive Use where
  | ask (command : Command)
  | takeEvents

/-- Uses one after the other, up to the first fault; the results are the batches that were taken. -/
def uses : List Use → Run (List (List Terminal.Event))
  | [] => pure []
  | .ask command :: rest => do
    let _ ← command.run
    uses rest
  | .takeEvents :: rest => do
    let batch ← takeEvents
    let batches ← uses rest
    return batch :: batches

namespace Recording

def takeEvents : Recording (List Terminal.Event) := fun ⟨machine, events⟩ =>
  .ok machine.board.terminal.take.1.toList
    ⟨{ machine with board := { machine.board with terminal := machine.board.terminal.take.2 } }, events⟩

def uses : List Use → Recording (List (List Terminal.Event))
  | [] => pure []
  | .ask asked :: rest => do
    let _ ← command asked
    uses rest
  | .takeEvents :: rest => do
    let batch ← takeEvents
    let batches ← uses rest
    return batch :: batches

theorem records_uses (list : List Use) : Records (Recording.uses list) (Machine.uses list) := by
  induction list with
  | nil => exact .pure []
  | cons use rest ih =>
      cases use with
      | ask command => exact (records_command command).bind fun _ => ih
      | takeEvents =>
          have taken : Records takeEvents Machine.takeEvents := fun _ => rfl
          exact taken.bind fun batch => ih.bind fun batches => .pure (batch :: batches)

theorem heard_of_uses {list : List Use} {taken : List Terminal.Event} {chronicle after : Chronicle}
    {batches : List (List Terminal.Event)}
    (heard : chronicle.machine.board.Heard taken chronicle.events)
    (ran : Recording.uses list chronicle = .ok batches after) :
    after.machine.board.Heard (taken ++ batches.flatten) after.events := by
  induction list generalizing chronicle taken batches with
  | nil =>
      cases ran
      rw [List.flatten_nil, List.append_nil]
      exact heard
  | cons use rest ih =>
      cases use with
      | ask command =>
          have kept := (Board.kept_heard taken).keeps_command command chronicle heard
          simp only [Recording.uses, bind, EStateM.bind] at ran
          cases done : Recording.command command chronicle with
          | ok reply between =>
              rw [done] at ran kept
              exact ih kept ran
          | error fault between =>
              rw [done] at ran
              cases ran
      | takeEvents =>
          simp only [Recording.uses, bind, EStateM.bind, takeEvents] at ran
          cases done : Recording.uses rest ⟨_, chronicle.events⟩ with
          | ok later between =>
              rw [done] at ran
              cases ran
              have further := ih heard.take done
              rw [List.append_assoc] at further
              exact further
          | error fault between =>
              rw [done] at ran
              cases ran

end Recording

/-! ### Whole runs -/

variable {config : Config} {roms : Roms} {journal : Log.Journal} {start after : Machine} {list : List Use}
  {batches : List (List Terminal.Event)}

theorem heard_build (built : build config roms .recorder journal = .ok start) :
    start.board.Heard [] [] := by
  obtain ⟨-, -, room, rfl⟩ := build_eq_ok_iff.mp built
  have roomOn : (switchedOn config roms .recorder journal).board.ram.size ≤ Board.maxRam :=
    Nat.le_trans (Nat.le_of_eq Array.size_replicate) room
  rw [reset_eq_restarted roomOn]
  exact ⟨roomOn, rfl, rfl⟩

theorem exists_recording (ran : uses list start = .ok batches after) :
    ∃ events, Recording.uses list ⟨start, []⟩ = .ok batches ⟨after, events⟩ := by
  have recorded := Recording.records_uses list ⟨start, []⟩
  cases done : Recording.uses list ⟨start, []⟩ with
  | ok made chronicle =>
      rw [done] at recorded
      cases ran.symm.trans recorded
      exact ⟨chronicle.events, rfl⟩
  | error fault chronicle =>
      rw [done] at recorded
      exact absurd (ran.symm.trans recorded) nofun

theorem heard_of_ran (built : build config roms .recorder journal = .ok start)
    (ran : uses list start = .ok batches after) :
    ∃ events, Recording.uses list ⟨start, []⟩ = .ok batches ⟨after, events⟩ ∧
      batches.flatten ++ after.board.terminal.events.toList = outputOf events := by
  obtain ⟨events, recorded⟩ := exists_recording ran
  exact ⟨events, recorded, (Recording.heard_of_uses (heard_build built) recorded).output⟩

/-- What the recording of some machine can hold. -/
def Held (held : List Terminal.Event) : Prop :=
  ∃ config roms journal start list batches after, build config roms .recorder journal = .ok start ∧
    uses list start = .ok batches after ∧ after.board.terminal.events.toList = held

theorem Held.showable {held : List Terminal.Event} (can : Held held) :
    ∀ event ∈ held, event.Showable := by
  obtain ⟨config, roms, journal, start, list, batches, after, built, ran, rfl⟩ := can
  obtain ⟨events, -, output⟩ := heard_of_ran built ran
  intro event member
  exact showable_of_mem_outputOf (output ▸ List.mem_append_right _ member)

/-- The batches that were taken, and after them what is still held, are what the bytes show that the
processor and the host have sent to the display. So no control code is among them, and the text tells what
is held. -/
theorem uses_taken_held (built : build config roms .recorder journal = .ok start)
    (ran : uses list start = .ok batches after) :
    ∃ events, Recording.uses list ⟨start, []⟩ = .ok batches ⟨after, events⟩ ∧
      batches.flatten ++ after.board.terminal.events.toList = outputOf events ∧
      (∀ code, .char code ∈ batches.flatten ++ after.board.terminal.events.toList →
        0x20 ≤ code ∧ code ≤ 0x5F) ∧
      ∀ other, Held other → Terminal.textOf other = after.board.terminal.text →
        other = after.board.terminal.events.toList := by
  obtain ⟨events, recorded, output⟩ := heard_of_ran built ran
  refine ⟨events, recorded, output, fun code member => ?_, fun other can same => ?_⟩
  · rw [output] at member
    exact showable_of_mem_outputOf member
  · have held : Held after.board.terminal.events.toList :=
      ⟨config, roms, journal, start, list, batches, after, built, ran, rfl⟩
    exact Terminal.textOf_inj can.showable held.showable same

theorem uses_line {machine : Machine} (room : machine.board.ram.size ≤ Board.maxRam)
    (empty : machine.board.terminal = .recorder) {ready : Duration}
    (sum : machine.board.time.add? machine.board.pia.busyTime = some ready) :
    ∃ after, uses [.ask (.poke Pia.displayData 0x41), .takeEvents, .ask (.poke Pia.displayData 0x8D)]
      machine = .ok [[.char 0x41]] after ∧ after.board.terminal = .recording #[.newLine] := by
  let lettered := machine.sent 0x41 ready
  let drained := { lettered with board := { lettered.board with terminal := .recorder } }
  have letter := run_poke_display room sum 0x41
  have line := run_poke_display (show drained.board.ram.size ≤ Board.maxRam from room) sum 0x8D
  have shown : lettered.board.terminal = .recording #[.char 0x41] := by
    change machine.board.terminal.put (.char 0x41) = _
    rw [empty]
    rfl
  have taken : takeEvents lettered = .ok [.char 0x41] drained := by
    rw [takeEvents, shown]
    rfl
  refine ⟨drained.sent 0x8D ready, ?_, rfl⟩
  simp only [uses, bind, EStateM.bind, letter]
  rw [taken]
  simp only [line]
  rfl

/-- A letter is taken away before a new line is sent, whose code has its top bit on. -/
theorem uses_taken_held_line :
    ∃ after, build .standard .blank .recorder .initial = .ok blank ∧
      uses [.ask (.poke Pia.displayData 0x41), .takeEvents, .ask (.poke Pia.displayData 0x8D)] blank =
        .ok [[.char 0x41]] after ∧
      ∀ other, Held other → Terminal.textOf other = "\n" → other = [.newLine] := by
  have built : build .standard .blank .recorder .initial = .ok blank := rfl
  have empty : blank.board.terminal = .recorder := by rw [blank_eq]
  have sum : blank.board.time.add? blank.board.pia.busyTime = some ⟨1700, by decide⟩ := by
    rw [blank_eq]
    rfl
  obtain ⟨after, ran, line⟩ := uses_line reachable_blank.ramSize_le empty sum
  obtain ⟨-, -, -, -, held⟩ := uses_taken_held built ran
  rw [Terminal.text, line] at held
  exact ⟨after, built, ran, held⟩

end Machine

end AppleOne
