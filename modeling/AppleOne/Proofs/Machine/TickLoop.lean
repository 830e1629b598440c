import AppleOne.Machine.Typing
import AppleOne.Proofs.Machine.Drift
import AppleOne.Proofs.Machine.Output
import AppleOne.Proofs.Machine.Reporting

/-!
A machine that is typed into, tick by tick, with everything that happens on its board written down. What it
does is the same with another log, another terminal and, as long as it asks nothing of its display, with
another clock.
-/

namespace AppleOne

open Log (Diagnostic Journal)

variable {α β : Type}

namespace Machine

/-- The key that is handed over and those that come after it; none if another key waits. -/
def handed? (pending : Bool) : List HostKey → Option (HostKey × List HostKey)
  | [] => none
  | key :: rest => if pending then none else some (key, rest)

theorem offerKey_eq (keys : List HostKey) (machine : Machine) :
    offerKey keys machine =
      match handed? machine.board.pia.keyPending keys with
      | none => (keys, machine)
      | some (key, rest) => (rest, machine.handleKey key) := by
  unfold offerKey
  cases keys with
  | nil => exact ite_self _
  | cons key rest => cases machine.board.pia.keyPending <;> rfl

namespace Recording

/-- Hands over the next key if none waits; the result is the keys still to come. -/
def offer (keys : List HostKey) : Recording (List HostKey) := fun chronicle =>
  if chronicle.machine.board.pia.keyPending then .ok keys chronicle
  else
    match keys with
    | [] => .ok [] chronicle
    | key :: rest => ((fun _ => rest) <$> command (.handleKey key)) chronicle

theorem offer_eq (keys : List HostKey) (chronicle : Chronicle) :
    offer keys chronicle =
      match handed? chronicle.machine.board.pia.keyPending keys with
      | none => .ok keys chronicle
      | some (key, rest) => ((fun _ => rest) <$> command (.handleKey key)) chronicle := by
  unfold offer
  cases keys with
  | nil => exact ite_self _
  | cons key rest => cases chronicle.machine.board.pia.keyPending <;> rfl

/-- Ticks, with a key offered before each. -/
def typed : (ticks : Nat) → List HostKey → Recording Unit
  | 0, _ => pure ()
  | ticks + 1, keys => do
    let keys ← offer keys
    let _ ← command .tick
    typed ticks keys

namespace Kept

variable {I : List Event → Board → Prop} (kept : Kept I)
include kept

theorem keeps_offer (keys : List HostKey) : Keeps (Holds I) (offer keys) := by
  intro chronicle holds
  rw [offer_eq]
  cases handed? chronicle.machine.board.pia.keyPending keys with
  | none => exact holds
  | some handed =>
      exact (kept.keeps_command (.handleKey handed.1)).map (fun _ => handed.2) chronicle holds

/-- What every event keeps holds after all ticks. -/
theorem keeps_typed (ticks : Nat) (keys : List HostKey) : Keeps (Holds I) (typed ticks keys) := by
  induction ticks generalizing keys with
  | zero => exact fun _ holds => holds
  | succ ticks ih =>
      refine keeps_iff_lockstep.mpr ?_
      refine (keeps_iff_lockstep.mp (kept.keeps_offer keys)).bind fun left => ?_
      refine (keeps_iff_lockstep.mp (kept.keeps_command .tick)).bind fun _ => ?_
      exact keeps_iff_lockstep.mp (ih left)

end Kept

/-- The terminal holds what the bytes show that were sent to the display. -/
theorem output_typed {machine : Machine} {chronicle : Chronicle} {ticks : Nat} {keys : List HostKey}
    (room : machine.board.ram.size ≤ Board.maxRam) (recorder : machine.board.terminal = .recorder)
    (ran : typed ticks keys ⟨machine, []⟩ = .ok () chronicle) :
    chronicle.machine.board.terminal.events.toList = outputOf chronicle.events := by
  have heard : machine.board.Heard [] [] := ⟨room, by rw [recorder]; rfl, by rw [recorder]; rfl⟩
  have kept := (Board.kept_heard []).keeps_typed ticks keys ⟨machine, []⟩ heard
  rw [ran] at kept
  exact kept.output

end Recording

/-! ### Other logs and terminals -/

/-- A board that is watched, with another log and another terminal. -/
def fitWatched (journal : Journal) (terminal : Terminal) (watched : Watched Board) : Watched Board :=
  ⟨watched.device.fitted journal terminal, watched.accesses⟩

theorem reports_watched (t : Transaction α) :
    Reports fitWatched (t.perform : EStateM Fault (Watched Board) α) := by
  refine .perform ?_ ?_ ?_ t
  · rintro address ⟨board, accesses⟩
    obtain ⟨messages, events, same⟩ := Board.reports_read address board
    refine ⟨messages, events, fun journal terminal => ?_⟩
    simp only [Device.read, fitWatched, same]
    cases board.read address <;> rfl
  · rintro address value ⟨board, accesses⟩
    obtain ⟨messages, events, same⟩ := Board.reports_write address value board
    refine ⟨messages, events, fun journal terminal => ?_⟩
    simp only [Device.write, fitWatched, same]
    cases board.write address value <;> rfl
  · rintro diagnostic ⟨board, accesses⟩
    exact ⟨[diagnostic], [], fun journal terminal => rfl⟩

/-- A chronicle of a machine with another log and another terminal. -/
def Chronicle.fitted (journal : Journal) (terminal : Terminal) (chronicle : Chronicle) : Chronicle :=
  ⟨chronicle.machine.fitted journal terminal, chronicle.events⟩

namespace Recording

theorem reports_perform (act : Cpu → Transaction (α × Cpu)) : Reports Chronicle.fitted (perform act) := by
  rintro ⟨⟨cpu, config, board⟩, events⟩
  obtain ⟨messages, shown, same⟩ := reports_watched (act cpu) (.start board)
  refine ⟨messages, shown, fun journal terminal => ?_⟩
  have start : Watched.start (board.fitted journal terminal) = fitWatched journal terminal (.start board) := rfl
  simp only [perform, Chronicle.fitted, Machine.fitted, start, same]
  cases ((act cpu).perform : EStateM Fault (Watched Board) (α × Cpu)) (.start board) <;> rfl

theorem reports_handleKey (key : HostKey) : Reports Chronicle.fitted (command (.handleKey key)) := by
  rw [command]
  split
  · exact (reports_perform _).map _
  · rintro ⟨machine, events⟩
    obtain ⟨messages, shown, same⟩ := Command.reports (.handleKey key) machine
    refine ⟨messages, shown, fun journal terminal => ?_⟩
    simp only [aside, Chronicle.fitted, same]
    cases (Command.handleKey key).run machine <;> rfl

theorem reports_offer (keys : List HostKey) : Reports Chronicle.fitted (offer keys) := by
  intro chronicle
  have pending (journal : Journal) (terminal : Terminal) :
      (chronicle.fitted journal terminal).machine.board.pia.keyPending =
        chronicle.machine.board.pia.keyPending := rfl
  simp only [offer_eq, pending]
  cases handed? chronicle.machine.board.pia.keyPending keys with
  | none => exact ⟨[], [], fun _ _ => rfl⟩
  | some handed => exact (reports_handleKey handed.1).map (fun _ => handed.2) chronicle

theorem agrees_handleKey (key : HostKey) (rest : List HostKey) :
    Agrees id ((fun _ => rest) <$> command (.handleKey key))
      ((fun _ => rest) <$> (Command.handleKey key).run) :=
  (agrees_command (.handleKey key)).map fun _ _ _ => rfl

theorem agrees_offer (keys : List HostKey) : Agrees id (offer keys) (modifyGet (offerKey keys)) where
  grows := by
    intro chronicle after left done
    rw [offer_eq] at done
    cases handed : handed? chronicle.machine.board.pia.keyPending keys with
    | none =>
        rw [handed] at done
        cases done
        exact List.prefix_rfl
    | some handing =>
        rw [handed] at done
        exact (agrees_handleKey handing.1 handing.2).grows done
  alike := by
    intro chronicle after machine after' left left' drifted first second unasked
    have same : machine.board.pia.keyPending = chronicle.machine.board.pia.keyPending := by
      rw [Pia.keyPending, Pia.keyPending, drifted.board.key]
    obtain ⟨rfl, rfl⟩ : (offerKey keys machine).1 = left' ∧ (offerKey keys machine).2 = after' :=
      EStateM.Result.ok.inj second
    rw [offerKey_eq, same]
    rw [offer_eq] at first
    cases handed : handed? chronicle.machine.board.pia.keyPending keys with
    | none =>
        rw [handed] at first
        cases first
        exact ⟨rfl, drifted⟩
    | some handing =>
        rw [handed] at first
        exact (agrees_handleKey handing.1 handing.2).alike drifted first rfl unasked

end Recording

end Machine

namespace Terminal

theorem isRecording_putAll (terminal : Terminal) (events : List Event) :
    (terminal.putAll events).isRecording = terminal.isRecording := by
  induction events generalizing terminal with
  | nil => rfl
  | cons event rest ih => exact (ih _).trans (terminal.isRecording_put event)

theorem events_putAll {terminal : Terminal} (recording : terminal.isRecording) (events : List Event) :
    (terminal.putAll events).events.toList = terminal.events.toList ++ events := by
  induction events generalizing terminal with
  | nil => exact (List.append_nil _).symm
  | cons event rest ih =>
      have next := ih ((terminal.isRecording_put event).trans recording)
      rw [events_put recording, Array.toList_push, List.append_assoc] at next
      exact next

theorem textOf_append (first second : List Event) :
    textOf (first ++ second) = textOf first ++ textOf second := by
  rw [textOf, List.map_append, String.ofList_append]
  rfl

end Terminal

namespace Machine

/-! ### Following a reference -/

/-- The second machine has what the first one has, but for log and clock, and for the output of which `shown`
was taken before. -/
structure Follows (shown : List Terminal.Event) (reference machine : Machine) : Prop where
  drifted : (reference.fitted machine.board.journal machine.board.terminal).Drifted machine
  recording : machine.board.terminal.isRecording
  recorded : reference.board.terminal.isRecording
  output : reference.board.terminal.events.toList = shown ++ machine.board.terminal.events.toList

namespace Follows

variable {shown : List Terminal.Event} {reference machine : Machine}

theorem setTime (follows : Follows shown reference machine) (time : Duration) :
    Follows shown reference (machine.setTime time) :=
  ⟨follows.drifted.later _ _, follows.recording, follows.recorded, follows.output⟩

/-- Nothing waits to be taken, if all was taken. -/
theorem silent (follows : Follows shown reference machine)
    (all : reference.board.terminal.events.toList = shown) : machine.board.terminal.events = #[] := by
  have output := follows.output
  rw [all] at output
  exact Array.toList_eq_nil_iff.mp (List.append_right_eq_self.mp output.symm)

/-- What was shown since the last time is taken. -/
theorem flushed (follows : Follows shown reference machine) (journal : Journal) :
    Follows (shown ++ machine.board.terminal.events.toList) reference
      { machine with board := { machine.board with
        terminal := machine.board.terminal.take.2
        journal := journal } } := by
  obtain ⟨⟨cpu, config, drifted⟩, recording, recorded, output⟩ := follows
  refine ⟨⟨cpu, config, drifted.room, drifted.ram, drifted.roms, drifted.key, rfl, rfl⟩,
    machine.board.terminal.isRecording_take.trans recording, recorded, ?_⟩
  rw [output, Terminal.events_take]
  exact (List.append_nil _).symm

theorem run {view : α → β} {recording : Recording α} {run : Run α}
    (reports : Reports Chronicle.fitted recording) (agrees : Recording.Agrees view recording run)
    {chronicle after : Chronicle} {after' : Machine} {result result' : α}
    (follows : Follows shown chronicle.machine machine) (first : recording chronicle = .ok result after)
    (second : run machine = .ok result' after') (unasked : Unasked after.events) :
    view result = view result' ∧ Follows shown after.machine after' := by
  obtain ⟨messages, events, same⟩ := reports chronicle
  -- The run is seen with the reference's terminal, for what it displays, and with the other machine's.
  have own := same chronicle.machine.board.journal chronicle.machine.board.terminal
  have other := same machine.board.journal machine.board.terminal
  rw [first] at own other
  have terminal : after.machine.board.terminal = chronicle.machine.board.terminal.putAll events := by
    have here : chronicle.fitted chronicle.machine.board.journal chronicle.machine.board.terminal =
        chronicle := rfl
    rw [here, first] at own
    exact congrArg (·.machine.board.terminal) (EStateM.Result.ok.inj own).2
  obtain ⟨viewed, drifted⟩ := agrees.alike follows.drifted other second unasked
  have shows : machine.board.terminal.putAll events = after'.board.terminal := drifted.board.terminal
  have notes : machine.board.journal.noteAll messages = after'.board.journal := drifted.board.journal
  refine ⟨viewed, ?_, ?_, ?_, ?_⟩
  · rw [← shows, ← notes]
    exact drifted
  · rw [← shows, Terminal.isRecording_putAll]
    exact follows.recording
  · rw [terminal, Terminal.isRecording_putAll]
    exact follows.recorded
  · rw [terminal, ← shows, Terminal.events_putAll follows.recorded, Terminal.events_putAll follows.recording,
      follows.output, List.append_assoc]

theorem offer {chronicle after : Chronicle} {keys left : List HostKey}
    (follows : Follows shown chronicle.machine machine)
    (offered : Recording.offer keys chronicle = .ok left after) (unasked : Unasked after.events) :
    left = (offerKey keys machine).1 ∧ Follows shown after.machine (offerKey keys machine).2 := by
  have hands : (modifyGet (offerKey keys) : Run (List HostKey)) machine =
      .ok (offerKey keys machine).1 (offerKey keys machine).2 := rfl
  exact follows.run (Recording.reports_offer keys) (Recording.agrees_offer keys) offered hands unasked

/-- What can be loaded into one machine can be loaded into the other. -/
theorem loadImage {address : UInt16} {image : Array UInt8} {after : Machine}
    (follows : Follows shown reference machine) (loaded : machine.loadImage address image = .ok after) :
    ∃ last, reference.loadImage address image = .ok last ∧
      last.board.terminal = reference.board.terminal ∧ Follows shown last after := by
  have size : reference.ramSize = machine.ramSize := follows.drifted.ramSize_eq
  have ram : reference.board.ram = machine.board.ram := follows.drifted.board.ram
  rw [Machine.loadImage] at loaded ⊢
  rw [size]
  by_cases outside : machine.ramSize ≤ address.toNat
  · rw [if_pos outside] at loaded
    cases loaded
  · by_cases large : machine.ramSize < address.toNat + image.size
    · rw [if_neg outside, if_pos large] at loaded
      cases loaded
    · rw [if_neg outside, if_neg large] at loaded ⊢
      cases loaded
      have fits : address.toNat + image.size ≤ reference.board.ram.size :=
        Nat.le_trans (Nat.le_of_not_lt large) (Nat.le_of_eq size.symm)
      have room : (overlay reference.board.ram image address.toNat).size ≤ Board.maxRam :=
        Nat.le_trans (Nat.le_of_eq (size_overlay fits)) follows.drifted.board.room
      refine ⟨_, rfl, rfl, ⟨follows.drifted.cpu, follows.drifted.config, room, ?_, follows.drifted.board.roms,
        follows.drifted.board.key, rfl, rfl⟩, follows.recording, follows.recorded, follows.output⟩
      exact congrArg (overlay · image address.toNat) ram

end Follows

/-! ### In time -/

section

variable {config : Config} {machine after : Machine}

theorem config_of_step {cycles : Nat} (stepped : step machine = .ok cycles after) :
    after.config = machine.config := by
  obtain ⟨cpu, config, board⟩ := machine
  rw [step, perform] at stepped
  split at stepped
  · cases stepped
    rfl
  · cases stepped

/-- A machine of a configuration that can be run, at a time when nothing stops it. -/
structure Timely (config : Config) (machine : Machine) : Prop where
  sound : machine.Sound
  same : machine.config = config
  room : config.ramSize.toNat ≤ Board.maxRam
  early : machine.board.time.nanoseconds + 1700 < Duration.limit

namespace Timely

theorem ramSize_eq (timely : machine.Timely config) : machine.ramSize = config.ramSize.toNat := by
  rw [← timely.same]
  exact timely.sound.board.ramSize

theorem ramSize_le (timely : machine.Timely config) : machine.ramSize ≤ Board.maxRam :=
  Nat.le_trans (Nat.le_of_eq timely.ramSize_eq) timely.room

theorem setTime (timely : machine.Timely config) {time : Duration}
    (early : time.nanoseconds + 1700 < Duration.limit) : (machine.setTime time).Timely config where
  sound := (Command.setTime time).keeps machine timely.sound
  same := timely.same
  room := timely.room
  early := by
    have now : (machine.setTime time).board.time = machine.board.time.longer time := rfl
    have before := timely.early
    rw [now, Duration.nanoseconds_longer]
    omega

theorem loadImage {address : UInt16} {image : Array UInt8} (timely : machine.Timely config)
    (loaded : machine.loadImage address image = .ok after) : after.Timely config := by
  have sound := loadImage_sound timely.sound loaded
  obtain ⟨-, rfl⟩ := loadImage_eq_ok loaded
  exact ⟨sound, timely.same, timely.room, timely.early⟩

theorem handleKey (timely : machine.Timely config) (key : HostKey) :
    (machine.handleKey key).Timely config := by
  have sound := handleKey_sound timely.sound key
  by_cases escape : key.action = some .reset
  · rw [handleKey_reset escape] at sound ⊢
    rw [reset_eq_restarted timely.ramSize_le] at sound ⊢
    exact ⟨sound, timely.same, timely.room, timely.early⟩
  · rw [Machine.handleKey] at sound ⊢
    cases action : key.action with
    | none => exact timely
    | some action' =>
        rw [action] at sound
        cases action' with
        | key code => exact ⟨sound, timely.same, timely.room, timely.early⟩
        | reset => exact absurd action escape

theorem offerKey (timely : machine.Timely config) (keys : List HostKey) :
    (machine.offerKey keys).2.Timely config := by
  rw [offerKey_eq]
  cases handed? machine.board.pia.keyPending keys with
  | none => exact timely
  | some handed => exact timely.handleKey handed.1

theorem exists_step (timely : machine.Timely config) :
    ∃ cycles after, step machine = .ok cycles after ∧ after.Timely config := by
  have room : machine.board.ram.size ≤ Board.maxRam := timely.ramSize_le
  have goes : ¬Fails step machine := by
    rw [step, fails_perform_iff room]
    rintro ⟨value, now, asks, late⟩
    have past := late.late
    rw [asks.time room] at past
    exact absurd timely.early (Nat.not_lt.mpr past)
  obtain ⟨cycles, after, stepped⟩ := exists_ok_of_not_fails goes
  have sound := keeps_step machine timely.sound
  rw [stepped] at sound
  refine ⟨cycles, after, stepped, sound, ?_, timely.room, ?_⟩
  · rw [config_of_step stepped]
    exact timely.same
  · rw [time_of_step room stepped]
    exact timely.early

end Timely

/-- A machine that was just built follows the one that was built without a log. -/
theorem follows_ofImages {monitor basic : Array UInt8} {journal : Journal}
    (built : ofImages config monitor basic .recorder journal = .ok machine) :
    machine.Timely config ∧ ∃ reference, ofImages config monitor basic .recorder .initial = .ok reference ∧
      reference.board.terminal = .recorder ∧ Follows [] reference machine := by
  rw [ofImages] at built ⊢
  cases images : Roms.ofImages monitor basic with
  | error cause =>
      rw [images] at built
      cases built
  | ok roms =>
      rw [images] at built
      dsimp only at built ⊢
      have sound := build_sound built
      obtain ⟨nonzero, most, room, rfl⟩ := build_eq_ok_iff.mp built
      have size (journal : Journal) :
          (switchedOn config roms .recorder journal).board.ram.size ≤ Board.maxRam := by
        rw [switchedOn, Array.size_replicate]
        exact room
      have quiet : build config roms .recorder .initial = _ := build_eq_ok_iff.mpr ⟨nonzero, most, room, rfl⟩
      rw [reset_eq_restarted (size _)] at sound quiet ⊢
      have early : Duration.zero.nanoseconds + 1700 < Duration.limit := by decide
      refine ⟨⟨sound, rfl, room, early⟩, _, quiet, rfl, ?_, rfl, rfl, rfl⟩
      exact ⟨rfl, rfl, size journal, rfl, rfl, rfl, rfl, rfl⟩

namespace Recording

variable {chronicle : Chronicle}

theorem Records.exists_ok {α : Type} {recording : Recording α} {run : Run α} {result : α}
    (records : Records recording run) (done : run chronicle.machine = .ok result after) :
    ∃ last, recording chronicle = .ok result last ∧ last.machine = after := by
  have same := records chronicle
  cases recorded : recording chronicle with
  | ok result' last =>
      rw [recorded] at same
      obtain ⟨rfl, rfl⟩ := EStateM.Result.ok.inj (done.symm.trans same)
      exact ⟨last, rfl, rfl⟩
  | error fault last =>
      rw [recorded] at same
      cases done.symm.trans same

theorem records_offer (keys : List HostKey) : Records (offer keys) (modifyGet (offerKey keys)) := by
  intro chronicle
  have offered : (modifyGet (offerKey keys) : Run (List HostKey)) chronicle.machine =
      .ok (offerKey keys chronicle.machine).1 (offerKey keys chronicle.machine).2 := rfl
  rw [offered, offerKey_eq, offer_eq]
  cases handed? chronicle.machine.board.pia.keyPending keys with
  | none => rfl
  | some handed =>
      have recorded := (records_command (.handleKey handed.1)).map (fun _ => handed.2) chronicle
      dsimp only
      generalize ((fun _ => handed.2) <$> command (.handleKey handed.1)) chronicle = outcome at recorded ⊢
      cases outcome with
      | ok left last =>
          obtain ⟨rfl, same⟩ := EStateM.Result.ok.inj recorded
          exact congrArg _ same
      | error => cases recorded

/-- A tick of a machine in time does not fail. -/
theorem exists_repeatWithin (timely : chronicle.machine.Timely config) (fuel budget executed : Nat) :
    ∃ cycles last, repeatWithin (perform Cpu.step) fuel budget executed chronicle = .ok cycles last ∧
      last.machine.Timely config := by
  induction fuel generalizing chronicle executed with
  | zero => exact ⟨executed, chronicle, rfl, timely⟩
  | succ fuel ih =>
      rw [repeatWithin]
      split
      · obtain ⟨cycles, after, stepped, still⟩ := timely.exists_step
        obtain ⟨between, first, rfl⟩ := (records_perform Cpu.step).exists_ok stepped
        obtain ⟨total, last, rest, left⟩ := ih still (min maxCount (executed + cycles))
        refine ⟨total, last, ?_, left⟩
        simp only [bind, EStateM.bind, first]
        exact rest
      · exact ⟨executed, chronicle, rfl, timely⟩

theorem exists_typed (timely : chronicle.machine.Timely config) (ticks : Nat) (keys : List HostKey) :
    ∃ last, typed ticks keys chronicle = .ok () last := by
  induction ticks generalizing chronicle keys with
  | zero => exact ⟨chronicle, rfl⟩
  | succ ticks ih =>
      have hands : (modifyGet (offerKey keys) : Run (List HostKey)) chronicle.machine =
          .ok (offerKey keys chronicle.machine).1 (offerKey keys chronicle.machine).2 := rfl
      obtain ⟨offered, handed, same⟩ := (records_offer keys).exists_ok hands
      have ready : offered.machine.Timely config := by
        rw [same]
        exact timely.offerKey keys
      obtain ⟨cycles, ticked, ran, still⟩ := exists_repeatWithin ready
        offered.machine.config.cyclesPerTick.toNat offered.machine.config.cyclesPerTick.toNat 0
      obtain ⟨last, rest⟩ := ih still (offerKey keys chronicle.machine).1
      have tick : command .tick offered = .ok (.cycles cycles) ticked := by
        simp only [command, Functor.map, EStateM.map, repeatStep, ran]
      refine ⟨last, ?_⟩
      simp only [typed, bind, EStateM.bind, handed, tick]
      exact rest

theorem typed_grows {last : Chronicle} {ticks : Nat} {keys : List HostKey}
    (done : typed ticks keys chronicle = .ok () last) : chronicle.events <+: last.events := by
  induction ticks generalizing chronicle keys with
  | zero =>
      cases done
      exact List.prefix_rfl
  | succ ticks ih =>
      obtain ⟨left, offered, handed, done⟩ := exists_of_bind_ok done
      obtain ⟨reply, ticked, ran, done⟩ := exists_of_bind_ok done
      have first := (agrees_offer keys).grows handed
      exact (first.trans ((agrees_command .tick).grows ran)).trans (ih done)

end Recording

end

end Machine

end AppleOne
