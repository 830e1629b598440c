import AppleOne.Machine.Typing
import AppleOne.Proofs.Host.Keyboard
import AppleOne.Proofs.Machine.AddressSpace
import AppleOne.Proofs.Machine.RoundTrip

/-!
Typing into a machine that runs any program, on a clock that goes on by itself. The codes of the keys
that were handed over are at every point those that the program has read, followed by the one that waits
(`feed_lossless`).
-/

namespace AppleOne

/-! ### What an observer writes down -/

/-- A key handed over, or an access to the bus. -/
inductive Moment where
  | took (key : HostKey)
  | access (access : Access)

/-- A moment, and the key that waits after it. -/
structure Entry where
  moment : Moment
  latch : Option UInt8

def Moment.key? : Moment → Option HostKey
  | took key => some key
  | _ => none

/-- The code that a read of the keyboard brought, if it brought one. -/
def Moment.code? : Moment → Option UInt8
  | access (.read address value) => if address = 0xD010 ∧ value ≠ 0 then some (value &&& 0x7F) else none
  | _ => none

def keysTaken (log : List Entry) : List HostKey := log.filterMap (·.moment.key?)

def codesRead (log : List Entry) : List UInt8 := log.filterMap (·.moment.code?)

def latchAfter (log : List Entry) : Option UInt8 := log.getLast?.bind Entry.latch

/-- The codes of the keys handed over were read in that order, all but one that may wait. -/
def Lossless (log : List Entry) : Prop :=
  (keysTaken log).filterMap HostKey.code? = codesRead log ++ (latchAfter log).toList

theorem latchAfter_concat (log : List Entry) (entry : Entry) :
    latchAfter (log ++ [entry]) = entry.latch := by
  rw [latchAfter, List.getLast?_concat]
  rfl

theorem keysTaken_concat (log : List Entry) (entry : Entry) :
    keysTaken (log ++ [entry]) = keysTaken log ++ entry.moment.key?.toList := by
  rw [keysTaken, List.filterMap_append]
  cases key : entry.moment.key? <;> simp [keysTaken, key]

theorem codesRead_concat (log : List Entry) (entry : Entry) :
    codesRead (log ++ [entry]) = codesRead log ++ entry.moment.code?.toList := by
  rw [codesRead, List.filterMap_append]
  cases code : entry.moment.code? <;> simp [codesRead, code]

/-! ### A board on its own clock -/

/-- A board whose clock shows some time at each access, whatever was written down before. -/
structure Ticking where
  board : Board
  clock : List Entry → Duration
  log : List Entry

namespace Ticking

/-- The board at the time of the next access. -/
def present (ticking : Ticking) : Board := { ticking.board with time := ticking.clock ticking.log }

def after (ticking : Ticking) (moment : Moment) (board : Board) : Ticking :=
  { ticking with board := board, log := ticking.log ++ [⟨moment, board.pia.key⟩] }

instance : Device (EStateM Fault Ticking) where
  read address := fun ticking =>
    match ticking.present.read address with
    | .ok value board => .ok value (ticking.after (.access (.read address value)) board)
    | .error fault board => .error fault { ticking with board := board }
  write address value := fun ticking =>
    match ticking.present.write address value with
    | .ok () board => .ok () (ticking.after (.access (.write address value)) board)
    | .error fault board => .error fault { ticking with board := board }
  note diagnostic := fun ticking =>
    .ok () { ticking with
      board := { ticking.board with journal := ticking.board.journal.note diagnostic } }

/-- What holds while keys are handed over, `keys` being still to come. -/
structure Fed (typed keys : List HostKey) (ticking : Ticking) : Prop where
  room : ticking.board.ram.size ≤ Board.maxRam
  latch : ticking.board.pia.key = latchAfter ticking.log
  code : ∀ code, ticking.board.pia.key = some code → code < 0x80
  split : keysTaken ticking.log ++ keys = typed
  lossless : ∀ past, past <+: ticking.log → Lossless past
  free : ∀ past key latch, past ++ [⟨.took key, latch⟩] <+: ticking.log → latchAfter past = none

variable {typed keys : List HostKey} {ticking : Ticking}

theorem Fed.concat (fed : Fed typed keys ticking) {entry : Entry} {left : List HostKey} {after : Ticking}
    (log : after.log = ticking.log ++ [entry]) (room : after.board.ram.size ≤ Board.maxRam)
    (latch : after.board.pia.key = entry.latch) (code : ∀ code, entry.latch = some code → code < 0x80)
    (keys_eq : entry.moment.key?.toList ++ left = keys)
    (codes : (latchAfter ticking.log).toList ++ (entry.moment.key?.bind HostKey.code?).toList =
      entry.moment.code?.toList ++ entry.latch.toList)
    (free : ∀ key, entry.moment = .took key → latchAfter ticking.log = none) :
    Fed typed left after := by
  -- What was read and what waited before is what was read and what waits now, but for the new entry.
  have now : Lossless after.log := by
    rw [Lossless, log, keysTaken_concat, List.filterMap_append, codesRead_concat, latchAfter_concat,
      fed.lossless ticking.log List.prefix_rfl, List.append_assoc, List.append_assoc, ← codes]
    cases key : entry.moment.key? with
    | none => rfl
    | some taken => cases code : taken.code? <;> simp [code]
  refine ⟨room, by rw [latch, log, latchAfter_concat], latch ▸ code, ?_, ?_, ?_⟩
  · rw [log, keysTaken_concat, List.append_assoc, keys_eq, fed.split]
  · intro past begins
    rw [log] at begins
    rcases List.prefix_concat_iff.mp begins with rfl | earlier
    · exact log ▸ now
    · exact fed.lossless past earlier
  · intro past key latch' begins
    rw [log] at begins
    rcases List.prefix_concat_iff.mp begins with same | earlier
    · obtain ⟨rfl, ⟨⟩⟩ := List.append_inj' same rfl
      exact free key rfl
    · exact fed.free past key latch' earlier

theorem keeps_read (address : UInt16) :
    Keeps (Fed typed keys) (Device.read address : EStateM Fault Ticking UInt8) := by
  intro ticking fed
  have room : ticking.present.ram.size ≤ Board.maxRam := fed.room
  simp only [Device.read, Board.read_eq room, final]
  by_cases key : address = Pia.keyboardData
  · subst key
    rw [if_pos rfl]
    refine fed.concat rfl room rfl (by rintro _ ⟨⟩) rfl ?_ (by rintro _ ⟨⟩)
    rw [← fed.latch]
    -- A key that waits is read with its top bit on, so it is no zero; without one a zero is read.
    have shown : ticking.present.shows Pia.keyboardData = ticking.board.pia.key.elim 0 (· ||| 0x80) :=
      Board.shows_key room
    cases waits : ticking.board.pia.key with
    | none =>
        rw [shown, waits]
        rfl
    | some code =>
        obtain ⟨nonzero, same⟩ := Pia.delivered code (fed.code code waits)
        have read : (Moment.access (.read Pia.keyboardData (code ||| 0x80))).code? = some code := by
          rw [Moment.code?, if_pos ⟨rfl, nonzero⟩, same]
        rw [shown, waits, Option.elim_some, read]
        rfl
  · rw [if_neg key]
    refine fed.concat rfl room rfl fed.code rfl ?_ (by rintro _ ⟨⟩)
    have unread : ¬(address = 0xD010 ∧ ticking.present.shows address ≠ 0) := fun read => key read.1
    simp only [Moment.key?, Moment.code?, if_neg unread, ← fed.latch]
    exact List.append_nil _

theorem keeps_write (address : UInt16) (value : UInt8) :
    Keeps (Fed typed keys) (Device.write address value : EStateM Fault Ticking Unit) := by
  intro ticking fed
  have room : ticking.present.ram.size ≤ Board.maxRam := fed.room
  simp only [Device.write]
  cases done : ticking.present.write address value with
  | ok _ after =>
      obtain ⟨size, same⟩ : after.ram.size ≤ Board.maxRam ∧ after.pia.key = ticking.board.pia.key := by
        rcases Board.of_write_ok room done with ⟨inside, rfl⟩ | ⟨-, _, -, rfl⟩ | ⟨-, -, _, rfl⟩
        · exact ⟨by rw [Array.size_set]; exact room, rfl⟩
        · exact ⟨room, rfl⟩
        · exact ⟨room, rfl⟩
      refine fed.concat rfl size rfl (same ▸ fed.code) rfl ?_ (by rintro _ ⟨⟩)
      simp only [Moment.key?, Moment.code?, ← fed.latch, same]
      exact List.append_nil _
  | error fault after =>
      rw [Board.of_write_error done]
      exact ⟨room, fed.latch, fed.code, fed.split, fed.lossless, fed.free⟩

theorem keeps_note (diagnostic : Log.Diagnostic) :
    Keeps (Fed typed keys) (Device.note diagnostic : EStateM Fault Ticking Unit) :=
  fun _ fed => ⟨fed.room, fed.latch, fed.code, fed.split, fed.lossless, fed.free⟩

/-- A key is only taken while none waits, and then it is the one that waits, if it has a code. -/
theorem Fed.take {key : HostKey} {rest : List HostKey} (fed : Fed typed (key :: rest) ticking)
    (free : ticking.board.pia.key = none) {board : Board} (room : board.ram.size ≤ Board.maxRam)
    (latch : board.pia.key = key.code?) :
    Fed typed rest (ticking.after (.took key) board) := by
  have none : latchAfter ticking.log = none := fed.latch.symm.trans free
  refine fed.concat rfl room rfl (fun code waits => ?_) rfl ?_ fun _ _ => none
  · exact HostKey.code_lt (HostKey.code?_eq_some_iff.mp (latch.symm.trans waits))
  · rw [none, latch]
    rfl

theorem begins_after {past : List Entry} (begins : past <+: ticking.log) (moment : Moment)
    (board : Board) : past <+: (ticking.after moment board).log :=
  begins.trans (List.prefix_append _ _)

structure Kept (I : Ticking → Prop) : Prop where
  read : ∀ address, Keeps I (Device.read address : EStateM Fault Ticking UInt8)
  write : ∀ address value, Keeps I (Device.write address value : EStateM Fault Ticking Unit)
  note : ∀ diagnostic, Keeps I (Device.note diagnostic : EStateM Fault Ticking Unit)

theorem kept_fed (typed keys : List HostKey) : Kept (Fed typed keys) where
  read := keeps_read
  write := keeps_write
  note := keeps_note

theorem kept_begun (past : List Entry) : Kept (past <+: ·.log) where
  read address := by
    intro ticking begun
    simp only [Device.read]
    cases ticking.present.read address with
    | ok value board => exact begins_after begun _ board
    | error fault board => exact begun
  write address value := by
    intro ticking begun
    simp only [Device.write]
    cases ticking.present.write address value with
    | ok _ board => exact begins_after begun _ board
    | error fault board => exact begun
  note _ _ begun := begun

/-- The clock always shows what the clock on the board shows. -/
structure Standing (ticking : Ticking) (board : Board) : Prop where
  same : ticking.board = board
  room : board.ram.size ≤ Board.maxRam
  clock : ∀ log, ticking.clock log = board.time

theorem Standing.present_eq {board : Board} (standing : ticking.Standing board) :
    ticking.present = board := by
  rw [present, standing.clock, standing.same]

theorem Standing.after {board later : Board} (standing : ticking.Standing board) (moment : Moment)
    (room : later.ram.size ≤ Board.maxRam) (time : later.time = board.time) :
    (ticking.after moment later).Standing later :=
  ⟨rfl, room, fun log => (standing.clock log).trans time.symm⟩

/-- On a clock that stands still it is the board that performs, aside from what is written down. -/
theorem simulates_perform {α : Type} (t : Transaction α) :
    Simulates Standing (t.perform : EStateM Fault Ticking α) (t.perform : EStateM Fault Board α) := by
  apply Simulates.perform
  · intro address ticking board standing
    dsimp only [Device.read]
    rw [standing.present_eq, Board.read_eq standing.room]
    refine ⟨rfl, standing.after _ ?_ ?_⟩
    · split <;> exact standing.room
    · split <;> rfl
  · intro address value ticking board standing
    dsimp only [Device.write]
    rw [standing.present_eq]
    cases done : board.write address value with
    | ok _ later =>
        obtain ⟨size, time⟩ := Board.kept_by_write standing.room done
        exact ⟨rfl, standing.after _ (size ▸ standing.room) time⟩
    | error fault later =>
        rw [Board.of_write_error done]
        exact ⟨rfl, rfl, standing.room, standing.clock⟩
  · intro diagnostic ticking board standing
    obtain ⟨rfl, room, clock⟩ := standing
    exact ⟨rfl, rfl, room, clock⟩

end Ticking

/-! ### The loop -/

namespace Machine

/-- A machine on a clock of its own, and the keys still to come. -/
structure Feeder where
  cpu : Cpu
  config : Config
  ticking : Ticking
  keys : List HostKey

abbrev Feeding := EStateM Fault Feeder

namespace Feeding

variable {α : Type}

def perform (act : Cpu → Transaction (α × Cpu)) : Feeding α := fun ⟨cpu, config, ticking, keys⟩ =>
  match ((act cpu).perform : EStateM Fault Ticking (α × Cpu)) ticking with
  | .ok (result, cpu) ticking => .ok result ⟨cpu, config, ticking, keys⟩
  | .error fault ticking => .error fault ⟨cpu, config, ticking, keys⟩

/-- Hands over the next key if none waits. -/
def offer : Feeding Unit := fun ⟨cpu, config, ticking, keys⟩ =>
  match ticking.board.pia.keyPending, keys with
  | false, key :: rest =>
    let took (board : Board) : Feeder := ⟨cpu, config, ticking.after (.took key) board, rest⟩
    match key.action with
    | some (.key code) => .ok () (took (ticking.board.press code))
    | some .reset => perform (fun cpu => Prod.mk () <$> cpu.reset) (took ticking.board)
    | none => .ok () (took ticking.board)
  | _, _ => .ok () ⟨cpu, config, ticking, keys⟩

def tick : Feeding Nat := fun feeder =>
  repeatStep (perform Cpu.step) feeder.config.cyclesPerTick feeder

def round : Feeding Unit := do
  offer
  let _ ← tick

def feed : Nat → Feeding Unit
  | 0 => pure ()
  | ticks + 1 => do
    round
    feed ticks

/-! ### What every key and every access keeps -/

section

variable {I : List HostKey → Ticking → Prop}

def Holds (I : List HostKey → Ticking → Prop) (feeder : Feeder) : Prop := I feeder.keys feeder.ticking

theorem keeps_perform (kept : ∀ keys, Ticking.Kept (I keys)) (act : Cpu → Transaction (α × Cpu)) :
    Keeps (Holds I) (perform act) := by
  rintro ⟨cpu, config, ticking, keys⟩ holds
  have after := Keeps.perform (kept keys).read (kept keys).write (kept keys).note (act cpu) ticking holds
  dsimp only [perform]
  generalize ((act cpu).perform : EStateM Fault Ticking (α × Cpu)) ticking = outcome at after ⊢
  cases outcome with
  | ok result ticking => exact after
  | error fault ticking => exact after

theorem keeps_tick (kept : ∀ keys, Ticking.Kept (I keys)) : Keeps (Holds I) tick := by
  have step := keeps_iff_lockstep.mp (keeps_perform kept Cpu.step)
  exact fun feeder => keeps_iff_lockstep.mpr (step.repeatWithin _ _ _) feeder

theorem keeps_feed (kept : ∀ keys, Ticking.Kept (I keys)) (offered : Keeps (Holds I) offer)
    (ticks : Nat) : Keeps (Holds I) (feed ticks) := by
  induction ticks with
  | zero => exact fun _ holds => holds
  | succ ticks ih =>
      have ticked := keeps_iff_lockstep.mp (keeps_tick kept)
      have round := (keeps_iff_lockstep.mp offered).bind fun _ => ticked.bind fun _ => .pure ()
      exact keeps_iff_lockstep.mpr (round.bind fun _ => keeps_iff_lockstep.mp ih)

end

theorem keeps_offer_fed (typed : List HostKey) : Keeps (Holds (Ticking.Fed typed)) offer := by
  rintro ⟨cpu, config, ticking, keys⟩ fed
  have room : ticking.board.ram.size ≤ Board.maxRam := fed.room
  dsimp only [offer]
  split
  · rename_i key rest nothing
    have free : ticking.board.pia.key = none := by
      rw [Pia.keyPending, Option.isSome_eq_false_iff, Option.isNone_iff_eq_none] at nothing
      exact nothing
    split
    · rename_i code action
      have latch : (ticking.board.press code).pia.key = key.code? := by
        rw [HostKey.code?_eq_some_iff.mpr action]
        exact congrArg some (Pia.sevenBits_of_lt (HostKey.code_lt action))
      exact Ticking.Fed.take fed free room latch
    · rename_i action
      have latch : ticking.board.pia.key = key.code? := by rw [free, HostKey.code?, action]
      have taken := Ticking.Fed.take fed free room latch
      exact keeps_perform (Ticking.kept_fed typed) _ ⟨cpu, config, _, rest⟩ taken
    · rename_i action
      have latch : ticking.board.pia.key = key.code? := by rw [free, HostKey.code?, action]
      exact Ticking.Fed.take fed free room latch
  · exact fed

theorem keeps_offer_begun (past : List Entry) :
    Keeps (Holds fun _ ticking => past <+: ticking.log) offer := by
  rintro ⟨cpu, config, ticking, keys⟩ begun
  dsimp only [offer]
  split
  · rename_i key rest _
    have took (board : Board) := Ticking.begins_after begun (.took key) board
    split
    · exact took _
    · exact keeps_perform (fun _ => Ticking.kept_begun past) _ ⟨cpu, config, _, rest⟩ (took _)
    · exact took _
  · exact begun

/-- What was written down when a key was offered stays there. -/
theorem begins_feed {feeder begun : Feeder} (offers : offer feeder = .ok () begun) (ticks : Nat) :
    begun.ticking.log <+: (final (feed (ticks + 1) feeder)).ticking.log := by
  have kept (_ : List HostKey) := Ticking.kept_begun begun.ticking.log
  have ticked := keeps_iff_lockstep.mp (keeps_tick kept)
  have others := keeps_iff_lockstep.mp (keeps_feed kept (keeps_offer_begun _) ticks)
  have grows := keeps_iff_lockstep.mpr (ticked.bind fun _ => others) begun List.prefix_rfl
  simp only [feed, round, bind, EStateM.bind, offers] at grows ⊢
  cases done : tick begun with
  | ok cycles after =>
      simp only [done] at grows ⊢
      exact grows
  | error fault after =>
      simp only [done] at grows ⊢
      exact grows

end Feeding

/-! ### On a clock that stands still -/

def Feeder.machine (feeder : Feeder) : Machine := ⟨feeder.cpu, feeder.config, feeder.ticking.board⟩

/-- On a clock that stands still this is that machine, and those are the keys still to come. -/
structure Feeder.Standing (keys : List HostKey) (feeder : Feeder) (machine : Machine) : Prop where
  cpu : feeder.cpu = machine.cpu
  config : feeder.config = machine.config
  board : feeder.ticking.Standing machine.board
  keys : feeder.keys = keys

namespace Feeding

variable {keys : List HostKey}

theorem simulates_perform (act : Cpu → Transaction (α × Cpu)) :
    Simulates (Feeder.Standing keys) (perform act) (Machine.perform act) := by
  rintro ⟨cpu, config, ticking, _⟩ ⟨_, _, board⟩ ⟨⟨⟩, ⟨⟩, standing, ⟨⟩⟩
  have alike := Ticking.simulates_perform (act cpu) ticking board standing
  dsimp only [perform, Machine.perform]
  generalize ((act cpu).perform : EStateM Fault Ticking (α × Cpu)) ticking = here at alike ⊢
  generalize ((act cpu).perform : EStateM Fault Board (α × Cpu)) board = there at alike ⊢
  cases here with
  | ok result ticking =>
      cases there with
      | ok result' board =>
          obtain ⟨rfl, standing⟩ := alike
          exact ⟨rfl, rfl, rfl, standing, rfl⟩
      | error fault board => exact alike.elim
  | error fault ticking =>
      cases there with
      | ok result board => exact alike.elim
      | error fault' board =>
          obtain ⟨rfl, standing⟩ := alike
          exact ⟨rfl, rfl, rfl, standing, rfl⟩

theorem simulates_tick : Simulates (Feeder.Standing keys) tick Machine.tick := by
  intro feeder machine standing
  rw [tick, Machine.tick, standing.config]
  exact (simulates_perform Cpu.step).repeatWithin _ _ _ feeder machine standing

variable {feeder : Feeder} {machine : Machine}

theorem reset_standing (standing : feeder.Standing keys machine) :
    ∃ after, perform (fun cpu => Prod.mk () <$> cpu.reset) feeder = .ok () after ∧
      after.Standing keys machine.reset := by
  have alike := simulates_perform (fun cpu => Prod.mk () <$> cpu.reset) feeder machine standing
  rw [perform_reset] at alike
  generalize perform _ feeder = outcome at alike ⊢
  cases outcome with
  | ok _ after => exact ⟨after, rfl, alike.2⟩
  | error fault after => exact alike.elim

theorem offer_standing (standing : feeder.Standing keys machine) :
    ∃ after, offer feeder = .ok () after ∧
      after.Standing (offerKey keys machine).1 (offerKey keys machine).2 := by
  obtain ⟨cpu, config, ticking, left⟩ := feeder
  obtain ⟨_, _, board⟩ := machine
  obtain ⟨⟨⟩, ⟨⟩, standing, rfl⟩ := standing
  obtain ⟨rfl, room, clock⟩ := id standing
  dsimp only [offer, offerKey] at *
  cases ticking.board.pia.keyPending with
  | true => exact ⟨_, rfl, rfl, rfl, standing, rfl⟩
  | false =>
      cases left with
      | nil => exact ⟨_, rfl, rfl, rfl, standing, rfl⟩
      | cons key rest =>
          have took {board : Board} (size : board.ram.size ≤ Board.maxRam)
              (time : board.time = ticking.board.time) :
              Feeder.Standing rest ⟨cpu, config, ticking.after (.took key) board, rest⟩
                ⟨cpu, config, board⟩ :=
            ⟨rfl, rfl, standing.after _ size time, rfl⟩
          simp only [handleKey]
          cases key.action with
          | none => exact ⟨_, rfl, took room rfl⟩
          | some action =>
              cases action with
              | key code => exact ⟨_, rfl, took room rfl⟩
              | reset => exact reset_standing (took room rfl)

/-- A key and a tick of feeding are a tick of typing. -/
theorem round_standing (standing : feeder.Standing keys machine) :
    match round feeder, typingTick .zero keys machine with
    | .ok () after, .ok left later => after.Standing left later
    | .error _ after, .error _ later => after.ticking.board = later.board
    | _, _ => False := by
  obtain ⟨offered, offers, standing⟩ := offer_standing standing
  have ticked := simulates_tick offered (offerKey keys machine).2 standing
  simp only [round, typingTick_offered, bind, EStateM.bind, offers]
  generalize tick offered = here at ticked ⊢
  generalize Machine.tick (offerKey keys machine).2 = there at ticked ⊢
  cases here with
  | ok cycles after =>
      cases there with
      | ok cycles' later =>
          have time : later.board.time.add? .zero = some later.board.time :=
            Duration.add?_eq_some_iff.mpr rfl
          simp only [advance, time]
          exact ticked.2
      | error fault later => exact ticked.elim
  | error fault after =>
      cases there with
      | ok cycles later => exact ticked.elim
      | error fault' later => exact ticked.2.board.same

theorem feed_of_go {fuel idleTicks count total : Nat} {later : Machine}
    (standing : feeder.Standing keys machine)
    (done : typeKeys.go .zero fuel idleTicks keys count machine = .ok total later) :
    ∃ ticks after left, total = count + ticks ∧ feed ticks feeder = .ok () after ∧
      after.Standing left later := by
  induction fuel generalizing idleTicks keys count feeder machine with
  | zero =>
      cases done
      exact ⟨0, feeder, keys, rfl, rfl, standing⟩
  | succ fuel ih =>
      cases idleTicks with
      | zero =>
          cases done
          exact ⟨0, feeder, keys, rfl, rfl, standing⟩
      | succ idleTicks =>
          have alike := round_standing standing
          simp only [go_succ, bind, EStateM.bind] at done
          generalize typed : typingTick .zero keys machine = there at alike done
          generalize fed : round feeder = here at alike
          cases there with
          | error fault between => cases done
          | ok rest between =>
              cases here with
              | error fault after => exact alike.elim
              | ok _ begun =>
                  obtain ⟨ticks, after, left, sum, feeds, standing⟩ := ih alike done
                  refine ⟨ticks + 1, after, left, by omega, ?_, standing⟩
                  simp only [feed, bind, EStateM.bind, fed]
                  exact feeds

/-- Typing without pauses is feeding, on a clock that stands still. -/
theorem feed_of_typeKeys {limit idleTicks ticks : Nat} {later : Machine}
    (standing : feeder.Standing keys machine)
    (done : typeKeys .zero limit idleTicks keys machine = .ok ticks later) :
    ∃ after left, feed ticks feeder = .ok () after ∧ after.Standing left later := by
  obtain ⟨fed, after, left, sum, feeds, standing⟩ := feed_of_go standing done
  rw [Nat.zero_add] at sum
  exact ⟨after, left, sum ▸ feeds, standing⟩

end Feeding

def fedOn (machine : Machine) (clock : List Entry → Duration) (keys : List HostKey) : Feeder where
  cpu := machine.cpu
  config := machine.config
  ticking := ⟨machine.board, clock, []⟩
  keys := keys

def feedingLog (machine : Machine) (clock : List Entry → Duration) (keys : List HostKey) (ticks : Nat) :
    List Entry :=
  (final (Feeding.feed ticks (machine.fedOn clock keys))).ticking.log

/-- A key that can be handed over is the first thing in the log. -/
theorem begins_feedingLog {machine : Machine} (free : machine.board.pia.key = none)
    (clock : List Entry → Duration) {key : HostKey} {code : UInt8}
    (action : key.action = some (.key code)) (rest : List HostKey) (ticks : Nat) :
    [⟨.took key, some (Pia.sevenBits code)⟩] <+: machine.feedingLog clock (key :: rest) (ticks + 1) := by
  have pending : machine.board.pia.keyPending = false := by rw [Pia.keyPending, free]; rfl
  have offers : Feeding.offer (machine.fedOn clock (key :: rest)) = .ok () ⟨machine.cpu, machine.config,
      Ticking.after ⟨machine.board, clock, []⟩ (.took key) (machine.board.press code), rest⟩ := by
    simp only [Feeding.offer, fedOn, pending, action]
  exact Feeding.begins_feed offers ticks

/-- Whatever the program and the clock do, at every point the codes of the keys that were handed over are
those that were read, and after them the one that waits; no key is handed over while one waits. -/
theorem feed_lossless {machine : Machine} (reachable : machine.Reachable)
    (free : machine.board.pia.key = none) (clock : List Entry → Duration) (text : String) (ticks : Nat) :
    ∀ past, past <+: machine.feedingLog clock (HostKey.ofText text) ticks →
      keysTaken past <+: HostKey.ofText text ∧
      (keysTaken past).filterMap HostKey.code? = codesRead past ++ (latchAfter past).toList ∧
      ∀ key latch, past ++ [⟨.took key, latch⟩] <+:
        machine.feedingLog clock (HostKey.ofText text) ticks → latchAfter past = none := by
  have start : Feeding.Holds (Ticking.Fed (HostKey.ofText text))
      (machine.fedOn clock (HostKey.ofText text)) := by
    refine show Ticking.Fed _ _ _ from
      ⟨reachable.ramSize_le, free, fun code waits => ?_, rfl, fun past begins => ?_, ?_⟩
    · exact absurd (waits.symm.trans free) nofun
    · rw [List.prefix_nil.mp begins]
      rfl
    · intro past key latch begins
      exact absurd (List.prefix_nil.mp begins) (by simp)
  have fed : Ticking.Fed (HostKey.ofText text) _ _ :=
    Feeding.keeps_feed (Ticking.kept_fed _) (Feeding.keeps_offer_fed _) ticks _ start
  intro past begins
  refine ⟨?_, fed.lossless past begins, fed.free past⟩
  have taken : keysTaken past <+: keysTaken (machine.feedingLog clock (HostKey.ofText text) ticks) :=
    begins.filterMap _
  exact taken.trans ⟨_, fed.split⟩

theorem microsecond_lt_limit : 1000 < Duration.limit := by decide

/-- A clock that jumps while the machine runs. -/
def jumping (log : List Entry) : Duration :=
  if log.length < 5 then .zero else ⟨1000, microsecond_lt_limit⟩

/-- A letter, the reset key and another letter; the first letter is taken at once. -/
theorem feed_lossless_letters :
    blank.Reachable ∧ blank.board.pia.key = none ∧
      ∃ log, log = blank.feedingLog jumping (HostKey.ofText "a\x1bB") 3 ∧
        [⟨.took (.char 'a'), some 0x41⟩] <+: log ∧ keysTaken log <+: [.char 'a', .escape, .char 'B'] ∧
        (keysTaken log).filterMap HostKey.code? = codesRead log ++ (latchAfter log).toList := by
  have free : blank.board.pia.key = none := by
    rw [blank_eq]
    rfl
  have keys : HostKey.ofText "a\x1bB" = [.char 'a', .escape, .char 'B'] := by decide
  obtain ⟨taken, codes, -⟩ :=
    feed_lossless reachable_blank free jumping "a\x1bB" 3 _ List.prefix_rfl
  rw [keys] at taken codes ⊢
  have action : (HostKey.char 'a').action = some (.key 0x41) := by decide
  exact ⟨reachable_blank, free, _, rfl, begins_feedingLog free jumping action _ 2, taken, codes⟩

end Machine

end AppleOne
