import AppleOne.Proofs.Machine.AddressSpace
import AppleOne.Proofs.Machine.RoundTrip

/-!
The display's timer is no part of a saved state, and a load does not touch it: the display is ready
after a load exactly if it was ready before.
-/

namespace AppleOne

/-- No character was sent to the display. -/
def NothingDisplayed (events : List Event) : Prop :=
  ∀ value, .access (.write Pia.displayData value) ∉ events

theorem NothingDisplayed.of_concat {events : List Event} {event : Event}
    (nothing : NothingDisplayed (events ++ [event])) :
    NothingDisplayed events ∧ ∀ value, event ≠ .access (.write Pia.displayData value) := by
  constructor
  · intro value earlier
    exact nothing value (List.mem_append_left _ earlier)
  · rintro value rfl
    exact nothing value (List.mem_append_right _ (List.mem_singleton_self _))

namespace Board

/-- While nothing is displayed, the timer stays as it is and time only moves forward. -/
structure Idle (readyAt : Option Duration) (since : Duration) (events : List Event) (board : Board) :
    Prop where
  room : board.ram.size ≤ maxRam
  readyAt : NothingDisplayed events → board.pia.readyAt = readyAt
  since : since ≤ board.time

variable {readyAt : Option Duration} {since : Duration} {events : List Event} {board : Board}

theorem Idle.concat (idle : Idle readyAt since events board) {event : Event} {after : Board}
    (room : after.ram.size ≤ maxRam)
    (same : (∀ value, event ≠ .access (.write Pia.displayData value)) →
      after.pia.readyAt = board.pia.readyAt)
    (later : board.time ≤ after.time) : Idle readyAt since (events ++ [event]) after where
  room := room
  readyAt nothing := by
    obtain ⟨before, other⟩ := nothing.of_concat
    rw [same other, idle.readyAt before]
  since := Nat.le_trans idle.since later

theorem Idle.read (idle : Idle readyAt since events board) {address : UInt16} {value : UInt8}
    {after : Board} (done : board.read address = .ok value after) :
    Idle readyAt since (events ++ [.access (.read address value)]) after := by
  rw [read_eq idle.room] at done
  cases done
  split
  · exact idle.concat idle.room (fun _ => rfl) (Nat.le_refl _)
  · exact idle.concat idle.room (fun _ => rfl) (Nat.le_refl _)

theorem Idle.write (idle : Idle readyAt since events board) {address : UInt16} {value : UInt8}
    {after : Board} (done : board.write address value = .ok () after) :
    Idle readyAt since (events ++ [.access (.write address value)]) after := by
  by_cases inside : address.toNat < board.ram.size
  · rw [write_ram inside] at done
    cases done
    exact idle.concat (by rw [Array.size_set]; exact idle.room) (fun _ => rfl) (Nat.le_refl _)
  · by_cases display : address = Pia.displayData
    · subst display
      rw [write_display idle.room] at done
      -- The timer is set here, but then something was displayed.
      split at done
      · cases done
        exact idle.concat idle.room (fun other => absurd rfl (other value)) (Nat.le_refl _)
      · cases done
    · rw [write_elsewhere (Nat.le_of_not_lt inside) display] at done
      cases done
      exact idle.concat idle.room (fun _ => rfl) (Nat.le_refl _)

theorem kept_idle (readyAt : Option Duration) (since : Duration) :
    Machine.Recording.Kept (Idle readyAt since) where
  read idle done := idle.read done
  write idle done := idle.write done
  journal _ idle := ⟨idle.room, idle.readyAt, idle.since⟩
  press code idle := idle.concat idle.room (fun _ => rfl) (Nat.le_refl _)
  image idle fits :=
    idle.concat (by rw [Machine.size_overlay fits]; exact idle.room) (fun _ => rfl) (Nat.le_refl _)
  restore key idle same := idle.concat (by rw [same]; exact idle.room) (fun _ => rfl) (Nat.le_refl _)
  clock idle later := idle.concat idle.room (fun _ => rfl) later

theorem read_display (room : board.ram.size ≤ maxRam) {register : UInt16}
    (isDisplay : register = Pia.displayData ∨ register = Pia.displayControl) :
    board.read register = .ok (Pia.flag board.displayBusy) board := by
  have covered : Pia.covers register := by rcases isDisplay with rfl | rfl <;> rfl
  have outside := outside_of_covers room covered
  have notKey : register ≠ Pia.keyboardData := by rcases isDisplay with rfl | rfl <;> decide
  have notControl : register ≠ Pia.keyboardControl := by rcases isDisplay with rfl | rfl <;> decide
  rw [read_eq room, if_neg notKey, shows, dif_neg outside, if_neg notKey, if_neg notControl,
    if_pos isDisplay]

end Board

/-- A display that is ready stays so. -/
theorem Pia.ready_later {pia : Pia} {now later : Duration} (h : now ≤ later)
    (ready : pia.busy now = false) : pia.busy later = false := by
  obtain ⟨key, readyAt⟩ := pia
  cases readyAt with
  | none => rfl
  | some readyAt =>
      have passed : ¬now ≤ readyAt := of_decide_eq_false ready
      exact decide_eq_false fun still => passed (Nat.le_trans h still)

namespace Board

/-- Whether the display is busy, as both its registers show it without a change to the board. -/
structure ShowsBusy (board : Board) (busy : Bool) : Prop where
  displayBusy : board.displayBusy = busy
  data : board.read Pia.displayData = .ok (if busy then 0x80 else 0x00) board
  control : board.read Pia.displayControl = .ok (if busy then 0x80 else 0x00) board

theorem showsBusy (board : Board) (room : board.ram.size ≤ maxRam) :
    board.ShowsBusy board.displayBusy where
  displayBusy := rfl
  data := read_display room (.inl rfl)
  control := read_display room (.inr rfl)

theorem Idle.showsBusy {pia : Pia} {since : Duration} {events : List Event} {board : Board}
    (idle : board.Idle pia.readyAt since events) (nothing : NothingDisplayed events) :
    board.ShowsBusy (pia.busy board.time) := by
  have same : board.displayBusy = pia.busy board.time := by
    rw [displayBusy, Pia.busy, Pia.busy, idle.readyAt nothing]
  rw [← same]
  exact board.showsBusy idle.room

end Board

namespace Machine

variable {machine loaded : Machine} {value : Json}

/-- Up to the next character that is sent to it the display shows that it is ready. -/
def ReadyUntilDisplayed (machine : Machine) : Prop :=
  ∀ commands, NothingDisplayed (machine.chronicle commands).events →
    (machine.chronicle commands).machine.board.ShowsBusy false

theorem idle_of_load (reachable : machine.Reachable) (accepted : machine.loadState value = .ok loaded) :
    loaded.board.Idle machine.board.pia.readyAt machine.board.time [] := by
  obtain ⟨saved, read, ⟨⟩⟩ := bind_eq_ok.mp accepted
  have size : saved.ram.size = machine.ramSize := (SavedState.ofJson_eq_ok_iff.mp read).2
  refine ⟨?_, fun _ => rfl, Nat.le_refl _⟩
  change saved.ram.size ≤ Board.maxRam
  rw [size]
  exact reachable.ramSize_le

theorem time_of_load (accepted : machine.loadState value = .ok loaded) :
    loaded.board.time = machine.board.time := by
  obtain ⟨saved, -, ⟨⟩⟩ := bind_eq_ok.mp accepted
  rfl

/-! ### A busy display -/

/-- The machine after a character was sent to its display. -/
def sent (machine : Machine) (value : UInt8) (ready : Duration) : Machine :=
  { machine with board := machine.board.displayed value ready }

theorem run_poke_display (room : machine.board.ram.size ≤ Board.maxRam) {ready : Duration}
    (sum : machine.board.time.add? machine.board.pia.busyTime = some ready) (value : UInt8) :
    (Command.poke Pia.displayData value).run machine = .ok .done (machine.sent value ready) := by
  have written : machine.board.write Pia.displayData value =
      .ok () (machine.board.displayed value ready) := by rw [Board.write_display room, sum]
  obtain ⟨cpu, config, board⟩ := machine
  dsimp only [Command.run, poke, Functor.map, EStateM.map]
  rw [written]
  rfl

theorem ramSize_sent (machine : Machine) (value : UInt8) (ready : Duration) :
    (machine.sent value ready).ramSize = machine.ramSize := rfl

theorem displayBusy_sent (machine : Machine) (value : UInt8) (ready : Duration) :
    (machine.sent value ready).board.displayBusy = decide (machine.board.time ≤ ready) := rfl

theorem displayBusy_restore (machine : Machine) (saved : SavedState) :
    (machine.restore saved).board.displayBusy = machine.board.displayBusy := rfl

theorem busyTime_lt_limit : 1700 < Duration.limit := by decide

/-- The blank machine that still shows a character. -/
def displaying : Machine := blank.sent 0x41 ⟨1700, busyTime_lt_limit⟩

theorem reachable_displaying : displaying.Reachable := by
  have sum : blank.board.time.add? blank.board.pia.busyTime = some ⟨1700, by decide⟩ := by
    rw [blank_eq]
    rfl
  exact .run _ reachable_blank (run_poke_display reachable_blank.ramSize_le sum 0x41)

theorem displayBusy_displaying : displaying.board.displayBusy = true := by
  rw [displaying, displayBusy_sent, blank_eq]
  decide

theorem load_displaying :
    displaying.loadState blank.saveState = .ok (displaying.restore blank.saved) :=
  loadState_eq_restore (ramSize_sent blank _ _)

/-! ### Loads -/

/-- A load leaves the display alone: up to the next character it is busy as long as it was going to be,
and so it is ready just if it was ready before. -/
theorem display_after_load (reachable : machine.Reachable)
    (accepted : machine.loadState value = .ok loaded) :
    loaded.board.time = machine.board.time ∧ loaded.board.ShowsBusy machine.board.displayBusy ∧
    (∀ commands, NothingDisplayed (loaded.chronicle commands).events →
      (loaded.chronicle commands).machine.board.ShowsBusy
        (machine.board.pia.busy (loaded.chronicle commands).machine.board.time)) ∧
    (loaded.ReadyUntilDisplayed ↔ machine.board.displayBusy = false) := by
  have start := idle_of_load reachable accepted
  have same := time_of_load accepted
  have idle commands := (Board.kept_idle _ _).chronicle start commands
  have first : loaded.board.ShowsBusy machine.board.displayBusy := by
    have shows := start.showsBusy nofun
    rw [same] at shows
    exact shows
  refine ⟨same, first, fun commands nothing => (idle commands).showsBusy nothing, ?_, ?_⟩
  · intro ready
    rw [← first.displayBusy]
    exact (ready [] nofun).displayBusy
  · intro ready commands nothing
    have shows := (idle commands).showsBusy nothing
    rw [Pia.ready_later (idle commands).since ready] at shows
    exact shows

theorem display_after_load_displaying :
    displaying.Reachable ∧
    displaying.loadState blank.saveState = .ok (displaying.restore blank.saved) ∧
    (displaying.restore blank.saved).board.ShowsBusy true ∧
    ¬(displaying.restore blank.saved).ReadyUntilDisplayed := by
  obtain ⟨-, first, -, ready⟩ := display_after_load reachable_displaying load_displaying
  rw [displayBusy_displaying] at first ready
  exact ⟨reachable_displaying, load_displaying, first, mt ready.mp (by decide)⟩

/-- A load does not make the display ready. -/
theorem not_always_ready_after_load :
    ¬∀ (machine loaded : Machine) (value : Json), machine.Reachable →
      machine.loadState value = .ok loaded → loaded.ReadyUntilDisplayed := by
  intro always
  -- No command is needed: the display is still busy right after the load.
  have ready : (displaying.restore blank.saved).board.displayBusy = false :=
    (always _ _ _ reachable_displaying load_displaying [] nofun).displayBusy
  rw [displayBusy_restore, displayBusy_displaying] at ready
  cases ready

end Machine

end AppleOne
