import AppleOne.Proofs.Board.Timer
import AppleOne.Proofs.Machine.Display

/-!
The display's timer on a machine, whose time never goes back: a display that was seen ready is ready
until a character is sent to it (`display_timing`).
-/

namespace AppleOne

open Pia (ShowsTimer)

theorem concat_eq_append_cons {α : Type} {before rest init : List α} {last x : α}
    (h : init ++ [last] = before ++ x :: rest) :
    (rest = [] ∧ before = init ∧ x = last) ∨
      ∃ rest', rest = rest' ++ [last] ∧ init = before ++ x :: rest' := by
  rcases List.eq_nil_or_concat rest with rfl | ⟨rest', final, rfl⟩
  · obtain ⟨same, equal⟩ := List.append_inj' h rfl
    cases equal
    exact .inl ⟨rfl, same.symm, rfl⟩
  · rw [List.concat_eq_append] at h ⊢
    rw [← List.cons_append, ← List.append_assoc] at h
    obtain ⟨same, equal⟩ := List.append_inj' h rfl
    cases equal
    exact .inr ⟨rest', rfl, same⟩

namespace Board

/-- Between two characters, what was seen ready is seen ready again. -/
structure SeenReady (events : List Event) (board : Board) : Prop where
  room : board.ram.size ≤ maxRam
  reads : ∀ before register between register' value rest,
    events =
      before ++ .access (.read register 0x00) :: (between ++ .access (.read register' value) :: rest) →
    ShowsTimer register → ShowsTimer register' → NothingDisplayed between → value = 0x00
  ready : ∀ before register rest, events = before ++ .access (.read register 0x00) :: rest →
    ShowsTimer register → NothingDisplayed rest → board.displayBusy = false

variable {events : List Event} {board after : Board} {event : Event}

/-- An event keeps that, if a read of the timer shows what it is at the time, and nothing but a character
makes the display busy again. -/
theorem SeenReady.concat (seen : SeenReady events board) (room : after.ram.size ≤ maxRam)
    (shown : ∀ register value, ShowsTimer register → event = .access (.read register value) →
      value = Pia.flag board.displayBusy ∧ after = board)
    (still : (∀ value, event ≠ .access (.write Pia.displayData value)) → board.displayBusy = false →
      after.displayBusy = false) : SeenReady (events ++ [event]) after where
  room := room
  reads before register between register' value rest split shows shows' nothing := by
    rw [← List.cons_append, ← List.append_assoc] at split
    rcases concat_eq_append_cons split with ⟨-, rfl, equal⟩ | ⟨rest', -, equal⟩
    · have ready := seen.ready before register between rfl shows nothing
      rw [(shown register' value shows' equal.symm).1, ready]
      rfl
    · rw [List.append_assoc, List.cons_append] at equal
      exact seen.reads before register between register' value rest' equal shows shows' nothing
  ready before register rest split shows nothing := by
    rcases concat_eq_append_cons split with ⟨rfl, rfl, equal⟩ | ⟨rest', rfl, equal⟩
    · obtain ⟨zero, rfl⟩ := shown register 0x00 shows equal.symm
      exact (Pia.flag_eq_zero_iff _).mp zero.symm
    · obtain ⟨before', other⟩ := nothing.of_concat
      exact still other (seen.ready before register rest' equal shows before')

theorem SeenReady.read (seen : SeenReady events board) {address : UInt16} {value : UInt8}
    (done : board.read address = .ok value after) :
    SeenReady (events ++ [.access (.read address value)]) after := by
  have same : after.displayBusy = board.displayBusy ∧ after.ram.size ≤ maxRam := by
    rw [read_eq seen.room] at done
    cases done
    split
    · exact ⟨rfl, seen.room⟩
    · exact ⟨rfl, seen.room⟩
  refine seen.concat same.2 ?_ fun _ ready => same.1.trans ready
  rintro register _ shows ⟨⟩
  rw [read_display seen.room shows] at done
  cases done
  exact ⟨rfl, rfl⟩

theorem SeenReady.write (seen : SeenReady events board) {address : UInt16} {value : UInt8}
    (done : board.write address value = .ok () after) :
    SeenReady (events ++ [.access (.write address value)]) after := by
  rcases of_write_ok seen.room done with ⟨inside, rfl⟩ | ⟨rfl, ready, -, rfl⟩ | ⟨-, -, journal, rfl⟩
  · exact seen.concat (le_of_eq_of_le (Array.size_set inside) seen.room) nofun fun _ => id
  · exact seen.concat seen.room nofun fun other => absurd rfl (other value)
  · exact seen.concat seen.room nofun fun _ => id

theorem kept_seenReady : Machine.Recording.Kept SeenReady where
  read seen done := seen.read done
  write seen done := seen.write done
  journal _ seen := ⟨seen.room, seen.reads, seen.ready⟩
  press _ seen := seen.concat seen.room nofun fun _ => id
  image seen fits :=
    seen.concat (le_of_eq_of_le (Machine.size_overlay fits) seen.room) nofun fun _ => id
  restore _ seen same := seen.concat (le_of_eq_of_le same seen.room) nofun fun _ => id
  clock seen later := seen.concat seen.room nofun fun _ => Pia.ready_later later

end Board

namespace Machine

variable {machine : Machine}

/-- How a display goes on that shows ready, while a host drives the machine. -/
structure KeepsReady (machine : Machine) (commands : List Command) : Prop where
  time : machine.board.time ≤ (machine.chronicle commands).machine.board.time
  /-- Ready at the start, it is ready at the end. -/
  whole : machine.board.displayBusy = false → NothingDisplayed (machine.chronicle commands).events →
    (machine.chronicle commands).machine.board.ShowsBusy false
  /-- Read as ready on the way, it is read as ready again. -/
  between : ∀ before register between register' value rest,
    (machine.chronicle commands).events =
      before ++ .access (.read register 0x00) :: (between ++ .access (.read register' value) :: rest) →
    ShowsTimer register → ShowsTimer register' → NothingDisplayed between → value = 0x00
  /-- Read as ready on the way, it is ready at the end. -/
  later : ∀ before register rest,
    (machine.chronicle commands).events = before ++ .access (.read register 0x00) :: rest →
    ShowsTimer register → NothingDisplayed rest →
    (machine.chronicle commands).machine.board.ShowsBusy false

theorem keepsReady_of_room (room : machine.board.ram.size ≤ Board.maxRam) (commands : List Command) :
    machine.KeepsReady commands := by
  have start : machine.board.Idle machine.board.pia.readyAt machine.board.time [] :=
    ⟨room, fun _ => rfl, Nat.le_refl _⟩
  have idle := (Board.kept_idle _ _).chronicle start commands
  have unseen : Board.SeenReady [] machine.board := by
    refine ⟨room, fun before _ _ _ _ _ split => ?_, fun before _ _ split => ?_⟩
    · cases before <;> cases split
    · cases before <;> cases split
  have seen := Board.kept_seenReady.chronicle unseen commands
  constructor
  · exact idle.since
  · intro ready nothing
    have shows := idle.showsBusy nothing
    rw [Pia.ready_later idle.since ready] at shows
    exact shows
  · exact seen.reads
  · intro before register rest split shows nothing
    have now := Board.showsBusy _ seen.room
    rw [seen.ready before register rest split shows nothing] at now
    exact now

/-- The timer of an adapter by itself, at any times, and of the one in a machine, whose time goes on. -/
theorem display_timing (deeds : List Pia.Deed) (reachable : machine.Reachable)
    (commands : List Command) :
    (Pia.initial.Overruns deeds ∨ ∃ pia, Pia.initial.run? deeds = some pia ∧ Pia.Timer deeds pia) ∧
      machine.KeepsReady commands := by
  refine ⟨?_, keepsReady_of_room reachable.ramSize_le commands⟩
  cases ran : Pia.initial.run? deeds with
  | some pia => exact .inr ⟨pia, rfl, Pia.timer_of_run? ran⟩
  | none => exact .inl (Pia.overruns_of_run?_none ran)

/-- Long after its last character the display is ready. -/
def rested : Machine := displaying.setTime ⟨1701, by decide⟩

theorem reachable_rested : rested.Reachable := .run (.setTime _) reachable_displaying rfl

theorem displayBusy_rested : rested.board.displayBusy = false := by
  rw [rested, displaying, blank_eq]
  decide

theorem display_timing_rested :
    rested.Reachable ∧
    (∃ pia, Pia.initial.run? [.press 0xC1, .write ⟨5, by decide⟩ Pia.displayData 0x58] = some pia ∧
      Pia.initial.BusyUntil [.press 0xC1, .write ⟨5, by decide⟩ Pia.displayData 0x58] 5 ∧
      (pia.read ⟨5, by decide⟩ Pia.displayData).1 = 0x80) ∧
    (rested.chronicle [.press 0xC1, .nmi]).machine.board.ShowsBusy false := by
  obtain ⟨adapter, keeps⟩ := display_timing
    [.press 0xC1, .write ⟨5, by decide⟩ Pia.displayData 0x58] reachable_rested [.press 0xC1, .nmi]
  have nothing : NothingDisplayed (rested.chronicle [.press 0xC1, .nmi]).events := by
    rintro value among
    cases among with
    | tail _ among => cases among
  refine ⟨reachable_rested, ?_, keeps.whole displayBusy_rested nothing⟩
  have busy : Pia.initial.BusyUntil [.press 0xC1, .write ⟨5, by decide⟩ Pia.displayData 0x58] 5 :=
    ⟨[.press 0xC1], _, 0x58, [], _, rfl, nofun, rfl, rfl⟩
  rcases adapter with late | ⟨pia, ran, timer⟩
  · cases Pia.run?_of_overruns late
  · exact ⟨pia, ran, busy, (timer.shows _ _ (.inl rfl)).mpr ⟨5, busy, Nat.le_refl 5⟩⟩

end Machine

end AppleOne
