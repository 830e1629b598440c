import AppleOne.Proofs.Board.Latch

/-!
The display's timer over any course of deeds, at any times: only the last character that was sent to the
display counts, with its time and with what waited in the key latch at that moment (`timer_of_run?`).
-/

namespace AppleOne.Pia

/-- A character is sent to the display. -/
def Deed.Displays : Deed → Prop
  | write _ address _ => address = displayData
  | _ => False

/-- The last character that was sent keeps the display busy up to so many nanoseconds: up to its own time
if a key waited then, and 1700 longer if none did. -/
def BusyUntil (pia : Pia) (deeds : List Deed) (last : Nat) : Prop :=
  ∃ before now value rest earlier, deeds = before ++ .write now displayData value :: rest ∧
    (∀ later ∈ rest, ¬later.Displays) ∧ pia.run? before = some earlier ∧
    last = now.nanoseconds + if earlier.keyPending then 0 else 1700

/-- The registers that show whether the display is busy. -/
def ShowsTimer (register : UInt16) : Prop := register = displayData ∨ register = displayControl

section

variable {pia after : Pia} {deed : Deed} {deeds before rest : List Deed}

theorem nanoseconds_busyTime (pia : Pia) :
    pia.busyTime.nanoseconds = if pia.keyPending then 0 else 1700 := by
  rw [busyTime]
  split <;> rfl

theorem Deed.on?_readyAt (other : ¬deed.Displays) (done : deed.on? pia = some after) :
    after.readyAt = pia.readyAt := by
  cases deed with
  | press code =>
      cases done
      rfl
  | restore key =>
      cases done
      rfl
  | read now address =>
      cases done
      rcases pia.read_latch now address with same | taken
      · rw [same]
      · rw [taken]
  | write now address value =>
      rw [on?_write_of_ne other] at done
      cases done
      rfl

theorem readyAt_of_no_display (ran : pia.run? deeds = some after)
    (nothing : ∀ deed ∈ deeds, ¬deed.Displays) : after.readyAt = pia.readyAt := by
  induction deeds generalizing pia with
  | nil =>
      cases ran
      rfl
  | cons deed rest ih =>
      rw [run?_cons] at ran
      obtain ⟨between, done, ran⟩ := Option.bind_eq_some_iff.mp ran
      obtain ⟨first, nothing⟩ := List.forall_mem_cons.mp nothing
      rw [ih ran nothing, Deed.on?_readyAt first done]

/-- A character sets the timer, and nothing but another one sets it again. -/
theorem readyAt_of_busyUntil {last : Nat} (ran : pia.run? deeds = some after)
    (busy : pia.BusyUntil deeds last) :
    ∃ ready, after.readyAt = some ready ∧ ready.nanoseconds = last := by
  obtain ⟨before, now, value, rest, earlier, rfl, nothing, first, rfl⟩ := busy
  rw [run?_append, first, Option.bind_some, run?_cons, on?_write_display] at ran
  obtain ⟨sent, done, ran⟩ := Option.bind_eq_some_iff.mp ran
  obtain ⟨ready, sum, rfl⟩ := Option.map_eq_some_iff.mp done
  refine ⟨ready, readyAt_of_no_display ran nothing, ?_⟩
  rw [Duration.add?_eq_some_iff.mp sum, nanoseconds_busyTime]

theorem last_display (deeds : List Deed) :
    (∀ deed ∈ deeds, ¬deed.Displays) ∨
    ∃ before now value rest, deeds = before ++ .write now displayData value :: rest ∧
      ∀ later ∈ rest, ¬later.Displays := by
  induction deeds with
  | nil => exact .inl nofun
  | cons deed rest ih =>
      rcases ih with nothing | ⟨before, now, value, later, rfl, nothing⟩
      · by_cases displays : deed.Displays
        · cases deed with
          | write now address value =>
              cases displays
              exact .inr ⟨[], now, value, rest, rfl, nothing⟩
          | press code => cases displays
          | restore key => cases displays
          | read now address => cases displays
        · exact .inl (List.forall_mem_cons.mpr ⟨displays, nothing⟩)
      · exact .inr ⟨deed :: before, now, value, later, rfl, nothing⟩

theorem readyAt_iff_busyUntil (ran : initial.run? deeds = some after) (last : Nat) :
    (∃ ready, after.readyAt = some ready ∧ ready.nanoseconds = last) ↔
      initial.BusyUntil deeds last := by
  refine ⟨?_, readyAt_of_busyUntil ran⟩
  rintro ⟨ready, set, rfl⟩
  rcases last_display deeds with nothing | ⟨before, now, value, rest, split, nothing⟩
  · -- The timer was never set.
    rw [readyAt_of_no_display ran nothing] at set
    cases set
  · have begun := ran
    rw [split, run?_append] at begun
    obtain ⟨earlier, first, -⟩ := Option.bind_eq_some_iff.mp begun
    have busy : initial.BusyUntil deeds _ :=
      ⟨before, now, value, rest, earlier, split, nothing, first, rfl⟩
    obtain ⟨ready', set', same⟩ := readyAt_of_busyUntil ran busy
    cases set.symm.trans set'
    rw [same]
    exact busy

theorem read_timer {register : UInt16} (shows : ShowsTimer register) (pia : Pia) (now : Duration) :
    pia.read now register = (flag (pia.busy now), pia, none) := by
  rcases shows with rfl | rfl <;> rfl

theorem busy_iff (pia : Pia) (now : Duration) :
    pia.busy now = true ↔ ∃ ready, pia.readyAt = some ready ∧ now ≤ ready := by
  obtain ⟨key, readyAt⟩ := pia
  cases readyAt <;> simp [busy]

theorem flag_eq_iff (on : Bool) : flag on = 0x80 ↔ on = true := by
  cases on <;> decide

theorem flag_eq_zero_iff (on : Bool) : flag on = 0x00 ↔ on = false := by
  cases on <;> decide

end

/-- What the adapter shows of its timer, after the deeds that led to it. -/
structure Timer (deeds : List Deed) (pia : Pia) : Prop where
  /-- A read brings one of two bytes and changes nothing. -/
  reads : ∀ now register, ShowsTimer register →
    pia.read now register = (0x80, pia, none) ∨ pia.read now register = (0x00, pia, none)
  shows : ∀ now register, ShowsTimer register → ((pia.read now register).1 = 0x80 ↔
    ∃ last, initial.BusyUntil deeds last ∧ now.nanoseconds ≤ last)
  /-- Deeds that send nothing to the display do not show. -/
  ignores : ∀ before rest, deeds = before ++ rest → (∀ deed ∈ rest, ¬deed.Displays) →
    ∃ earlier, initial.run? before = some earlier ∧ ∀ now register, ShowsTimer register →
      (pia.read now register).1 = (earlier.read now register).1

theorem timer_of_run? {deeds : List Deed} {pia : Pia} (ran : initial.run? deeds = some pia) :
    Timer deeds pia where
  reads now register shows := by
    rw [read_timer shows]
    cases pia.busy now with
    | true => exact .inl rfl
    | false => exact .inr rfl
  shows now register shows := by
    rw [read_timer shows, flag_eq_iff, busy_iff]
    constructor
    · rintro ⟨ready, set, early⟩
      exact ⟨ready.nanoseconds, (readyAt_iff_busyUntil ran _).mp ⟨ready, set, rfl⟩, early⟩
    · rintro ⟨last, busy, early⟩
      obtain ⟨ready, set, rfl⟩ := (readyAt_iff_busyUntil ran last).mpr busy
      exact ⟨ready, set, early⟩
  ignores before rest split nothing := by
    subst split
    rw [run?_append] at ran
    obtain ⟨earlier, first, ran⟩ := Option.bind_eq_some_iff.mp ran
    refine ⟨earlier, first, fun now register shows => ?_⟩
    rw [read_timer shows, read_timer shows, busy, busy, readyAt_of_no_display ran nothing]

end AppleOne.Pia
