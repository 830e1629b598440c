import AppleOne.Proofs.Machine.Reachable

/-!
The key latch over any course of deeds: it is a mailbox for one key, which the next read of the keyboard
takes (`mailbox`).
-/

namespace AppleOne.Pia

/-- What the host and the bus do to the interface adapter. -/
inductive Deed where
  | press (code : UInt8)
  | restore (key : Option UInt8)
  | read (now : Duration) (address : UInt16)
  | write (now : Duration) (address : UInt16) (value : UInt8)

namespace Deed

/-- The adapter after a deed. There is none if the display would be busy past the end of time. -/
def on? : Deed → Pia → Option Pia
  | press code, pia => some (pia.press code).1
  | restore key, pia => some (pia.restore key)
  | read now address, pia => some (pia.read now address).2.1
  | write now address value, pia => (pia.write? now address value).map Written.pia

/-- The key that a deed puts into the latch. -/
def latched? : Deed → Option UInt8
  | press code => some (code &&& 0x7F)
  | restore key => key.map (· &&& 0x7F)
  | _ => none

/-- The keyboard is read, or the host clears the latch. -/
def Empties : Deed → Prop
  | restore key => key = none
  | read _ address => address = keyboardData
  | _ => False

/-- Whatever was in the latch is gone after the deed. -/
def Replaces (deed : Deed) : Prop := (∃ code, deed.latched? = some code) ∨ deed.Empties

end Deed

/-- Deeds one after the other, as far as there is time for them. -/
def run? (pia : Pia) (deeds : List Deed) : Option Pia := deeds.foldlM (fun pia deed => deed.on? pia) pia

/-- A key was put into the latch by one of the deeds, and it is still there after the last of them. -/
def Waits (deeds : List Deed) (code : UInt8) : Prop :=
  ∃ before deed rest, deeds = before ++ deed :: rest ∧ deed.latched? = some code ∧
    ∀ later ∈ rest, ¬later.Replaces

/-- The byte that a read of the keyboard brings after some deeds. -/
def keyAfter? (deeds : List Deed) (now : Duration) : Option UInt8 :=
  (initial.run? deeds).map fun pia => (pia.read now keyboardData).1

/-- What a read of the keyboard brings depends on the key that was pressed. -/
def Delivers (before : List Deed) (code : UInt8) (between : List Deed) (now : Duration) : Prop :=
  ∃ other, keyAfter? (before ++ .press other :: between) now ≠
    keyAfter? (before ++ .press code :: between) now

/-! ### Courses of deeds -/

section

variable {pia after : Pia} {deed : Deed} {deeds rest : List Deed} {code : UInt8}

@[simp] theorem run?_nil (pia : Pia) : pia.run? [] = some pia := rfl

@[simp] theorem run?_cons (pia : Pia) (deed : Deed) (rest : List Deed) :
    pia.run? (deed :: rest) = (deed.on? pia).bind (·.run? rest) := by
  rw [run?, List.foldlM_cons]
  rfl

theorem run?_append (pia : Pia) (before rest : List Deed) :
    pia.run? (before ++ rest) = (pia.run? before).bind (·.run? rest) := by
  rw [run?, List.foldlM_append]
  rfl

theorem read_of_ne {now : Duration} {address : UInt16} (other : address ≠ keyboardData) :
    (pia.read now address).2.1 = pia := by
  rw [read, if_neg other]
  split
  · rfl
  · split <;> rfl

/-- The adapter once its key is taken. -/
def keyTaken (pia : Pia) : Pia := { pia with key := none }

theorem read_keyboardData (pia : Pia) (now : Duration) :
    (pia.read now keyboardData).2.1 = pia.keyTaken := by
  obtain ⟨key, readyAt⟩ := pia
  cases key <;> rfl

theorem on?_write_of_ne {now : Duration} {address : UInt16} (other : address ≠ displayData)
    (value : UInt8) : (Deed.write now address value).on? pia = some pia := by
  rw [Deed.on?, write?, if_neg other]
  rfl

theorem on?_write_display (now : Duration) (value : UInt8) :
    (Deed.write now displayData value).on? pia =
      (now.add? pia.busyTime).map fun ready => { pia with readyAt := some ready } := by
  rw [Deed.on?, write?, if_pos rfl]
  cases now.add? pia.busyTime <;> rfl

/-! ### The latch -/

/-- What waits after a deed: the key it latched, or else the key from before if that was not replaced. -/
theorem Deed.key_iff (done : deed.on? pia = some after) :
    after.key = some code ↔ deed.latched? = some code ∨ (pia.key = some code ∧ ¬deed.Replaces) := by
  cases deed with
  | press pressed =>
      cases done
      simp [Pia.press, sevenBits, latched?, Replaces]
  | restore key =>
      cases done
      cases key <;> simp [Pia.restore, sevenBits, latched?, Replaces, Empties]
  | read now address =>
      cases done
      by_cases keyboard : address = keyboardData
      · subst keyboard
        simp [read_keyboardData, keyTaken, latched?, Replaces, Empties]
      · simp [read_of_ne keyboard, latched?, Replaces, Empties, keyboard]
  | write now address value =>
      obtain ⟨written, wrote, rfl⟩ := Option.map_eq_some_iff.mp done
      simp [write?_key wrote, latched?, Replaces, Empties]

theorem waits_cons :
    Waits (deed :: rest) code ↔
      Waits rest code ∨ (deed.latched? = some code ∧ ∀ later ∈ rest, ¬later.Replaces) := by
  constructor
  · rintro ⟨before, first, later, split, latched, kept⟩
    cases before with
    | nil =>
        cases split
        exact .inr ⟨latched, kept⟩
    | cons earliest before =>
        cases split
        exact .inl ⟨before, first, later, rfl, latched, kept⟩
  · rintro (⟨before, first, later, rfl, latched, kept⟩ | ⟨latched, kept⟩)
    · exact ⟨deed :: before, first, later, rfl, latched, kept⟩
    · exact ⟨[], deed, rest, rfl, latched, kept⟩

theorem key_iff_of_run? (ran : pia.run? deeds = some after) :
    after.key = some code ↔
      Waits deeds code ∨ (pia.key = some code ∧ ∀ deed ∈ deeds, ¬deed.Replaces) := by
  induction deeds generalizing pia with
  | nil =>
      cases ran
      simp [Waits]
  | cons deed rest ih =>
      rw [run?_cons] at ran
      obtain ⟨between, done, ran⟩ := Option.bind_eq_some_iff.mp ran
      rw [ih ran, Deed.key_iff done, waits_cons, List.forall_mem_cons]
      grind

theorem key_iff_waits (ran : initial.run? deeds = some after) :
    after.key = some code ↔ Waits deeds code := by
  rw [key_iff_of_run? ran]
  simp [initial]

end

/-! ### Which deeds a reply depends on -/

/-- The adapters differ at most in which key waits. -/
structure SameTiming (pia other : Pia) : Prop where
  readyAt : pia.readyAt = other.readyAt
  keyPending : pia.keyPending = other.keyPending

section

variable {pia other : Pia}

theorem SameTiming.busyTime (same : SameTiming pia other) : pia.busyTime = other.busyTime := by
  rw [Pia.busyTime, same.keyPending, ← Pia.busyTime]

/-- A deed does the same to both, and once it replaces the key nothing tells them apart. -/
theorem SameTiming.on? (same : SameTiming pia other) (deed : Deed) :
    (deed.on? pia = none ∧ deed.on? other = none) ∨
    ∃ after after', deed.on? pia = some after ∧ deed.on? other = some after' ∧
      SameTiming after after' ∧ (deed.Replaces → after = after') := by
  cases deed with
  | press code =>
      have equal : (pia.press code).1 = (other.press code).1 := by simp [press, same.readyAt]
      exact .inr ⟨_, _, rfl, rfl, ⟨congrArg Pia.readyAt equal, rfl⟩, fun _ => equal⟩
  | restore key =>
      have equal : pia.restore key = other.restore key := by simp [restore, same.readyAt]
      exact .inr ⟨_, _, rfl, rfl, ⟨congrArg Pia.readyAt equal, rfl⟩, fun _ => equal⟩
  | read now address =>
      refine .inr ⟨_, _, rfl, rfl, ?_⟩
      by_cases keyboard : address = keyboardData
      · subst keyboard
        rw [read_keyboardData, read_keyboardData]
        have equal : pia.keyTaken = other.keyTaken := congrArg (Pia.mk none) same.readyAt
        exact ⟨⟨congrArg Pia.readyAt equal, rfl⟩, fun _ => equal⟩
      · rw [read_of_ne keyboard, read_of_ne keyboard]
        have keeps : ¬(Deed.read now address).Replaces := by
          simp [Deed.Replaces, Deed.latched?, Deed.Empties, keyboard]
        exact ⟨same, fun replaces => absurd replaces keeps⟩
  | write now address value =>
      have keeps : ¬(Deed.write now address value).Replaces := by
        simp [Deed.Replaces, Deed.latched?, Deed.Empties]
      by_cases display : address = displayData
      · subst display
        rw [on?_write_display, on?_write_display, same.busyTime]
        cases now.add? other.busyTime with
        | none => exact .inl ⟨rfl, rfl⟩
        | some ready =>
            exact .inr ⟨_, _, rfl, rfl, ⟨rfl, same.keyPending⟩, fun replaces => absurd replaces keeps⟩
      · rw [on?_write_of_ne display, on?_write_of_ne display]
        exact .inr ⟨_, _, rfl, rfl, same, fun replaces => absurd replaces keeps⟩

theorem SameTiming.run? (same : SameTiming pia other) (deeds : List Deed) :
    (pia.run? deeds = none ∧ other.run? deeds = none) ∨
    ∃ after after', pia.run? deeds = some after ∧ other.run? deeds = some after' ∧
      SameTiming after after' ∧ ((∃ deed ∈ deeds, deed.Replaces) → after = after') := by
  induction deeds generalizing pia other with
  | nil => exact .inr ⟨pia, other, rfl, rfl, same, nofun⟩
  | cons deed rest ih =>
      rw [run?_cons, run?_cons]
      rcases same.on? deed with ⟨here, there⟩ | ⟨between, between', here, there, still, forgot⟩
      · rw [here, there]
        exact .inl ⟨rfl, rfl⟩
      · rw [here, there, Option.bind_some, Option.bind_some]
        rcases ih still with neither | ⟨after, after', ran, ran', alike, later⟩
        · exact .inl neither
        · refine .inr ⟨after, after', ran, ran', alike, ?_⟩
          rintro ⟨replacing, among, replaces⟩
          rcases List.mem_cons.mp among with rfl | among
          · rw [forgot replaces, ran'] at ran
            exact (Option.some.inj ran).symm
          · exact later ⟨replacing, among, replaces⟩

end

/-! ### The mailbox -/

section

variable {pia : Pia} {deeds before between : List Deed} {code : UInt8}

theorem read_key {now : Duration} (latched : pia.key = some code) :
    (pia.read now keyboardData).1 = 0x80 ||| code := by
  obtain ⟨key, readyAt⟩ := pia
  cases latched
  exact UInt8.or_comm _ _

theorem read_key_none {now : Duration} (empty : pia.key = none) :
    (pia.read now keyboardData).1 = 0x00 := by
  obtain ⟨key, readyAt⟩ := pia
  cases empty
  rfl

theorem read_control (pia : Pia) (now later : Duration) :
    pia.read now keyboardControl =
      (if (pia.read later keyboardData).1 ≠ 0 then 0x80 else 0x00, pia, none) := by
  obtain ⟨key, readyAt⟩ := pia
  cases key with
  | none => rfl
  | some code =>
      exact congrArg (·, _, none) (if_pos (ne_zero_of_topBit code)).symm

/-- What was pressed, with another key in its place, leads to adapters that differ in the key at most. -/
theorem run?_press_other (ran : initial.run? (before ++ .press code :: between) = some pia)
    (other : UInt8) :
    ∃ pia', initial.run? (before ++ .press other :: between) = some pia' ∧ SameTiming pia pia' ∧
      ((∃ deed ∈ between, deed.Replaces) → pia = pia') := by
  rw [run?_append] at ran ⊢
  obtain ⟨earlier, first, ran⟩ := Option.bind_eq_some_iff.mp ran
  rw [first, Option.bind_some, run?_cons]
  rw [run?_cons] at ran
  have same : SameTiming (earlier.press code).1 (earlier.press other).1 := ⟨rfl, rfl⟩
  rcases same.run? between with ⟨stopped, -⟩ | ⟨after, after', ran', other, alike, forgot⟩
  · cases stopped.symm.trans ran
  · cases ran'.symm.trans ran
    exact ⟨after', other, alike, forgot⟩

theorem keyAfter?_of_waits (ran : initial.run? deeds = some pia) (waits : Waits deeds code)
    (now : Duration) : keyAfter? deeds now = some (0x80 ||| code) := by
  rw [keyAfter?, ran, Option.map_some, read_key ((key_iff_waits ran).mpr waits)]

theorem waits_press (code : UInt8) (kept : ∀ deed ∈ between, ¬deed.Replaces) :
    Waits (before ++ .press code :: between) (code &&& 0x7F) :=
  ⟨before, .press code, between, rfl, rfl, kept⟩

theorem delivers_of_kept (ran : initial.run? (before ++ .press code :: between) = some pia)
    (kept : ∀ deed ∈ between, ¬deed.Replaces) (now : Duration) : Delivers before code between now := by
  have differ : ∀ code : UInt8, 0x80 ||| (code ^^^ 1) &&& 0x7F ≠ 0x80 ||| code &&& 0x7F := by
    decide +kernel
  obtain ⟨pia', ran', -, -⟩ := run?_press_other ran (code ^^^ 1)
  refine ⟨code ^^^ 1, ?_⟩
  rw [keyAfter?_of_waits ran (waits_press code kept), keyAfter?_of_waits ran' (waits_press _ kept)]
  exact fun equal => differ code (Option.some.inj equal)

theorem not_delivers_of_replaced (ran : initial.run? (before ++ .press code :: between) = some pia)
    (replaced : ∃ deed ∈ between, deed.Replaces) (now : Duration) :
    ¬Delivers before code between now := by
  rintro ⟨other, differ⟩
  obtain ⟨pia', ran', -, forgot⟩ := run?_press_other ran other
  rw [forgot replaced] at ran
  rw [keyAfter?, keyAfter?, ran, ran'] at differ
  exact differ rfl

end

/-- What the adapter is as a mailbox for keys, after the deeds that led to it. -/
structure Mailbox (deeds : List Deed) (pia : Pia) : Prop where
  sevenBits : ∀ code, pia.key = some code → code < 0x80
  brings : ∀ code, Waits deeds code → ∀ now, (pia.read now keyboardData).1 = 0x80 ||| code
  bringsNothing : (∀ code, ¬Waits deeds code) → ∀ now, (pia.read now keyboardData).1 = 0x00
  takes : ∀ now, (pia.read now keyboardData).2.1.key = none
  /-- A read of the control register foretells one of the data register right after it. -/
  foretells : ∀ now later, ∃ flag,
    pia.read now keyboardControl = (flag, pia, none) ∧
    flag = if (pia.read later keyboardData).1 ≠ 0 then 0x80 else 0x00
  reads : ∀ now address, address ≠ keyboardData → (pia.read now address).2.1.key = pia.key
  writes : ∀ now address value written, pia.write? now address value = some written →
    written.pia.key = pia.key
  /-- A pressed key is what the next read of the keyboard brings, if nothing replaced it. -/
  next : ∀ before code between, deeds = before ++ .press code :: between →
    (∀ deed ∈ between, ¬deed.Replaces) → ∀ now, Delivers before code between now ∧
      (pia.read now keyboardData).1 = 0x80 ||| code &&& 0x7F
  /-- No read brings it after another one did, or after it was replaced. -/
  once : ∀ before code between, deeds = before ++ .press code :: between →
    (∃ deed ∈ between, deed.Replaces) → ∀ now, ¬Delivers before code between now

theorem mailbox_of_run? {deeds : List Deed} {pia : Pia} (ran : initial.run? deeds = some pia) :
    Mailbox deeds pia where
  sevenBits code held := by
    obtain ⟨before, deed, rest, -, latched, -⟩ := (key_iff_waits ran).mp held
    cases deed with
    | press raw =>
        cases latched
        exact sevenBits_lt raw
    | restore key =>
        obtain ⟨raw, -, rfl⟩ := Option.map_eq_some_iff.mp latched
        exact sevenBits_lt raw
    | read now address => cases latched
    | write now address value => cases latched
  brings code waits _ := read_key ((key_iff_waits ran).mpr waits)
  bringsNothing nothing _ :=
    read_key_none (Option.eq_none_iff_forall_ne_some.mpr fun code held =>
      nothing code ((key_iff_waits ran).mp held))
  takes now := by
    rw [read_keyboardData]
    rfl
  foretells now later := ⟨_, read_control pia now later, rfl⟩
  reads now address other := congrArg Pia.key (read_of_ne other)
  writes now address value written wrote := write?_key wrote
  next before code between split kept now := by
    subst split
    exact ⟨delivers_of_kept ran kept now,
      read_key ((key_iff_waits ran).mpr (waits_press code kept))⟩
  once before code between split replaced := by
    subst split
    exact not_delivers_of_replaced ran replaced

/-- A write among the deeds would keep the display busy past the end of time. -/
def Overruns (pia : Pia) (deeds : List Deed) : Prop :=
  ∃ before now value rest earlier, deeds = before ++ .write now displayData value :: rest ∧
    pia.run? before = some earlier ∧ now.add? earlier.busyTime = none

theorem run?_of_overruns {pia : Pia} {deeds : List Deed} (overruns : pia.Overruns deeds) :
    pia.run? deeds = none := by
  obtain ⟨before, now, value, rest, earlier, rfl, ran, late⟩ := overruns
  rw [run?_append, ran, Option.bind_some, run?_cons, on?_write_display, late]
  rfl

/-- Nothing else stops a course of deeds. -/
theorem overruns_of_run?_none {pia : Pia} {deeds : List Deed} (stopped : pia.run? deeds = none) :
    pia.Overruns deeds := by
  induction deeds generalizing pia with
  | nil => cases stopped
  | cons deed rest ih =>
      rw [run?_cons] at stopped
      cases done : deed.on? pia with
      | some between =>
          rw [done] at stopped
          obtain ⟨before, now, value, later, earlier, rfl, ran, late⟩ := ih stopped
          refine ⟨deed :: before, now, value, later, earlier, rfl, ?_, late⟩
          rw [run?_cons, done]
          exact ran
      | none =>
          cases deed with
          | press code => cases done
          | restore key => cases done
          | read now address => cases done
          | write now address value =>
              by_cases display : address = displayData
              · subst display
                rw [on?_write_display] at done
                exact ⟨[], now, value, rest, pia, rfl, rfl, Option.map_eq_none_iff.mp done⟩
              · rw [on?_write_of_ne display] at done
                cases done

/-- The latch is a mailbox for one key whatever is done to the adapter, until the end of time. -/
theorem mailbox (deeds : List Deed) :
    initial.Overruns deeds ∨ ∃ pia, initial.run? deeds = some pia ∧ Mailbox deeds pia := by
  cases ran : initial.run? deeds with
  | some pia => exact .inr ⟨pia, rfl, mailbox_of_run? ran⟩
  | none => exact .inl (overruns_of_run?_none ran)

-- The code zero is a key like any other.
example : keyAfter? [.press 0x80] .zero = some 0x80 := rfl

end AppleOne.Pia
