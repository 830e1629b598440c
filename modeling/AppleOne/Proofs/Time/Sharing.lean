import AppleOne.Time.Clocks
import Mathlib.Logic.Relation

/-!
Clocks under many handles. How the handles were made tells which of them show one clock, and what was done
through those tells its time.
-/

namespace AppleOne.Clocks

/-- What is done with the handles there are, which are numbered in the order of their making. -/
inductive Deed where
  | share (handle : Nat)
  | fresh
  | advance (handle : Nat) (step : Duration)
  | set (handle : Nat) (time : Duration)

namespace Deed

def on? (clocks : Clocks) : Deed → Option Clocks
  | share handle => some (clocks.share handle)
  | fresh => some clocks.fresh
  | advance handle step => clocks.advance? handle step
  | set handle time => some (clocks.set handle time)

def handle? : Deed → Option Nat
  | share handle | advance handle _ | set handle _ => some handle
  | fresh => none

def makes : Deed → Bool
  | share _ | fresh => true
  | advance .. | set .. => false

/-- The nanoseconds on a clock after a deed through one of its handles. -/
def shift (time : Nat) : Deed → Nat
  | advance _ step => time + step.nanoseconds
  | set _ other => max time other.nanoseconds
  | share _ | fresh => time

end Deed

/-- A deed with a handle that is there. -/
structure Takes (clocks : Clocks) (deed : Deed) (after : Clocks) : Prop where
  fits : ∀ handle ∈ deed.handle?, handle < clocks.handles.size
  done : deed.on? clocks = some after

inductive Ran : List Deed → Clocks → Prop where
  | start : Ran [] initial
  | next {deeds : List Deed} {clocks after : Clocks} {deed : Deed} :
      Ran deeds clocks → clocks.Takes deed after → Ran (deeds ++ [deed]) after

/-- How many handles there are after some deeds. -/
def count (deeds : List Deed) : Nat := deeds.countP Deed.makes + 1

def Copied (deeds : List Deed) (handle copy : Nat) : Prop :=
  ∃ before rest, deeds = before ++ .share handle :: rest ∧ copy = count before

/-- Handles that come from one clock, through any number of copies. -/
def Kin (deeds : List Deed) : Nat → Nat → Prop := Relation.EqvGen (Copied deeds)

open Classical in
/-- The deeds through the handles of one clock. -/
noncomputable def through (deeds : List Deed) (handle : Nat) : List Deed :=
  deeds.filter fun deed => ∃ other ∈ deed.handle?, Kin deeds other handle

variable {deeds : List Deed} {clocks after : Clocks} {deed : Deed} {handle other : Nat}

/-! ### One deed -/

theorem count_concat (deeds : List Deed) (deed : Deed) :
    count (deeds ++ [deed]) = count deeds + deed.makes.toNat := by
  cases h : deed.makes <;> simp [count, List.countP_append, h]

theorem copied_concat {copy : Nat} : Copied (deeds ++ [deed]) handle copy ↔
    Copied deeds handle copy ∨ deed = .share handle ∧ copy = count deeds := by
  constructor
  · rintro ⟨before, rest, split, rfl⟩
    rcases List.eq_nil_or_concat rest with rfl | ⟨rest, last, rfl⟩
    · obtain ⟨rfl, same⟩ := List.append_inj' split rfl
      exact .inr ⟨List.singleton_inj.mp same, rfl⟩
    · rw [List.concat_eq_append, ← List.cons_append, ← List.append_assoc] at split
      exact .inl ⟨before, rest, (List.append_inj' split rfl).1, rfl⟩
  · rintro (⟨before, rest, rfl, rfl⟩ | ⟨rfl, rfl⟩)
    · exact ⟨before, rest ++ [deed], by simp, rfl⟩
    · exact ⟨deeds, [], rfl, rfl⟩

theorem Copied.lt_count {copy : Nat} (copied : Copied deeds handle copy) : copy < count deeds := by
  obtain ⟨before, rest, rfl, rfl⟩ := copied
  simp only [count, List.countP_append, List.countP_cons, Deed.makes, if_true]
  omega

theorem Copied.mem {copy : Nat} (copied : Copied deeds handle copy) : .share handle ∈ deeds := by
  obtain ⟨before, rest, rfl, rfl⟩ := copied
  exact List.mem_append_right _ List.mem_cons_self

theorem Kin.concat (kin : Kin deeds handle other) (deed : Deed) : Kin (deeds ++ [deed]) handle other :=
  Relation.EqvGen.mono (fun _ _ copied => copied_concat.mpr (.inl copied)) _ _ kin

theorem now_congr (same : clocks.handles[handle]? = clocks.handles[other]?) :
    clocks.now handle = clocks.now other := by
  rw [now, now, same]

/-- A deed makes a handle or moves a clock. -/
theorem Deed.on?_cases (done : deed.on? clocks = some after) :
    (∃ handle, deed = .share handle ∧ after = clocks.share handle) ∨
    (deed = .fresh ∧ after = clocks.fresh) ∨
    ∃ handle time, deed.handle? = some handle ∧ deed.makes = false ∧ after = clocks.put handle time ∧
      time.nanoseconds = deed.shift (clocks.now handle).nanoseconds := by
  cases deed with
  | share handle =>
      cases done
      exact .inl ⟨handle, rfl, rfl⟩
  | fresh =>
      cases done
      exact .inr (.inl ⟨rfl, rfl⟩)
  | advance handle step =>
      obtain ⟨time, sum, rfl⟩ := Option.map_eq_some_iff.mp done
      exact .inr (.inr ⟨handle, time, rfl, rfl, rfl, Duration.add?_eq_some_iff.mp sum⟩)
  | set handle time =>
      cases done
      exact .inr (.inr ⟨handle, _, rfl, rfl, rfl, Duration.nanoseconds_longer _ _⟩)

theorem share_handles (there : handle < clocks.handles.size) :
    (clocks.share handle).handles = clocks.handles.push clocks.handles[handle] ∧
      (clocks.share handle).times = clocks.times := by
  rw [share, Array.getElem?_eq_getElem there]
  exact ⟨rfl, rfl⟩

theorem put_handles (clocks : Clocks) (handle : Nat) (time : Duration) :
    (clocks.put handle time).handles = clocks.handles ∧
      (clocks.put handle time).times.size = clocks.times.size := by
  unfold put
  split
  · exact ⟨rfl, Array.size_setIfInBounds⟩
  · exact ⟨rfl, rfl⟩

theorem now_put (within : ∀ clock ∈ clocks.handles, clock < clocks.times.size)
    (there : handle < clocks.handles.size) (time : Duration) (other : Nat) :
    (clocks.put handle time).now other =
      if clocks.handles[handle]? = clocks.handles[other]? then time else clocks.now other := by
  have shown := Array.getElem?_eq_getElem there
  rw [now, (clocks.put_handles handle time).1, now, shown, put, shown]
  cases found : clocks.handles[other]? with
  | none => rfl
  | some clock =>
      have inside := within _ (Array.getElem_mem there)
      by_cases same : clocks.handles[handle] = clock
      · subst same
        simp [timeOf, inside]
      · simp [timeOf, same]

theorem now_fresh (clocks : Clocks) : clocks.fresh.now clocks.handles.size = .zero := by
  simp [now, fresh, timeOf]

/-! ### Handles and clocks -/

/-- What the tables of handles and clocks hold after some deeds. -/
structure Kept (deeds : List Deed) (clocks : Clocks) : Prop where
  size : clocks.handles.size = count deeds
  within : ∀ clock ∈ clocks.handles, clock < clocks.times.size
  used : ∀ deed ∈ deeds, ∀ handle ∈ deed.handle?, handle < count deeds
  copied : ∀ {handle copy}, Copied deeds handle copy → clocks.handles[handle]? = clocks.handles[copy]?
  joined : ∀ {handle other}, handle < count deeds → other < count deeds →
    clocks.handles[handle]? = clocks.handles[other]? → Kin deeds handle other

namespace Kept

theorem same_of_kin (kept : Kept deeds clocks) (kin : Kin deeds handle other) :
    clocks.handles[handle]? = clocks.handles[other]? := by
  induction kin with
  | rel _ _ copied => exact kept.copied copied
  | refl => rfl
  | symm _ _ _ ih => exact ih.symm
  | trans _ _ _ _ _ first second => exact first.trans second

theorem kin_iff (kept : Kept deeds clocks) (there : handle < count deeds) (there' : other < count deeds) :
    Kin deeds handle other ↔ clocks.handles[handle]? = clocks.handles[other]? :=
  ⟨kept.same_of_kin, kept.joined there there'⟩

theorem used_concat (kept : Kept deeds clocks)
    (fits : ∀ handle ∈ deed.handle?, handle < clocks.handles.size) :
    ∀ old ∈ deeds ++ [deed], ∀ handle ∈ old.handle?, handle < count deeds := by
  intro old member handle among
  rcases List.mem_append.mp member with member | member
  · exact kept.used old member handle among
  · cases List.mem_singleton.mp member
    exact kept.size ▸ fits handle among

/-- A new handle that shows some clock. -/
theorem push (kept : Kept deeds clocks) (fits : ∀ handle ∈ deed.handle?, handle < clocks.handles.size)
    (makes : deed.makes = true) {clock : Nat} (handles : after.handles = clocks.handles.push clock)
    (within : ∀ clock ∈ after.handles, clock < after.times.size)
    (source : ∀ handle, deed = .share handle → clocks.handles[handle]? = some clock)
    (old : ∀ handle < count deeds, clocks.handles[handle]? = some clock →
      Kin (deeds ++ [deed]) handle (count deeds)) : Kept (deeds ++ [deed]) after := by
  have count_eq : count (deeds ++ [deed]) = count deeds + 1 := by rw [count_concat, makes]; rfl
  have last : after.handles[count deeds]? = some clock := by
    rw [handles, ← kept.size, Array.getElem?_push_size]
  have before : ∀ handle < count deeds, after.handles[handle]? = clocks.handles[handle]? := by
    intro handle there
    rw [handles, Array.getElem?_push, if_neg (kept.size ▸ Nat.ne_of_lt there)]
  refine ⟨?_, within, ?_, ?_, ?_⟩
  · rw [handles, Array.size_push, kept.size, count_eq]
  · intro old member handle among
    exact count_eq ▸ Nat.lt_succ_of_lt (kept.used_concat fits old member handle among)
  · intro handle copy copied
    rcases copied_concat.mp copied with copied | ⟨rfl, rfl⟩
    · rw [before _ (kept.used _ copied.mem _ rfl), before _ copied.lt_count, kept.copied copied]
    · rw [last, before _ (kept.size ▸ fits handle rfl), source handle rfl]
  · -- A pair with the new handle in it goes back to what `old` says.
    have joined : ∀ handle, handle < count deeds → after.handles[handle]? = some clock →
        Kin (deeds ++ [deed]) handle (count deeds) :=
      fun handle there shows => old handle there (before handle there ▸ shows)
    intro handle other there there' same
    rw [count_eq, Nat.lt_succ_iff_lt_or_eq] at there there'
    rcases there with there | rfl
    · rcases there' with there' | rfl
      · rw [before _ there, before _ there'] at same
        exact (kept.joined there there' same).concat deed
      · exact joined handle there (same.trans last)
    · rcases there' with there' | rfl
      · exact .symm _ _ (joined other there' (same.symm.trans last))
      · exact .refl _

theorem share (kept : Kept deeds clocks) (there : handle < clocks.handles.size) :
    Kept (deeds ++ [.share handle]) (clocks.share handle) := by
  obtain ⟨handles, times⟩ := share_handles there
  refine kept.push ?_ rfl handles ?_ ?_ ?_
  · rintro _ ⟨⟩
    exact there
  · intro clock member
    rw [times]
    rw [handles] at member
    rcases Array.mem_push.mp member with member | rfl
    · exact kept.within clock member
    · exact kept.within _ (Array.getElem_mem there)
  · rintro _ ⟨⟩
    exact Array.getElem?_eq_getElem there
  · intro other there' shows
    have kin := kept.joined there' (kept.size ▸ there) (shows.trans (Array.getElem?_eq_getElem there).symm)
    exact .trans _ _ _ (kin.concat _) (.rel _ _ (copied_concat.mpr (.inr ⟨rfl, rfl⟩)))

theorem unshown (kept : Kept deeds clocks) (handle : Nat) :
    clocks.handles[handle]? ≠ some clocks.times.size := by
  intro shows
  exact Nat.lt_irrefl _ (kept.within _ (Array.mem_of_getElem? shows))

theorem fresh (kept : Kept deeds clocks) : Kept (deeds ++ [.fresh]) clocks.fresh := by
  refine kept.push nofun rfl rfl ?_ nofun ?_
  · intro clock member
    change clock < (clocks.times.push _).size
    rw [Array.size_push]
    rcases Array.mem_push.mp member with member | rfl
    · exact Nat.lt_succ_of_lt (kept.within clock member)
    · exact Nat.lt_succ_self _
  · intro handle _ shows
    exact absurd shows (kept.unshown handle)

theorem not_kin_fresh (kept : Kept deeds clocks) (there : handle < count deeds) :
    ¬Kin (deeds ++ [.fresh]) handle (count deeds) := by
  intro kin
  have same := kept.fresh.same_of_kin kin
  simp only [Clocks.fresh, ← kept.size, Array.getElem?_push,
    if_neg (Nat.ne_of_lt (kept.size ▸ there : handle < clocks.handles.size))] at same
  exact kept.unshown handle same

theorem put (kept : Kept deeds clocks) (fits : ∀ handle ∈ deed.handle?, handle < clocks.handles.size)
    (makes : deed.makes = false) (handle : Nat) (time : Duration) :
    Kept (deeds ++ [deed]) (clocks.put handle time) := by
  obtain ⟨handles, size⟩ := clocks.put_handles handle time
  have count_eq : count (deeds ++ [deed]) = count deeds := by rw [count_concat, makes]; rfl
  refine ⟨?_, ?_, ?_, ?_, ?_⟩
  · rw [handles, kept.size, count_eq]
  · rw [handles, size]
    exact kept.within
  · rw [count_eq]
    exact kept.used_concat fits
  · intro handle copy copied
    rcases copied_concat.mp copied with copied | ⟨rfl, -⟩
    · rw [handles, kept.copied copied]
    · cases makes
  · rw [handles, count_eq]
    exact fun there there' same => (kept.joined there there' same).concat deed

end Kept

theorem kept_of_ran (ran : Ran deeds clocks) : Kept deeds clocks := by
  induction ran with
  | start =>
      refine ⟨rfl, ?_, nofun, ?_, ?_⟩
      · intro clock member
        cases Array.mem_singleton.mp member
        exact Nat.one_pos
      · intro handle copy copied
        exact absurd copied.mem List.not_mem_nil
      · intro handle other there there' _
        cases Nat.lt_one_iff.mp there
        cases Nat.lt_one_iff.mp there'
        exact .refl _
  | next _ takes kept =>
      obtain ⟨handle, rfl, rfl⟩ | ⟨rfl, rfl⟩ | ⟨handle, time, -, makes, rfl, -⟩ := Deed.on?_cases takes.done
      · exact kept.share (takes.fits handle rfl)
      · exact kept.fresh
      · exact kept.put takes.fits makes handle time

/-! ### Times -/

namespace Takes

theorem handles (takes : clocks.Takes deed after) (there : handle < clocks.handles.size) :
    after.handles[handle]? = clocks.handles[handle]? := by
  obtain ⟨source, rfl, rfl⟩ | ⟨rfl, rfl⟩ | ⟨_, _, -, -, rfl, -⟩ := Deed.on?_cases takes.done
  · rw [(share_handles (takes.fits source rfl)).1, Array.getElem?_push, if_neg (Nat.ne_of_lt there)]
  · exact Array.getElem?_push.trans (if_neg (Nat.ne_of_lt there))
  · rw [(put_handles ..).1]

/-- A clock moves if the deed is done through one of its handles, and else stands still. -/
theorem now (takes : clocks.Takes deed after) (kept : Kept deeds clocks) (there : handle < count deeds) :
    (∀ other ∈ deed.handle?, Kin deeds other handle →
      (after.now handle).nanoseconds = deed.shift (clocks.now handle).nanoseconds) ∧
    ((∀ other ∈ deed.handle?, ¬Kin deeds other handle) → after.now handle = clocks.now handle) := by
  have held := takes.handles (kept.size ▸ there)
  have kin_iff : ∀ other ∈ deed.handle?, (Kin deeds other handle ↔
      clocks.handles[other]? = clocks.handles[handle]?) := fun other among =>
    kept.kin_iff (kept.size ▸ takes.fits other among) there
  obtain ⟨source, rfl, rfl⟩ | ⟨rfl, rfl⟩ | ⟨source, time, needs, -, rfl, moved⟩ := Deed.on?_cases takes.done
  · have still : (clocks.share source).now handle = clocks.now handle := by
      rw [Clocks.now, held, Clocks.now]
      simp only [timeOf, (share_handles (takes.fits source rfl)).2]
    exact ⟨fun _ _ _ => congrArg Duration.nanoseconds still, fun _ => still⟩
  · refine ⟨nofun, fun _ => ?_⟩
    have shown := Array.getElem?_eq_getElem (kept.size ▸ there : handle < clocks.handles.size)
    have inside := kept.within _ (Array.getElem_mem (kept.size ▸ there : handle < clocks.handles.size))
    rw [Clocks.now, held, Clocks.now, shown]
    simp only [timeOf, fresh, Array.getElem?_push, if_neg (Nat.ne_of_lt inside)]
  · have shown := now_put kept.within (takes.fits source needs) time handle
    have among : source ∈ deed.handle? := needs
    constructor
    · intro other among' kin
      cases Option.mem_unique among among'
      have same := (kin_iff source among).mp kin
      rw [shown, if_pos same, moved, now_congr same]
    · intro apart
      rw [shown, if_neg fun same => apart source among ((kin_iff source among).mpr same)]

theorem now_le (takes : clocks.Takes deed after) (kept : Kept deeds clocks) (there : handle < count deeds) :
    clocks.now handle ≤ after.now handle := by
  obtain ⟨moves, rests⟩ := takes.now kept there
  by_cases through : ∃ other ∈ deed.handle?, Kin deeds other handle
  · obtain ⟨other, among, kin⟩ := through
    change (clocks.now handle).nanoseconds ≤ (after.now handle).nanoseconds
    rw [moves other among kin]
    cases deed with
    | share | fresh => exact Nat.le_refl _
    | advance => exact Nat.le_add_right ..
    | set => exact Nat.le_max_left ..
  · rw [rests fun other among kin => through ⟨other, among, kin⟩]
    exact Nat.le_refl _

end Takes

/-! ### Courses of deeds -/

theorem mem_through :
    deed ∈ through deeds handle ↔ deed ∈ deeds ∧ ∃ other ∈ deed.handle?, Kin deeds other handle := by
  simp only [through, List.mem_filter, decide_eq_true_eq]

theorem through_congr (kin : Kin deeds handle other) : through deeds handle = through deeds other := by
  refine List.filter_congr fun deed _ => decide_eq_decide.mpr ?_
  refine exists_congr fun source => and_congr_right fun _ => ?_
  exact ⟨fun first => .trans _ _ _ first kin, fun second => .trans _ _ _ second (.symm _ _ kin)⟩

/-- Handles stay apart as well as together. -/
theorem Kept.kin_concat_iff (kept : Kept deeds clocks) (takes : clocks.Takes deed after)
    (kept' : Kept (deeds ++ [deed]) after) (there : handle < count deeds) (there' : other < count deeds) :
    Kin (deeds ++ [deed]) handle other ↔ Kin deeds handle other := by
  refine ⟨fun kin => kept.joined there there' ?_, fun kin => kin.concat deed⟩
  rw [← takes.handles (kept.size ▸ there), ← takes.handles (kept.size ▸ there')]
  exact kept'.same_of_kin kin

open Classical in
theorem Kept.through_concat (kept : Kept deeds clocks) (takes : clocks.Takes deed after)
    (kept' : Kept (deeds ++ [deed]) after) (there : handle < count deeds) :
    through (deeds ++ [deed]) handle = through deeds handle ++
      if ∃ other ∈ deed.handle?, Kin deeds other handle then [deed] else [] := by
  have same : ∀ old ∈ deeds ++ [deed], (∃ other ∈ old.handle?, Kin (deeds ++ [deed]) other handle) ↔
      ∃ other ∈ old.handle?, Kin deeds other handle := by
    intro old member
    refine exists_congr fun other => and_congr_right fun among => ?_
    exact kept.kin_concat_iff takes kept' (kept.used_concat takes.fits old member other among) there
  have whole : through (deeds ++ [deed]) handle =
      (deeds ++ [deed]).filter fun old => ∃ other ∈ old.handle?, Kin deeds other handle :=
    List.filter_congr fun old member => decide_eq_decide.mpr (same old member)
  rw [whole, List.filter_append, List.filter_cons, List.filter_nil]
  simp only [through, decide_eq_true_eq]

theorem folded (ran : Ran deeds clocks) (there : handle < count deeds) :
    (clocks.now handle).nanoseconds = (through deeds handle).foldl Deed.shift 0 := by
  induction ran generalizing handle with
  | start =>
      cases Nat.lt_one_iff.mp there
      rfl
  | @next deeds clocks after deed ran takes ih =>
      have kept := kept_of_ran ran
      have kept' := kept_of_ran (ran.next takes)
      have old : ∀ handle, handle < count deeds → (after.now handle).nanoseconds =
          (through (deeds ++ [deed]) handle).foldl Deed.shift 0 := by
        intro handle there
        obtain ⟨moves, rests⟩ := takes.now kept there
        rw [kept.through_concat takes kept' there, List.foldl_append, ← ih there]
        split
        next done =>
          obtain ⟨other, among, kin⟩ := done
          exact moves other among kin
        next idle => rw [rests fun other among kin => idle ⟨other, among, kin⟩, List.foldl_nil]
      rw [count_concat] at there
      obtain ⟨source, rfl, rfl⟩ | ⟨rfl, rfl⟩ | ⟨_, _, -, makes, rfl, -⟩ := Deed.on?_cases takes.done
      · rcases Nat.lt_succ_iff_lt_or_eq.mp there with there | rfl
        · exact old handle there
        · have source_lt : source < count deeds := kept.size ▸ takes.fits source rfl
          have copy : Kin (deeds ++ [.share source]) source (count deeds) :=
            .rel _ _ (copied_concat.mpr (.inr ⟨rfl, rfl⟩))
          rw [← now_congr (kept'.same_of_kin copy), ← through_congr copy, old source source_lt]
      · rcases Nat.lt_succ_iff_lt_or_eq.mp there with there | rfl
        · exact old handle there
        · have none : through (deeds ++ [.fresh]) (count deeds) = [] := by
            refine List.eq_nil_iff_forall_not_mem.mpr fun old member => ?_
            obtain ⟨member, other, among, kin⟩ := mem_through.mp member
            exact kept.not_kin_fresh (kept.used_concat takes.fits old member other among) kin
          rw [none, ← kept.size, now_fresh]
          rfl
      · rw [makes] at there
        exact old handle there

/-! ### The whole account -/

/-- How the clocks stand after some deeds. -/
structure Shared (deeds : List Deed) (clocks : Clocks) : Prop where
  numbered : clocks.handles.size = count deeds
  alike : ∀ {handle other}, Kin deeds handle other → clocks.now handle = clocks.now other
  copied : ∀ {handle}, handle < count deeds → Kin (deeds ++ [.share handle]) handle (count deeds) ∧
    (clocks.share handle).now (count deeds) = clocks.now handle
  independent : ∀ {handle}, handle < count deeds → ¬Kin (deeds ++ [.fresh]) handle (count deeds)
  apart : ∀ {deed : Deed} {after handle other}, clocks.Takes deed after → handle ∈ deed.handle? →
    other < count deeds → ¬Kin deeds handle other → after.now other = clocks.now other
  folded : ∀ {handle}, handle < count deeds →
    (clocks.now handle).nanoseconds = (through deeds handle).foldl Deed.shift 0
  rising : ∀ {deed after handle}, clocks.Takes deed after → handle < count deeds →
    clocks.now handle ≤ after.now handle
  fails : ∀ {deed : Deed}, deed.on? clocks = none ↔ ∃ handle step, deed = .advance handle step ∧
    Duration.limit ≤ (clocks.now handle).nanoseconds + step.nanoseconds

theorem handles_share (ran : Ran deeds clocks) : Shared deeds clocks := by
  have kept := kept_of_ran ran
  constructor
  case numbered => exact kept.size
  case alike => exact fun kin => now_congr (kept.same_of_kin kin)
  case copied =>
    intro handle there
    have copy : Kin (deeds ++ [.share handle]) handle (count deeds) :=
      .rel _ _ (copied_concat.mpr (.inr ⟨rfl, rfl⟩))
    have fits : handle < clocks.handles.size := kept.size ▸ there
    have takes : clocks.Takes (.share handle) (clocks.share handle) := ⟨by rintro _ ⟨⟩; exact fits, rfl⟩
    refine ⟨copy, ?_⟩
    rw [← now_congr ((kept.share fits).same_of_kin copy)]
    exact Duration.ext ((takes.now kept there).1 handle rfl (.refl _))
  case independent => exact kept.not_kin_fresh
  case apart =>
    intro deed after handle other takes among there apart
    refine (takes.now kept there).2 fun source among' kin => ?_
    cases Option.mem_unique among among'
    exact apart kin
  case folded => exact fun there => folded ran there
  case rising => exact fun takes there => takes.now_le kept there
  case fails =>
    intro deed
    cases deed with
    | share | fresh | set => exact ⟨nofun, by rintro ⟨_, _, ⟨⟩, _⟩⟩
    | advance handle step =>
        rw [Deed.on?, advance?, Option.map_eq_map, Option.map_eq_none_iff, Duration.add?_eq_none_iff]
        constructor
        · exact fun late => ⟨handle, step, rfl, late⟩
        · rintro ⟨_, _, ⟨⟩, late⟩
          exact late

/-- A clock that is advanced through a copy of its handle, beside another clock. -/
theorem handles_share_copy :
    let step : Duration := ⟨5, by decide⟩
    let deeds : List Deed := [.share 0, .fresh, .advance 1 step]
    ∃ clocks, Ran deeds clocks ∧ Shared deeds clocks ∧ ¬Kin deeds 1 2 ∧
      clocks.readings = [step, step, .zero] := by
  intro step deeds
  let copied := initial.share 0
  have first : initial.Takes (.share 0) copied := ⟨by simp [Deed.handle?, initial], rfl⟩
  have second : copied.Takes .fresh copied.fresh := ⟨by simp [Deed.handle?], rfl⟩
  have third : copied.fresh.Takes (.advance 1 step) (copied.fresh.put 1 step) :=
    ⟨by simp [Deed.handle?, copied, initial, Clocks.fresh, Clocks.share], rfl⟩
  have ran : Ran deeds (copied.fresh.put 1 step) := ((Ran.start.next first).next second).next third
  have shared := handles_share ran
  refine ⟨_, ran, shared, fun kin => ?_, rfl⟩
  exact absurd (congrArg Duration.nanoseconds (shared.alike kin)) (show (5 : Nat) ≠ 0 by decide)

end AppleOne.Clocks
