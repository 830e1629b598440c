import AppleOne.Proofs.Log.Calls

/-!
The rate limiter within one second. Which messages are written, and what is reported of the others, follows
from how many of the same category were written before (`limited_within_second`). Nothing expires in a
second, so a count of messages does the work of their time stamps (`Window.Judged.sliding`).
-/

namespace AppleOne.Log

/-- A message that the levels asked for: when it came, under which limit, and what the limiter said. -/
structure Asked where
  now : Nat
  limit : Nat
  verdict : Verdict

/-- How many of some messages were written. -/
def written (asked : List Asked) : Nat := asked.countP (·.verdict.allowed)

/-- How many messages were counted by the reports that came with some messages. -/
def warned : List Asked → Nat
  | [] => 0
  | one :: rest => one.verdict.report.getD 0 + warned rest

theorem written_concat (asked : List Asked) (one : Asked) :
    written (asked ++ [one]) = written asked + one.verdict.allowed.toNat := by
  rw [written, List.countP_append, List.countP_singleton]
  cases allowed : one.verdict.allowed <;> simp [written]

theorem warned_concat (asked : List Asked) (one : Asked) :
    warned (asked ++ [one]) = warned asked + one.verdict.report.getD 0 := by
  induction asked with
  | nil => exact Nat.add_comm _ _
  | cons first rest ih => rw [List.cons_append, warned, ih, warned, Nat.add_assoc]

section

variable {asked : List Asked} {window : Window} {limit : Nat}

/-- A new window that has judged some messages. -/
inductive Window.Judged : List Asked → Window → Prop where
  | new : Judged [] .initial
  | judge {asked : List Asked} {window : Window} (now limit : Nat) : Judged asked window →
      Judged (asked ++ [⟨now, limit, (window.judge limit).1⟩]) (window.judge limit).2

namespace Window

theorem judge_allowed : (window.judge limit).1.allowed = decide (window.passed < limit) := by
  by_cases room : window.passed < limit
  · rw [judge_of_lt room, decide_eq_true room]
  · rw [judge_of_le (Nat.le_of_not_lt room), decide_eq_false room]

namespace Judged

/-- The window counts the messages that were written. -/
theorem passed_eq (judged : Judged asked window) : window.passed = written asked := by
  induction judged with
  | new => rfl
  | @judge asked window now limit judged ih =>
      rw [written_concat, ← ih]
      by_cases room : window.passed < limit
      · rw [judge_of_lt room]
        rfl
      · rw [judge_of_le (Nat.le_of_not_lt room)]
        rfl

/-- Each message was written, or was counted by a report, or is still to be counted. -/
theorem conserved (judged : Judged asked window) :
    asked.length = written asked + warned asked + window.unreported := by
  induction judged with
  | new => rfl
  | @judge asked window now limit judged ih =>
      rw [written_concat, warned_concat, List.length_append, List.length_singleton, ih]
      by_cases room : window.passed < limit
      · rw [judge_of_lt room]
        by_cases some : 0 < window.unreported
        · simp only [if_pos some, Bool.toNat_true, Option.getD_some]
          omega
        · simp only [if_neg some, Bool.toNat_true, Option.getD_none]
          omega
      · rw [judge_of_le (Nat.le_of_not_lt room)]
        cases window.reported
        · simp only [Bool.toNat_false, Option.getD_some, if_false, Bool.false_eq_true]
          omega
        · simp only [Bool.toNat_false, Option.getD_none, if_true]
          omega

/-- Under one limit, messages pass up to it, the next is reported at once and the others are counted. -/
theorem steady (judged : Judged asked window) (same : ∀ one ∈ asked, one.limit = limit) :
    window.passed = min asked.length limit ∧
      (asked.length ≤ limit → window.unreported = 0 ∧ window.reported = false) ∧
      (limit < asked.length → window.reported = true) := by
  induction judged with
  | new => exact ⟨(Nat.zero_min limit).symm, fun _ => ⟨rfl, rfl⟩, fun more => absurd more (Nat.not_lt_zero _)⟩
  | @judge asked window now limit' judged ih =>
      obtain ⟨earlier, last⟩ := List.forall_mem_append.mp same
      have inForce : limit' = limit := last _ List.mem_cons_self
      subst inForce
      obtain ⟨passed, few, many⟩ := ih earlier
      rw [List.length_append, List.length_singleton]
      by_cases room : window.passed < limit'
      · obtain ⟨none, quiet⟩ := few (by omega)
        rw [judge_of_lt room]
        refine ⟨?_, fun _ => ⟨rfl, ?_⟩, ?_⟩
        · dsimp only
          omega
        · simp only [none, quiet]
          rfl
        · omega
      · rw [judge_of_le (Nat.le_of_not_lt room)]
        refine ⟨?_, ?_, fun _ => rfl⟩
        · dsimp only
          omega
        · omega

end Judged

end Window

/-! ### Time stamps -/

/-- Nanoseconds in a second. -/
def second : Nat := 1000000000

/-- A limiter that keeps the times of what it let pass, the earliest first. -/
structure SlidingWindow where
  stamps : List Nat
  /-- Refused messages that no report has counted yet. -/
  unreported : Nat
  /-- The time of the latest report. -/
  reportedAt : Option Nat

namespace SlidingWindow

def initial : SlidingWindow where
  stamps := []
  unreported := 0
  reportedAt := none

/-- Forgets what passed more than a second ago. -/
def expire (now : Nat) (window : SlidingWindow) : SlidingWindow :=
  { window with stamps := window.stamps.dropWhile fun stamp => decide (second < now - stamp) }

/-- Whether there was no report for a second. -/
def reportDue (now : Nat) (window : SlidingWindow) : Bool :=
  window.reportedAt.all fun last => decide (second ≤ now - last)

/-- Asks for one more message, under the limit now in force. -/
def judge (now limit : Nat) (window : SlidingWindow) : Verdict × SlidingWindow :=
  let window := window.expire now
  if window.stamps.length < limit then
    let window := { window with stamps := window.stamps ++ [now] }
    if 0 < window.unreported then
      (⟨true, some window.unreported⟩, { window with unreported := 0, reportedAt := some now })
    else (⟨true, none⟩, window)
  else if window.reportDue now then
    (⟨false, some (window.unreported + 1)⟩, { window with unreported := 0, reportedAt := some now })
  else (⟨false, none⟩, { window with unreported := window.unreported + 1 })

/-- A new limiter that has judged some messages. -/
inductive Judged : List Asked → SlidingWindow → Prop where
  | new : Judged [] .initial
  | judge {asked : List Asked} {window : SlidingWindow} (now limit : Nat) : Judged asked window →
      Judged (asked ++ [⟨now, limit, (window.judge now limit).1⟩]) (window.judge now limit).2

/-- A limiter that a count of messages stands for, with nothing in it older than `start`. -/
structure Counted (start : Nat) (sliding : SlidingWindow) (window : Window) : Prop where
  passed : sliding.stamps.length = window.passed
  unreported : sliding.unreported = window.unreported
  reported : sliding.reportedAt.isSome = window.reported
  stamps : ∀ stamp ∈ sliding.stamps, start ≤ stamp
  reportedAt : ∀ last ∈ sliding.reportedAt, start ≤ last

variable {start now : Nat} {sliding : SlidingWindow} {window : Window}

theorem Counted.expire (counted : Counted start sliding window) (soon : now < start + second) :
    sliding.expire now = sliding := by
  obtain ⟨stamps, unreported, reportedAt⟩ := sliding
  cases stamps with
  | nil => rfl
  | cons first rest =>
      have since : start ≤ first := counted.stamps first List.mem_cons_self
      have fresh : ¬second < now - first := by omega
      rw [SlidingWindow.expire, List.dropWhile_cons_of_neg (by simp [fresh])]

theorem Counted.reportDue (counted : Counted start sliding window) (soon : now < start + second) :
    sliding.reportDue now = !window.reported := by
  rw [SlidingWindow.reportDue, ← counted.reported]
  cases last : sliding.reportedAt with
  | none => rfl
  | some time =>
      have since := counted.reportedAt time last
      have : 0 < second := by decide
      simp only [Option.all_some, Option.isSome_some, Bool.not_true, decide_eq_false_iff_not]
      omega

/-- A message passes and leaves its time. -/
theorem Counted.stamp (counted : Counted start sliding window) (late : start ≤ now) :
    Counted start { sliding with stamps := sliding.stamps ++ [now] }
      { window with passed := window.passed + 1 } where
  passed := by rw [List.length_append, List.length_singleton, counted.passed]
  unreported := counted.unreported
  reported := counted.reported
  stamps := by
    intro stamp member
    rcases List.mem_append.mp member with earlier | last
    · exact counted.stamps stamp earlier
    · exact List.mem_singleton.mp last ▸ late
  reportedAt := counted.reportedAt

/-- All refused messages are reported. -/
theorem Counted.report (counted : Counted start sliding window) (late : start ≤ now) :
    Counted start { sliding with unreported := 0, reportedAt := some now }
      { window with unreported := 0, reported := true } where
  passed := counted.passed
  unreported := rfl
  reported := rfl
  stamps := counted.stamps
  reportedAt := by
    rintro last ⟨⟩
    exact late

theorem Counted.refuse (counted : Counted start sliding window) :
    Counted start { sliding with unreported := sliding.unreported + 1 }
      { window with unreported := window.unreported + 1 } where
  passed := counted.passed
  unreported := congrArg (· + 1) counted.unreported
  reported := counted.reported
  stamps := counted.stamps
  reportedAt := counted.reportedAt

/-- Within a second a count of messages and the list of their times lead to the same verdict. -/
theorem Counted.judge (counted : Counted start sliding window) (late : start ≤ now)
    (soon : now < start + second) (limit : Nat) :
    (sliding.judge now limit).1 = (window.judge limit).1 ∧
      Counted start (sliding.judge now limit).2 (window.judge limit).2 := by
  have due := counted.reportDue soon
  rw [SlidingWindow.judge, counted.expire soon, Window.judge]
  obtain ⟨stamps, unreported, reportedAt⟩ := sliding
  obtain rfl : unreported = window.unreported := counted.unreported
  dsimp only
  rw [show stamps.length = window.passed from counted.passed, due]
  split
  · split
    · exact ⟨rfl, (counted.stamp late).report late⟩
    · exact ⟨rfl, counted.stamp late⟩
  · cases already : window.reported
    · exact ⟨rfl, counted.report late⟩
    · have refused := counted.refuse
      rw [already] at refused
      exact ⟨rfl, refused⟩

theorem counted_initial (start : Nat) : Counted start .initial .initial where
  passed := rfl
  unreported := rfl
  reported := rfl
  stamps := nofun
  reportedAt := nofun

end SlidingWindow

/-- Messages that came within a second. -/
def Within (start : Nat) (asked : List Asked) : Prop :=
  ∀ one ∈ asked, start ≤ one.now ∧ one.now < start + second

/-- Within a second, a limiter that keeps time stamps says the same. -/
theorem Window.Judged.sliding {start : Nat} (judged : Judged asked window) (within : Within start asked) :
    ∃ sliding, SlidingWindow.Judged asked sliding ∧ sliding.Counted start window := by
  induction judged with
  | new => exact ⟨.initial, .new, SlidingWindow.counted_initial start⟩
  | @judge asked window now limit judged ih =>
      obtain ⟨earlier, last⟩ := List.forall_mem_append.mp within
      obtain ⟨late, soon⟩ := last _ List.mem_cons_self
      obtain ⟨sliding, same, counted⟩ := ih earlier
      obtain ⟨verdict, still⟩ := counted.judge late soon limit
      refine ⟨_, ?_, still⟩
      rw [← verdict]
      exact same.judge now limit

end

/-! ### The log -/

namespace Journal

variable {ε : Type} {j start : Journal} {category : Category}

/-- The message that a call offers in a category, if the levels ask for it. -/
def askedBy (j : Journal) (category : Category) : Call ε → Option Asked
  | .message now own level _ =>
    if own = category ∧ j.enabled own level then some ⟨now, j.rateLimit, j.verdict own⟩ else none
  | _ => none

/-- The messages of a category that calls offer and the levels ask for. -/
def asked (category : Category) : Journal → List (Call ε) → List Asked
  | _, [] => []
  | j, call :: rest => (j.askedBy category call).toList ++ asked category (call.run j) rest

/-- A category's window is changed by its own messages alone. -/
theorem get_windows_run (j : Journal) (category : Category) (call : Call ε) :
    (call.run j).windows.get category =
      match j.askedBy category call with
      | some one => ((j.windows.get category).judge one.limit).2
      | none => j.windows.get category := by
  cases call with
  | message now own level text =>
      rw [Call.run, askedBy]
      by_cases enabled : j.enabled own level
      · rw [offer_enabled enabled, windows_writeAll, judged, PerCategory.get_set]
        by_cases same : own = category
        · rw [if_pos same, if_pos ⟨same, enabled⟩, same]
        · rw [if_neg same, if_neg fun both => same both.1]
      · rw [offer_disabled (Bool.eq_false_iff.mpr enabled), if_neg fun both => enabled both.2]
  | attach path opened => cases opened <;> rfl
  | setGlobalLevel | setLevel | resetLevels | setRateLimit | detach => rfl

theorem eq_of_askedBy {call : Call ε} {one : Asked} (asks : j.askedBy category call = some one) :
    one = ⟨one.now, j.rateLimit, j.verdict category⟩ := by
  cases call with
  | message now own level text =>
      rw [askedBy] at asks
      split at asks
      · rename_i both
        cases asks
        rw [both.1]
      · cases asks
  | _ => cases asks

theorem judged_asked {before : List Asked} (judged : Window.Judged before (j.windows.get category))
    (calls : List (Call ε)) :
    Window.Judged (before ++ j.asked category calls) ((j.runAll calls).windows.get category) := by
  induction calls generalizing j before with
  | nil => simpa [asked, runAll] using judged
  | cons call rest ih =>
      rw [asked, ← List.append_assoc]
      refine ih ?_
      rw [get_windows_run]
      cases asks : j.askedBy category call with
      | none => simpa using judged
      | some one =>
          rw [eq_of_askedBy asks]
          exact judged.judge one.now j.rateLimit

/-- Logs that do the same with the messages of a category. -/
structure SameFor (category : Category) (a b : Journal) : Prop where
  globalLevel : a.globalLevel = b.globalLevel
  levels : a.levels = b.levels
  rateLimit : a.rateLimit = b.rateLimit
  window : a.windows.get category = b.windows.get category

variable {a b : Journal} {call : Call ε}

theorem SameFor.askedBy (same : SameFor category a b) (call : Call ε) :
    a.askedBy category call = b.askedBy category call := by
  cases call with
  | message now own level text =>
      have enabled : a.enabled own level = b.enabled own level := by
        rw [Journal.enabled, Journal.enabled, same.globalLevel, same.levels]
      rw [Journal.askedBy, Journal.askedBy, enabled, same.rateLimit]
      by_cases mine : own = category
      · rw [verdict, verdict, mine, same.window, same.rateLimit]
      · rw [if_neg fun both => mine both.1, if_neg fun both => mine both.1]
  | _ => rfl

theorem SameFor.run (same : SameFor category a b) (call : Call ε) :
    SameFor category (call.run a) (call.run b) := by
  have window : (call.run a).windows.get category = (call.run b).windows.get category := by
    rw [get_windows_run, get_windows_run, same.askedBy, same.window]
  cases call with
  | message now own level text =>
      obtain ⟨windows, lines, offered⟩ := a.exists_offer own level text
      obtain ⟨windows', lines', offered'⟩ := b.exists_offer own level text
      rw [Call.run, Call.run, offered, offered'] at window ⊢
      exact ⟨same.globalLevel, same.levels, same.rateLimit, window⟩
  | setGlobalLevel level => exact ⟨rfl, same.levels, same.rateLimit, window⟩
  | setLevel own level =>
      refine ⟨same.globalLevel, ?_, same.rateLimit, window⟩
      exact congrArg (PerCategory.set · own level) same.levels
  | resetLevels => exact ⟨rfl, rfl, same.rateLimit, window⟩
  | setRateLimit limit => exact ⟨same.globalLevel, same.levels, rfl, window⟩
  | attach path opened => cases opened <;> exact ⟨same.globalLevel, same.levels, same.rateLimit, window⟩
  | detach => exact ⟨same.globalLevel, same.levels, same.rateLimit, window⟩

end Journal

/-- Whether a call is anything but a message of another category. -/
def Call.concerns {ε : Type} (category : Category) : Call ε → Bool
  | .message _ own _ _ => decide (own = category)
  | _ => true

namespace Journal

variable {ε : Type} {category : Category} {a b : Journal} {call : Call ε}

theorem SameFor.skip (same : SameFor category a b) (other : call.concerns category = false) :
    a.askedBy category call = none ∧ SameFor category (call.run a) b := by
  cases call with
  | message now own level text =>
      have apart : own ≠ category := of_decide_eq_false other
      have none : a.askedBy category (.message now own level text : Call ε) = none :=
        if_neg fun both => apart both.1
      have window := a.get_windows_run category (.message now own level text : Call ε)
      rw [none] at window
      refine ⟨none, ?_⟩
      obtain ⟨windows, lines, offered⟩ := a.exists_offer own level text
      rw [Call.run, offered] at window ⊢
      exact ⟨same.globalLevel, same.levels, same.rateLimit, window.trans same.window⟩
  | _ => cases other

/-- Messages of other categories make no difference. -/
theorem SameFor.asked_filter (same : SameFor category a b) (calls : List (Call ε)) :
    b.asked category (calls.filter (·.concerns category)) = a.asked category calls := by
  induction calls generalizing a b with
  | nil => rfl
  | cons call rest ih =>
      cases concerns : call.concerns category with
      | true =>
          rw [List.filter_cons_of_pos concerns, asked, asked, same.askedBy, ih (same.run call)]
      | false =>
          obtain ⟨none, still⟩ := same.skip concerns
          rw [List.filter_cons_of_neg (by simp [concerns]), asked, none, ih still]
          rfl

theorem asked_concat (j : Journal) (category : Category) (calls : List (Call ε)) (call : Call ε) :
    j.asked category (calls ++ [call]) =
      j.asked category calls ++ ((j.runAll calls).askedBy category call).toList := by
  induction calls generalizing j with
  | nil => exact List.append_nil _
  | cons first rest ih =>
      rw [List.cons_append, asked, ih, asked, List.append_assoc]
      rfl

/-! ### A category and its limit -/

/-- How a category is limited after some of its messages were asked for. -/
structure Limited (category : Category) (asked : List Asked) (after : Journal) : Prop where
  /-- A limiter that keeps time stamps would have said the same within any second. -/
  sliding : ∀ time, Within time asked → ∃ window, SlidingWindow.Judged asked window
  /-- A message is written just if it is asked for and fewer were written than the limit allows. -/
  rule : ∀ level text, (after.offer category level text).1 = true ↔
    Wanted after.globalLevel after.levels category level ∧ written asked < after.rateLimit
  /-- One that is not asked for does not count. -/
  unwanted : ∀ level text, ¬Wanted after.globalLevel after.levels category level →
    after.offer category level text = (false, after)
  /-- The text of one that is not written is not used. -/
  unused : ∀ level text text', (after.offer category level text).1 = false →
    after.offer category level text = after.offer category level text'
  /-- A message adds the lines of the limiter's verdict, and no others. -/
  lines : ∀ level text, Wanted after.globalLevel after.levels category level →
    (after.offer category level text).2.lines.toList =
      after.lines.toList ++ ((after.verdict category).lines category text).map (Prod.mk after.sink)
  /-- Each was written, or was counted by a report, or is still to be counted. -/
  conserved : asked.length = written asked + warned asked + (after.windows.get category).unreported
  /-- Under one limit, messages are written up to it, a report takes the place of the next, and the others
  leave no trace. -/
  steady : (∀ one ∈ asked, one.limit = after.rateLimit) → ∀ level text,
    Wanted after.globalLevel after.levels category level →
    (after.offer category level text).2.lines.toList = after.lines.toList ++
      (if asked.length < after.rateLimit then [(after.sink, text ())]
      else if asked.length = after.rateLimit then [(after.sink, dropWarning category 1)]
      else [])
  /-- With room under the limit, the next message is written, after a report of all that is unreported. -/
  raised : written asked < after.rateLimit → ∀ level text,
    Wanted after.globalLevel after.levels category level →
    ((after.offer category level text).2.windows.get category).unreported = 0 ∧
    (after.offer category level text).2.lines.toList = after.lines.toList ++
      (if 0 < (after.windows.get category).unreported then
        [(after.sink, dropWarning category (after.windows.get category).unreported)]
      else []) ++ [(after.sink, text ())]

variable {asked : List Asked} {after : Journal}

theorem Limited.of_judged (judged : Window.Judged asked (after.windows.get category)) :
    Limited category asked after where
  sliding time within := by
    obtain ⟨window, same, -⟩ := judged.sliding within
    exact ⟨window, same⟩
  rule level text := by
    rw [← enabled_iff]
    by_cases enabled : after.enabled category level
    · rw [offer_enabled enabled, verdict, Window.judge_allowed, judged.passed_eq, decide_eq_true_iff,
        and_iff_right enabled]
    · rw [offer_disabled (Bool.eq_false_iff.mpr enabled)]
      exact ⟨fun written => absurd written Bool.false_ne_true, fun both => absurd both.1 enabled⟩
  unwanted level text unwanted := offer_disabled (enabled_eq_false_iff.mpr unwanted) text
  unused level text text' unwritten := by
    by_cases enabled : after.enabled category level
    · rw [offer_enabled enabled] at unwritten ⊢
      rw [offer_enabled enabled, Verdict.lines, Verdict.lines]
      rw [show (after.verdict category).allowed = false from unwritten]
      rfl
    · rw [offer_disabled (Bool.eq_false_iff.mpr enabled), offer_disabled (Bool.eq_false_iff.mpr enabled)]
  lines level text wanted := lines_offer wanted text
  conserved := judged.conserved
  steady same level text wanted := by
    obtain ⟨passed, few, many⟩ := judged.steady same
    rw [lines_offer wanted, verdict]
    by_cases room : asked.length < after.rateLimit
    · obtain ⟨none, -⟩ := few (Nat.le_of_lt room)
      rw [Window.judge_of_lt (by omega), none, if_pos room]
      rfl
    · rw [Window.judge_of_le (by omega), if_neg room]
      by_cases next : asked.length = after.rateLimit
      · obtain ⟨none, quiet⟩ := few (Nat.le_of_eq next)
        rw [none, quiet, if_pos next]
        rfl
      · rw [many (by omega), if_neg next]
        rfl
  raised room level text wanted := by
    rw [← judged.passed_eq] at room
    constructor
    · rw [offer_enabled (enabled_iff.mpr wanted), windows_writeAll, Journal.judged, PerCategory.get_set,
        if_pos rfl, Window.judge_of_lt room]
    · rw [lines_offer wanted, verdict, Window.judge_of_lt room, List.append_assoc]
      split <;> rfl

theorem limited_within_second {start : Journal} (fresh : start.windows = .const .initial)
    (calls : List (Call ε)) (category : Category) :
    Limited category (start.asked category calls) (start.runAll calls) ∧
    (∀ now level text, start.asked category (calls ++ [.message now category level text]) =
      start.asked category calls ++
        if Wanted (start.runAll calls).globalLevel (start.runAll calls).levels category level then
          [⟨now, (start.runAll calls).rateLimit, (start.runAll calls).verdict category⟩]
        else []) ∧
    start.asked category (calls.filter (·.concerns category)) = start.asked category calls := by
  have fresh : Window.Judged [] (start.windows.get category) := by
    rw [fresh, PerCategory.get_const]
    exact .new
  refine ⟨.of_judged (judged_asked fresh calls), fun now level text => ?_, ?_⟩
  · rw [asked_concat, askedBy]
    simp only [true_and, enabled_iff]
    split <;> rfl
  · exact SameFor.asked_filter ⟨rfl, rfl, rfl, rfl⟩ calls

/-- One message a second, and two messages of different components. -/
def twoComponents : List (Call Empty) :=
  [.setGlobalLevel .trace, .setRateLimit 1, .message 0 .cpu .info fun _ => "first",
    .message 1 .bus .info fun _ => "other"]

/-- The second message of a component is replaced by a report; the other component had its own room. -/
theorem limited_within_second_report :
    initial.windows = .const .initial ∧ Within 0 (initial.asked .cpu twoComponents) ∧
    (initial.asked .cpu twoComponents).length = 1 ∧ (initial.asked .bus twoComponents).length = 1 ∧
    ((initial.runAll twoComponents).offer .cpu .info fun _ => "second").2.lines.toList =
      [(.standardError, "first"), (.standardError, "other"), (.standardError, dropWarning .cpu 1)] := by
  have within : Within 0 (initial.asked .cpu twoComponents) := by
    intro one member
    cases List.mem_singleton.mp member
    exact ⟨Nat.le_refl 0, by decide⟩
  have fresh : initial.windows = .const .initial := rfl
  obtain ⟨limited, -, -⟩ := limited_within_second fresh twoComponents .cpu
  have same : ∀ one ∈ initial.asked .cpu twoComponents, one.limit = (initial.runAll twoComponents).rateLimit := by
    intro one member
    cases List.mem_singleton.mp member
    rfl
  have lines := limited.steady same .info (fun _ => "second") (by decide)
  exact ⟨fresh, within, rfl, rfl, lines⟩

end Journal

end AppleOne.Log
