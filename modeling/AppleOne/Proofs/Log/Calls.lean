import AppleOne.Log.Journal

/-!
Calls to the log. An offered message adds the lines of the limiter's verdict, in the sink in use. Where
nothing was refused these are the texts of the messages that the levels ask for (`lines_noteAll`).
-/

namespace AppleOne.Log

/-- What is written for a verdict: a report of refused messages, and the message. -/
def Verdict.lines (category : Category) (text : Unit → String) (verdict : Verdict) : List String :=
  (verdict.report.map (Journal.dropWarning category)).toList ++
    if verdict.allowed then [text ()] else []

/-- Whether levels ask for a message: its category's own level decides, or the global one if that is off. -/
def Wanted (global : Level) (levels : PerCategory Level) (category : Category) (level : Level) : Prop :=
  level ≠ .off ∧
    (levels.get category ≠ .off ∧ level ≤ levels.get category ∨
      levels.get category = .off ∧ level ≤ global)

instance (global : Level) (levels : PerCategory Level) (category : Category) (level : Level) :
    Decidable (Wanted global levels category level) :=
  inferInstanceAs (Decidable (_ ∧ (_ ∧ _ ∨ _ ∧ _)))

/-! ### The limiter -/

namespace Window

variable {window : Window} {limit : Nat}

/-- What a window with room says. -/
theorem judge_of_lt (room : window.passed < limit) :
    window.judge limit =
      (⟨true, if 0 < window.unreported then some window.unreported else none⟩,
        { passed := window.passed + 1, unreported := 0
          reported := window.reported || decide (0 < window.unreported) }) := by
  rw [judge, if_pos room]
  split
  · simp [*]
  · have none : window.unreported = 0 := by omega
    simp [none]

/-- What a full window says. -/
theorem judge_of_le (full : limit ≤ window.passed) :
    window.judge limit =
      (⟨false, if window.reported then none else some (window.unreported + 1)⟩,
        { window with
          unreported := if window.reported then window.unreported + 1 else 0
          reported := true }) := by
  rw [judge, if_neg (Nat.not_lt.mpr full)]
  split
  · simp [*]
  · simp [*]

/-- A verdict after which there was no report. -/
theorem judge_unreported (unreported : (window.judge limit).2.reported = false) :
    window.reported = false ∧ (window.judge limit).1 = ⟨true, none⟩ := by
  by_cases room : window.passed < limit
  · rw [judge_of_lt room] at unreported ⊢
    obtain ⟨before, none⟩ := Bool.or_eq_false_iff.mp unreported
    exact ⟨before, congrArg (Verdict.mk true) (if_neg (of_decide_eq_false none))⟩
  · rw [judge_of_le (Nat.le_of_not_lt room)] at unreported
    cases unreported

end Window

/-! ### Levels -/

theorem Level.le_trace (level : Level) : level ≤ .trace := by
  cases level <;> decide

namespace Journal

variable {j : Journal} {category : Category} {level : Level}

theorem enabled_iff : j.enabled category level ↔ Wanted j.globalLevel j.levels category level := by
  rw [enabled, Bool.and_eq_true, bne_iff_ne, decide_eq_true_iff, Wanted]
  refine and_congr_right fun _ => ?_
  split
  · rename_i off
    exact ⟨fun global => .inr ⟨off, global⟩, fun
      | .inl ⟨own, _⟩ => absurd off own
      | .inr ⟨_, global⟩ => global⟩
  · rename_i own
    exact ⟨fun least => .inl ⟨own, least⟩, fun
      | .inl ⟨_, least⟩ => least
      | .inr ⟨off, _⟩ => absurd off own⟩

theorem enabled_eq_false_iff :
    j.enabled category level = false ↔ ¬Wanted j.globalLevel j.levels category level := by
  rw [← enabled_iff, Bool.not_eq_true]

/-! ### Lines -/

@[simp] theorem sink_write (j : Journal) (line : String) : (j.write line).sink = j.sink := rfl

/-- Lines in order, each to the sink in use. -/
def writeAll (j : Journal) (texts : List String) : Journal := texts.foldl write j

theorem writeAll_eq (j : Journal) (texts : List String) :
    j.writeAll texts = { j with lines := j.lines ++ (texts.map (Prod.mk j.sink)).toArray } := by
  induction texts generalizing j with
  | nil => simp [writeAll]
  | cons text rest ih =>
      rw [show j.writeAll (text :: rest) = (j.write text).writeAll rest from rfl, ih, sink_write]
      simp [write]

/-- What the limiter says to one more message of a category. -/
def verdict (j : Journal) (category : Category) : Verdict := ((j.windows.get category).judge j.rateLimit).1

/-- The log after the limiter was asked. -/
def judged (j : Journal) (category : Category) : Journal :=
  { j with windows := j.windows.set category ((j.windows.get category).judge j.rateLimit).2 }

@[simp] theorem sink_judged (j : Journal) (category : Category) : (j.judged category).sink = j.sink := rfl

/-- A message that the levels do not ask for leaves the log as it is, whatever its text. -/
theorem offer_disabled (disabled : j.enabled category level = false) (text : Unit → String) :
    j.offer category level text = (false, j) := by
  rw [offer, if_neg (Bool.eq_false_iff.mp disabled)]

theorem offer_enabled (enabled : j.enabled category level) (text : Unit → String) :
    j.offer category level text =
      ((j.verdict category).allowed,
        (j.judged category).writeAll ((j.verdict category).lines category text)) := by
  rw [offer, if_pos enabled, verdict, judged]
  obtain ⟨⟨allowed, report⟩, window⟩ := (j.windows.get category).judge j.rateLimit
  cases report <;> cases allowed <;> rfl

theorem lines_offer (wanted : Wanted j.globalLevel j.levels category level) (text : Unit → String) :
    (j.offer category level text).2.lines.toList =
      j.lines.toList ++ ((j.verdict category).lines category text).map (Prod.mk j.sink) := by
  rw [offer_enabled (enabled_iff.mpr wanted), writeAll_eq, sink_judged]
  simp [judged]

/-! ### Diagnostics -/

def noteAll (j : Journal) (messages : List Diagnostic) : Journal := messages.foldl note j

theorem noteAll_append (j : Journal) (first second : List Diagnostic) :
    j.noteAll (first ++ second) = (j.noteAll first).noteAll second := List.foldl_append

theorem noteAny_eq (j : Journal) (report : Option Diagnostic) : j.noteAny report = j.noteAll report.toList := by
  cases report <;> rfl

/-- The line that a message makes. -/
def lineOf (j : Journal) (message : Diagnostic) : Sink × String := (j.sink, message.text)

/-- The log with every level at its finest. -/
def atTrace (j : Journal) : Journal := { j with globalLevel := .trace, levels := .const .trace }

theorem wanted_atTrace (diagnostic : Diagnostic) :
    Wanted .trace (.const .trace) diagnostic.category diagnostic.level := by
  refine ⟨?_, .inl ?_⟩
  · cases diagnostic <;> exact nofun
  · rw [PerCategory.get_const]
    exact ⟨nofun, Level.le_trace _⟩

/-- No message was refused: a window keeps that there was a report, and the first message refused brings
one. -/
def Unrefused (j : Journal) : Prop := ∀ category, (j.windows.get category).reported = false

end Journal

namespace Journal

variable {j : Journal}

theorem windows_writeAll (j : Journal) (texts : List String) : (j.writeAll texts).windows = j.windows := by
  rw [writeAll_eq]

theorem note_unrefused {diagnostic : Diagnostic} (unrefused : (j.note diagnostic).Unrefused) :
    j.Unrefused ∧ (j.note diagnostic).lines.toList = j.lines.toList ++
      if Wanted j.globalLevel j.levels diagnostic.category diagnostic.level then [j.lineOf diagnostic]
      else [] := by
  by_cases wanted : Wanted j.globalLevel j.levels diagnostic.category diagnostic.level
  · have noted : j.note diagnostic = (j.judged diagnostic.category).writeAll
        ((j.verdict diagnostic.category).lines diagnostic.category fun _ => diagnostic.text) := by
      rw [note, offer_enabled (enabled_iff.mpr wanted)]
    have windows : ∀ category, ((j.judged diagnostic.category).windows.get category).reported = false := by
      intro category
      have after := unrefused category
      rwa [noted, windows_writeAll] at after
    have own := windows diagnostic.category
    rw [judged, PerCategory.get_set, if_pos rfl] at own
    obtain ⟨before, passed⟩ := Window.judge_unreported own
    refine ⟨fun category => ?_, ?_⟩
    · have after := windows category
      rw [judged, PerCategory.get_set] at after
      split at after
      · rename_i same
        exact same ▸ before
      · exact after
    · rw [note, lines_offer wanted, if_pos wanted, verdict, passed]
      simp [Verdict.lines, lineOf]
  · have noted : j.note diagnostic = j := by
      rw [note, offer_disabled (enabled_eq_false_iff.mpr wanted)]
    rw [noted] at unrefused ⊢
    rw [if_neg wanted, List.append_nil]
    exact ⟨unrefused, rfl⟩

/-- An offer changes nothing but windows and lines. -/
theorem exists_offer (j : Journal) (category : Category) (level : Level) (text : Unit → String) :
    ∃ windows lines, (j.offer category level text).2 = { j with windows := windows, lines := lines } := by
  by_cases enabled : j.enabled category level
  · rw [offer_enabled enabled, writeAll_eq]
    exact ⟨_, _, rfl⟩
  · rw [offer_disabled (Bool.eq_false_iff.mpr enabled)]
    exact ⟨_, _, rfl⟩

theorem settings_note (j : Journal) (diagnostic : Diagnostic) :
    (j.note diagnostic).globalLevel = j.globalLevel ∧ (j.note diagnostic).levels = j.levels ∧
      (j.note diagnostic).lineOf = j.lineOf := by
  obtain ⟨windows, lines, noted⟩ :=
    j.exists_offer diagnostic.category diagnostic.level fun _ => diagnostic.text
  rw [note, noted]
  exact ⟨rfl, rfl, rfl⟩

/-- Where nothing was refused, the lines are the texts of the messages that were asked for, in order. -/
theorem lines_noteAll {messages : List Diagnostic} (unrefused : (j.noteAll messages).Unrefused) :
    j.Unrefused ∧ (j.noteAll messages).lines.toList = j.lines.toList ++
      (messages.filter fun message => Wanted j.globalLevel j.levels message.category message.level).map
        j.lineOf := by
  induction messages generalizing j with
  | nil => exact ⟨unrefused, by simp [noteAll]⟩
  | cons message rest ih =>
      have split : j.noteAll (message :: rest) = (j.note message).noteAll rest := rfl
      rw [split] at unrefused ⊢
      obtain ⟨after, further⟩ := ih unrefused
      obtain ⟨before, first⟩ := note_unrefused after
      obtain ⟨global, levels, lineOf⟩ := j.settings_note message
      refine ⟨before, ?_⟩
      rw [further, first, global, levels, lineOf, List.append_assoc, List.filter_cons]
      by_cases wanted : Wanted j.globalLevel j.levels message.category message.level
      · rw [if_pos wanted, if_pos (decide_eq_true wanted)]
        rfl
      · rw [if_neg wanted, if_neg (mt of_decide_eq_true wanted)]
        rfl

end Journal

/-! ### Calls -/

/-- A call to the log. A message comes with the time in nanoseconds, and a file with how its opening goes. -/
inductive Call (ε : Type) where
  | message (now : Nat) (category : Category) (level : Level) (text : Unit → String)
  | setGlobalLevel (level : Level)
  | setLevel (category : Category) (level : Level)
  | resetLevels
  | setRateLimit (limit : Nat)
  | attach (path : String) (opened : Except ε Unit)
  | detach

variable {ε : Type}

def Call.run : Call ε → Journal → Journal
  | .message _ category level text, j => (j.offer category level text).2
  | .setGlobalLevel level, j => j.setGlobalLevel level
  | .setLevel category level, j => j.setLevel category level
  | .resetLevels, j => j.resetLevels
  | .setRateLimit limit, j => j.setRateLimit limit
  | .attach path opened, j => (j.attachOpened path opened).2
  | .detach, j => j.detach

/-- Calls one after the other. -/
def Journal.runAll (j : Journal) (calls : List (Call ε)) : Journal := calls.foldl (fun j call => call.run j) j

theorem Journal.runAll_concat (j : Journal) (calls : List (Call ε)) (call : Call ε) :
    j.runAll (calls ++ [call]) = call.run (j.runAll calls) := by
  simp [runAll]

end AppleOne.Log
