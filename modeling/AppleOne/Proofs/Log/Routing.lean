import AppleOne.Proofs.Log.Calls

/-!
Where lines go. The log sends them to standard error or through a channel to a thread that writes to a file,
and such a thread goes on when its channel is replaced. Each line comes out at the outlet in use when it was
written, complete and in order (`lines_delivered`).
-/

namespace AppleOne.Log

variable {ε : Type}

/-! ### The route -/

/-- The route that a call sets, if it succeeds. -/
def Call.route? : Call ε → Option Sink
  | .attach path (.ok _) => some (.file path)
  | .detach => some .standardError
  | _ => none

/-- The file that was attached last, unless it was detached or there was none. -/
def routeAfter (calls : List (Call ε)) : Sink :=
  (calls.reverse.findSome? Call.route?).getD .standardError

/-- The lines that a call writes. -/
def Call.texts (j : Journal) : Call ε → List String
  | .message _ category level text =>
    if Wanted j.globalLevel j.levels category level then (j.verdict category).lines category text else []
  | _ => []

namespace Journal

variable {j : Journal}

theorem lines_run (j : Journal) (call : Call ε) :
    (call.run j).lines.toList = j.lines.toList ++ (call.texts j).map (Prod.mk j.sink) := by
  cases call with
  | message now category level text =>
      by_cases wanted : Wanted j.globalLevel j.levels category level
      · rw [Call.run, lines_offer wanted, Call.texts, if_pos wanted]
      · rw [Call.run, offer_disabled (enabled_eq_false_iff.mpr wanted), Call.texts, if_neg wanted]
        exact (List.append_nil _).symm
  | attach path opened => cases opened <;> exact (List.append_nil _).symm
  | _ => exact (List.append_nil _).symm

/-- The flag and the channel say the same. -/
def Consistent (j : Journal) : Prop := j.fileLogging = j.sender.isSome

theorem Consistent.run (consistent : j.Consistent) (call : Call ε) :
    (call.run j).Consistent ∧ (call.run j).sink = call.route?.getD j.sink := by
  cases call with
  | message now category level text =>
      obtain ⟨windows, lines, offered⟩ := j.exists_offer category level text
      rw [Call.run, offered]
      exact ⟨consistent, rfl⟩
  | attach path opened =>
      cases opened with
      | error => exact ⟨consistent, rfl⟩
      | ok => exact ⟨rfl, rfl⟩
  | detach => exact ⟨rfl, rfl⟩
  | _ => exact ⟨consistent, rfl⟩

theorem Consistent.runAll (consistent : j.Consistent) (calls : List (Call ε)) :
    (j.runAll calls).Consistent ∧
      (j.runAll calls).sink = (calls.reverse.findSome? Call.route?).getD j.sink := by
  induction calls generalizing j with
  | nil => exact ⟨consistent, rfl⟩
  | cons call rest ih =>
      obtain ⟨still, first⟩ := consistent.run call
      obtain ⟨throughout, latest⟩ := ih still
      refine ⟨throughout, latest.trans ?_⟩
      rw [first, List.reverse_cons, List.findSome?_append]
      cases rest.reverse.findSome? Call.route? with
      | some route => rfl
      | none => cases route : call.route? <;> simp [route]

theorem consistent_initial : initial.Consistent := rfl

theorem sink_runAll (calls : List (Call ε)) : (initial.runAll calls).sink = routeAfter calls :=
  (consistent_initial.runAll calls).2

end Journal

/-! ### Threads that write -/

/-- Lines as they stand in a file. -/
def textOf : List String → String
  | [] => ""
  | line :: rest => line ++ "\n" ++ textOf rest

theorem textOf_append (first second : List String) :
    textOf (first ++ second) = textOf first ++ textOf second := by
  induction first with
  | nil => exact (String.empty_append).symm
  | cons line rest ih => rw [List.cons_append, textOf, textOf, ih, ← String.append_assoc]

/-- A thread that writes to a file what comes through its channel. -/
structure Writer where
  path : String
  /-- Lines that were sent and not received yet, in order. -/
  waiting : List String
  /-- What was received and is not in the file yet. -/
  unwritten : String
  alive : Bool

namespace Writer

def start (path : String) : Writer where
  path := path
  waiting := []
  unwritten := ""
  alive := true

/-- What does not change as it works. -/
def identity (writer : Writer) : String × Bool := (writer.path, writer.alive)

/-- What it still has to write. -/
def pending (writer : Writer) : String := writer.unwritten ++ textOf writer.waiting

end Writer

/-- What writers still have to write to a file, the latest writer first. -/
def pendingFor (path : String) : List Writer → String
  | [] => ""
  | writer :: older => pendingFor path older ++ if writer.path = path then writer.pending else ""

theorem pendingFor_append (path : String) (newer older : List Writer) :
    pendingFor path (newer ++ older) = pendingFor path older ++ pendingFor path newer := by
  induction newer with
  | nil => exact (String.append_empty).symm
  | cons writer newer ih => rw [List.cons_append, pendingFor, ih, pendingFor, String.append_assoc]

/-- The log with all that takes its lines. -/
structure Outlets where
  journal : Journal
  /-- The latest first; the channel in use leads to it. -/
  writers : List Writer
  files : String → String
  standardError : String

namespace Outlets

def complain (outlets : Outlets) (line : String) : Outlets :=
  { outlets with standardError := outlets.standardError ++ (line ++ "\n") }

/-- Takes a line of the log. Where no thread receives it any more, it goes to standard error. -/
def take (outlets : Outlets) : Sink × String → Outlets
  | (.standardError, line) => outlets.complain line
  | (.file _, line) =>
    match outlets.writers with
    | [] => outlets.complain line
    | writer :: older =>
      if writer.alive then
        { outlets with writers := { writer with waiting := writer.waiting ++ [line] } :: older }
      else outlets.complain line

/-- The writers after a call: one is started for a file that was attached. -/
def started (writers : List Writer) : Call ε → List Writer
  | .attach path (.ok _) => .start path :: writers
  | _ => writers

/-- A call to the log, whose lines are sent off. -/
def call (outlets : Outlets) (call : Call ε) : Outlets :=
  let journal := call.run outlets.journal
  (journal.lines.toList.drop outlets.journal.lines.size).foldl take
    { outlets with journal := journal, writers := started outlets.writers call }

/-- What can happen after some calls, with files that held something already. A writer writes in pieces, and
not before older writers of the same file are done. -/
inductive Reaches (held : String → String) (complaints : String) : List (Call ε) → Outlets → Prop where
  | start : Reaches held complaints [] ⟨.initial, [], held, complaints⟩
  | call {calls : List (Call ε)} {outlets : Outlets} (next : Call ε) :
      Reaches held complaints calls outlets → Reaches held complaints (calls ++ [next]) (outlets.call next)
  | receive {calls : List (Call ε)} {outlets : Outlets} {newer older : List Writer} {writer : Writer}
      {line : String} {rest : List String} : Reaches held complaints calls outlets →
      outlets.writers = newer ++ writer :: older → writer.alive → writer.waiting = line :: rest →
      writer.unwritten = "" →
      Reaches held complaints calls { outlets with
        writers := newer ++ { writer with waiting := rest, unwritten := line ++ "\n" } :: older }
  | put {calls : List (Call ε)} {outlets : Outlets} {newer older : List Writer} {writer : Writer}
      {piece rest : String} : Reaches held complaints calls outlets →
      outlets.writers = newer ++ writer :: older → writer.alive → writer.unwritten = piece ++ rest →
      pendingFor writer.path older = "" →
      Reaches held complaints calls { outlets with
        writers := newer ++ { writer with unwritten := rest } :: older
        files := fun path => if path = writer.path then outlets.files path ++ piece else outlets.files path }
  | die {calls : List (Call ε)} {outlets : Outlets} {newer older : List Writer} {writer : Writer} :
      Reaches held complaints calls outlets → outlets.writers = newer ++ writer :: older →
      Reaches held complaints calls { outlets with
        writers := newer ++ { writer with alive := false } :: older }

variable {held : String → String} {complaints : String} {calls : List (Call ε)} {outlets : Outlets}

/-! ### One call -/

theorem take_standardError (outlets : Outlets) (texts : List String) :
    (texts.map (Prod.mk Sink.standardError)).foldl take outlets =
      { outlets with standardError := outlets.standardError ++ textOf texts } := by
  induction texts generalizing outlets with
  | nil => rw [textOf, String.append_empty]; rfl
  | cons line rest ih =>
      rw [List.map_cons, List.foldl_cons, ih, textOf, ← String.append_assoc]
      rfl

theorem take_file {writer : Writer} {older : List Writer} (alive : writer.alive) (path : String)
    (writers : outlets.writers = writer :: older) (texts : List String) :
    (texts.map (Prod.mk (Sink.file path))).foldl take outlets =
      { outlets with writers := { writer with waiting := writer.waiting ++ texts } :: older } := by
  induction texts generalizing outlets writer with
  | nil =>
      rw [List.append_nil, ← writers]
      rfl
  | cons line rest ih =>
      have taken : outlets.take (.file path, line) =
          { outlets with writers := { writer with waiting := writer.waiting ++ [line] } :: older } := by
        rw [take, writers]
        exact if_pos alive
      have alive' : ({ writer with waiting := writer.waiting ++ [line] } : Writer).alive := alive
      rw [List.map_cons, List.foldl_cons, taken, ih alive' rfl, List.append_assoc]
      rfl

theorem pendingFor_sent (path : String) (writer : Writer) (older : List Writer) (texts : List String) :
    pendingFor path ({ writer with waiting := writer.waiting ++ texts } :: older) =
      pendingFor path (writer :: older) ++ if writer.path = path then textOf texts else "" := by
  rw [pendingFor, pendingFor]
  by_cases own : writer.path = path
  · simp only [if_pos own, Writer.pending, textOf_append, String.append_assoc]
  · simp only [if_neg own, String.append_empty]

theorem linesOf_run (j : Journal) (call : Call ε) (sink : Sink) :
    (call.run j).linesOf sink = j.linesOf sink ++ if j.sink = sink then call.texts j else [] := by
  rw [Journal.linesOf, Journal.linesOf, j.lines_run, List.filterMap_append, List.filterMap_map]
  congr 1
  split <;> simp [Function.comp_def, *]

/-- A call starts its writer, if it attaches a file, and sends off its lines. -/
theorem call_eq (outlets : Outlets) (next : Call ε) :
    outlets.call next =
      ((next.texts outlets.journal).map (Prod.mk outlets.journal.sink)).foldl take
        { outlets with
          journal := next.run outlets.journal
          writers := started outlets.writers next } := by
  rw [call, Journal.lines_run, ← Array.length_toList, List.drop_left]

/-- Lines change neither the log nor which writers there are. -/
theorem foldl_take_keeps (outlets : Outlets) (lines : List (Sink × String)) :
    (lines.foldl take outlets).journal = outlets.journal ∧
      (lines.foldl take outlets).writers.map Writer.identity = outlets.writers.map Writer.identity := by
  induction lines generalizing outlets with
  | nil => exact ⟨rfl, rfl⟩
  | cons line rest ih =>
      have first : (outlets.take line).journal = outlets.journal ∧
          (outlets.take line).writers.map Writer.identity = outlets.writers.map Writer.identity := by
        obtain ⟨sink, text⟩ := line
        cases sink with
        | standardError => exact ⟨rfl, rfl⟩
        | file path =>
            rw [take]
            split
            · exact ⟨rfl, rfl⟩
            · rename_i writers
              split
              · exact ⟨rfl, by rw [writers]; rfl⟩
              · exact ⟨rfl, rfl⟩
      obtain ⟨journal, writers⟩ := ih (outlets.take line)
      exact ⟨journal.trans first.1, writers.trans first.2⟩

theorem journal_call (outlets : Outlets) (next : Call ε) :
    (outlets.call next).journal = next.run outlets.journal := (foldl_take_keeps _ _).1

theorem identity_call (outlets : Outlets) (next : Call ε) :
    (outlets.call next).writers.map Writer.identity = (started outlets.writers next).map Writer.identity :=
  (foldl_take_keeps _ _).2

/-- What a call does: if it has no lines, at most a writer is started; else the writers are as before. -/
theorem texts_eq_nil_or (j : Journal) (next : Call ε) (writers : List Writer) :
    next.texts j = [] ∨ started writers next = writers := by
  cases next with
  | attach path opened => exact .inl rfl
  | _ => exact .inr rfl

theorem mem_started {writers : List Writer} {writer : Writer} (next : Call ε) (member : writer ∈ writers) :
    writer ∈ started writers next := by
  cases next with
  | attach path opened =>
      cases opened with
      | error => exact member
      | ok => exact List.mem_cons_of_mem _ member
  | _ => exact member

theorem pendingFor_started (path : String) (writers : List Writer) (next : Call ε) :
    pendingFor path (started writers next) = pendingFor path writers := by
  cases next with
  | attach other opened =>
      cases opened with
      | error => rfl
      | ok =>
          have none : (Writer.start other).pending = "" := rfl
          rw [started, pendingFor, none, ite_self, String.append_empty]
  | _ => rfl

/-! ### Any time -/

/-- The channel in use leads to a writer of the file that the log names. -/
def Channelled (outlets : Outlets) : Prop :=
  ∀ path, outlets.journal.sink = .file path → (outlets.writers.map Writer.path).head? = some path

theorem paths_of_identity {writers writers' : List Writer}
    (same : writers.map Writer.identity = writers'.map Writer.identity) :
    writers.map Writer.path = writers'.map Writer.path := by
  have paths := congrArg (List.map Prod.fst) same
  rwa [List.map_map, List.map_map] at paths

theorem alive_of_identity {writers writers' : List Writer}
    (same : writers.map Writer.identity = writers'.map Writer.identity)
    (alive : ∀ writer ∈ writers, writer.alive) : ∀ writer ∈ writers', writer.alive := by
  have flags := congrArg (List.map Prod.snd) same
  rw [List.map_map, List.map_map] at flags
  intro writer member
  have among : writer.alive ∈ writers.map (Prod.snd ∘ Writer.identity) := by
    rw [flags]
    exact List.mem_map_of_mem member
  obtain ⟨other, there, same⟩ := List.mem_map.mp among
  exact same ▸ alive other there

theorem Channelled.call (channelled : outlets.Channelled) (consistent : outlets.journal.Consistent)
    (next : Call ε) : (outlets.call next).Channelled := by
  intro path
  rw [journal_call, (consistent.run next).2, paths_of_identity (identity_call outlets next)]
  cases next with
  | attach other opened =>
      cases opened with
      | error => exact channelled path
      | ok =>
          rintro ⟨⟩
          rfl
  | detach => exact nofun
  | _ => exact channelled path

/-- A change of writers that keeps which they are. -/
theorem Channelled.writers (channelled : outlets.Channelled) {writers : List Writer} {files : String → String}
    (same : writers.map Writer.path = outlets.writers.map Writer.path) :
    Channelled { outlets with writers := writers, files := files } :=
  fun path route => (congrArg List.head? same).trans (channelled path route)

namespace Reaches

theorem journal_eq (reaches : Reaches held complaints calls outlets) :
    outlets.journal = Journal.initial.runAll calls := by
  induction reaches with
  | start => rfl
  | call next _ ih => rw [journal_call, ih, Journal.runAll_concat]
  | receive _ _ _ _ _ ih | put _ _ _ _ _ ih | die _ _ ih => exact ih

theorem consistent (reaches : Reaches held complaints calls outlets) : outlets.journal.Consistent := by
  rw [reaches.journal_eq]
  exact (Journal.consistent_initial.runAll calls).1

theorem channelled (reaches : Reaches held complaints calls outlets) : outlets.Channelled := by
  induction reaches with
  | start => exact nofun
  | call next before ih => exact ih.call before.consistent next
  | receive _ writers _ _ _ ih | put _ writers _ _ _ ih | die _ writers ih =>
      refine ih.writers ?_
      rw [writers, List.map_append, List.map_append]
      rfl

end Reaches

/-- What is at the outlets, or on its way there, is what was there before and the lines that went there. -/
structure Delivers (held : String → String) (complaints : String) (outlets : Outlets) : Prop where
  files : ∀ path, outlets.files path ++ pendingFor path outlets.writers =
    held path ++ textOf (outlets.journal.linesOf (.file path))
  standardError : outlets.standardError = complaints ++ textOf (outlets.journal.linesOf .standardError)

namespace Delivers

variable {newer older : List Writer} {writer : Writer}

theorem call (delivers : Delivers held complaints outlets) (channelled : outlets.Channelled)
    (alive : ∀ writer ∈ outlets.writers, writer.alive) (next : Call ε) :
    Delivers held complaints (outlets.call next) := by
  rw [call_eq]
  rcases texts_eq_nil_or outlets.journal next outlets.writers with none | same
  · rw [none]
    refine ⟨fun path => ?_, ?_⟩
    · refine Eq.trans ?_ ((delivers.files path).trans ?_)
      · exact congrArg (outlets.files path ++ ·) (pendingFor_started path outlets.writers next)
      · rw [List.map_nil, List.foldl_nil, linesOf_run, none, ite_self, List.append_nil]
    · refine delivers.standardError.trans ?_
      rw [List.map_nil, List.foldl_nil, linesOf_run, none, ite_self, List.append_nil]
  · cases sink : outlets.journal.sink with
    | standardError =>
        rw [take_standardError, same]
        refine ⟨fun path => ?_, ?_⟩
        · rw [linesOf_run, sink, if_neg nofun, List.append_nil]
          exact delivers.files path
        · rw [linesOf_run, sink, if_pos rfl, textOf_append, ← String.append_assoc, ← delivers.standardError]
    | file path =>
        cases writers : outlets.writers with
        | nil =>
            have leads := channelled path sink
            rw [writers] at leads
            cases leads
        | cons writer older =>
            have leads := channelled path sink
            rw [writers] at leads same
            obtain rfl : writer.path = path := Option.some.inj leads
            rw [take_file (alive writer (writers ▸ List.mem_cons_self)) _ same]
            refine ⟨fun path => ?_, ?_⟩
            · rw [pendingFor_sent, ← String.append_assoc, ← writers, delivers.files path, linesOf_run, sink,
                textOf_append, String.append_assoc]
              by_cases own : writer.path = path
              · rw [if_pos own, if_pos (congrArg Sink.file own)]
              · rw [if_neg own, if_neg fun same => own (Sink.file.inj same)]
                rfl
            · rw [linesOf_run, sink, if_neg nofun, List.append_nil]
              exact delivers.standardError

theorem receive (delivers : Delivers held complaints outlets) {line : String} {rest : List String}
    (writers : outlets.writers = newer ++ writer :: older) (waiting : writer.waiting = line :: rest)
    (idle : writer.unwritten = "") :
    Delivers held complaints { outlets with
      writers := newer ++ { writer with waiting := rest, unwritten := line ++ "\n" } :: older } where
  files path := by
    rw [← delivers.files path, writers, pendingFor_append, pendingFor_append, pendingFor, pendingFor,
      Writer.pending, Writer.pending, waiting, idle, textOf, String.empty_append]
  standardError := delivers.standardError

theorem put (delivers : Delivers held complaints outlets) {piece rest : String}
    (writers : outlets.writers = newer ++ writer :: older) (unwritten : writer.unwritten = piece ++ rest)
    (first : pendingFor writer.path older = "") :
    Delivers held complaints { outlets with
      writers := newer ++ { writer with unwritten := rest } :: older
      files := fun path => if path = writer.path then outlets.files path ++ piece else outlets.files path } where
  files path := by
    rw [← delivers.files path, writers, pendingFor_append, pendingFor_append, pendingFor, pendingFor,
      Writer.pending, Writer.pending, unwritten]
    by_cases own : path = writer.path
    · subst own
      simp only [if_true, first, String.empty_append, String.append_assoc]
    · simp only [if_neg own, if_neg (Ne.symm own)]
  standardError := delivers.standardError

end Delivers

theorem Reaches.delivers (reaches : Reaches held complaints calls outlets)
    (alive : ∀ writer ∈ outlets.writers, writer.alive) : Delivers held complaints outlets := by
  induction reaches with
  | start => exact ⟨fun path => rfl, (String.append_empty).symm⟩
  | @call _ outlets next before ih =>
      have still := alive_of_identity (identity_call outlets next) alive
      have earlier : ∀ writer ∈ outlets.writers, writer.alive := fun writer member =>
        still writer (mem_started next member)
      exact (ih earlier).call before.channelled earlier next
  | @receive _ outlets _ _ _ _ _ before writers _ waiting idle ih =>
      refine (ih (alive_of_identity ?_ alive)).receive writers waiting idle
      rw [writers, List.map_append, List.map_append]
      rfl
  | @put _ outlets _ _ _ _ _ before writers _ unwritten first ih =>
      refine (ih (alive_of_identity ?_ alive)).put writers unwritten first
      rw [writers, List.map_append, List.map_append]
      rfl
  | die _ writers ih => cases alive _ (List.mem_append_right _ List.mem_cons_self)

/-! ### Writers at work -/

namespace Reaches

/-- A writer whose elders are done can finish its work. -/
theorem finish {newer older : List Writer} {writer : Writer} (reaches : Reaches held complaints calls outlets)
    (writers : outlets.writers = newer ++ writer :: older) (alive : writer.alive)
    (first : pendingFor writer.path older = "") :
    ∃ files finished, finished.identity = writer.identity ∧ finished.pending = "" ∧
      Reaches held complaints calls { outlets with
        writers := newer ++ finished :: older
        files := files } := by
  obtain ⟨path, waiting, unwritten, living⟩ := writer
  induction waiting generalizing outlets unwritten with
  | nil =>
      have whole : unwritten = unwritten ++ "" := (String.append_empty).symm
      exact ⟨_, ⟨path, [], "", living⟩, rfl, rfl, reaches.put writers alive whole first⟩
  | cons line rest ih =>
      have whole : unwritten = unwritten ++ "" := (String.append_empty).symm
      have written := reaches.put writers alive whole first
      have received := written.receive rfl alive rfl rfl
      exact ih received _ rfl alive first

theorem pendingFor_eq_empty {path : String} {writers : List Writer}
    (done : ∀ writer ∈ writers, writer.pending = "") : pendingFor path writers = "" := by
  induction writers with
  | nil => rfl
  | cons writer older ih =>
      obtain ⟨newest, others⟩ := List.forall_mem_cons.mp done
      rw [pendingFor, ih others, newest, ite_self]
      rfl

/-- All writers can finish their work, the oldest first. -/
theorem finish_all {newer writers : List Writer} (reaches : Reaches held complaints calls outlets)
    (split : outlets.writers = newer ++ writers) (alive : ∀ writer ∈ writers, writer.alive) :
    ∃ files finished, finished.map Writer.identity = writers.map Writer.identity ∧
      (∀ writer ∈ finished, writer.pending = "") ∧
      Reaches held complaints calls { outlets with
        writers := newer ++ finished
        files := files } := by
  induction writers generalizing newer with
  | nil => exact ⟨outlets.files, [], rfl, nofun, by rw [← split]; exact reaches⟩
  | cons writer older ih =>
      obtain ⟨lives, elders⟩ := List.forall_mem_cons.mp alive
      have apart (older : List Writer) : newer ++ writer :: older = newer ++ [writer] ++ older :=
        List.append_cons newer writer older
      obtain ⟨_, done, same, empty, between⟩ := ih (split.trans (apart older)) elders
      obtain ⟨files, last, identity, drained, after⟩ :=
        between.finish (apart done).symm lives (pendingFor_eq_empty empty)
      refine ⟨files, last :: done, ?_, ?_, after⟩
      · rw [List.map_cons, List.map_cons, identity, same]
      · exact List.forall_mem_cons.mpr ⟨drained, empty⟩

end Reaches

/-- Lines go to the outlet that the latest attachment or detachment before them has set; one that fails sets
none. While no writer dies, an outlet holds what it held and then the lines that went there, once its writers
are done, and there is always a way for them to be done. -/
theorem lines_delivered (reaches : Reaches held complaints calls outlets)
    (alive : ∀ writer ∈ outlets.writers, writer.alive) :
    outlets.journal = Journal.initial.runAll calls ∧
    (∀ before call later, calls = before ++ call :: later →
      (Journal.initial.runAll before).fileLogging = (Journal.initial.runAll before).sender.isSome ∧
      (Journal.initial.runAll (before ++ [call])).lines.toList =
        (Journal.initial.runAll before).lines.toList ++
          (call.texts (Journal.initial.runAll before)).map (Prod.mk (routeAfter before))) ∧
    outlets.journal.fileLogging = outlets.journal.sender.isSome ∧
    (∀ path error, outlets.call (.attach path (.error error) : Call ε) = outlets) ∧
    (∀ path, outlets.files path ++ pendingFor path outlets.writers =
      held path ++ textOf (outlets.journal.linesOf (.file path))) ∧
    outlets.standardError = complaints ++ textOf (outlets.journal.linesOf .standardError) ∧
    ∃ drained, Reaches held complaints calls drained ∧ drained.journal = outlets.journal ∧
      ∀ path, drained.files path = held path ++ textOf (outlets.journal.linesOf (.file path)) := by
  have delivers := reaches.delivers alive
  refine ⟨reaches.journal_eq, ?_, reaches.consistent, ?_, delivers.files, delivers.standardError, ?_⟩
  · rintro before call later -
    refine ⟨(Journal.consistent_initial.runAll before).1, ?_⟩
    rw [Journal.runAll_concat, Journal.lines_run, Journal.sink_runAll]
  · intro path error
    rw [call_eq]
    rfl
  · have all : outlets.writers = [] ++ outlets.writers := rfl
    obtain ⟨files, finished, same, empty, drained⟩ := reaches.finish_all all alive
    refine ⟨_, drained, rfl, fun path => ?_⟩
    have ended := (drained.delivers (alive_of_identity same.symm alive)).files path
    rwa [List.nil_append, Reaches.pendingFor_eq_empty empty, String.append_empty] at ended

/-- A file is attached, another one cannot be, and the first is detached again. -/
def attachedOnce : List (Call Unit) :=
  [.setGlobalLevel .trace, .attach "log" (.ok ()), .attach "none" (.error ()),
    .message 0 .cpu .info fun _ => "to the file", .detach, .message 1 .cpu .info fun _ => "to the console"]

/-- The second line of the file is in the channel still, and then in the file. -/
theorem lines_delivered_attachedOnce : ∃ outlets,
    Reaches (fun _ => "first\n") "" attachedOnce outlets ∧ (∀ writer ∈ outlets.writers, writer.alive) ∧
    outlets.files "log" = "first\n" ∧ pendingFor "log" outlets.writers = "to the file\n" ∧
    outlets.standardError = "to the console\n" ∧
    ∃ drained, Reaches (fun _ => "first\n") "" attachedOnce drained ∧
      drained.files "log" = "first\n" ++ "to the file\n" := by
  obtain ⟨outlets, reaches, writers, file, console, journal⟩ : ∃ outlets,
      Reaches (fun _ => "first\n") "" attachedOnce outlets ∧
      outlets.writers = [⟨"log", ["to the file"], "", true⟩] ∧ outlets.files "log" = "first\n" ∧
      outlets.standardError = "to the console\n" ∧ outlets.journal.linesOf (.file "log") = ["to the file"] :=
    ⟨_, .call (.message 1 .cpu .info fun _ => "to the console") <| .call .detach <|
      .call (.message 0 .cpu .info fun _ => "to the file") <| .call (.attach "none" (.error ())) <|
      .call (.attach "log" (.ok ())) <| .call (.setGlobalLevel .trace) .start, rfl, rfl, rfl, rfl⟩
  have alive : ∀ writer ∈ outlets.writers, writer.alive := by
    rw [writers]
    intro writer member
    cases List.mem_singleton.mp member
    rfl
  obtain ⟨-, -, -, -, -, -, drained, also, -, files⟩ := lines_delivered reaches alive
  refine ⟨outlets, reaches, alive, file, ?_, console, drained, also, ?_⟩
  · rw [writers]
    rfl
  · rw [files, journal]
    rfl

end Outlets

end AppleOne.Log
