import AppleOne.Proofs.CommandLine.Checks
import AppleOne.Proofs.CommandLine.Ticking

/-!
How runs of the program end. A run that passes all checks does its ticks and saves what it was asked to; any
other one ends in the failure of the first check that does not pass, and nothing that comes later happens
(`run_settled`).
-/

namespace AppleOne.CommandLine

open Machine (Chronicle Follows Recording)

section

variable {args : Arguments} {world : World} {left : Check → World → Prop} {machine reference : Machine}
  {banner : String}

/-! ### Loading -/

/-- Loads what a file holds. -/
def Surroundings.load (around : Surroundings) (machine : Machine) (request : LoadRequest) :
    Except Machine.Error Machine :=
  machine.loadImage request.address (around.bytes request.file)

theorem load_failed {request : LoadRequest} {around : Surroundings} {data : Array UInt8}
    (read : around.contents request.file = .ok data) (size : machine.ramSize = args.ramSize around) :
    (Check.load request).failure? args around = Check.failed .ofMachine (around.load machine request) := by
  rw [Check.failure?, Surroundings.load, Machine.loadImage, read, size]
  unfold Check.refused
  dsimp only
  split
  · rfl
  · split <;> rfl

theorem load_settles {around : Surroundings} {request : LoadRequest} (same : world.around = around)
    (size : machine.ramSize = args.ramSize around) (leaves : left (.load request) world) :
    Settles (do let image ← readBytes "" request.file; orRefuse (machine.loadImage request.address image))
      world left (fun after later => around.load machine request = .ok after ∧ later = world)
      ((Check.load request).refusal? args around) := by
  subst same
  cases read : world.around.contents request.file with
  | error e =>
      have tried : "reading " ++ "" = "reading " := rfl
      have fails : (Check.load request).failure? args world.around =
          some (.ofFile s!"reading {request.file}" e) := by
        rw [Check.failure?, read]
        rfl
      refine .of_fails fails ?_ leaves
      rw [bind_of_error (readBytes_of_error read)]
      exact congrArg (fun tried => (Except.error (Failure.ofFile (tried ++ request.file) e), world)) tried
  | ok data =>
      have fails := load_failed read size
      have loading : world.around.load machine request = machine.loadImage request.address data := by
        rw [Surroundings.load, Check.bytes_eq read]
      cases loaded : machine.loadImage request.address data with
      | error e =>
          rw [loading, loaded] at fails
          refine .of_fails fails ?_ leaves
          rw [bind_of_ok (readBytes_of_ok read), loaded]
          rfl
      | ok after =>
          rw [loading, loaded] at fails
          refine .of_passes fails ?_ ⟨loading.trans loaded, rfl⟩
          rw [bind_of_ok (readBytes_of_ok read), loaded]
          rfl

theorem loadAll_settles {around : Surroundings} {requests : List LoadRequest} (same : world.around = around)
    (timely : machine.Timely (args.configuration around))
    (referred : reference.Timely (args.configuration around)) (shows : Shows banner reference machine world)
    (leaves : ∀ request after, world.Quiet after → left (.load request) after) :
    Settles (loadAll requests machine) world left
      (fun after later => world.Quiet later ∧ after.Timely (args.configuration around) ∧
        ∃ loaded, requests.foldlM around.load reference = .ok loaded ∧
          loaded.board.terminal = reference.board.terminal ∧ loaded.Timely (args.configuration around) ∧
          Shows banner loaded after later)
      (firstRefusal args around (requests.map .load)) := by
  induction requests generalizing machine reference world with
  | nil => exact .passed rfl ⟨.refl world, timely, reference, rfl, rfl, referred, shows⟩
  | cons request rest ih =>
      have unfolded : (loadAll (request :: rest) machine : Attempt (StateM World) Machine) = (do
          let machine ← (do
            let image ← readBytes "" request.file
            orRefuse (machine.loadImage request.address image))
          let machine ← flush (m := StateM World) machine
          loadAll rest machine) := by
        rw [loadAll, bind_assoc]
      rw [unfolded, List.map_cons, firstRefusal_cons]
      refine (load_settles same timely.ramSize_eq (leaves request world (.refl world))).bind ?_
      rintro after world ⟨loaded, rfl⟩
      obtain ⟨last, loads, terminal, follows⟩ := shows.follows.loadImage loaded
      have quiet : world.Quiet (world.takes after) := world.quiet_takes (follows.silent (by rw [terminal]))
      refine .of_lift ?_
      rw [flush_eq]
      have settles := ih (quiet.around.trans same) (timely_flushed (timely.loadImage loaded))
        (referred.loadImage loads) (shows_flushed follows shows.printed)
        fun request later further => leaves request later (quiet.trans further)
      refine settles.imp fun ⟨further, ready, all, loadsAll, kept, stands, shows⟩ => ?_
      refine ⟨quiet.trans further, ready, all, ?_, kept.trans terminal, stands, shows⟩
      rw [List.foldlM_cons, Surroundings.load, loads]
      exact loadsAll

/-! ### Ticks and what is saved -/

/-- The files that are written after the last tick, each with what it holds. -/
def Arguments.saved (args : Arguments) (machine : Machine) : List (String × Array UInt8) :=
  (args.save.toList.map fun request =>
    (request.file, machine.board.ram.extract request.start.toNat (request.last.toNat + 1))) ++
  args.state.toList.map fun path => (path, machine.saveState.pretty.toUTF8.data)

theorem save_failed {request : SaveRequest} {around : Surroundings}
    (size : machine.ramSize = args.ramSize around) :
    (Check.save request).failure? args around =
      Check.failed .ofMachine (machine.saveRegion request.start request.last) := by
  rw [Check.failure?, Machine.saveRegion, size]
  unfold Check.refused
  split
  · rfl
  · split <;> rfl

theorem saveRegion_eq_ok {start last : UInt16} {data : Array UInt8}
    (saved : machine.saveRegion start last = .ok data) :
    data = machine.board.ram.extract start.toNat (last.toNat + 1) := by
  rw [Machine.saveRegion] at saved
  split at saved
  · cases saved
  · split at saved
    · cases saved
    · exact (Except.ok.inj saved).symm

theorem saveRegion_settles {request : SaveRequest} {around : Surroundings}
    (size : machine.ramSize = args.ramSize around) (leaves : left (.save request) world) :
    Settles (saveRegion machine request) world left
      (fun _ later => later = world.writes
        [(request.file, machine.board.ram.extract request.start.toNat (request.last.toNat + 1))])
      ((Check.save request).refusal? args around) := by
  have fails : (Check.save request).failure? args around = _ := save_failed size
  cases saved : machine.saveRegion request.start request.last with
  | error e =>
      rw [saved] at fails
      refine .of_fails fails ?_ leaves
      rw [saveRegion, saved]
      rfl
  | ok data =>
      rw [saved] at fails
      rw [Check.refusal?, fails, ← saveRegion_eq_ok saved]
      have done : (saveRegion machine request : Attempt (StateM World) Unit) world =
          (.ok (), world.writes [(request.file, data)]) := by
        rw [saveRegion, saved]
        rfl
      exact .passed done rfl

theorem save_settles {around : Surroundings} (size : machine.ramSize = args.ramSize around)
    (leaves : ∀ request, left (.save request) world) :
    Settles (args.save.forM (saveRegion machine)) world left
      (fun _ later => later = world.writes (args.save.toList.map fun request =>
        (request.file, machine.board.ram.extract request.start.toNat (request.last.toNat + 1))))
      (firstRefusal args around (args.save.toList.map .save)) := by
  cases args.save with
  | none => exact .passed rfl (World.writes_nil _).symm
  | some request =>
      rw [Option.toList_some, List.map_singleton, List.map_singleton, firstRefusal_singleton]
      exact saveRegion_settles size (leaves request)

theorem saveState_settles :
    Settles (args.state.forM (saveState machine)) world left
      (fun _ later => later = world.writes (args.state.toList.map fun path =>
        (path, machine.saveState.pretty.toUTF8.data))) none := by
  cases args.state with
  | none => exact .passed rfl (World.writes_nil _).symm
  | some path => exact .passed rfl rfl

theorem work_settles {around : Surroundings} (same : world.around = around) (inTime : around.InTime)
    (timely : machine.Timely (args.configuration around))
    (referred : reference.Timely (args.configuration around)) (shows : Shows banner reference machine world)
    (leaves : ∀ request after, after.written = world.written → left (.save request) after) :
    Settles (work args machine) world left
      (fun _ later => ∃ chronicle,
        Recording.typed args.ticks.toNat (HostKey.ofText (args.input.getD "")) ⟨reference, []⟩ =
          .ok () chronicle ∧
        (Unasked chronicle.events →
          later.printed =
            banner ++ Terminal.textOf chronicle.machine.board.terminal.events.toList ++ "\n" ∧
          later.written = world.written ++ args.saved chronicle.machine))
      (firstRefusal args around (args.save.toList.map .save)) := by
  have fresh : (⟨reference, []⟩ : Chronicle).machine.Timely (args.configuration around) := referred
  obtain ⟨chronicle, typed⟩ := Recording.exists_typed fresh args.ticks.toNat
    (HostKey.ofText (args.input.getD ""))
  have inTime' : (world.looked (world.looks + 1)).around.InTime := same ▸ inTime
  have shows' : Shows banner (⟨reference, []⟩ : Chronicle).machine machine (world.looked (world.looks + 1)) :=
    ⟨shows.follows, shows.printed⟩
  obtain ⟨after, later, ran, still, written, follows⟩ := exists_runTicks timely inTime' args.realtime
    (world.around.clock world.looks) args.ticks.toNat 0 (HostKey.ofText (args.input.getD ""))
  have unsaved : (later.prints "\n").written = world.written := written
  have leaves' (request : SaveRequest) : left (.save request) (later.prints "\n") := leaves request _ unsaved
  refine .of_lift (.of_ok ran (.of_lift ?_))
  rw [← Option.or_none (o := firstRefusal _ _ _)]
  refine (save_settles still.ramSize_eq leaves').bind ?_
  rintro ⟨⟩ _ rfl
  refine saveState_settles.imp fun saved => ⟨chronicle, typed, fun unasked => ?_⟩
  obtain ⟨following, printed⟩ := follows shows' typed unasked
  have ram : chronicle.machine.board.ram = after.board.ram := following.drifted.board.ram
  have state : chronicle.machine.saveState = after.saveState :=
    Machine.saveState_congr following.drifted.saved_eq
  rw [saved, Arguments.saved, ram, state, ← unsaved, ← printed]
  exact ⟨rfl, List.append_assoc ..⟩

end

/-! ### Whole runs -/

namespace Arguments

variable (args : Arguments) (around : Surroundings)

/-- What is printed once there is a machine. -/
def banner : String := s!"{args.ramSize around / 1024}K RAM\n"

/-- The machine that is run, without a log. -/
def machine : Except Machine.Error Machine := do
  let machine ← Machine.ofImages (args.configuration around) (args.monitorImage around) (args.basicImage around)
    .recorder .initial
  args.loads.foldlM around.load machine

end Arguments

/-- What a run leaves in the world that fails at a check. Before there is a machine it leaves nothing, and
before the ticks nothing but the banner. -/
def Check.Leaves (args : Arguments) (around : Surroundings) : Check → World → Prop
  | .load _, world => world.printed = args.banner around ∧ world.looks = 0 ∧ world.written = []
  | .save _, world => world.written = []
  | _, world => world.printed = "" ∧ world.looks = 0 ∧ world.written = []

/-- The machine is there, and the banner was printed. -/
theorem exists_entered (args : Arguments) (around : Surroundings) {machine reference : Machine}
    (recorder : reference.board.terminal = .recorder) (follows : Follows [] reference machine) :
    ∃ world, ((World.start around).takes machine).prints (args.banner around) = world ∧
      world.around = around ∧ world.printed = args.banner around ∧ world.looks = 0 ∧ world.written = [] ∧
      Shows (args.banner around) reference (flushed machine) world := by
  have silent := follows.silent (by rw [recorder]; rfl)
  have quiet : (World.start around).Quiet ((World.start around).takes machine) := World.quiet_takes _ silent
  have printed : (((World.start around).takes machine).prints (args.banner around)).printed =
      args.banner around := by
    rw [World.prints, quiet.printed]
    exact String.empty_append
  refine ⟨_, rfl, quiet.around, printed, quiet.looks, quiet.written, ?_, ?_⟩
  · have taken := follows.flushed machine.board.journal.takeLines.2
    rw [silent] at taken
    rw [recorder]
    exact taken
  · rw [printed, recorder]
    exact String.append_empty.symm

/-- What a run has done that ends well. It is told by a machine whose clock stands still. -/
def Arguments.Fulfilled (args : Arguments) (around : Surroundings) (world : World) : Prop :=
  ∃ machine chronicle, args.machine around = .ok machine ∧
    Recording.typed args.ticks.toNat (HostKey.ofText (args.input.getD "")) ⟨machine, []⟩ = .ok () chronicle ∧
    chronicle.machine.board.terminal.events.toList = outputOf chronicle.events ∧
    (Unasked chronicle.events →
      world.printed = args.banner around ++ Terminal.textOf (outputOf chronicle.events) ++ "\n" ∧
      world.written = args.saved chronicle.machine)

theorem execute_settles (args : Arguments) {around : Surroundings} (inTime : around.InTime) :
    Settles (execute args) (.start around) (Check.Leaves args around)
      (fun _ later => args.Fulfilled around later) (firstRefusal args around args.checks) := by
  rw [execute_eq, Arguments.checks, List.append_assoc, firstRefusal_append, firstRefusal_append]
  refine (prepare_settles ?_).bind ?_
  · intro check among
    simp only [Check.building, List.mem_cons, List.not_mem_nil, or_false] at among
    rcases among with rfl | rfl | rfl | rfl | rfl | rfl | rfl | rfl <;> exact ⟨rfl, rfl, rfl⟩
  · rintro ⟨config, machine⟩ _ ⟨same, ⟨journal, built⟩, rfl⟩
    have same : config = args.configuration around := same
    subst same
    have built : Machine.ofImages (args.configuration around) (args.monitorImage around)
        (args.basicImage around) .recorder journal = .ok machine := built
    -- Files are loaded and keys are typed on both machines; only the one without a log is told of.
    obtain ⟨timely, reference, quiet, recorder, follows⟩ := Machine.follows_ofImages built
    obtain ⟨referred, -⟩ := Machine.follows_ofImages quiet
    obtain ⟨world, entered, same, printed, looks, written, shows⟩ := exists_entered args around recorder follows
    refine .of_lift ?_
    rw [flush_eq]
    refine .of_lift ?_
    change Settles _ (((World.start around).takes machine).prints (args.banner around)) _ _ _
    rw [entered]
    refine (loadAll_settles same (timely_flushed timely) referred shows fun request after quiet => ?_).bind ?_
    · exact ⟨quiet.printed.trans printed, quiet.looks.trans looks, quiet.written.trans written⟩
    · rintro loaded later ⟨quietly, ready, last, loads, terminal, stands, shows⟩
      have leaves (request : SaveRequest) (after : World) (unsaved : after.written = later.written) :
          (Check.save request).Leaves args around after := unsaved.trans (quietly.written.trans written)
      have worked := work_settles (quietly.around.trans same) inTime ready stands shows leaves
      refine worked.imp ?_
      rintro _ final ⟨chronicle, typed, ends⟩
      have output := Recording.output_typed stands.ramSize_le (terminal.trans recorder) typed
      refine ⟨last, chronicle, ?_, typed, output, fun unasked => ?_⟩
      · rw [Arguments.machine, quiet]
        exact loads
      · obtain ⟨printed, saved⟩ := ends unasked
        rw [quietly.written, written, List.nil_append] at saved
        rw [output] at printed
        exact ⟨printed, saved⟩

section

variable {arguments : List String} {args : Arguments} {world after : World}

theorem run_of_ok (parsed : Arguments.parse arguments = .ok args)
    (done : execute (m := StateM World) args world = (.ok (), after)) :
    run (m := StateM World) arguments world = (0, after) := by
  have done : (execute args).run (m := StateM World) world = (.ok (), after) := done
  rw [run, parsed]
  dsimp only
  rw [bind_state, done]
  rfl

theorem run_of_error {failure : Failure} (parsed : Arguments.parse arguments = .ok args)
    (failed : execute (m := StateM World) args world = (.error failure, after)) :
    run (m := StateM World) arguments world =
      (1, after.tells (failure.lines.map (Prod.mk .standardError))) := by
  have failed : (execute args).run (m := StateM World) world = (.error failure, after) := failed
  rw [run, parsed]
  dsimp only
  rw [bind_state, failed]
  exact congrArg (fun told : Unit × World => ((1, told.2) : UInt32 × World))
    (forIn_tells (Prod.mk .standardError) failure.lines after)

end

/-- A run of parsed arguments succeeds if all checks pass. Otherwise it ends in the failure of the first
check that does not, and what comes after that check leaves no trace. If all pass, and nothing was asked of
the display, what is printed and written is what comes of the tick loop, whatever the clock shows. -/
theorem run_settled {arguments : List String} {args : Arguments} (parsed : Arguments.parse arguments = .ok args)
    {around : Surroundings} (inTime : around.InTime) :
    ((run (m := StateM World) arguments (.start around)).1 = 0 ↔
      ∀ check ∈ args.checks, check.Passes args around) ∧
    (∀ before check after, args.checks = before ++ check :: after →
      (∀ earlier ∈ before, earlier.Passes args around) → ¬check.Passes args around →
      ∃ failure world, check.failure? args around = some failure ∧
        execute (m := StateM World) args (.start around) = (.error failure, world) ∧
        check.Leaves args around world ∧
        run (m := StateM World) arguments (.start around) =
          (1, world.tells (failure.lines.map (Prod.mk .standardError)))) ∧
    ((∀ check ∈ args.checks, check.Passes args around) →
      ∃ world, run (m := StateM World) arguments (.start around) = (0, world) ∧
        args.Fulfilled around world) := by
  have settles := execute_settles args inTime
  refine ⟨?_, fun before check after split earlier fails => ?_, fun passes => ?_⟩
  · rw [← firstRefusal_eq_none_iff]
    cases refusal : firstRefusal args around args.checks with
    | none =>
        rw [refusal] at settles
        cases settles with
        | passed done _ => rw [run_of_ok parsed done]; simp
    | some refused =>
        rw [refusal] at settles
        cases settles with
        | refused failed _ => rw [run_of_error parsed failed]; simp
  · obtain ⟨failure, refused, first⟩ := exists_firstRefusal split earlier fails
    rw [first] at settles
    cases settles with
    | refused failed leaves => exact ⟨failure, _, refused, failed, leaves, run_of_error parsed failed⟩
  · rw [firstRefusal_eq_none_iff.mpr passes] at settles
    cases settles with
    | passed done fulfilled => exact ⟨_, run_of_ok parsed done, fulfilled⟩

/-- No file can be read, and the clock stands still. -/
def barren : Surroundings where
  contents _ := .error .notFound
  opens _ := .ok ()
  clock _ := .zero

theorem inTime_barren : barren.InTime := fun _ =>
  (by decide : Duration.zero.nanoseconds + 1700 < Duration.limit)

/-- Arguments that name no file and no ticks. -/
def noTicks : Arguments := { Arguments.default with ticks := 0 }

theorem passes_noTicks : ∀ check ∈ Check.building, check.Passes noTicks barren := by
  have unnamed {holds : String → Prop} (path : String) (named : none = some path) : holds path :=
    absurd named.symm (Option.some_ne_none path)
  intro check among
  simp only [Check.building, List.mem_cons, List.not_mem_nil, or_false] at among
  rcases among with rfl | rfl | rfl | rfl | rfl | rfl | rfl | rfl
  · exact unnamed
  · exact unnamed
  · exact unnamed
  · exact unnamed
  · exact Array.size_replicate
  · exact Array.size_replicate
  · exact ⟨by decide, by decide⟩
  · exact Nat.le_of_ble_eq_true rfl

/-- Without ticks the banner and the last new line are printed; if a file cannot be loaded, nothing follows
the banner. -/
theorem run_settled_noTicks :
    (∃ world, run (m := StateM World) ["--ticks=0"] (.start barren) = (0, world) ∧
      world.printed = "16K RAM\n\n" ∧ world.written = []) ∧
    ∃ world, run (m := StateM World) ["--ticks=0", "--load=0:a"] (.start barren) = (1, world) ∧
      world.printed = "16K RAM\n" ∧ world.written = [] := by
  have parsed : Arguments.parse ["--ticks=0"] = .ok noTicks := rfl
  have loading : Arguments.parse ["--ticks=0", "--load=0:a"] = .ok { noTicks with loads := [⟨0, "a"⟩] } := rfl
  obtain ⟨-, -, succeeds⟩ := run_settled parsed inTime_barren
  obtain ⟨-, refuses, -⟩ := run_settled loading inTime_barren
  constructor
  · have passes : ∀ check ∈ noTicks.checks, check.Passes noTicks barren := passes_noTicks
    obtain ⟨world, ran, machine, chronicle, -, typed, -, ends⟩ := succeeds passes
    cases typed
    obtain ⟨printed, written⟩ := ends nofun
    exact ⟨world, ran, printed, written⟩
  · obtain ⟨failure, world, -, -, ⟨printed, -, written⟩, ran⟩ := refuses Check.building (.load ⟨0, "a"⟩) [] rfl
      passes_noTicks (fun ⟨data, read, _⟩ => nomatch read)
    exact ⟨_, ran, printed, written⟩

end AppleOne.CommandLine
