import AppleOne.Proofs.CommandLine.World

/-!
What must hold for a run to succeed, in the order in which the program sees to it, and the failure that each
check brings if it does not pass. The checks up to the RAM size are made before there is a machine, and a
run that fails one of them leaves no trace (`execute_eq`).
-/

namespace AppleOne.CommandLine

variable {α : Type}

/-! ### What the arguments name -/

namespace Surroundings

variable (around : Surroundings)

/-- The configuration in a file, or why there is none. -/
def readConfig (path : String) : Except Failure Config :=
  match around.contents path with
  | .error e => .error (.ofFile s!"reading config {path}" e)
  | .ok data =>
    match String.fromUTF8? ⟨data⟩ with
    | none => .error (.ofFile s!"reading config {path}" .notText)
    | some text =>
      match Config.read text with
      | .ok config => .ok config
      | .error failure => .error ⟨failure.message text, none⟩

/-- The bytes of a file, if it can be read. -/
def bytes (path : String) : Array UInt8 := (around.contents path).toOption.getD #[]

/-- The bytes of a memory image; zero bytes if there is no file. -/
def image (length : Nat) : Option String → Array UInt8
  | some path => around.bytes path
  | none => .replicate length 0

end Surroundings

namespace Arguments

variable (args : Arguments) (around : Surroundings)

/-- The configuration of the file, or the standard one, with the RAM size that was asked for. -/
def configuration : Config :=
  let config := match args.config with
    | some path => (around.readConfig path).toOption.getD .standard
    | none => .standard
  { config with ramSize := args.ram.getD config.ramSize }

/-- The size of RAM. -/
def ramSize : Nat := (args.configuration around).ramSize.toNat

def monitorImage : Array UInt8 := around.image 256 args.monitor

def basicImage : Array UInt8 := around.image 4096 args.basic

end Arguments

/-! ### The checks -/

/-- What a run depends on. -/
inductive Check where
  | logFile
  | configFile
  | monitorFile
  | basicFile
  | monitorSize
  | basicSize
  | tickBudget
  | ramSize
  | load (request : LoadRequest)
  | save (request : SaveRequest)

/-- Those that are made before there is a machine. -/
def Check.building : List Check :=
  [.logFile, .configFile, .monitorFile, .basicFile, .monitorSize, .basicSize, .tickBudget, .ramSize]

/-- All checks, in order. -/
def Arguments.checks (args : Arguments) : List Check :=
  Check.building ++ args.loads.map .load ++ args.save.toList.map .save

namespace Check

section

variable (args : Arguments) (around : Surroundings)

def Passes : Check → Prop
  | logFile => ∀ path, args.logFile = some path → around.opens path = .ok ()
  | configFile => ∀ path, args.config = some path → ∃ data text config,
    around.contents path = .ok data ∧ String.fromUTF8? ⟨data⟩ = some text ∧ Config.read text = .ok config
  | monitorFile => ∀ path, args.monitor = some path → ∃ data, around.contents path = .ok data
  | basicFile => ∀ path, args.basic = some path → ∃ data, around.contents path = .ok data
  | monitorSize => (args.monitorImage around).size = 256
  | basicSize => (args.basicImage around).size = 4096
  | tickBudget =>
    1 ≤ (args.configuration around).cyclesPerTick.toNat ∧
      (args.configuration around).cyclesPerTick.toNat ≤ 0xFFFFFFF8
  | ramSize => args.ramSize around ≤ 0xD00F
  | load request => ∃ data, around.contents request.file = .ok data ∧
    request.address.toNat < args.ramSize around ∧ request.address.toNat + data.size ≤ args.ramSize around
  | save request => request.start < request.last ∧ request.last.toNat < args.ramSize around

/-- The failure of an operation, if it failed. -/
def failed {ε : Type} (told : ε → Failure) : Except ε α → Option Failure
  | .ok _ => none
  | .error e => some (told e)

/-- The failure that a refusal of the machine means. -/
def refused (reason : Prop) [Decidable reason] (e : Machine.Error) : Option Failure :=
  if reason then some (.ofMachine e) else none

/-- Why a check does not pass, if it does not. -/
def failure? : Check → Option Failure
  | logFile => args.logFile.bind fun path =>
    failed (.ofFile s!"opening log file {path}") (around.opens path)
  | configFile => args.config.bind fun path => failed id (around.readConfig path)
  | monitorFile => args.monitor.bind fun path =>
    failed (.ofFile s!"reading monitor ROM {path}") (around.contents path)
  | basicFile => args.basic.bind fun path =>
    failed (.ofFile s!"reading BASIC ROM {path}") (around.contents path)
  | monitorSize => failed (fun e => .ofMachine (.rom e))
    (Roms.checkImage "Monitor" 256 (args.monitorImage around))
  | basicSize => failed (fun e => .ofMachine (.rom e))
    (Roms.checkImage "BASIC" 4096 (args.basicImage around))
  | tickBudget =>
    let budget := (args.configuration around).cyclesPerTick
    (refused (budget = 0) .zeroTickBudget).or
      (refused (Machine.maxTickBudget < budget) (.tickBudgetTooLarge budget))
  | ramSize => refused (Board.maxRam < args.ramSize around)
    (.ramTooLarge (args.configuration around).ramSize)
  | load ⟨address, file⟩ =>
    let data := around.bytes file
    (failed (.ofFile s!"reading {file}") (around.contents file)).or <|
      (refused (args.ramSize around ≤ address.toNat) (.outsideRam address (args.ramSize around))).or <|
        refused (args.ramSize around < address.toNat + data.size)
          (.imageTooLarge data.size address (args.ramSize around))
  | save ⟨start, last, _⟩ =>
    (refused (last ≤ start) (.emptyRegion start last)).or <|
      refused (args.ramSize around ≤ last.toNat) (.outsideRam last (args.ramSize around))

end

variable {args : Arguments} {around : Surroundings}

theorem failed_eq_none_iff {ε : Type} {told : ε → Failure} {outcome : Except ε α} :
    failed told outcome = none ↔ ∃ result, outcome = .ok result := by
  cases outcome <;> simp [failed]

theorem readConfig_ok_iff {path : String} {config : Config} :
    around.readConfig path = .ok config ↔ ∃ data text, around.contents path = .ok data ∧
      String.fromUTF8? ⟨data⟩ = some text ∧ Config.read text = .ok config := by
  unfold Surroundings.readConfig
  cases contents : around.contents path with
  | error e => simp
  | ok data =>
      cases decoded : String.fromUTF8? ⟨data⟩ with
      | none => simp [decoded]
      | some text => cases read : Config.read text <;> simp [decoded, read]

theorem checkImage_ok_iff {window : String} {length : Nat} {image : Array UInt8} :
    (∃ rom, Roms.checkImage window length image = .ok rom) ↔ image.size = length := by
  unfold Roms.checkImage
  split
  · exact iff_of_true ⟨_, rfl⟩ ‹_›
  · exact iff_of_false nofun ‹_›

theorem refused_eq_none_iff {reason : Prop} [Decidable reason] {e : Machine.Error} :
    refused reason e = none ↔ ¬reason := by
  unfold refused
  split <;> simpa

theorem bytes_eq {path : String} {data : Array UInt8} (read : around.contents path = .ok data) :
    around.bytes path = data := by
  rw [Surroundings.bytes, read]
  rfl

/-- A check passes or brings a failure. -/
theorem failure?_eq_none_iff (check : Check) :
    check.failure? args around = none ↔ check.Passes args around := by
  cases check with
  | logFile =>
      simp only [failure?, Passes, Option.bind_eq_none_iff, failed_eq_none_iff]
      exact forall₂_congr fun path _ => ⟨fun ⟨(), opened⟩ => opened, fun opened => ⟨(), opened⟩⟩
  | configFile =>
      simp only [failure?, Passes, Option.bind_eq_none_iff, failed_eq_none_iff, readConfig_ok_iff]
      refine forall₂_congr fun path _ => ⟨?_, ?_⟩
      · rintro ⟨config, data, text, read⟩
        exact ⟨data, text, config, read⟩
      · rintro ⟨data, text, config, read⟩
        exact ⟨config, data, text, read⟩
  | monitorFile | basicFile => simp only [failure?, Passes, Option.bind_eq_none_iff, failed_eq_none_iff]
  | monitorSize | basicSize => exact failed_eq_none_iff.trans checkImage_ok_iff
  | tickBudget =>
      simp only [failure?, Passes, Option.or_eq_none_iff, refused_eq_none_iff]
      generalize (args.configuration around).cyclesPerTick = budget
      have most : Machine.maxTickBudget.toNat = 0xFFFFFFF8 := rfl
      have zero : budget = 0 ↔ budget.toNat = 0 := UInt32.toNat_inj.symm
      rw [zero, UInt32.lt_iff_toNat_lt, most]
      omega
  | ramSize => exact refused_eq_none_iff.trans Nat.not_lt
  | load request =>
      simp only [failure?, Passes, Option.or_eq_none_iff, refused_eq_none_iff, failed_eq_none_iff,
        Nat.not_le, Nat.not_lt]
      constructor
      · rintro ⟨⟨data, read⟩, inside, fits⟩
        rw [bytes_eq read] at fits
        exact ⟨data, read, inside, fits⟩
      · rintro ⟨data, read, inside, fits⟩
        rw [bytes_eq read]
        exact ⟨⟨data, read⟩, inside, fits⟩
  | save request =>
      simp only [failure?, Passes, Option.or_eq_none_iff, refused_eq_none_iff, Nat.not_le, UInt16.not_le]

end Check

/-! ### Attempts that are settled by checks -/

/-- The check that does not pass, with its failure. -/
def Check.refusal? (args : Arguments) (around : Surroundings) (check : Check) : Option (Check × Failure) :=
  (check.failure? args around).map (Prod.mk check)

/-- The first check of some that does not pass, with its failure. -/
def firstRefusal (args : Arguments) (around : Surroundings) (checks : List Check) : Option (Check × Failure) :=
  checks.findSome? (Check.refusal? args around)

section

variable {args : Arguments} {around : Surroundings} {checks : List Check}

theorem firstRefusal_eq_none_iff :
    firstRefusal args around checks = none ↔ ∀ check ∈ checks, check.Passes args around := by
  rw [firstRefusal, List.findSome?_eq_none_iff]
  refine forall₂_congr fun check _ => ?_
  rw [Check.refusal?, Option.map_eq_none_iff, Check.failure?_eq_none_iff]

theorem exists_firstRefusal {before after : List Check} {check : Check}
    (split : checks = before ++ check :: after) (earlier : ∀ check ∈ before, check.Passes args around)
    (fails : ¬check.Passes args around) :
    ∃ failure, check.failure? args around = some failure ∧
      firstRefusal args around checks = some (check, failure) := by
  obtain ⟨failure, refused⟩ := Option.ne_none_iff_exists'.mp (mt check.failure?_eq_none_iff.mp fails)
  refine ⟨failure, refused, List.findSome?_eq_some_iff.mpr ⟨before, check, after, split, ?_, ?_⟩⟩
  · rw [Check.refusal?, refused]
    rfl
  · intro check among
    rw [Check.refusal?, check.failure?_eq_none_iff.mpr (earlier check among)]
    rfl

end

/-- If a check does not pass, the attempt ends in its failure and leaves the world as `left` says; if all
pass, it ends well, as `reached` says. -/
inductive Settles (x : Attempt (StateM World) α) (world : World) (left : Check → World → Prop)
    (reached : α → World → Prop) : Option (Check × Failure) → Prop where
  | refused {check : Check} {failure : Failure} {after : World} :
      x world = (.error failure, after) → left check after →
      Settles x world left reached (some (check, failure))
  | passed {result : α} {after : World} :
      x world = (.ok result, after) → reached result after → Settles x world left reached none

namespace Settles

variable {β : Type} {x : Attempt (StateM World) α} {world : World} {left : Check → World → Prop}
  {reached : α → World → Prop} {reached' : β → World → Prop} {next : α → Attempt (StateM World) β}
  {first second : Option (Check × Failure)}

theorem of_ok {between : World} {result : α} (done : x world = (.ok result, between))
    (rest : Settles (next result) between left reached' second) :
    Settles (x >>= next) world left reached' second := by
  cases rest with
  | refused failed leaves => exact .refused ((bind_of_ok done).trans failed) leaves
  | passed done' holds => exact .passed ((bind_of_ok done).trans done') holds

protected theorem bind (settles : Settles x world left reached first)
    (rest : ∀ {result between}, reached result between → Settles (next result) between left reached' second) :
    Settles (x >>= next) world left reached' (first.or second) := by
  cases settles with
  | refused failed leaves =>
      exact .refused (bind_of_error failed) leaves
  | passed done holds =>
      rw [Option.none_or]
      exact of_ok done (rest holds)

theorem of_passes {args : Arguments} {around : Surroundings} {check : Check} {result : α}
    (passes : check.failure? args around = none) (done : x world = (.ok result, world))
    (holds : reached result world) : Settles x world left reached (check.refusal? args around) := by
  rw [Check.refusal?, passes]
  exact .passed done holds

theorem of_fails {args : Arguments} {around : Surroundings} {check : Check} {failure : Failure}
    (fails : check.failure? args around = some failure) (failed : x world = (.error failure, world))
    (leaves : left check world) : Settles x world left reached (check.refusal? args around) := by
  rw [Check.refusal?, fails]
  exact .refused failed leaves

theorem of_lift {action : StateM World α}
    (rest : Settles (next (action world).1) (action world).2 left reached' second) :
    Settles ((liftM action : Attempt (StateM World) α) >>= next) world left reached' second := by
  cases rest with
  | refused failed leaves => exact .refused failed leaves
  | passed done holds => exact .passed done holds

theorem imp {weaker : α → World → Prop} (settles : Settles x world left reached first)
    (follows : ∀ {result after}, reached result after → weaker result after) :
    Settles x world left weaker first := by
  cases settles with
  | refused failed leaves => exact .refused failed leaves
  | passed done holds => exact .passed done (follows holds)

end Settles

section

variable {args : Arguments} {world : World} {left : Check → World → Prop}

theorem openLog_eq (path : String) :
    (Host.openLog path : StateM World _) world = (world.around.opens path, world) := rfl

theorem readFile_eq (path : String) :
    (Host.readFile path : StateM World _) world = (world.around.contents path, world) := rfl

theorem openJournal_named {path : String} (named : args.logFile = some path) :
    openJournal (m := StateM World) args world =
      ((fun () => (Log.Journal.initial.setGlobalLevel args.logLevel).attach path) <$>
        (world.around.opens path).mapError (.ofFile s!"opening log file {path}"), world) := by
  unfold openJournal
  rw [named]
  dsimp only
  rw [bind_lift, openLog_eq]
  cases world.around.opens path <;> rfl

theorem openJournal_settles (leaves : left .logFile world) :
    Settles (openJournal args) world left (fun _ after => after = world)
      (Check.logFile.refusal? args world.around) := by
  cases named : args.logFile with
  | none =>
      have done : openJournal (m := StateM World) args world =
          (.ok (Log.Journal.initial.setGlobalLevel args.logLevel), world) := by
        rw [openJournal, named]
        rfl
      exact .of_passes (by rw [Check.failure?, named, Option.bind_none]) done rfl
  | some path =>
      have ends : openJournal (m := StateM World) args world = _ := openJournal_named named
      have fails : Check.logFile.failure? args world.around =
          Check.failed (.ofFile s!"opening log file {path}") (world.around.opens path) := by
        rw [Check.failure?, named, Option.bind_some]
      cases opened : world.around.opens path with
      | ok done =>
          rw [opened] at fails ends
          exact .of_passes fails ends rfl
      | error e =>
          rw [opened] at fails ends
          exact .of_fails fails ends leaves

theorem readBytes_of_ok {what path : String} {data : Array UInt8}
    (read : world.around.contents path = .ok data) :
    (readBytes what path : Attempt (StateM World) _) world = (.ok data, world) := by
  rw [readBytes, orFail, bind_lift, readFile_eq, read]
  rfl

theorem readBytes_of_error {what path : String} {e : FileError}
    (unread : world.around.contents path = .error e) :
    (readBytes what path : Attempt (StateM World) _) world =
      (.error (.ofFile s!"reading {what}{path}" e), world) := by
  rw [readBytes, orFail, bind_lift, readFile_eq, unread]
  rfl

theorem readConfig_named {path : String} (named : args.config = some path) :
    readConfig (m := StateM World) args world =
      ((fun config : Config => { config with ramSize := args.ram.getD config.ramSize }) <$>
        world.around.readConfig path, world) := by
  unfold readConfig Surroundings.readConfig
  rw [named]
  dsimp only
  cases contents : world.around.contents path with
  | error e =>
      have tried : "reading " ++ "config " = "reading config " := rfl
      rw [bind_of_error (readBytes_of_error contents)]
      exact congrArg (fun tried => (Except.error (Failure.ofFile (tried ++ path) e), world)) tried
  | ok data =>
      rw [bind_of_ok (readBytes_of_ok contents)]
      dsimp only
      cases String.fromUTF8? ⟨data⟩ with
      | none => rfl
      | some text =>
          dsimp only
          cases Config.read text <;> rfl

theorem readConfig_settles (leaves : left .configFile world) :
    Settles (readConfig args) world left
      (fun config after => config = args.configuration world.around ∧ after = world)
      (Check.configFile.refusal? args world.around) := by
  cases named : args.config with
  | none =>
      have chosen : args.configuration world.around =
          { Config.standard with ramSize := args.ram.getD Config.standard.ramSize } := by
        rw [Arguments.configuration, named]
      refine .of_passes (by rw [Check.failure?, named, Option.bind_none]) ?_ ⟨chosen.symm, rfl⟩
      rw [readConfig, named]
      rfl
  | some path =>
      have ends : readConfig (m := StateM World) args world = _ := readConfig_named named
      cases read : world.around.readConfig path with
      | error failure =>
          rw [read] at ends
          refine .of_fails ?_ ends leaves
          rw [Check.failure?, named, Option.bind_some, read]
          rfl
      | ok config =>
          have chosen : args.configuration world.around =
              { config with ramSize := args.ram.getD config.ramSize } := by
            rw [Arguments.configuration, named]
            dsimp only
            rw [read]
            rfl
          rw [read] at ends
          refine .of_passes ?_ ends ⟨chosen.symm, rfl⟩
          rw [Check.failure?, named, Option.bind_some, read]
          rfl

theorem readImage_settles {name : String} {length : Nat} {path? : Option String} {check : Check}
    (fails : check.failure? args world.around = path?.bind fun path =>
      Check.failed (.ofFile ("reading " ++ (name ++ " ROM ") ++ path)) (world.around.contents path))
    (leaves : left check world) :
    Settles (readImage name length path?) world left
      (fun data after => data = world.around.image length path? ∧ after = world)
      (check.refusal? args world.around) := by
  cases path? with
  | none => exact .of_passes fails rfl ⟨rfl, rfl⟩
  | some path =>
      rw [Option.bind_some] at fails
      cases contents : world.around.contents path with
      | error e =>
          rw [contents] at fails
          exact .of_fails fails (readBytes_of_error contents) leaves
      | ok data =>
          rw [contents] at fails
          exact .of_passes fails (readBytes_of_ok contents) ⟨(Check.bytes_eq contents).symm, rfl⟩

theorem orRefuse_settles {around : Surroundings} {checks : List Check} {outcome : Except Machine.Error α}
    (fails : (firstRefusal args around checks).map Prod.snd = Check.failed .ofMachine outcome)
    (leaves : ∀ check ∈ checks, left check world) :
    Settles (orRefuse outcome) world left (fun result after => outcome = .ok result ∧ after = world)
      (firstRefusal args around checks) := by
  cases outcome with
  | ok result =>
      rw [Option.map_eq_none_iff.mp fails]
      exact .passed rfl ⟨rfl, rfl⟩
  | error e =>
      obtain ⟨⟨check, failure⟩, first, rfl⟩ := Option.map_eq_some_iff.mp fails
      obtain ⟨_, among, refuses⟩ := List.exists_of_findSome?_eq_some first
      obtain ⟨_, -, rfl, rfl⟩ := Option.map_eq_some_iff.mp refuses
      rw [first]
      exact .refused rfl (leaves check among)

theorem firstRefusal_cons (around : Surroundings) (check : Check) (rest : List Check) :
    firstRefusal args around (check :: rest) =
      (check.refusal? args around).or (firstRefusal args around rest) := by
  rw [firstRefusal, List.findSome?_cons]
  cases check.refusal? args around <;> rfl

theorem firstRefusal_append (around : Surroundings) (first second : List Check) :
    firstRefusal args around (first ++ second) =
      (firstRefusal args around first).or (firstRefusal args around second) := List.findSome?_append

theorem firstRefusal_singleton (around : Surroundings) (check : Check) :
    firstRefusal args around [check] = check.refusal? args around := by
  rw [firstRefusal_cons]
  exact Option.or_none

theorem snd_firstRefusal_cons (around : Surroundings) (check : Check) (rest : List Check) :
    (firstRefusal args around (check :: rest)).map Prod.snd =
      (check.failure? args around).or ((firstRefusal args around rest).map Prod.snd) := by
  rw [firstRefusal_cons, Check.refusal?]
  cases check.failure? args around <;> rfl

/-- The last four checks before there is a machine are those that building one makes. -/
theorem ofImages_failed (around : Surroundings) (terminal : Terminal) (journal : Log.Journal) :
    (firstRefusal args around [.monitorSize, .basicSize, .tickBudget, .ramSize]).map Prod.snd =
      Check.failed .ofMachine (Machine.ofImages (args.configuration around) (args.monitorImage around)
        (args.basicImage around) terminal journal) := by
  rw [snd_firstRefusal_cons, snd_firstRefusal_cons, snd_firstRefusal_cons, snd_firstRefusal_cons]
  simp only [Check.failure?, Machine.ofImages, Roms.ofImages]
  cases Roms.checkImage "Monitor" 256 (args.monitorImage around) with
  | error e => rfl
  | ok monitor =>
      cases Roms.checkImage "BASIC" 4096 (args.basicImage around) with
      | error e => rfl
      | ok basic =>
          change Option.or _ _ = Check.failed _ (Machine.build _ _ _ _)
          unfold Machine.build Check.refused Arguments.ramSize
          split
          · rfl
          · split
            · rfl
            · split <;> rfl

end

/-! ### Up to the machine -/

section

variable {m : Type → Type} [Monad m] [Host m]

/-- The part of a run that comes before there is a machine. -/
def prepare (args : Arguments) : Attempt m (Config × Machine) := do
  let journal ← openJournal args
  let config ← readConfig args
  let monitor ← readImage "monitor" 256 args.monitor
  let basic ← readImage "BASIC" 4096 args.basic
  let machine ← orRefuse (Machine.ofImages config monitor basic .recorder journal)
  return (config, machine)

/-- The ticks, and what is saved after them. -/
def work (args : Arguments) (machine : Machine) : Attempt m Unit := do
  let start ← Host.now (m := m)
  let keys := HostKey.ofText (args.input.getD "")
  let machine ← runTicks args.realtime start args.ticks.toNat 0 keys machine
  Host.print (m := m) "\n"
  args.save.forM (saveRegion machine)
  args.state.forM (saveState machine)

theorem execute_eq [LawfulMonad m] (args : Arguments) : (execute args : Attempt m Unit) = (do
    let (config, machine) ← prepare args
    let machine ← flush (m := m) machine
    Host.print (m := m) s!"{config.kilobytes}K RAM\n"
    let machine ← loadAll args.loads machine
    work args machine) := by
  simp only [execute, prepare, work, bind_assoc, pure_bind]

end

theorem prepare_settles {args : Arguments} {world : World} {left : Check → World → Prop}
    (leaves : ∀ check ∈ Check.building, left check world) :
    Settles (prepare args) world left
      (fun prepared after => prepared.1 = args.configuration world.around ∧
        (∃ journal, Machine.ofImages prepared.1 (args.monitorImage world.around)
          (args.basicImage world.around) .recorder journal = .ok prepared.2) ∧ after = world)
      (firstRefusal args world.around Check.building) := by
  simp only [Check.building] at leaves ⊢
  obtain ⟨logFile, leaves⟩ := List.forall_mem_cons.mp leaves
  obtain ⟨configFile, leaves⟩ := List.forall_mem_cons.mp leaves
  obtain ⟨monitorFile, leaves⟩ := List.forall_mem_cons.mp leaves
  obtain ⟨basicFile, leaves⟩ := List.forall_mem_cons.mp leaves
  rw [firstRefusal_cons, firstRefusal_cons, firstRefusal_cons, firstRefusal_cons]
  refine (openJournal_settles logFile).bind fun {journal} _ same => ?_
  cases same
  refine (readConfig_settles configFile).bind ?_
  rintro config _ ⟨rfl, rfl⟩
  refine (readImage_settles rfl monitorFile).bind ?_
  rintro monitor _ ⟨rfl, rfl⟩
  refine (readImage_settles rfl basicFile).bind ?_
  rintro basic _ ⟨rfl, rfl⟩
  rw [← Option.or_none (o := firstRefusal _ _ _)]
  refine (orRefuse_settles (ofImages_failed _ _ journal) leaves).bind ?_
  rintro machine _ ⟨built, rfl⟩
  exact .passed rfl ⟨rfl, ⟨journal, built⟩, rfl⟩

end AppleOne.CommandLine
