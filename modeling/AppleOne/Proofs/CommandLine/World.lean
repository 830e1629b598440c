import AppleOne.CommandLine.Program

/-!
A world for the program to run in. Its files hold what they hold from start to end, its clock shows anything
at each look, and what the program does in it is kept: how often it looked at the clock, what it printed,
the lines it told and the files it wrote. Every file can be written.
-/

namespace AppleOne.CommandLine

variable {α β : Type}

/-- What stands around a run, whatever the run does. -/
structure Surroundings where
  /-- What can be read from a file. -/
  contents : String → Except FileError (Array UInt8)
  /-- Whether a log file can be opened. -/
  opens : String → Except FileError Unit
  /-- What the clock shows at each look. -/
  clock : Nat → Duration

structure World where
  around : Surroundings
  /-- How often the clock was looked at. -/
  looks : Nat
  printed : String
  /-- Lines of the log and of standard error. -/
  told : List (Log.Sink × String)
  /-- The files that were written, each with what was put into it. -/
  written : List (String × Array UInt8)

namespace World

/-- Nothing has happened yet. -/
def start (around : Surroundings) : World := ⟨around, 0, "", [], []⟩

def looked (looks : Nat) (world : World) : World := { world with looks := looks }

def prints (text : String) (world : World) : World := { world with printed := world.printed ++ text }

def tells (lines : List (Log.Sink × String)) (world : World) : World :=
  { world with told := world.told ++ lines }

def writes (files : List (String × Array UInt8)) (world : World) : World :=
  { world with written := world.written ++ files }

/-- A machine passes on what it displayed and logged. -/
def takes (machine : Machine) (world : World) : World :=
  (world.prints (Terminal.textOf machine.board.terminal.events.toList)).tells machine.board.journal.lines.toList

section

variable (world : World) (machine : Machine)

@[simp] theorem around_takes : (world.takes machine).around = world.around := by rw [takes, tells, prints]

@[simp] theorem looks_takes : (world.takes machine).looks = world.looks := by rw [takes, tells, prints]

@[simp] theorem printed_takes : (world.takes machine).printed =
    world.printed ++ Terminal.textOf machine.board.terminal.events.toList := by rw [takes, tells, prints]

@[simp] theorem written_takes : (world.takes machine).written = world.written := by rw [takes, tells, prints]

end

theorem writes_nil (world : World) : world.writes [] = world := by rw [writes, List.append_nil]

/-- Nothing happened but that lines were told. -/
structure Quiet (before after : World) : Prop where
  around : after.around = before.around
  looks : after.looks = before.looks
  printed : after.printed = before.printed
  written : after.written = before.written

theorem Quiet.refl (world : World) : world.Quiet world := ⟨rfl, rfl, rfl, rfl⟩

theorem Quiet.trans {before between after : World} (first : before.Quiet between)
    (second : between.Quiet after) : before.Quiet after :=
  ⟨second.around.trans first.around, second.looks.trans first.looks, second.printed.trans first.printed,
    second.written.trans first.written⟩

theorem quiet_takes (world : World) {machine : Machine} (silent : machine.board.terminal.events = #[]) :
    world.Quiet (world.takes machine) where
  around := around_takes ..
  looks := looks_takes ..
  printed := by
    rw [printed_takes, silent, Terminal.textOf, List.map_nil, String.ofList_nil, String.append_empty]
  written := written_takes ..

instance : Host (StateM World) where
  readFile path := fun world => (world.around.contents path, world)
  writeFile path data := fun world => (.ok (), world.writes [(path, data)])
  openLog path := fun world => (world.around.opens path, world)
  writeLine sink line := fun world => ((), world.tells [(sink, line)])
  print text := fun world => ((), world.prints text)
  now := fun world => (world.around.clock world.looks, world.looked (world.looks + 1))
  waitUntil _ := pure ()

end World

/-! ### Attempts in a world -/

theorem bind_state (action : StateM World α) (next : α → StateM World β) (world : World) :
    (action >>= next) world = next (action world).1 (action world).2 := rfl

section

variable {x : Attempt (StateM World) α} {next : α → Attempt (StateM World) β} {world between : World}

theorem bind_of_ok {result : α} (done : x world = (.ok result, between)) :
    (x >>= next) world = next result between := by
  change (match x world with | (outcome, between) => ExceptT.bindCont next outcome between) = _
  rw [done]
  rfl

theorem bind_of_error {failure : Failure} (failed : x world = (.error failure, between)) :
    (x >>= next) world = (.error failure, between) := by
  change (match x world with | (outcome, between) => ExceptT.bindCont next outcome between) = _
  rw [failed]
  rfl

theorem bind_lift (action : StateM World α) :
    ((liftM action : Attempt (StateM World) α) >>= next) world = next (action world).1 (action world).2 := rfl

end

theorem bind_run_of_ok {x : StateT Machine (Attempt (StateM World)) α}
    {next : α → StateT Machine (Attempt (StateM World)) β} {machine after : Machine} {result : α}
    {world between : World} (done : x machine world = (.ok (result, after), between)) :
    (x >>= next) machine world = next result after between := by
  change (x machine >>= fun outcome => next outcome.1 outcome.2) world = _
  rw [bind_of_ok done]

/-! ### What a machine passes on -/

/-- A machine whose output and lines were taken. -/
def flushed (machine : Machine) : Machine :=
  { machine with board := { machine.board with
    terminal := machine.board.terminal.take.2
    journal := machine.board.journal.takeLines.2 } }

theorem forIn_tells {ι : Type} (line : ι → Log.Sink × String) (lines : List ι) (world : World) :
    (do for told in lines do Host.writeLine (line told).1 (line told).2 : StateM World Unit) world =
      ((), world.tells (lines.map line)) := by
  induction lines generalizing world with
  | nil =>
      rw [World.tells, List.map_nil, List.append_nil]
      rfl
  | cons first rest ih =>
      rw [List.forIn_cons]
      refine (ih (world.tells [line first])).trans ?_
      rw [World.tells, World.tells, World.tells, List.append_assoc]
      rfl

theorem flush_eq (machine : Machine) (world : World) :
    flush (m := StateM World) machine world = (flushed machine, world.takes machine) := by
  obtain ⟨cpu, config, ram, roms, pia, terminal, time, journal⟩ := machine
  rw [flush, World.takes]
  dsimp only
  rw [← Array.forIn_toList, Terminal.take_events]
  have told (world : World) {after : Machine} {rest : StateM World Machine}
      (same : rest = do
        (for told in journal.takeLines.1.toList do Host.writeLine told.1 told.2)
        pure after) : rest world = (after, world.tells journal.lines.toList) := by
    have loop := forIn_tells id journal.takeLines.1.toList world
    rw [List.map_id] at loop
    rw [same]
    exact congrArg (fun outcome : Unit × World => (after, outcome.2)) loop
  by_cases empty : terminal.events = #[]
  · have unprinted : world.prints (Terminal.textOf #[].toList) = world := by
      rw [World.prints, Terminal.textOf, List.map_nil, String.ofList_nil, String.append_empty]
    rw [empty, unprinted]
    exact told world rfl
  · rw [if_pos (by simpa using empty)]
    exact told _ rfl

/-- Waiting leaves no trace. -/
theorem keepPace_eq (realtime : Bool) (start : Duration) (ticks : Nat) (world : World) :
    keepPace (m := StateM World) realtime start ticks world = ((), world) := by
  unfold keepPace
  cases realtime with
  | false => rfl
  | true => cases Duration.ofNanoseconds? (start.nanoseconds + tickNanoseconds * ticks) <;> rfl

end AppleOne.CommandLine
