import AppleOne.Proofs.CommandLine.World
import AppleOne.Proofs.Machine.TickLoop

/-!
The tick loop in a world. Whatever the clock shows at its looks, the loop comes to its end, and nothing is
written meanwhile (`exists_runTicks`). A machine that asks nothing of its display follows a reference whose
clock stands still, and what the reference displays is printed.
-/

namespace AppleOne.CommandLine

open Machine (Chronicle Follows Recording)

/-- At every look at the clock there is time left for the display. -/
def Surroundings.InTime (around : Surroundings) : Prop :=
  ∀ look, (around.clock look).nanoseconds + 1700 < Duration.limit

variable {config : Config} {machine : Machine} {world : World} {shown : List Terminal.Event}

theorem timedStep_of_ok {cycles : Nat} {after : Machine}
    (stepped : (machine.setTime (world.around.clock world.looks)).step = .ok cycles after) :
    (timedStep machine : Attempt (StateM World) _) world =
      (.ok (cycles, after), world.looked (world.looks + 1)) := by
  have look : (Host.now : StateM World Duration) world =
      (world.around.clock world.looks, world.looked (world.looks + 1)) := rfl
  rw [timedStep, bind_lift, look]
  dsimp only
  rw [stepped]
  rfl

/-- One step is made at the time that the clock shows. -/
theorem exists_timedStep (timely : machine.Timely config) (inTime : world.around.InTime) :
    ∃ cycles after,
      (timedStep machine : Attempt (StateM World) _) world =
        (.ok (cycles, after), world.looked (world.looks + 1)) ∧
      after.Timely config ∧
      ∀ {shown chronicle result last}, Follows shown chronicle.machine machine →
        Recording.perform Cpu.step chronicle = .ok result last → Unasked last.events →
        result = cycles ∧ Follows shown last.machine after := by
  have ready := timely.setTime (inTime world.looks)
  obtain ⟨cycles, after, stepped, still⟩ := ready.exists_step
  refine ⟨cycles, after, timedStep_of_ok stepped, still, fun follows first unasked => ?_⟩
  exact (follows.setTime _).run (Recording.reports_perform Cpu.step) (Recording.agrees_perform Cpu.step)
    first stepped unasked

theorem exists_repeatWithin (timely : machine.Timely config) (inTime : world.around.InTime)
    (fuel budget executed : Nat) :
    ∃ cycles after looks,
      (Machine.repeatWithin timedStep fuel budget executed machine : Attempt (StateM World) _) world =
        (.ok (cycles, after), world.looked looks) ∧
      after.Timely config ∧
      ∀ {shown chronicle result last}, Follows shown chronicle.machine machine →
        Machine.repeatWithin (Recording.perform Cpu.step) fuel budget executed chronicle = .ok result last →
        Unasked last.events → Follows shown last.machine after := by
  induction fuel generalizing executed machine world with
  | zero =>
      refine ⟨executed, machine, world.looks, rfl, timely, fun follows done _ => ?_⟩
      cases done
      exact follows
  | succ fuel ih =>
      rw [Machine.repeatWithin]
      split
      · obtain ⟨cycles, between, stepped, still, one⟩ := exists_timedStep timely inTime
        have later : (world.looked (world.looks + 1)).around.InTime := inTime
        obtain ⟨total, after, looks, rest, left, further⟩ :=
          ih still later (min Machine.maxCount (executed + cycles))
        refine ⟨total, after, looks, ?_, left, fun follows done unasked => ?_⟩
        · exact (bind_run_of_ok stepped).trans rest
        · rw [Machine.repeatWithin, if_pos ‹_›] at done
          obtain ⟨counted, reached, first, done⟩ := exists_of_bind_ok done
          have grows := (Recording.agrees_perform Cpu.step).repeatWithin fuel budget
            (min Machine.maxCount (executed + counted))
          obtain ⟨rfl, between⟩ := one follows first (unasked.mono (grows.grows done).subset)
          exact further between done unasked
      · refine ⟨executed, machine, world.looks, rfl, timely, fun follows done _ => ?_⟩
        rw [Machine.repeatWithin, if_neg ‹_›] at done
        cases done
        exact follows

/-! ### Ticks -/

/-- The world shows a banner and all that the reference has displayed, and nothing waits to be passed on. -/
structure Shows (banner : String) (reference machine : Machine) (world : World) : Prop where
  follows : Follows reference.board.terminal.events.toList reference machine
  printed : world.printed = banner ++ Terminal.textOf reference.board.terminal.events.toList

theorem shows_flushed {banner : String} {reference : Machine} (follows : Follows shown reference machine)
    (printed : world.printed = banner ++ Terminal.textOf shown) :
    Shows banner reference (flushed machine) (world.takes machine) where
  follows := by
    rw [follows.output]
    exact follows.flushed _
  printed := by rw [World.printed_takes, follows.output, printed, Terminal.textOf_append, String.append_assoc]

theorem timely_flushed (timely : machine.Timely config) : (flushed machine).Timely config :=
  ⟨⟨timely.sound.bit5, timely.sound.decimal, timely.sound.board.key, timely.sound.board.ramSize⟩, timely.same,
    timely.room, timely.early⟩

theorem exists_tick (timely : machine.Timely config) (inTime : world.around.InTime) (keys : List HostKey) :
    ∃ cycles after looks,
      (Machine.repeatStep timedStep (machine.offerKey keys).2.config.cyclesPerTick (machine.offerKey keys).2 :
          Attempt (StateM World) _) world =
        (.ok (cycles, after), world.looked looks) ∧
      after.Timely config ∧
      ∀ {shown chronicle offered last left reply}, Follows shown chronicle.machine machine →
        Recording.offer keys chronicle = .ok left offered →
        Recording.command .tick offered = .ok reply last → Unasked last.events →
        left = (machine.offerKey keys).1 ∧ Follows shown last.machine after := by
  obtain ⟨cycles, after, looks, ran, still, loop⟩ := exists_repeatWithin (timely.offerKey keys) inTime
    (machine.offerKey keys).2.config.cyclesPerTick.toNat (machine.offerKey keys).2.config.cyclesPerTick.toNat 0
  refine ⟨cycles, after, looks, ran, still, fun {_ _ offered last _ _} follows handed ticked unasked => ?_⟩
  have grows := (Recording.agrees_command .tick).grows ticked
  obtain ⟨same, follows⟩ := follows.offer handed (unasked.mono grows.subset)
  obtain ⟨counted, repeated⟩ := exists_of_map_ok ticked
  -- Both run for the budget of the same configuration.
  have config : offered.machine.config = (machine.offerKey keys).2.config := follows.drifted.config
  have repeated : Machine.repeatStep (Recording.perform Cpu.step) offered.machine.config.cyclesPerTick offered =
      .ok counted last := repeated
  rw [config] at repeated
  exact ⟨same, loop follows repeated unasked⟩

/-- All ticks are run. What they print is what the reference displays, if it asks nothing of its display. -/
theorem exists_runTicks (timely : machine.Timely config) (inTime : world.around.InTime) (realtime : Bool)
    (start : Duration) (left done : Nat) (keys : List HostKey) :
    ∃ after later,
      (runTicks realtime start left done keys machine : Attempt (StateM World) Machine) world =
        (.ok after, later) ∧
      after.Timely config ∧ later.written = world.written ∧
      ∀ {banner chronicle last}, Shows banner chronicle.machine machine world →
        Recording.typed left keys chronicle = .ok () last → Unasked last.events →
        Shows banner last.machine after later := by
  induction left generalizing done keys machine world with
  | zero =>
      refine ⟨machine, world, rfl, timely, rfl, fun shows typed _ => ?_⟩
      cases typed
      exact shows
  | succ left ih =>
      obtain ⟨cycles, ticked, looks, ran, still, one⟩ := exists_tick timely inTime keys
      have inTime' : ((world.looked looks).takes ticked).around.InTime := by
        rw [World.around_takes]
        exact inTime
      obtain ⟨after, later, rest, last, written, further⟩ :=
        ih (timely_flushed still) inTime' (done + 1) (machine.offerKey keys).1
      refine ⟨after, later, ?_, last, ?_, fun shows typed unasked => ?_⟩
      · rw [runTicks]
        refine (bind_of_ok ran).trans ?_
        dsimp only
        rw [bind_lift, flush_eq, bind_lift, keepPace_eq]
        exact rest
      · rw [written, World.written_takes, World.looked]
      · obtain ⟨handed, offered, first, typed⟩ := exists_of_bind_ok typed
        obtain ⟨reply, reached, ticks, typed⟩ := exists_of_bind_ok typed
        have earlier := unasked.mono (Recording.typed_grows typed).subset
        obtain ⟨rfl, follows⟩ := one shows.follows first ticks earlier
        have printed : (world.looked looks).printed = _ := shows.printed
        exact further (shows_flushed follows printed) typed unasked

end AppleOne.CommandLine
