import AppleOne.Proofs.Cpu.Cycles
import AppleOne.Proofs.Machine.Firmware
import AppleOne.Proofs.Machine.Reachable

/-!
Running for a budget of cycles: the machine makes just as many steps as it takes to use the budget up,
and how a budget is cut into pieces does not show.
-/

namespace AppleOne.Machine

/-! ### Steps one after the other -/

section

variable {machine between after other : Machine} {steps cycles : Nat}

theorem step_counts (stepped : step machine = .ok cycles after) :
    2 ≤ cycles ∧ cycles ≤ 7 ∧ after.cpu.cycles = machine.cpu.cycles + UInt64.ofNat cycles := by
  obtain ⟨cpu, config, board⟩ := machine
  rw [step, perform] at stepped
  cases done : (cpu.step.perform : EStateM Fault Board (Nat × Cpu)) board with
  | ok result board =>
      rw [done] at stepped
      cases stepped
      obtain ⟨answer, replayed⟩ := Transaction.exists_replay_of_perform done
      obtain ⟨-, counts⟩ := cpu.replay_step_cycles answer
      rw [replayed] at counts
      exact counts
  | error fault board =>
      rw [done] at stepped
      cases stepped

theorem Runs.unique {cycles' : Nat} (runs : Runs machine steps cycles after)
    (again : Runs machine steps cycles' other) : cycles = cycles' ∧ after = other := by
  induction runs generalizing cycles' with
  | refl machine =>
      cases again
      exact ⟨rfl, rfl⟩
  | head stepped _ ih =>
      cases again with
      | head stepped' rest =>
          cases stepped.symm.trans stepped'
          obtain ⟨rfl, rfl⟩ := ih rest
          exact ⟨rfl, rfl⟩

theorem Runs.append {steps' cycles' : Nat} (runs : Runs machine steps cycles between)
    (rest : Runs between steps' cycles' after) :
    Runs machine (steps + steps') (cycles + cycles') after := by
  induction runs with
  | refl machine => simpa using rest
  | @head _ _ _ first steps cycles stepped _ ih =>
      rw [Nat.add_right_comm, Nat.add_assoc first]
      exact .head stepped (ih rest)

/-- Every step takes at least two cycles. -/
theorem Runs.two_mul_le (runs : Runs machine steps cycles after) : 2 * steps ≤ cycles := by
  induction runs with
  | refl machine => exact Nat.zero_le _
  | head stepped _ ih =>
      have least := (step_counts stepped).1
      omega

theorem Runs.counts (runs : Runs machine steps cycles after) :
    after.cpu.cycles = machine.cpu.cycles + UInt64.ofNat cycles := by
  induction runs with
  | refl machine => simp
  | head stepped _ ih =>
      rw [ih, (step_counts stepped).2.2, UInt64.ofNat_add, UInt64.add_assoc]

theorem Runs.exists_prefix (runs : Runs machine steps cycles after) {fewer : Nat}
    (fewer_le : fewer ≤ steps) :
    ∃ first rest between, Runs machine fewer first between ∧
      Runs between (steps - fewer) rest after ∧ cycles = first + rest := by
  induction fewer generalizing machine steps cycles with
  | zero => exact ⟨0, cycles, machine, .refl machine, runs, (Nat.zero_add _).symm⟩
  | succ fewer ih =>
      cases runs with
      | refl => omega
      | @head _ next _ cost steps rest stepped runs =>
          obtain ⟨first, rest, between, begun, ended, rfl⟩ := ih runs (by omega)
          refine ⟨cost + first, rest, between, .head stepped begun, ?_, by omega⟩
          rw [show steps + 1 - (fewer + 1) = steps - fewer by omega]
          exact ended

end

/-! ### Using up a budget -/

/-- So many steps use up the budget, and no fewer do. -/
structure Spends (machine : Machine) (budget steps cycles : Nat) (after : Machine) : Prop where
  runs : Runs machine steps cycles after
  enough : budget ≤ cycles
  least : ∀ fewer < steps, ∃ short between, Runs machine fewer short between ∧ short < budget

/-- A step meets a fault before the budget is used up. -/
def Stops (machine : Machine) (budget : Nat) (fault : Fault) (after : Machine) : Prop :=
  ∃ steps cycles before, Runs machine steps cycles before ∧ cycles < budget ∧
    step before = .error fault after

section

variable {machine between after : Machine} {budget steps cycles first : Nat} {fault : Fault}

theorem Spends.head (stepped : step machine = .ok first between) (positive : 0 < budget)
    (rest : Spends between (budget - first) steps cycles after) :
    Spends machine budget (steps + 1) (first + cycles) after where
  runs := .head stepped rest.runs
  enough := by
    have enough := rest.enough
    omega
  least fewer less := by
    cases fewer with
    | zero => exact ⟨0, machine, .refl machine, positive⟩
    | succ fewer =>
        obtain ⟨short, middle, runs, below⟩ := rest.least fewer (by omega)
        exact ⟨first + short, middle, .head stepped runs, by omega⟩

theorem Stops.head (stepped : step machine = .ok first between)
    (rest : Stops between (budget - first) fault after) : Stops machine budget fault after := by
  obtain ⟨steps, cycles, before, runs, below, failed⟩ := rest
  exact ⟨steps + 1, first + cycles, before, .head stepped runs, by omega, failed⟩

theorem Spends.unique {steps' cycles' : Nat} {other : Machine}
    (spends : Spends machine budget steps cycles after)
    (again : Spends machine budget steps' cycles' other) :
    steps = steps' ∧ cycles = cycles' ∧ after = other := by
  have same : steps = steps' := by
    rcases Nat.lt_trichotomy steps steps' with less | same | more
    · obtain ⟨short, middle, runs, below⟩ := again.least steps less
      have enough := spends.enough
      have same := (spends.runs.unique runs).1
      omega
    · exact same
    · obtain ⟨short, middle, runs, below⟩ := spends.least steps' more
      have enough := again.enough
      have same := (again.runs.unique runs).1
      omega
  subst same
  exact ⟨rfl, spends.runs.unique again.runs⟩

theorem Stops.not_spends (stops : Stops machine budget fault after) {other : Machine} :
    ¬Spends machine budget steps cycles other := by
  obtain ⟨stepsBefore, cyclesBefore, before, runs, below, failed⟩ := stops
  intro spends
  rcases Nat.lt_or_ge stepsBefore steps with less | more
  · obtain ⟨_, _, middle, begun, rest, -⟩ := spends.runs.exists_prefix (Nat.le_of_lt less)
    obtain ⟨-, rfl⟩ := runs.unique begun
    generalize left : steps - stepsBefore = more at rest
    cases rest with
    | refl => omega
    | head stepped _ => cases failed.symm.trans stepped
  · obtain ⟨short, _, middle, begun, rest, rfl⟩ := runs.exists_prefix more
    have same := (begun.unique spends.runs).1
    have enough := spends.enough
    omega

end

/-! ### The loop -/

variable {machine between after : Machine} {budget : Nat}

/-- The loop goes on just until the budget is used up. It counts no further than it can, which does not
make it longer, as the budget is no larger. -/
theorem repeatWithin_cases (most : budget ≤ maxCount) (machine : Machine) (fuel executed : Nat)
    (fuelled : budget ≤ executed + fuel) (small : executed ≤ maxCount) :
    (∃ steps cycles after, Spends machine (budget - executed) steps cycles after ∧
      repeatWithin step fuel budget executed machine = .ok (min maxCount (executed + cycles)) after) ∨
    ∃ fault after, Stops machine (budget - executed) fault after ∧
      repeatWithin step fuel budget executed machine = .error fault after := by
  induction fuel generalizing machine executed with
  | zero =>
      refine .inl ⟨0, 0, machine, ⟨.refl machine, by omega, nofun⟩, ?_⟩
      rw [Nat.add_zero, Nat.min_eq_right small]
      rfl
  | succ fuel ih =>
      rw [repeatWithin]
      by_cases more : executed < budget
      · rw [if_pos more]
        simp only [bind, EStateM.bind]
        cases stepped : step machine with
        | error fault after =>
            exact .inr ⟨fault, after, ⟨0, 0, machine, .refl machine, by omega, stepped⟩, rfl⟩
        | ok first between =>
            have positive := (step_counts stepped).1
            have rest : budget - min maxCount (executed + first) = budget - executed - first := by omega
            rcases ih between (min maxCount (executed + first)) (by omega) (by omega) with
              ⟨steps, cycles, after, spends, done⟩ | ⟨fault, after, stops, done⟩
            · rw [rest] at spends
              have sum : min maxCount (min maxCount (executed + first) + cycles) =
                  min maxCount (executed + (first + cycles)) := by omega
              rw [sum] at done
              exact .inl ⟨_, _, after, spends.head stepped (by omega), done⟩
            · rw [rest] at stops
              exact .inr ⟨fault, after, stops.head stepped, done⟩
      · rw [if_neg more]
        refine .inl ⟨0, 0, machine, ⟨.refl machine, by omega, nofun⟩, ?_⟩
        rw [Nat.add_zero, Nat.min_eq_right small]
        rfl

theorem runCycles_cases (machine : Machine) (budget : UInt32) :
    (∃ steps cycles after, Spends machine budget.toNat steps cycles after ∧
      runCycles budget machine = .ok (min maxCount cycles) after) ∨
    ∃ fault after, Stops machine budget.toNat fault after ∧
      runCycles budget machine = .error fault after := by
  have most : budget.toNat ≤ maxCount := by
    have bound := budget.toNat_lt
    unfold maxCount
    omega
  have cases := repeatWithin_cases most machine budget.toNat 0 (Nat.le_of_eq (Nat.zero_add _).symm)
    (Nat.zero_le _)
  simp only [Nat.zero_add, Nat.sub_zero] at cases
  exact cases

theorem runCycles_of_spends {budget : UInt32} {steps cycles : Nat}
    (spends : Spends machine budget.toNat steps cycles after) :
    runCycles budget machine = .ok (min maxCount cycles) after := by
  rcases runCycles_cases machine budget with ⟨_, _, _, again, done⟩ | ⟨fault, _, stops, -⟩
  · obtain ⟨-, rfl, rfl⟩ := spends.unique again
    exact done
  · exact absurd spends stops.not_spends

theorem exists_spends {budget : UInt32} {result : Nat} (done : runCycles budget machine = .ok result after) :
    ∃ steps cycles, Spends machine budget.toNat steps cycles after ∧ result = min maxCount cycles := by
  rcases runCycles_cases machine budget with ⟨steps, cycles, other, spends, again⟩ | ⟨fault, _, -, failed⟩
  · cases done.symm.trans again
    exact ⟨steps, cycles, spends, rfl⟩
  · cases done.symm.trans failed

/-! ### How far a run goes -/

section

variable {steps cycles : Nat}

/-- Only the last step runs over, by less than it takes. -/
theorem Spends.le (spends : Spends machine budget steps cycles after) : cycles ≤ budget + 6 := by
  cases steps with
  | zero =>
      cases spends.runs
      exact Nat.zero_le _
  | succ steps =>
      obtain ⟨short, _, runs, below⟩ := spends.least steps (Nat.lt_succ_self steps)
      obtain ⟨first, last, middle, begun, ended, rfl⟩ := spends.runs.exists_prefix (Nat.le_succ steps)
      obtain ⟨rfl, rfl⟩ := runs.unique begun
      rw [show steps + 1 - steps = 1 by omega] at ended
      cases ended with
      | head stepped rest =>
          cases rest
          have most := (step_counts stepped).2.1
          omega

theorem Spends.steps_eq_zero_iff (spends : Spends machine budget steps cycles after) :
    steps = 0 ↔ budget = 0 := by
  constructor
  · rintro rfl
    have enough := spends.enough
    cases spends.runs
    exact Nat.le_zero.mp enough
  · rintro rfl
    refine Nat.eq_zero_of_not_pos fun some => ?_
    obtain ⟨short, _, -, below⟩ := spends.least 0 some
    exact absurd below (Nat.not_lt_zero short)

/-- A run and one that goes on where it stopped are one run, whose budget is what the first took and the
budget of the second. -/
theorem Spends.append {rest steps' cycles' : Nat} (spends : Spends machine budget steps cycles between)
    (further : Spends between rest steps' cycles' after) :
    Spends machine (cycles + rest) (steps + steps') (cycles + cycles') after where
  runs := spends.runs.append further.runs
  enough := Nat.add_le_add_left further.enough cycles
  least fewer less := by
    rcases Nat.lt_or_ge fewer steps with inFirst | inSecond
    · obtain ⟨short, left, middle, begun, ended, rfl⟩ :=
        spends.runs.exists_prefix (Nat.le_of_lt inFirst)
      have some := ended.two_mul_le
      exact ⟨short, middle, begun, by omega⟩
    · obtain ⟨short, middle, runs, below⟩ := further.least (fewer - steps) (by omega)
      have whole := spends.runs.append runs
      rw [show steps + (fewer - steps) = fewer by omega] at whole
      exact ⟨cycles + short, middle, whole, by omega⟩

end

/-- A run of so many steps whose cycles can all be counted, and add up to the result. -/
structure Counts (machine : Machine) (budget : UInt32) (steps result : Nat) (after : Machine) : Prop where
  spends : Spends machine budget.toNat steps result after
  countable : ∀ fewer sum between, fewer ≤ steps → Runs machine fewer sum between → sum ≤ 0xFFFFFFFF
  nothing : budget = 0 → steps = 0 ∧ result = 0
  enough : budget.toNat ≤ result
  overrun : result ≤ budget.toNat + 6
  counter : after.cpu.cycles = machine.cpu.cycles + UInt64.ofNat result

theorem Spends.counts {budget : UInt32} {steps cycles : Nat} (within : budget ≤ maxTickBudget)
    (spends : Spends machine budget.toNat steps cycles after) :
    Counts machine budget steps cycles after := by
  have most : budget.toNat ≤ 4294967288 := UInt32.le_iff_toNat_le.mp within
  have overrun := spends.le
  refine ⟨spends, fun fewer sum between less runs => ?_, fun nothing => ?_, spends.enough, overrun,
    spends.runs.counts⟩
  · obtain ⟨_, _, _, begun, -, rfl⟩ := spends.runs.exists_prefix less
    obtain ⟨rfl, -⟩ := runs.unique begun
    omega
  · obtain rfl := spends.steps_eq_zero_iff.mpr (congrArg UInt32.toNat nothing)
    cases spends.runs
    exact ⟨rfl, rfl⟩

/-- However large the budget, the machine makes just the steps that use it up, or the run ends with the
first step that meets the end of time. Up to the largest budget of a tick nothing is lost in counting,
and a run in two pieces is one run. -/
theorem runCycles_spends (machine : Machine) :
    (∀ budget : UInt32,
      (∃ steps cycles after, Spends machine budget.toNat steps cycles after ∧
        runCycles budget machine = .ok (min cycles 0xFFFFFFFF) after ∧
        (budget ≤ maxTickBudget → runCycles budget machine = .ok cycles after ∧
          Counts machine budget steps cycles after)) ∨
      ∃ after, Stops machine budget.toNat .endOfTime after ∧
        runCycles budget machine = .error .endOfTime after) ∧
    (∀ (first second : UInt32) (taken further : Nat) (between after : Machine),
      runCycles first machine = .ok taken between → runCycles second between = .ok further after →
      taken + second.toNat ≤ maxTickBudget.toNat →
      runCycles (UInt32.ofNat (taken + second.toNat)) machine = .ok (taken + further) after) ∧
    (∀ roms terminal journal start, build machine.config roms terminal journal = .ok start →
      tick machine = runCycles machine.config.cyclesPerTick machine ∧
      machine.config.cyclesPerTick ≤ maxTickBudget ∧
      ∀ steps cycles after, Spends machine machine.config.cyclesPerTick.toNat steps cycles after →
        1 ≤ steps) := by
  refine ⟨fun budget => ?_, ?_, ?_⟩
  · rcases runCycles_cases machine budget with ⟨steps, cycles, after, spends, done⟩ | stops
    · refine .inl ⟨steps, cycles, after, spends, Nat.min_comm .. ▸ done, fun within => ?_⟩
      have counts := spends.counts within
      have few : cycles ≤ maxCount := counts.countable steps cycles after (Nat.le_refl _) spends.runs
      exact ⟨done.trans (by rw [Nat.min_eq_right few]), counts⟩
    · obtain ⟨⟨⟩, after, stops, failed⟩ := stops
      exact .inr ⟨after, stops, failed⟩
  · intro first second taken further between after begun ended within
    have most : maxTickBudget.toNat = 4294967288 := rfl
    obtain ⟨steps, cycles, spends, rfl⟩ := exists_spends begun
    obtain ⟨steps', cycles', spends', rfl⟩ := exists_spends ended
    have overrun := spends'.le
    unfold maxCount at within ⊢
    -- Neither of the sums has reached the end of counting.
    have few : min 0xFFFFFFFF cycles = cycles := by omega
    have few' : min 0xFFFFFFFF cycles' = cycles' := by omega
    rw [few] at within ⊢
    have sum : (UInt32.ofNat (cycles + second.toNat)).toNat = cycles + second.toNat :=
      UInt32.toNat_ofNat_of_lt' (by change _ < 4294967296; omega)
    have whole := spends.append spends'
    rw [← sum] at whole
    rw [runCycles_of_spends whole, few']
    congr 1
    unfold maxCount
    omega
  · intro roms terminal journal start built
    obtain ⟨positive, most, -, -⟩ := build_eq_ok_iff.mp built
    refine ⟨rfl, most, fun steps cycles after spends => Nat.pos_of_ne_zero fun none => positive ?_⟩
    exact UInt32.toNat_inj.mp (spends.steps_eq_zero_iff.mp none)

/-! ### A loop of one jump -/

section

variable {config : Config} {board : Board}

theorem At.runs_jump (here : At config board 0xFF00 machine) (room : board.ram.size ≤ Board.maxRam)
    (code : board.roms.Holds 0xFF00 [0x4C, 0x00, 0xFF]) (steps : Nat) :
    ∃ after, Runs machine steps (3 * steps) after ∧ At config board 0xFF00 after := by
  induction steps generalizing machine with
  | zero => exact ⟨machine, .refl machine, here⟩
  | succ steps ih =>
      have stepped := here.jump room code decoded_jmp rfl
      have target : wordOf 0x00 0xFF = 0xFF00 := by decide
      rw [target] at stepped
      have again : At config board 0xFF00 ⟨(machine.cpu.jumped 0xFF00).counted 3, config, board⟩ :=
        ⟨rfl, rfl, rfl, here.nmiPending, here.irqLine⟩
      obtain ⟨after, runs, there⟩ := ih again
      refine ⟨after, ?_, there⟩
      rw [Nat.mul_succ, Nat.add_comm (3 * steps)]
      exact .head stepped runs

theorem At.spends_jump (here : At config board 0xFF00 machine) (room : board.ram.size ≤ Board.maxRam)
    (code : board.roms.Holds 0xFF00 [0x4C, 0x00, 0xFF]) (budget : Nat) :
    ∃ after, Spends machine budget ((budget + 2) / 3) (3 * ((budget + 2) / 3)) after ∧
      At config board 0xFF00 after := by
  obtain ⟨after, runs, there⟩ := here.runs_jump room code ((budget + 2) / 3)
  refine ⟨after, ⟨runs, by omega, fun fewer less => ?_⟩, there⟩
  obtain ⟨between, runs, -⟩ := here.runs_jump room code fewer
  exact ⟨3 * fewer, between, runs, by omega⟩

end

/-- A jump at the start of the monitor, back to itself. -/
def jumpRoms : Roms where
  monitor := ⟨([0x4C, 0x00, 0xFF] ++ .replicate 253 0).toArray, by
    rw [List.size_toArray, List.length_append, List.length_replicate]
    rfl⟩
  basic := .replicate 4096 0

theorem exists_jumping :
    ∃ start board, build ⟨0, 10, true⟩ jumpRoms .recorder .initial = .ok start ∧
      At ⟨0, 10, true⟩ board 0xFF00 start ∧ board.ram.size ≤ Board.maxRam ∧
      board.roms.Holds 0xFF00 [0x4C, 0x00, 0xFF] := by
  have built : build ⟨0, 10, true⟩ jumpRoms .recorder .initial =
      .ok (switchedOn ⟨0, 10, true⟩ jumpRoms .recorder .initial).reset :=
    build_eq_ok_iff.mpr ⟨by decide, by decide, by decide, rfl⟩
  have room : (switchedOn ⟨0, 10, true⟩ jumpRoms .recorder .initial).board.ram.size ≤ Board.maxRam := by
    rw [switchedOn, Array.size_replicate]
    decide
  have code : jumpRoms.Holds 0xFF00 [0x4C, 0x00, 0xFF] :=
    Roms.holds_monitor 0 (by decide) ⟨.replicate 253 0, rfl⟩
  rw [reset_eq_restarted room] at built
  exact ⟨_, _, built, ⟨rfl, rfl, rfl, rfl, rfl⟩, room, code⟩

/-- Two ticks of ten cycles each take four jumps, as one run for the first twelve and ten more does. -/
theorem runCycles_spends_jump :
    ∃ start between after, build ⟨0, 10, true⟩ jumpRoms .recorder .initial = .ok start ∧
      tick start = .ok 12 between ∧ Counts start 10 4 12 between ∧ runCycles 10 between = .ok 12 after ∧
      12 + (10 : UInt32).toNat ≤ maxTickBudget.toNat ∧ runCycles 22 start = .ok (12 + 12) after := by
  obtain ⟨start, board, built, here, room, code⟩ := exists_jumping
  obtain ⟨between, spends, there⟩ := here.spends_jump room code (10 : UInt32).toNat
  obtain ⟨after, spends', -⟩ := there.spends_jump room code (10 : UInt32).toNat
  have first : runCycles 10 start = .ok 12 between := runCycles_of_spends spends
  have second : runCycles 10 between = .ok 12 after := runCycles_of_spends spends'
  have within : 12 + (10 : UInt32).toNat ≤ maxTickBudget.toNat := by decide
  obtain ⟨runs, pieces, ticks⟩ := runCycles_spends start
  rw [← here.config] at built
  obtain ⟨tick_eq, -, -⟩ := ticks _ _ _ _ built
  rw [here.config] at built tick_eq
  refine ⟨start, between, after, built, tick_eq.trans first, ?_, second, within,
    pieces 10 10 12 12 between after first second within⟩
  rcases runs 10 with ⟨steps, cycles, last, again, -, counts⟩ | ⟨last, stops, -⟩
  · obtain ⟨rfl, rfl, rfl⟩ := spends.unique again
    exact (counts (by decide)).2
  · exact absurd spends stops.not_spends

end AppleOne.Machine
