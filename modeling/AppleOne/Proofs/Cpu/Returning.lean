import AppleOne.Proofs.Cpu.Computer

/-!
Calls return to where they were made. A return that finds the two bytes that a call saved goes on after
the call, whatever was called for in between; calls may be nested 128 deep before they fill page one
(`calls_return`).
-/

namespace AppleOne

open Cpu (stackAddress)

variable {ε σ : Type} [Device (EStateM ε σ)]

namespace Computer

/-- A number of steps. -/
def Steps (ε : Type) [Device (EStateM ε σ)] : Nat → Computer σ → Computer σ → Prop
  | 0, before, after => after = before
  | n + 1, before, after =>
    ∃ cycles between, before.step ε = .ok cycles between ∧ Steps ε n between after

variable {before between after : Computer σ} {cycles m n : Nat}

theorem steps_succ_iff (first : before.step ε = .ok cycles between) :
    Steps ε (n + 1) before after ↔ Steps ε n between after := by
  refine ⟨?_, fun rest => ⟨cycles, between, first, rest⟩⟩
  rintro ⟨_, _, again, rest⟩
  cases first.symm.trans again
  exact rest

theorem steps_one (done : before.step ε = .ok cycles after) : Steps ε 1 before after :=
  ⟨cycles, after, done, rfl⟩

theorem Steps.append (first : Steps ε m before between) (rest : Steps ε n between after) :
    Steps ε (m + n) before after := by
  induction m generalizing before with
  | zero =>
      cases first
      rwa [Nat.zero_add]
  | succ m ih =>
      obtain ⟨cycles, next, done, first⟩ := first
      rw [Nat.add_right_comm]
      exact ⟨cycles, next, done, ih first⟩

theorem Steps.unique {other : Computer σ} (steps : Steps ε n before after)
    (again : Steps ε n before other) : other = after := by
  induction n generalizing before with
  | zero => exact again.trans steps.symm
  | succ n ih =>
      obtain ⟨cycles, next, first, steps⟩ := steps
      exact ih steps ((steps_succ_iff first).mp again)

/-- `n` calls in a row, and then `n` returns. -/
structure Nested (ε : Type) [Device (EStateM ε σ)] (n : Nat) (start : Computer σ) : Prop where
  calls : ∀ k < n, ∀ caller, Steps ε k start caller → caller.Executes ε .jsr
  returns : ∀ k < n, ∀ last, Steps ε (n + k) start last → last.Executes ε .rts

namespace Nested

variable {start called last : Computer σ}

theorem inner (nested : start.Nested ε (n + 1)) (first : start.step ε = .ok cycles called) :
    called.Nested ε n := by
  constructor
  · intro k below caller steps
    exact nested.calls (k + 1) (Nat.succ_lt_succ below) caller ((steps_succ_iff first).mpr steps)
  · intro k below last steps
    refine nested.returns k (Nat.lt_succ_of_lt below) last ?_
    rw [Nat.add_right_comm]
    exact (steps_succ_iff first).mpr steps

/-- When the inner calls have returned, the outer one does. -/
theorem outer (nested : start.Nested ε (n + 1)) (first : start.step ε = .ok cycles called)
    (steps : Steps ε (2 * n) called last) : last.Executes ε .rts := by
  refine nested.returns n n.lt_succ_self last ?_
  rw [Nat.add_right_comm, ← Nat.two_mul]
  exact (steps_succ_iff first).mpr steps

theorem wrap (nested : called.Nested ε n) (call : start.Executes ε .jsr)
    (first : start.step ε = .ok cycles called) (steps : Steps ε (2 * n) called last)
    (ret : last.Executes ε .rts) : start.Nested ε (n + 1) := by
  constructor
  · intro k below caller before
    cases k with
    | zero =>
        cases before
        exact call
    | succ k =>
        exact nested.calls k (Nat.lt_of_succ_lt_succ below) caller ((steps_succ_iff first).mp before)
  · intro k below later before
    rw [Nat.add_right_comm] at before
    replace before := (steps_succ_iff first).mp before
    obtain inside | rfl := Nat.lt_succ_iff_lt_or_eq.mp below
    · exact nested.returns k inside later before
    · rw [← Nat.two_mul] at before
      cases steps.unique before
      exact ret

end Nested

/-- Execution is back behind a call. -/
structure Returned (caller back : Computer σ) : Prop where
  pc : back.cpu.pc = caller.cpu.pc + 3
  sp : back.cpu.sp = caller.cpu.sp

end Computer

namespace StackRam

open Computer (Steps Nested Returned)

variable {ram : StackRam ε σ} {start last : Computer σ}

/-- The return finds what the call saved. -/
theorem exists_back_behind (fit : ram.fit last.memory) (executes : last.Executes ε .rts)
    (sp : last.cpu.sp = start.cpu.sp - 1 - 1)
    (high : ram.shows last.memory (stackAddress start.cpu.sp) = ((start.cpu.pc + 2) >>> 8).toUInt8)
    (low : ram.shows last.memory (stackAddress (start.cpu.sp - 1)) = (start.cpu.pc + 2).toUInt8) :
    ∃ memory,
      last.step ε = .ok 6 ⟨{ last.cpu with
        pc := start.cpu.pc + 3
        sp := start.cpu.sp
        cycles := last.cpu.cycles + 6 }, memory⟩ ∧
      ram.fit memory ∧ ram.shows memory = ram.shows last.memory := by
  have first : last.cpu.sp + 1 + 1 = start.cpu.sp := by rw [sp]; grind
  have second : last.cpu.sp + 1 = start.cpu.sp - 1 := by rw [sp]; grind
  have next : start.cpu.pc + 2 + 1 = start.cpu.pc + 3 := by grind
  obtain ⟨memory, stepped, kept⟩ := exists_returned fit executes
  refine ⟨memory, stepped.trans ?_, kept⟩
  rw [first, second, low, high, wordOf_bytes, Cpu.returned, first, next]
  rfl

/-! ### Nested calls -/

/-- What `n` nested calls do not use of the stack: the distance is counted downwards from its top. -/
def KeepsBelow (ram : StackRam ε σ) (n : Nat) (start last : Computer σ) : Prop :=
  ∀ place, 2 * n ≤ (start.cpu.sp - place).toNat →
    ram.shows last.memory (stackAddress place) = ram.shows start.memory (stackAddress place)

section

variable {called back : Computer σ} {shown : UInt16 → UInt8} {word : UInt16} {n : Nat}

/-- Less than 128 calls inside do not come round to what the call pushed. -/
theorem KeepsBelow.saved (kept : ram.KeepsBelow n called last) (room : n < 128)
    (sp : called.cpu.sp = start.cpu.sp - 1 - 1)
    (pushed : ram.shows called.memory = withWord shown start.cpu.sp word) :
    ram.shows last.memory (stackAddress start.cpu.sp) = (word >>> 8).toUInt8 ∧
      ram.shows last.memory (stackAddress (start.cpu.sp - 1)) = word.toUInt8 := by
  have first : (called.cpu.sp - start.cpu.sp).toNat = 254 := by
    rw [sp, show start.cpu.sp - 1 - 1 - start.cpu.sp = 254 by grind]
    rfl
  have second : (called.cpu.sp - (start.cpu.sp - 1)).toNat = 255 := by
    rw [sp, show start.cpu.sp - 1 - 1 - (start.cpu.sp - 1) = 255 by grind]
    rfl
  rw [kept start.cpu.sp (by omega), kept (start.cpu.sp - 1) (by omega), pushed]
  exact ⟨withWord_high .., withWord_low ..⟩

theorem KeepsBelow.behind (kept : ram.KeepsBelow n called last)
    (sp : called.cpu.sp = start.cpu.sp - 1 - 1)
    (pushed : ram.shows called.memory = withWord shown start.cpu.sp word)
    (stack : ∀ sp, shown (stackAddress sp) = ram.shows start.memory (stackAddress sp))
    (same : ram.shows back.memory = ram.shows last.memory) : ram.KeepsBelow (n + 1) start back := by
  intro place far
  have first : place ≠ start.cpu.sp := by
    rintro rfl
    rw [UInt8.sub_self] at far
    change 2 * (n + 1) ≤ 0 at far
    omega
  have second : place ≠ start.cpu.sp - 1 := by
    rintro rfl
    rw [show start.cpu.sp - (start.cpu.sp - 1) = 1 by grind] at far
    change 2 * (n + 1) ≤ 1 at far
    omega
  have below : (called.cpu.sp - place).toNat = (start.cpu.sp - place).toNat - 2 := by
    have apart : start.cpu.sp - 1 - 1 - place = start.cpu.sp - place - 2 := by grind
    have room : 2 ≤ start.cpu.sp - place := UInt8.le_iff_toNat_le.mpr (by change 2 ≤ _; omega)
    rw [sp, apart, UInt8.toNat_sub_of_le _ _ room]
    rfl
  rw [same, kept place (by omega), pushed, withWord_of_ne _ _ _ _ _, stack]
  · rwa [ne_eq, Cpu.stackAddress_inj]
  · rwa [ne_eq, Cpu.stackAddress_inj]

end

theorem exists_of_nested {n : Nat} (depth : n ≤ 128) (fit : ram.fit start.memory)
    (nested : start.Nested ε n) :
    (∃ last, Steps ε (2 * n) start last ∧ ram.fit last.memory ∧ last.cpu.sp = start.cpu.sp ∧
      ram.KeepsBelow n start last) ∧
    ∀ k < n, ∃ caller back, Steps ε k start caller ∧ Steps ε (2 * n - k) start back ∧
      caller.Returned back := by
  induction n generalizing start with
  | zero => exact ⟨⟨start, rfl, fit, rfl, fun _ _ => rfl⟩, nofun⟩
  | succ n ih =>
      have calls := nested.calls 0 n.succ_pos start rfl
      obtain ⟨target, shown, memory, first, entered, pushed, stack, -⟩ := exists_called fit calls
      obtain ⟨⟨last, steps, fitLast, sp, kept⟩, pairs⟩ := ih (by omega) entered (nested.inner first)
      obtain ⟨high, low⟩ := kept.saved (by omega) rfl pushed
      obtain ⟨back, returned, fitBack, same⟩ :=
        exists_back_behind fitLast (nested.outer first steps) sp high low
      have whole := (Computer.steps_succ_iff first).mpr (steps.append (Computer.steps_one returned))
      refine ⟨⟨_, whole, fitBack, rfl, kept.behind rfl pushed stack same⟩, fun k below => ?_⟩
      cases k with
      | zero => exact ⟨start, _, rfl, whole, rfl, rfl⟩
      | succ k =>
          obtain ⟨caller, back, before, around, returned⟩ := pairs k (by omega)
          have count : 2 * (n + 1) - (k + 1) = 2 * n - k + 1 := by omega
          rw [count]
          exact ⟨caller, back, (Computer.steps_succ_iff first).mpr before,
            (Computer.steps_succ_iff first).mpr around, returned⟩

/-! ### Programs in memory -/

/-- A byte of a program: reading it has no effect, and the stack is elsewhere. -/
structure Holds (ram : StackRam ε σ) (memory : σ) (place : UInt16) (byte : UInt8) : Prop where
  shows : ram.shows memory place = byte
  silent : ram.silent place ∨ byte < 0x80
  apart : ∀ sp, place ≠ stackAddress sp

/-- Calls at the sites, each of the next one, and behind the innermost of them a return for each; they
lead from the first site to the place behind it. -/
inductive Chain (ram : StackRam ε σ) (memory : σ) : List UInt16 → UInt16 → UInt16 → Prop where
  | nil (place : UInt16) : Chain ram memory [] place place
  | cons {sites : List UInt16} {site finish : UInt16} {low high : UInt8} :
      ram.Holds memory site 0x20 → ram.Holds memory (site + 1) low → ram.Holds memory (site + 2) high →
      Chain ram memory sites (wordOf low high) finish → ram.Holds memory finish 0x60 →
      Chain ram memory (site :: sites) site (site + 3)

/-- All that is not on the stack looks the same. -/
def AgreeOffStack (ram : StackRam ε σ) (before after : σ) : Prop :=
  ∀ place, (∀ sp, place ≠ stackAddress sp) → ram.shows after place = ram.shows before place

section

variable {before after : σ} {sites : List UInt16} {site finish : UInt16}

theorem Holds.of_agree {place : UInt16} {byte : UInt8} (holds : ram.Holds before place byte)
    (agree : ram.AgreeOffStack before after) : ram.Holds after place byte :=
  ⟨(agree place holds.apart).trans holds.shows, holds.silent, holds.apart⟩

theorem Chain.of_agree (chain : ram.Chain before sites site finish)
    (agree : ram.AgreeOffStack before after) : ram.Chain after sites site finish := by
  induction chain with
  | nil place => exact .nil place
  | cons opcode low high _ ret ih =>
      exact .cons (opcode.of_agree agree) (low.of_agree agree) (high.of_agree agree) ih
        (ret.of_agree agree)

theorem Holds.executes {computer : Computer σ} {opcode : UInt8} {instruction : Instruction}
    (holds : ram.Holds computer.memory computer.cpu.pc opcode) (fit : ram.fit computer.memory)
    (idle : computer.cpu.due = none) (decoded : decode opcode = some instruction) :
    computer.Executes ε instruction.operation := by
  obtain ⟨after, read, -⟩ := ram.read computer.cpu.pc fit
  rw [holds.shows] at read
  exact ⟨idle, opcode, instruction, after, read, decoded, rfl⟩

end

/-- A call in memory is made, and changes nothing but the stack. -/
theorem exists_called_at {low high : UInt8} (fit : ram.fit start.memory) (idle : start.cpu.due = none)
    (opcode : ram.Holds start.memory start.cpu.pc 0x20)
    (lowByte : ram.Holds start.memory (start.cpu.pc + 1) low)
    (highByte : ram.Holds start.memory (start.cpu.pc + 2) high) :
    start.Executes ε .jsr ∧ ∃ called, start.step ε = .ok 6 called ∧ ram.fit called.memory ∧
      called.cpu.due = none ∧ called.cpu.pc = wordOf low high ∧
      ram.AgreeOffStack start.memory called.memory := by
  have decoded : decode 0x20 = some ⟨.jsr, .absolute, 6⟩ := (decode_eq_lookup _).trans rfl
  have call := opcode.executes fit idle decoded
  obtain ⟨_, _, memory, stepped, entered, pushed, -, quiet⟩ := exists_called fit call
  obtain ⟨rfl, rfl⟩ := quiet (lowByte.shows ▸ lowByte.silent) (highByte.shows ▸ highByte.silent)
  rw [lowByte.shows, highByte.shows] at stepped
  refine ⟨call, _, stepped, entered, idle, rfl, fun place apart => ?_⟩
  rw [pushed, withWord_of_ne _ _ _ (apart _) (apart _)]

theorem nested_of_chain {sites : List UInt16} {finish : UInt16} (fit : ram.fit start.memory)
    (idle : start.cpu.due = none) (chain : ram.Chain start.memory sites start.cpu.pc finish)
    (depth : sites.length ≤ 128) :
    start.Nested ε sites.length ∧
    (∀ k (h : k < sites.length) caller, Steps ε k start caller → caller.cpu.pc = sites[k]) ∧
    ∃ last, Steps ε (2 * sites.length) start last ∧ ram.fit last.memory ∧ last.cpu.due = none ∧
      last.cpu.pc = finish ∧ ram.AgreeOffStack start.memory last.memory := by
  generalize same : start.cpu.pc = place at chain
  induction sites generalizing start place finish with
  | nil =>
      cases chain
      exact ⟨⟨nofun, nofun⟩, nofun, start, rfl, fit, idle, same, fun _ _ => rfl⟩
  | cons site sites ih =>
      obtain _ | ⟨opcode, lowByte, highByte, chain, ret⟩ := chain
      subst same
      obtain ⟨call, called, first, entered, idleCalled, atCallee, agree⟩ :=
        exists_called_at fit idle opcode lowByte highByte
      obtain ⟨inner, sites_eq, last, steps, fitLast, idleLast, arrived, agreeLast⟩ :=
        ih entered idleCalled (Nat.le_of_succ_le depth) _ atCallee (chain.of_agree agree)
      have off : ram.AgreeOffStack start.memory last.memory := fun place apart =>
        (agreeLast place apart).trans (agree place apart)
      have decoded : decode 0x60 = some ⟨.rts, .implied, 6⟩ := (decode_eq_lookup _).trans rfl
      have executes := (arrived ▸ ret.of_agree off).executes fitLast idleLast decoded
      have nested := inner.wrap call first steps executes
      -- Where the return goes is known from nested calls in general.
      obtain ⟨-, pairs⟩ := exists_of_nested depth fit nested
      obtain ⟨_, back, rfl, whole, behind⟩ := pairs 0 sites.length.succ_pos
      obtain ⟨_, returned, fitBack, sameBack⟩ := exists_returned fitLast executes
      have again := (Computer.steps_succ_iff first).mpr (steps.append (Computer.steps_one returned))
      cases whole.unique again
      refine ⟨nested, ?_, _, whole, fitBack, idleLast, behind.pc, fun place apart => ?_⟩
      · intro k below caller before
        cases k with
        | zero =>
            cases before
            rfl
        | succ k =>
            exact sites_eq k (Nat.lt_of_succ_lt_succ below) caller
              ((Computer.steps_succ_iff first).mp before)
      · exact (congrFun sameBack place).trans (off place apart)

/-- How calls return. -/
structure CallsReturn (ram : StackRam ε σ) : Prop where
  /-- After a call anything may be called for. When a return is due with the stack pointer where it was
  after the call, and with the two bytes that were saved, the program goes on behind the call. -/
  single : ∀ start : Computer σ, ram.fit start.memory → start.Executes ε .jsr →
    ∃ called, start.step ε = .ok 6 called ∧ called.cpu.sp = start.cpu.sp - 2 ∧
      ∀ calls accesses last, called.Runs ε calls accesses last → last.Executes ε .rts →
        last.cpu.sp = called.cpu.sp →
        (∀ n < 2, ram.Spares accesses called last (start.cpu.sp - n)) →
        ∃ back, last.step ε = .ok 6 back ∧ start.Returned back
  /-- Calls in a row, followed by as many returns, are returned from in reverse order. -/
  nested : ∀ n ≤ 128, ∀ start : Computer σ, ram.fit start.memory → start.Nested ε n → ∀ k < n,
    ∃ caller back, Steps ε k start caller ∧ Steps ε (2 * n - k) start back ∧ caller.Returned back
  /-- That is what a processor does which finds such calls and returns outside page one. -/
  chain : ∀ (sites : List UInt16) (finish : UInt16) (start : Computer σ), sites.length ≤ 128 →
    ram.fit start.memory → start.cpu.due = none →
    ram.Chain start.memory sites start.cpu.pc finish →
    start.Nested ε sites.length ∧ ∀ k (h : k < sites.length), ∃ caller back,
      Steps ε k start caller ∧ Steps ε (2 * sites.length - k) start back ∧
      caller.cpu.pc = sites[k] ∧ caller.Returned back

theorem callsReturn (ram : StackRam ε σ) : ram.CallsReturn where
  single start fit executes := by
    obtain ⟨target, shown, memory, stepped, entered, pushed, -⟩ := exists_called fit executes
    have depth : start.cpu.sp - 1 - 1 = start.cpu.sp - 2 := by grind
    refine ⟨_, stepped, depth, fun calls accesses last runs executes sp spares => ?_⟩
    have high := (spares 0 (by decide)).shows_eq runs entered
    have low := (spares 1 (by decide)).shows_eq runs entered
    rw [UInt8.sub_zero, pushed, withWord_high] at high
    rw [pushed, withWord_low] at low
    obtain ⟨back, returned, -⟩ :=
      exists_back_behind (spared_of_runs runs entered).1 executes sp high low
    exact ⟨_, returned, rfl, rfl⟩
  nested _ depth _ fit nested := (exists_of_nested depth fit nested).2
  chain sites finish start depth fit idle chain := by
    obtain ⟨nested, sites_eq, -⟩ := nested_of_chain fit idle chain depth
    refine ⟨nested, fun k below => ?_⟩
    obtain ⟨caller, back, before, after, returned⟩ := (exists_of_nested depth fit nested).2 k below
    exact ⟨caller, back, before, after, sites_eq k below caller before, returned⟩

end StackRam

/-- Calls return on flat memory, and on the board if its RAM has a page one. -/
theorem calls_return : (∀ ε, (Memory.stackRam ε).CallsReturn) ∧ Board.stackRam.CallsReturn :=
  ⟨fun ε => (Memory.stackRam ε).callsReturn, Board.stackRam.callsReturn⟩

/-- Two calls whose addresses go around the end of page one. Both lead to the same return. -/
theorem calls_return_twice :
    let memory := Memory.zero.write 0x8000 [0x20, 0x03, 0x80, 0x20, 0x06, 0x80, 0x60]
    let start : Computer Memory := ⟨{ Cpu.initial with pc := 0x8000, sp := 1 }, memory⟩
    start.Nested Empty 2 ∧ ∃ inner behindInner behind,
      start.Steps Empty 1 inner ∧ start.Steps Empty 3 behindInner ∧ start.Steps Empty 4 behind ∧
      behindInner.cpu.pc = 0x8006 ∧ behindInner.cpu.sp = inner.cpu.sp ∧
      behind.cpu.pc = 0x8003 ∧ behind.cpu.sp = 1 := by
  intro memory start
  have holds : ∀ place byte, memory.get place = byte → 0x8000 ≤ place →
      (Memory.stackRam Empty).Holds memory place byte := fun place byte shows high => by
    refine ⟨shows, .inl trivial, fun sp same => ?_⟩
    have low := Cpu.stackAddress_lt sp
    have : 0x8000 ≤ place.toNat := UInt16.le_iff_toNat_le.mp high
    rw [← same] at low
    omega
  have inner : (Memory.stackRam Empty).Chain memory [0x8003] (wordOf 0x03 0x80) 0x8006 := by
    refine .cons (holds 0x8003 0x20 ?_ ?_) (holds 0x8004 0x06 ?_ ?_) (holds 0x8005 0x80 ?_ ?_)
      (.nil (wordOf 0x06 0x80)) (holds 0x8006 0x60 ?_ ?_)
    all_goals simp [memory, Memory.write, Memory.get_set]
  have chain : (Memory.stackRam Empty).Chain memory [0x8000, 0x8003] start.cpu.pc 0x8003 := by
    refine .cons (holds 0x8000 0x20 ?_ ?_) (holds 0x8001 0x03 ?_ ?_) (holds 0x8002 0x80 ?_ ?_)
      inner (holds 0x8006 0x60 ?_ ?_)
    all_goals simp [memory, Memory.write, Memory.get_set]
  obtain ⟨nested, pairs⟩ := (calls_return.1 Empty).chain [0x8000, 0x8003] 0x8003 start (by decide)
    trivial rfl chain
  obtain ⟨_, behind, rfl, whole, -, returned⟩ := pairs 0 (by decide)
  obtain ⟨caller, behindInner, before, around, site, returnedInner⟩ := pairs 1 (by decide)
  refine ⟨nested, caller, behindInner, behind, before, around, whole, ?_, returnedInner.sp,
    returned.pc, returned.sp⟩
  rw [returnedInner.pc, site]
  rfl

end AppleOne
