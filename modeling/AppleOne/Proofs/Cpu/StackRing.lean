import AppleOne.Proofs.Bus.StackRam
import Mathlib.Data.List.Nodup

/-!
The stack's page as a ring. Up to 256 bytes that were pushed come back in the opposite order, wherever the
stack pointer stands and however it wraps around.
-/

namespace AppleOne

open Cpu (stackAddress)

inductive StackDeed where
  | push (value : UInt8)
  | pull
  deriving DecidableEq

namespace StackDeed

/-- Deeds on the processor's stack; the result has the bytes that were pulled. -/
def run (cpu : Cpu) : List StackDeed → Transaction (List UInt8 × Cpu)
  | [] => return ([], cpu)
  | push value :: rest => do
    let cpu ← cpu.pushByte value
    run cpu rest
  | pull :: rest => do
    let (value, cpu) ← cpu.pullByte
    let (values, cpu) ← run cpu rest
    return (value :: values, cpu)

/-- Deeds on a stack without a place in memory: the bytes that were pulled, and the stack in the end. -/
def onList : List UInt8 → List StackDeed → Option (List UInt8 × List UInt8)
  | stack, [] => some ([], stack)
  | stack, push value :: rest => onList (value :: stack) rest
  | [], pull :: _ => none
  | value :: stack, pull :: rest =>
    (onList stack rest).map fun (values, left) => (value :: values, left)

def outstanding (deeds : List StackDeed) : Int := deeds.countP (· ≠ pull) - deeds.count pull

/-- Nothing is pulled that was not pushed, and the page is not overrun. -/
def Bounded (deeds : List StackDeed) : Prop :=
  ∀ before, before <+: deeds → 0 ≤ outstanding before ∧ outstanding before ≤ 256

/-- The accesses of deeds on a stack in memory whose bytes are those of a list. -/
def accesses : UInt8 → List UInt8 → List StackDeed → List Access
  | _, _, [] => []
  | sp, stack, push value :: rest =>
    .write (stackAddress sp) value :: accesses (sp - 1) (value :: stack) rest
  | _, [], pull :: _ => []
  | sp, value :: stack, pull :: rest =>
    .read (stackAddress (sp + 1)) value :: accesses (sp + 1) stack rest

/-! ### One deed -/

/-- The bytes of a stack stand behind the stack pointer, the topmost first. -/
def Holds (shown : UInt16 → UInt8) (sp : UInt8) (stack : List UInt8) : Prop :=
  ∀ i (inside : i < stack.length), shown (stackAddress (sp + UInt8.ofNat (i + 1))) = stack[i]

variable {shown : UInt16 → UInt8} {sp value : UInt8} {stack : List UInt8}

theorem ofNat_succ (i : Nat) : UInt8.ofNat (i + 1) = UInt8.ofNat i + 1 := by
  rw [UInt8.ofNat_add]
  rfl

theorem ofNat_inj {i j : Nat} (small : i < 256) (small' : j < 256) (same : UInt8.ofNat i = UInt8.ofNat j) :
    i = j := by
  have equal := congrArg UInt8.toNat same
  rwa [UInt8.toNat_ofNat', UInt8.toNat_ofNat', Nat.mod_eq_of_lt small, Nat.mod_eq_of_lt small'] at equal

theorem Holds.push (holds : Holds shown sp stack) (room : stack.length < 256) (value : UInt8) :
    Holds (withByte shown (stackAddress sp) value) (sp - 1) (value :: stack) := by
  intro i inside
  cases i with
  | zero =>
      have top : sp - 1 + UInt8.ofNat (0 + 1) = sp := by grind
      rw [top, withByte_self]
      rfl
  | succ i =>
      have below : i + 1 < 256 := Nat.lt_of_le_of_lt (Nat.le_of_lt_succ inside) room
      have place : sp - 1 + UInt8.ofNat (i + 1 + 1) = sp + UInt8.ofNat (i + 1) := by
        rw [ofNat_succ (i + 1)]
        grind
      have other : stackAddress (sp + UInt8.ofNat (i + 1)) ≠ stackAddress sp := by
        rw [ne_eq, Cpu.stackAddress_inj]
        intro same
        have none : UInt8.ofNat (i + 1) = UInt8.ofNat 0 := by grind
        exact absurd (ofNat_inj below (by decide) none) (Nat.succ_ne_zero i)
      rw [place, withByte_of_ne _ _ other, holds i (Nat.lt_of_succ_lt_succ inside)]
      rfl

theorem Holds.head (holds : Holds shown sp (value :: stack)) : shown (stackAddress (sp + 1)) = value :=
  holds 0 (Nat.succ_pos _)

theorem Holds.tail (holds : Holds shown sp (value :: stack)) : Holds shown (sp + 1) stack := by
  intro i inside
  have place : sp + 1 + UInt8.ofNat (i + 1) = sp + UInt8.ofNat (i + 1 + 1) := by
    rw [ofNat_succ (i + 1)]
    grind
  rw [place, holds (i + 1) (Nat.succ_lt_succ inside)]
  rfl

theorem outstanding_push (value : UInt8) (deeds : List StackDeed) :
    outstanding (push value :: deeds) = outstanding deeds + 1 := by
  simp [outstanding]
  omega

theorem outstanding_pull (deeds : List StackDeed) : outstanding (pull :: deeds) = outstanding deeds - 1 := by
  simp [outstanding]
  omega

/-- Between nothing and a page of bytes in front of each deed, `height` bytes standing there before. -/
def Within (height : Nat) (deeds : List StackDeed) : Prop :=
  ∀ before, before <+: deeds → 0 ≤ height + outstanding before ∧ height + outstanding before ≤ 256

variable {deeds : List StackDeed}

theorem within_nil {height : Nat} : Within height [] ↔ height ≤ 256 := by
  have none : outstanding [] = 0 := rfl
  constructor
  · intro within
    have := within [] List.nil_prefix
    omega
  · intro fits before first
    rw [List.prefix_nil.mp first]
    omega

theorem within_push {height : Nat} :
    Within height (push value :: deeds) ↔ height < 256 ∧ Within (height + 1) deeds := by
  have none : outstanding [] = 0 := rfl
  constructor
  · intro within
    have after : Within (height + 1) deeds := by
      intro before first
      have shifted := within (push value :: before) (List.cons_prefix_cons.mpr ⟨rfl, first⟩)
      rw [outstanding_push] at shifted
      omega
    have := after [] List.nil_prefix
    exact ⟨by omega, after⟩
  · rintro ⟨room, within⟩ before first
    rcases List.prefix_cons_iff.mp first with rfl | ⟨later, rfl, second⟩
    · omega
    · have shifted := within later second
      rw [outstanding_push]
      omega

theorem within_pull {height : Nat} :
    Within (height + 1) (pull :: deeds) ↔ height < 256 ∧ Within height deeds := by
  have none : outstanding [] = 0 := rfl
  constructor
  · intro within
    have start := within [] List.nil_prefix
    refine ⟨by omega, fun before first => ?_⟩
    have shifted := within (pull :: before) (List.cons_prefix_cons.mpr ⟨rfl, first⟩)
    rw [outstanding_pull] at shifted
    omega
  · rintro ⟨room, within⟩ before first
    rcases List.prefix_cons_iff.mp first with rfl | ⟨later, rfl, second⟩
    · omega
    · have shifted := within later second
      rw [outstanding_pull]
      omega

theorem not_within_pull : ¬Within 0 (pull :: deeds) := by
  intro within
  have once : outstanding [pull] = -1 := rfl
  have := within [pull] (List.cons_prefix_cons.mpr ⟨rfl, List.nil_prefix⟩)
  omega

theorem within_pushes {height : Nat} {values : List UInt8} (fits : height + values.length ≤ 256) :
    Within height (values.map push) := by
  induction values generalizing height with
  | nil => exact within_nil.mpr fits
  | cons value values ih =>
      rw [List.length_cons] at fits
      exact within_push.mpr ⟨by omega, ih (by omega)⟩

theorem within_pulls {height : Nat} (fits : height ≤ 256) : Within height (List.replicate height pull) := by
  induction height with
  | zero => exact within_nil.mpr fits
  | succ height ih => exact within_pull.mpr ⟨fits, ih (Nat.le_of_succ_le fits)⟩

/-! ### Pushes, and as many pulls -/

section

variable (values : List UInt8)

theorem onList_pushes (stack : List UInt8) :
    onList stack (values.map push) = some ([], values.reverse ++ stack) := by
  induction values generalizing stack with
  | nil => rfl
  | cons value values ih => rw [List.map_cons, onList, ih, List.reverse_cons, List.append_assoc]; rfl

theorem onList_pulls : onList values (List.replicate values.length pull) = some (values, []) := by
  induction values with
  | nil => rfl
  | cons value values ih => rw [List.length_cons, List.replicate_succ, onList, ih]; rfl

theorem accesses_pushes (sp : UInt8) (stack : List UInt8) :
    accesses sp stack (values.map push) =
      values.mapIdx fun i value => .write (stackAddress (sp - UInt8.ofNat i)) value := by
  induction values generalizing sp stack with
  | nil => rfl
  | cons value values ih =>
      have later : ∀ i, sp - 1 - UInt8.ofNat i = sp - UInt8.ofNat (i + 1) := fun i => by
        rw [ofNat_succ]
        grind
      rw [List.map_cons, accesses, ih, List.mapIdx_cons]
      simp only [later]
      rw [show UInt8.ofNat 0 = 0 from rfl, UInt8.sub_zero]

theorem accesses_pulls (sp : UInt8) :
    accesses sp values (List.replicate values.length pull) =
      values.mapIdx fun i value => .read (stackAddress (sp + UInt8.ofNat (i + 1))) value := by
  induction values generalizing sp with
  | nil => rfl
  | cons value values ih =>
      have later : ∀ i, sp + 1 + UInt8.ofNat (i + 1) = sp + UInt8.ofNat (i + 1 + 1) := fun i => by
        rw [ofNat_succ (i + 1)]
        grind
      rw [List.length_cons, List.replicate_succ, accesses, ih, List.mapIdx_cons]
      simp only [later]
      rfl

/-- The pulls go back over the places of the pushes. -/
theorem accesses_back (sp : UInt8) :
    accesses (sp - UInt8.ofNat values.length) values.reverse (List.replicate values.length pull) =
      (values.mapIdx fun i value => Access.read (stackAddress (sp - UInt8.ofNat i)) value).reverse := by
  have length := values.length_reverse
  rw [← length, accesses_pulls, length, List.mapIdx_reverse]
  refine congrArg List.reverse (List.ext_getElem (by simp) fun i inside _ => ?_)
  rw [List.length_mapIdx] at inside
  have left : values.length - 1 - i + 1 = values.length - i := by omega
  have place : sp - UInt8.ofNat values.length + (UInt8.ofNat values.length - UInt8.ofNat i) =
      sp - UInt8.ofNat i := by grind
  rw [List.getElem_mapIdx, List.getElem_mapIdx, left, UInt8.ofNat_sub (Nat.le_of_lt inside), place]

end

end StackDeed

/-! ### Courses of deeds -/

namespace StackRam

open StackDeed

variable {ε σ : Type} [Device (EStateM ε σ)] {ram : StackRam ε σ} {device : σ}

theorem perform_push (α : Type) (fit : ram.fit device) (sp value : UInt8) (accesses : List Access) :
    ∃ after, (∀ next : Transaction α,
        ((Transaction.write (stackAddress sp) value next).perform : EStateM ε (Watched σ) α)
            ⟨device, accesses⟩ =
          (next.perform : EStateM ε (Watched σ) α) ⟨after, accesses ++ [.write (stackAddress sp) value]⟩) ∧
      ram.fit after ∧ ram.shows after = withByte (ram.shows device) (stackAddress sp) value := by
  obtain ⟨after, pushed, kept⟩ := ram.push sp value fit
  refine ⟨after, fun next => ?_, kept⟩
  simp only [Transaction.perform, bind, EStateM.bind, Device.write, pushed]

theorem perform_pull (α : Type) (fit : ram.fit device) (sp : UInt8) (accesses : List Access) :
    ∃ after, (∀ next : UInt8 → Transaction α,
        ((Transaction.read (stackAddress sp) next).perform : EStateM ε (Watched σ) α)
            ⟨device, accesses⟩ =
          ((next (ram.shows device (stackAddress sp))).perform : EStateM ε (Watched σ) α)
            ⟨after, accesses ++ [.read (stackAddress sp) (ram.shows device (stackAddress sp))]⟩) ∧
      ram.fit after ∧ ram.shows after = ram.shows device := by
  have low : stackAddress sp ≠ Pia.keyboardData := Cpu.stackAddress_ne (.inr (by decide)) sp
  obtain ⟨after, read, fits, -, same⟩ := ram.read (stackAddress sp) fit
  refine ⟨after, fun next => ?_, fits, same (.inl (ram.silent_of_ne low))⟩
  simp only [Transaction.perform, bind, EStateM.bind, Device.read, read]

/-- Deeds on the stack in memory come to the same as on the one that is a list. -/
theorem exists_run {deeds : List StackDeed} {stack : List UInt8} (cpu : Cpu) (before : List Access)
    (fit : ram.fit device) (holds : Holds (ram.shows device) cpu.sp stack) (within : Within stack.length deeds) :
    ∃ values left after, onList stack deeds = some (values, left) ∧
      ((run cpu deeds).perform : EStateM ε (Watched σ) (List UInt8 × Cpu)) ⟨device, before⟩ =
        .ok (values, { cpu with sp := cpu.sp + UInt8.ofNat stack.length - UInt8.ofNat left.length })
          ⟨after, before ++ accesses cpu.sp stack deeds⟩ ∧
      ram.fit after ∧
      Holds (ram.shows after) (cpu.sp + UInt8.ofNat stack.length - UInt8.ofNat left.length) left := by
  induction deeds generalizing stack cpu device before with
  | nil =>
      have same : cpu.sp + UInt8.ofNat stack.length - UInt8.ofNat stack.length = cpu.sp := by grind
      refine ⟨[], stack, device, rfl, ?_, fit, ?_⟩
      · rw [same, accesses, List.append_nil, run]
        rfl
      · rwa [same]
  | cons deed deeds ih =>
      cases deed with
      | push value =>
          obtain ⟨room, within⟩ := within_push.mp within
          obtain ⟨between, pushed, fits, shown⟩ := perform_push _ fit cpu.sp value before
          have held := holds.push room value
          rw [← shown] at held
          obtain ⟨values, left, after, listed, ran, fits, holds⟩ :=
            ih { cpu with sp := cpu.sp - 1 } (before ++ [.write (stackAddress cpu.sp) value]) fits held within
          have depth : cpu.sp - 1 + UInt8.ofNat (value :: stack).length - UInt8.ofNat left.length =
              cpu.sp + UInt8.ofNat stack.length - UInt8.ofNat left.length := by
            rw [List.length_cons, ofNat_succ]
            grind
          refine ⟨values, left, after, listed, ?_, fits, depth ▸ holds⟩
          have whole := (pushed (run { cpu with sp := cpu.sp - 1 } deeds)).trans ran
          rw [List.append_assoc, depth] at whole
          exact whole
      | pull =>
          cases stack with
          | nil => exact absurd within not_within_pull
          | cons value stack =>
              obtain ⟨between, pulled, fits, shown⟩ :=
                perform_pull (List UInt8 × Cpu) fit (cpu.sp + 1) before
              have held := holds.tail
              rw [← shown] at held
              rw [holds.head] at pulled
              obtain ⟨values, left, after, listed, ran, fits, holds⟩ :=
                ih { cpu with sp := cpu.sp + 1 } (before ++ [.read (stackAddress (cpu.sp + 1)) value])
                  fits held (within_pull.mp within).2
              have depth : cpu.sp + 1 + UInt8.ofNat stack.length - UInt8.ofNat left.length =
                  cpu.sp + UInt8.ofNat (value :: stack).length - UInt8.ofNat left.length := by
                rw [List.length_cons, ofNat_succ]
                grind
              refine ⟨value :: values, left, after, ?_, ?_, fits, depth ▸ holds⟩
              · rw [onList, listed]
                rfl
              · refine (pulled fun value => do
                  let (values, cpu) ← run { cpu with sp := cpu.sp + 1 } deeds
                  return (value :: values, cpu)).trans ?_
                rw [Transaction.perform_bind]
                simp only [bind, EStateM.bind, ran, depth, List.append_assoc]
                rfl

/-- The place of a byte, counted from the first one that is pushed. -/
def place (sp : UInt8) (i : Nat) : UInt16 := stackAddress (sp - UInt8.ofNat i)

theorem place_inj {sp : UInt8} {i j : Nat} (small : i < 256) (small' : j < 256)
    (same : place sp i = place sp j) : i = j := by
  have offset := Cpu.stackAddress_inj.mp same
  have offset : UInt8.ofNat i = UInt8.ofNat j := by grind
  exact ofNat_inj small small' offset

theorem place_bounds (sp : UInt8) (i : Nat) : 0x100 ≤ place sp i ∧ place sp i < 0x200 :=
  Cpu.stackAddress_bounds _

/-- What the page is good for: all of it holds pushed bytes, and it is a stack as long as they fit. -/
structure Stacks (ram : StackRam ε σ) : Prop where
  ring : ∀ (cpu : Cpu) (values : List UInt8) (device : σ), ram.fit device → values.length ≤ 256 →
    ((List.range values.length).map (place cpu.sp)).Nodup ∧
    (∀ i, 0x100 ≤ place cpu.sp i ∧ place cpu.sp i < 0x200) ∧
    let full := { cpu with sp := cpu.sp - UInt8.ofNat values.length }
    ∃ between after,
      ((run cpu (values.map StackDeed.push)).perform : EStateM ε (Watched σ) (List UInt8 × Cpu))
          (.start device) =
        .ok ([], full) ⟨between, values.mapIdx fun i value => .write (place cpu.sp i) value⟩ ∧
      ((run full (List.replicate values.length .pull)).perform :
          EStateM ε (Watched σ) (List UInt8 × Cpu)) (.start between) =
        .ok (values.reverse, cpu)
          ⟨after, (values.mapIdx fun i value => Access.read (place cpu.sp i) value).reverse⟩
  refines : ∀ (cpu : Cpu) (deeds : List StackDeed) (device : σ), ram.fit device → Bounded deeds →
    ∃ values left after, onList [] deeds = some (values, left) ∧
      ((run cpu deeds).perform : EStateM ε (Watched σ) (List UInt8 × Cpu)) (.start device) =
        .ok (values, { cpu with sp := cpu.sp - UInt8.ofNat left.length })
          ⟨after, accesses cpu.sp [] deeds⟩

/-- The stack that nothing stands on yet. -/
theorem exists_run_empty {deeds : List StackDeed} (cpu : Cpu) (fit : ram.fit device) (within : Within 0 deeds) :
    ∃ values left after, onList [] deeds = some (values, left) ∧
      ((run cpu deeds).perform : EStateM ε (Watched σ) (List UInt8 × Cpu)) (.start device) =
        .ok (values, { cpu with sp := cpu.sp - UInt8.ofNat left.length })
          ⟨after, accesses cpu.sp [] deeds⟩ ∧
      ram.fit after ∧ Holds (ram.shows after) (cpu.sp - UInt8.ofNat left.length) left := by
  have holds : Holds (ram.shows device) cpu.sp [] := nofun
  obtain ⟨values, left, after, listed, ran, fits, holds⟩ := exists_run cpu [] fit holds within
  have start : cpu.sp + UInt8.ofNat ([] : List UInt8).length = cpu.sp := UInt8.add_zero _
  rw [start] at ran holds
  exact ⟨values, left, after, listed, ran, fits, holds⟩

theorem lifo (ram : StackRam ε σ) : ram.Stacks where
  ring cpu values device fit short := by
    refine ⟨?_, place_bounds cpu.sp, ?_⟩
    · refine List.Nodup.map_on ?_ List.nodup_range
      intro i inside j inside' same
      rw [List.mem_range] at inside inside'
      exact place_inj (Nat.lt_of_lt_of_le inside short) (Nat.lt_of_lt_of_le inside' short) same
    · intro full
      have pushes : Within 0 (values.map StackDeed.push) := within_pushes (by omega)
      obtain ⟨none, left, between, listed, pushed, fits, holds⟩ := exists_run_empty cpu fit pushes
      rw [onList_pushes, List.append_nil] at listed
      cases listed
      rw [List.length_reverse] at pushed holds
      rw [accesses_pushes] at pushed
      have pulls : Within values.reverse.length (List.replicate values.length .pull) :=
        values.length_reverse.symm ▸ within_pulls short
      obtain ⟨back, left, after, listed, pulled, -, -⟩ := exists_run full [] fits holds pulls
      have listed' := onList_pulls values.reverse
      rw [List.length_reverse] at listed'
      cases listed'.symm.trans listed
      have restored : full.sp + UInt8.ofNat values.reverse.length - UInt8.ofNat ([] : List UInt8).length =
          cpu.sp := by
        have none : UInt8.ofNat ([] : List UInt8).length = 0 := rfl
        rw [List.length_reverse, none]
        grind
      rw [restored, List.nil_append, accesses_back] at pulled
      exact ⟨between, after, pushed, pulled⟩
  refines cpu deeds device fit bounded := by
    have within : Within 0 deeds := fun before first => by
      have := bounded before first
      omega
    obtain ⟨values, left, after, listed, ran, -⟩ := exists_run_empty cpu fit within
    exact ⟨values, left, after, listed, ran⟩

/-- The stack is a ring on flat memory, and on the board if its RAM has a page one. -/
theorem pushed_pulled : (∀ ε, (Memory.stackRam ε).Stacks) ∧ Board.stackRam.Stacks :=
  ⟨fun ε => (Memory.stackRam ε).lifo, Board.stackRam.lifo⟩

/-- Two bytes around the end of the page. -/
theorem pushed_pulled_wrapped :
    let cpu := { Cpu.initial with sp := 0 }
    let full := { Cpu.initial with sp := 0xFE }
    ∃ between after,
      ((run cpu [.push 7, .push 9]).perform : EStateM Empty (Watched Memory) (List UInt8 × Cpu))
          (.start .zero) = .ok ([], full) ⟨between, [.write 0x100 7, .write 0x1FF 9]⟩ ∧
      ((run full [.pull, .pull]).perform : EStateM Empty (Watched Memory) (List UInt8 × Cpu))
          (.start between) = .ok ([9, 7], cpu) ⟨after, [.read 0x1FF 9, .read 0x100 7]⟩ := by
  intro cpu full
  obtain ⟨-, -, ran⟩ := (pushed_pulled.1 Empty).ring cpu [7, 9] .zero trivial (by decide)
  have first : place cpu.sp 0 = 0x100 := by decide
  have second : place cpu.sp 1 = 0x1FF := by decide
  simp only [List.mapIdx_cons, List.mapIdx_nil, first, Nat.zero_add, second] at ran
  exact ran

end StackRam

end AppleOne
