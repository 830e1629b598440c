import AppleOne.Proofs.Board.Decoding
import AppleOne.Proofs.Cpu.Servicing

/-!
Memories that the stack can live in: flat memory, and the board if its RAM reaches to the end of page
one. `StackRam` is what the two have in common; `Spared.perform` says that what a transaction does not
write on the stack stays there.
-/

namespace AppleOne

open Cpu (stackAddress)

variable {α ε σ : Type}

/-! ### The stack's page -/

namespace Cpu

theorem stackAddress_inj {sp other : UInt8} : stackAddress sp = stackAddress other ↔ sp = other := by
  rw [← UInt16.toNat_inj, toNat_stackAddress, toNat_stackAddress, Nat.add_left_cancel_iff,
    UInt8.toNat_inj]

theorem stackAddress_lt (sp : UInt8) : (stackAddress sp).toNat < 0x200 :=
  (stackAddress_bounds sp).2

end Cpu

/-! ### What the memories have in common -/

/-- What is shown with one byte changed. -/
def withByte (shown : UInt16 → UInt8) (place : UInt16) (value : UInt8) : UInt16 → UInt8 :=
  fun other => if other = place then value else shown other

theorem withByte_self (shown : UInt16 → UInt8) (place : UInt16) (value : UInt8) :
    withByte shown place value place = value := if_pos rfl

theorem withByte_of_ne (shown : UInt16 → UInt8) {place other : UInt16} (value : UInt8)
    (h : other ≠ place) : withByte shown place value other = shown other := if_neg h

/-- A memory with RAM in page one. The rest may have registers, of which reading the keyboard's takes a
key away. -/
structure StackRam (ε σ : Type) [Device (EStateM ε σ)] where
  /-- The states that are meant. -/
  fit : σ → Prop
  /-- The byte that a read would bring. -/
  shows : σ → UInt16 → UInt8
  /-- Reading there has no effect. -/
  silent : UInt16 → Prop
  silent_of_ne : ∀ {address : UInt16}, address ≠ Pia.keyboardData → silent address
  read : ∀ {device : σ} (address : UInt16), fit device → ∃ after,
    (Device.read address : EStateM ε σ UInt8) device = .ok (shows device address) after ∧ fit after ∧
      (∀ sp, shows after (stackAddress sp) = shows device (stackAddress sp)) ∧
      (silent address ∨ shows device address < 0x80 → shows after = shows device)
  push : ∀ {device : σ} (sp value : UInt8), fit device → ∃ after,
    (Device.write (stackAddress sp) value : EStateM ε σ Unit) device = .ok () after ∧ fit after ∧
      shows after = withByte (shows device) (stackAddress sp) value
  write : ∀ {device after : σ} {address : UInt16} {value : UInt8}, fit device →
    (Device.write address value : EStateM ε σ Unit) device = .ok () after → fit after ∧
      ∀ sp, stackAddress sp ≠ address → shows after (stackAddress sp) = shows device (stackAddress sp)
  note : ∀ {device : σ} (diagnostic : Log.Diagnostic), fit device → ∃ after,
    (Device.note diagnostic : EStateM ε σ Unit) device = .ok () after ∧ fit after ∧
      shows after = shows device

/-- Flat memory is RAM everywhere. -/
def Memory.stackRam (ε : Type) : StackRam ε Memory where
  fit _ := True
  shows := Memory.get
  silent _ := True
  silent_of_ne _ := trivial
  read _ _ := ⟨_, rfl, trivial, fun _ => rfl, fun _ => rfl⟩
  push {memory} sp value _ := by
    refine ⟨_, rfl, trivial, funext fun place => ?_⟩
    rw [get_set, withByte]
    simp only [eq_comm]
  write _ done := by
    cases done
    exact ⟨trivial, fun sp elsewhere => (get_set ..).trans (if_neg elsewhere.symm)⟩
  note _ _ := ⟨_, rfl, trivial, rfl⟩

namespace Board

variable {board other : Board}

/-- What the bus shows depends on RAM, images, key and display. -/
theorem shows_congr (ram : other.ram = board.ram) (roms : other.roms = board.roms)
    (key : other.pia.key = board.pia.key) (busy : other.displayBusy = board.displayBusy) :
    other.shows = board.shows := by
  funext place
  unfold shows
  simp only [ram, roms, key, busy, Pia.keyPending]

theorem shows_set {place : Nat} (inside : place < board.ram.size) (value : UInt8) (address : UInt16) :
    ({ board with ram := board.ram.set place value } : Board).shows address =
      if address.toNat = place then value else board.shows address := by
  have size : (board.ram.set place value).size = board.ram.size := Array.size_set inside
  by_cases within : address.toNat < board.ram.size
  · rw [shows_ram (size ▸ within), shows_ram within, Array.getElem_set]
    simp only [eq_comm]
  · have elsewhere : address.toNat ≠ place := fun same => within (same ▸ inside)
    rw [if_neg elsewhere, shows, shows, dif_neg (size ▸ within), dif_neg within]
    rfl

theorem shows_stack_congr (fits : 0x200 ≤ board.ram.size) (ram : other.ram = board.ram) (sp : UInt8) :
    other.shows (stackAddress sp) = board.shows (stackAddress sp) := by
  have inside := Nat.lt_of_lt_of_le (Cpu.stackAddress_lt sp) fits
  rw [shows_ram inside, shows_ram (ram ▸ inside)]
  simp only [ram]

/-- Taking no key changes nothing that can be seen. -/
theorem shows_keyTaken (room : board.ram.size ≤ maxRam) (quiet : board.shows Pia.keyboardData < 0x80) :
    board.keyTaken.shows = board.shows := by
  rw [shows_key room] at quiet
  cases key : board.pia.key with
  | some code =>
      rw [key] at quiet
      exact absurd quiet (UInt8.not_lt.mpr UInt8.right_le_or)
  | none => exact shows_congr rfl rfl key.symm rfl

/-- The board, with RAM at least up to the end of page one. -/
def stackRam : StackRam Fault Board where
  fit board := 0x200 ≤ board.ram.size ∧ board.ram.size ≤ maxRam
  shows := Board.shows
  silent address := address ≠ Pia.keyboardData
  silent_of_ne := id
  read {board} address fits := by
    refine ⟨_, read_eq fits.2 address, ?_⟩
    by_cases key : address = Pia.keyboardData
    · rw [if_pos key]
      refine ⟨fits, shows_stack_congr fits.1 rfl, fun quiet => shows_keyTaken fits.2 ?_⟩
      exact key ▸ quiet.resolve_left (not_not_intro key)
    · rw [if_neg key]
      exact ⟨fits, fun _ => rfl, fun _ => rfl⟩
  push {board} sp value fits := by
    have inside := Nat.lt_of_lt_of_le (Cpu.stackAddress_lt sp) fits.1
    have size : (board.ram.set (stackAddress sp).toNat value).size = board.ram.size :=
      Array.size_set inside
    refine ⟨_, write_ram inside value, ⟨size ▸ fits.1, size ▸ fits.2⟩, funext fun place => ?_⟩
    rw [shows_set inside, withByte]
    simp only [UInt16.toNat_inj]
  write {board after address value} fits done := by
    obtain ⟨inside, rfl⟩ | ⟨-, ready, -, rfl⟩ | ⟨-, -, _, rfl⟩ := of_write_ok fits.2 done
    · have size : (board.ram.set address.toNat value).size = board.ram.size := Array.size_set inside
      refine ⟨⟨size ▸ fits.1, size ▸ fits.2⟩, fun sp elsewhere => ?_⟩
      exact (shows_set inside value _).trans (if_neg fun same => elsewhere (UInt16.toNat_inj.mp same))
    · have same : (board.displayed value ready).ram = board.ram := rfl
      exact ⟨fits, fun sp _ => shows_stack_congr fits.1 same sp⟩
    · exact ⟨fits, fun _ _ => rfl⟩
  note {board} diagnostic fits := ⟨_, rfl, fits, rfl⟩

end Board

/-! ### Transactions -/

namespace StackRam

variable (α) [Device (EStateM ε σ)] (ram : StackRam ε σ) {device : σ}

theorem exists_read (fit : ram.fit device) (address : UInt16) :
    ∃ after, (∀ next : UInt8 → Transaction α,
        ((Transaction.read address next).perform : EStateM ε σ α) device =
          ((next (ram.shows device address)).perform : EStateM ε σ α) after) ∧ ram.fit after ∧
      (∀ sp, ram.shows after (stackAddress sp) = ram.shows device (stackAddress sp)) ∧
      (ram.silent address ∨ ram.shows device address < 0x80 → ram.shows after = ram.shows device) := by
  obtain ⟨after, read, kept⟩ := ram.read address fit
  refine ⟨after, fun next => ?_, kept⟩
  simp only [Transaction.perform, bind, EStateM.bind, read]

theorem exists_pulled (fit : ram.fit device) (sp : UInt8) :
    ∃ after, (∀ next : UInt8 → Transaction α,
        ((Transaction.read (stackAddress sp) next).perform : EStateM ε σ α) device =
          ((next (ram.shows device (stackAddress sp))).perform : EStateM ε σ α) after) ∧
      ram.fit after ∧ ram.shows after = ram.shows device := by
  obtain ⟨after, read, fits, -, same⟩ := ram.exists_read α fit (stackAddress sp)
  exact ⟨after, read, fits, same (.inl (ram.silent_of_ne (Cpu.stackAddress_ne (.inr (by decide)) sp)))⟩

theorem exists_pushed (fit : ram.fit device) (sp value : UInt8) :
    ∃ after, (∀ next : Transaction α,
        ((Transaction.write (stackAddress sp) value next).perform : EStateM ε σ α) device =
          (next.perform : EStateM ε σ α) after) ∧ ram.fit after ∧
      ram.shows after = withByte (ram.shows device) (stackAddress sp) value := by
  obtain ⟨after, pushed, kept⟩ := ram.push sp value fit
  refine ⟨after, fun next => ?_, kept⟩
  simp only [Transaction.perform, bind, EStateM.bind, pushed]

theorem exists_noted (fit : ram.fit device) (diagnostic : Log.Diagnostic) :
    ∃ after, (∀ next : Transaction α,
        ((Transaction.note diagnostic next).perform : EStateM ε σ α) device =
          (next.perform : EStateM ε σ α) after) ∧ ram.fit after ∧
      ram.shows after = ram.shows device := by
  obtain ⟨after, noted, kept⟩ := ram.note diagnostic fit
  refine ⟨after, fun next => ?_, kept⟩
  simp only [Transaction.perform, bind, EStateM.bind, noted]

/-- A byte of the stack that was not written is still the same. -/
def Spared (start : σ) (watched : Watched σ) : Prop :=
  ram.fit watched.device ∧ ∀ sp, (∀ value, .write (stackAddress sp) value ∉ watched.accesses) →
    ram.shows watched.device (stackAddress sp) = ram.shows start (stackAddress sp)

variable {α ram}

theorem Spared.perform {start : σ} {watched after : Watched σ} {t : Transaction α} {result : α}
    (spared : ram.Spared start watched)
    (done : (t.perform : EStateM ε (Watched σ) α) watched = .ok result after) :
    ram.Spared start after := by
  induction t generalizing watched with
  | done _ =>
      cases done
      exact spared
  | read address next ih =>
      obtain ⟨device, accesses⟩ := watched
      obtain ⟨fit, same⟩ := spared
      obtain ⟨between, read, fits, stack, -⟩ := ram.read address fit
      simp only [Transaction.perform, bind, EStateM.bind, Device.read, read] at done
      refine ih _ ⟨fits, fun sp unwritten => (stack sp).trans (same sp fun value => ?_)⟩ done
      exact fun written => unwritten value (List.mem_append_left _ written)
  | write address value next ih =>
      obtain ⟨device, accesses⟩ := watched
      obtain ⟨fit, same⟩ := spared
      simp only [Transaction.perform, bind, EStateM.bind, Device.write] at done
      cases wrote : (Device.write address value : EStateM ε σ Unit) device with
      | ok _ between =>
          rw [wrote] at done
          obtain ⟨fits, stack⟩ := ram.write fit wrote
          refine ih ⟨fits, fun sp unwritten => ?_⟩ done
          have elsewhere : stackAddress sp ≠ address := by
            rintro rfl
            exact unwritten value (List.mem_append_right _ List.mem_cons_self)
          refine (stack sp elsewhere).trans (same sp fun other => ?_)
          exact fun written => unwritten other (List.mem_append_left _ written)
      | error failure between =>
          rw [wrote] at done
          cases done
  | note diagnostic next ih =>
      obtain ⟨device, accesses⟩ := watched
      obtain ⟨fit, same⟩ := spared
      obtain ⟨between, noted, fits, shown⟩ := ram.note diagnostic fit
      simp only [Transaction.perform, bind, EStateM.bind, Device.note, noted] at done
      exact ih ⟨fits, fun sp unwritten => shown ▸ same sp unwritten⟩ done

end StackRam

end AppleOne
