import AppleOne.Proofs.Bus.Lockstep
import AppleOne.Proofs.Bus.StackRam

/-!
Memories in which some places are plain cells: flat memory, all of it, and the RAM of the board. A read
leaves every cell as it was, and a write to a cell changes that cell and no other one.
-/

namespace AppleOne

variable {α ε σ : Type}

/-! ### Transactions that write nothing -/

namespace Transaction

/-- Nothing but reads. -/
inductive Reads : Transaction α → Prop where
  | done (result : α) : Reads (.done result)
  | read (address : UInt16) {next : UInt8 → Transaction α} :
      (∀ value, Reads (next value)) → Reads (.read address next)

end Transaction

/-! ### Cells -/

/-- A memory with plain cells. Elsewhere a read may have effects, but none on a cell. -/
structure Cells (ε σ : Type) [Device (EStateM ε σ)] where
  fit : σ → Prop
  cell : UInt16 → Prop
  /-- The byte that a read would bring. -/
  shows : σ → UInt16 → UInt8
  of_read : ∀ {device after : σ} {address : UInt16} {value : UInt8}, fit device →
    (Device.read address : EStateM ε σ UInt8) device = .ok value after →
      fit after ∧ ∀ place, cell place → shows after place = shows device place
  read : ∀ {device : σ} {address : UInt16}, fit device → cell address → ∃ after,
    (Device.read address : EStateM ε σ UInt8) device = .ok (shows device address) after
  write : ∀ {device : σ} {address : UInt16} (value : UInt8), fit device → cell address → ∃ after,
    (Device.write address value : EStateM ε σ Unit) device = .ok () after ∧ fit after ∧
      ∀ place, cell place → shows after place = withByte (shows device) address value place

def Memory.cells (ε : Type) : Cells ε Memory where
  fit _ := True
  cell _ := True
  shows := Memory.get
  of_read _ done := by
    cases done
    exact ⟨trivial, fun _ _ => rfl⟩
  read _ _ := ⟨_, rfl⟩
  write value _ _ := by
    refine ⟨_, rfl, trivial, fun place _ => ?_⟩
    rw [get_set, withByte]
    simp only [eq_comm]

namespace Board

theorem shows_ram_congr {board other : Board} (same : other.ram = board.ram) {place : UInt16}
    (inside : place.toNat < board.ram.size) : other.shows place = board.shows place := by
  rw [shows_ram inside, shows_ram (same ▸ inside)]
  simp only [same]

/-- The board, each byte of RAM being a cell. -/
def cells (ramSize : Nat) : Cells Fault Board where
  fit board := board.ram.size = ramSize ∧ ramSize ≤ maxRam
  cell address := address.toNat < ramSize
  shows := Board.shows
  of_read {board after address value} fits done := by
    obtain ⟨rfl, room⟩ := fits
    have same := (of_read_ok done).1
    exact ⟨⟨congrArg Array.size same, room⟩, fun place inside => shows_ram_congr same inside⟩
  read {board address} fits inside := by
    obtain ⟨rfl, room⟩ := fits
    exact ⟨_, read_eq room address⟩
  write {board address} value fits inside := by
    obtain ⟨rfl, room⟩ := fits
    refine ⟨_, write_ram inside value, ⟨Array.size_set inside, room⟩, fun place _ => ?_⟩
    rw [shows_set inside, withByte]
    simp only [UInt16.toNat_inj]

end Board

namespace Cells

variable [Device (EStateM ε σ)] (cells : Cells ε σ) {device after : σ}

/-- What is only read is still the same. -/
theorem of_reads {t : Transaction α} (reads : t.Reads) {result : α} (fit : cells.fit device)
    (done : (t.perform : EStateM ε σ α) device = .ok result after) :
    cells.fit after ∧ ∀ place, cells.cell place → cells.shows after place = cells.shows device place := by
  induction reads generalizing device with
  | done => cases done; exact ⟨fit, fun _ _ => rfl⟩
  | read address _ ih =>
      obtain ⟨value, between, read, rest⟩ := exists_of_bind_ok done
      obtain ⟨fits, first⟩ := cells.of_read fit read
      obtain ⟨fits, later⟩ := ih value fits rest
      exact ⟨fits, fun place cell => (later place cell).trans (first place cell)⟩

end Cells

end AppleOne
