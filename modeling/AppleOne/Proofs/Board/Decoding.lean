import AppleOne.Board

/-!
Which part of the board an access goes to, and what it leaves as it was. RAM never reaches up to the
interface adapter, so no address belongs to two parts.
-/

namespace AppleOne

namespace Pia

theorem covers_iff {address : UInt16} :
    covers address ↔ 0xD010 ≤ address.toNat ∧ address.toNat ≤ 0xD013 := by
  rw [covers, Bool.and_eq_true, decide_eq_true_eq, decide_eq_true_eq, UInt16.le_iff_toNat_le,
    UInt16.le_iff_toNat_le]
  rfl

theorem register_cases {address : UInt16} (h : covers address) :
    address = keyboardData ∨ address = keyboardControl ∨ address = displayData ∨
      address = displayControl := by
  obtain ⟨first, last⟩ := covers_iff.mp h
  simp only [← UInt16.toNat_inj]
  change address.toNat = 0xD010 ∨ address.toNat = 0xD011 ∨ address.toNat = 0xD012 ∨
    address.toNat = 0xD013
  omega

end Pia

namespace Board

/-! ### Reads -/

/-- A read cannot fail, and leaves the memories alone. -/
theorem exists_read (board : Board) (address : UInt16) :
    ∃ value after, board.read address = .ok value after ∧ after.ram = board.ram ∧
      after.roms = board.roms := by
  rw [read]
  split
  · exact ⟨_, _, rfl, rfl, rfl⟩
  · split
    · exact ⟨_, _, rfl, rfl, rfl⟩
    · exact ⟨_, _, rfl, rfl, rfl⟩

/-- What the bus shows at an address. -/
def shows (board : Board) (address : UInt16) : UInt8 :=
  if h : address.toNat < board.ram.size then board.ram[address.toNat]
  else if address = Pia.keyboardData then board.pia.key.elim 0 (· ||| 0x80)
  else if address = Pia.keyboardControl then Pia.flag board.pia.keyPending
  else if address = Pia.displayData ∨ address = Pia.displayControl then Pia.flag board.displayBusy
  else board.roms.read address

theorem shows_ram {board : Board} {address : UInt16} (inside : address.toNat < board.ram.size) :
    board.shows address = board.ram[address.toNat] := dif_pos inside

theorem shows_rom {board : Board} {address : UInt16} (outside : board.ram.size ≤ address.toNat)
    (uncovered : ¬Pia.covers address) : board.shows address = board.roms.read address := by
  have notKey : address ≠ Pia.keyboardData := fun same => uncovered (same ▸ rfl)
  have notControl : address ≠ Pia.keyboardControl := fun same => uncovered (same ▸ rfl)
  have notDisplay : ¬(address = Pia.displayData ∨ address = Pia.displayControl) := by
    rintro (same | same)
    · exact uncovered (same ▸ rfl)
    · exact uncovered (same ▸ rfl)
  rw [shows, dif_neg (Nat.not_lt.mpr outside), if_neg notKey, if_neg notControl, if_neg notDisplay]

theorem outside_of_covers {board : Board} (room : board.ram.size ≤ maxRam) {address : UInt16}
    (covered : Pia.covers address) : ¬address.toNat < board.ram.size := by
  have first := (Pia.covers_iff.mp covered).1
  unfold maxRam at room
  omega

theorem shows_key {board : Board} (room : board.ram.size ≤ maxRam) :
    board.shows Pia.keyboardData = board.pia.key.elim 0 (· ||| 0x80) := by
  rw [shows, dif_neg (outside_of_covers room rfl), if_pos rfl]

theorem shows_control {board : Board} (room : board.ram.size ≤ maxRam) :
    board.shows Pia.keyboardControl = Pia.flag board.pia.keyPending := by
  rw [shows, dif_neg (outside_of_covers room rfl), if_neg (by decide), if_pos rfl]

/-- The board after the keyboard's data register was read. -/
def keyTaken (board : Board) : Board :=
  { board with
    pia := { board.pia with key := none }
    journal := board.journal.noteAny (board.pia.key.map fun code => .keyRead (code ||| 0x80)) }

theorem read_eq {board : Board} (room : board.ram.size ≤ maxRam) (address : UInt16) :
    board.read address =
      .ok (board.shows address) (if address = Pia.keyboardData then board.keyTaken else board) := by
  by_cases inside : address.toNat < board.ram.size
  · have notKey : address ≠ Pia.keyboardData := by
      rintro rfl
      have : 0xD010 < board.ram.size := inside
      unfold maxRam at room
      omega
    rw [read, dif_pos inside, shows_ram inside, if_neg notKey]
  · by_cases covered : Pia.covers address
    · rw [read, dif_neg inside, shows, dif_neg inside]
      obtain ⟨ram, roms, ⟨key, readyAt⟩, terminal, time, journal⟩ := board
      rw [if_pos covered]
      rcases Pia.register_cases covered with rfl | rfl | rfl | rfl
      · cases key <;> rfl
      · rfl
      · rfl
      · rfl
    · have notKey : address ≠ Pia.keyboardData := fun same => covered (same ▸ rfl)
      rw [read, dif_neg inside, shows_rom (Nat.le_of_not_lt inside) covered, if_neg covered,
        if_neg notKey]

/-- An access leaves the size of the RAM and the clock as they were. -/
theorem kept_by_read {board after : Board} (room : board.ram.size ≤ maxRam) {address : UInt16}
    {value : UInt8} (done : board.read address = .ok value after) :
    after.ram.size = board.ram.size ∧ after.time = board.time := by
  rw [read_eq room] at done
  cases done
  split
  · exact ⟨rfl, rfl⟩
  · exact ⟨rfl, rfl⟩

theorem of_read_ok {board after : Board} {address : UInt16} {value : UInt8}
    (done : board.read address = .ok value after) :
    after.ram = board.ram ∧ after.roms = board.roms := by
  obtain ⟨_, _, read, same⟩ := board.exists_read address
  rw [read] at done
  cases done
  exact same

/-! ### Writes -/

/-- The board after a character was sent to the display, which is busy up to `ready`. -/
def displayed (board : Board) (value : UInt8) (ready : Duration) : Board :=
  { board with
    pia := { board.pia with readyAt := some ready }
    terminal := match Pia.shown? (Pia.sevenBits value) with
      | some event => board.terminal.put event
      | none => board.terminal
    journal := board.journal.note (.displayed (Pia.sevenBits value) !board.pia.keyPending) }

section

variable {board : Board} {address : UInt16}

theorem write_ram (inside : address.toNat < board.ram.size) (value : UInt8) :
    board.write address value = .ok () { board with ram := board.ram.set address.toNat value } := by
  obtain ⟨ram, roms, pia, terminal, time, journal⟩ := board
  exact dif_pos inside

theorem write_display (room : board.ram.size ≤ maxRam) (value : UInt8) :
    board.write Pia.displayData value =
      match board.time.add? board.pia.busyTime with
      | some ready => .ok () (board.displayed value ready)
      | none => .error .endOfTime board := by
  have outside := outside_of_covers room (show Pia.covers Pia.displayData from rfl)
  obtain ⟨ram, roms, pia, terminal, time, journal⟩ := board
  dsimp only [write]
  rw [dif_neg outside, if_pos (show Pia.covers Pia.displayData from rfl), Pia.write?, if_pos rfl]
  cases time.add? pia.busyTime <;> rfl

theorem write_elsewhere (outside : board.ram.size ≤ address.toNat) (other : address ≠ Pia.displayData)
    (value : UInt8) :
    board.write address value = .ok () { board with
      journal := board.journal.note
        (if Pia.covers address then .writeIgnored value address else .writeDiscarded value address) } := by
  obtain ⟨ram, roms, pia, terminal, time, journal⟩ := board
  dsimp only [write]
  rw [dif_neg (Nat.not_lt.mpr outside)]
  split
  · rw [Pia.write?, if_neg other]
  · rfl

/-- What a write that succeeds has done: it changed a byte of RAM, or it went to the display, or it was
only logged. -/
theorem of_write_ok (room : board.ram.size ≤ maxRam) {value : UInt8} {after : Board}
    (done : board.write address value = .ok () after) :
    (∃ inside : address.toNat < board.ram.size,
      after = { board with ram := board.ram.set address.toNat value }) ∨
    (address = Pia.displayData ∧ ∃ ready, board.time.add? board.pia.busyTime = some ready ∧
      after = board.displayed value ready) ∨
    (board.ram.size ≤ address.toNat ∧ address ≠ Pia.displayData ∧
      ∃ journal, after = { board with journal := journal }) := by
  by_cases inside : address.toNat < board.ram.size
  · rw [write_ram inside] at done
    cases done
    exact .inl ⟨inside, rfl⟩
  · by_cases display : address = Pia.displayData
    · subst display
      rw [write_display room] at done
      split at done
      · rename_i ready sum
        cases done
        exact .inr (.inl ⟨rfl, ready, sum, rfl⟩)
      · cases done
    · have outside := Nat.le_of_not_lt inside
      rw [write_elsewhere outside display] at done
      cases done
      exact .inr (.inr ⟨outside, display, _, rfl⟩)

theorem kept_by_write {board after : Board} (room : board.ram.size ≤ maxRam) {address : UInt16}
    {value : UInt8} (done : board.write address value = .ok () after) :
    after.ram.size = board.ram.size ∧ after.time = board.time := by
  rcases of_write_ok room done with ⟨inside, rfl⟩ | ⟨-, ready, -, rfl⟩ | ⟨-, -, journal, rfl⟩
  · exact ⟨Array.size_set inside, rfl⟩
  · exact ⟨rfl, rfl⟩
  · exact ⟨rfl, rfl⟩

/-- A write that fails changes nothing. -/
theorem of_write_error {value : UInt8} {fault : Fault} {after : Board}
    (failed : board.write address value = .error fault after) : after = board := by
  obtain ⟨ram, roms, pia, terminal, time, journal⟩ := board
  dsimp only [write] at failed
  split at failed
  · cases failed
  · split at failed
    · split at failed
      · cases failed
      · cases failed
        rfl
    · cases failed

end

/-! ### Transactions -/

section

variable {α : Type} {board after : Board} {address : UInt16} {value : UInt8}

theorem perform_read (done : board.read address = .ok value after) (next : UInt8 → Transaction α) :
    ((Transaction.read address next).perform : EStateM Fault Board α) board =
      ((next value).perform : EStateM Fault Board α) after := by
  simp only [Transaction.perform, Device.read, bind, EStateM.bind, done]

theorem perform_write (done : board.write address value = .ok () after) (next : Transaction α) :
    ((Transaction.write address value next).perform : EStateM Fault Board α) board =
      (next.perform : EStateM Fault Board α) after := by
  simp only [Transaction.perform, Device.write, bind, EStateM.bind, done]

end

end Board

end AppleOne
