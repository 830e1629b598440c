import AppleOne.Proofs.Cpu.Checked
import AppleOne.Proofs.Machine.Handlers
import AppleOne.Proofs.Machine.Reachable

/-!
The machine with its places and sums checked. A place past the end of a memory, or a sum that leaves its
type, would stop a checked command; no command is ever stopped in this way (`Command.checked_eq`).
-/

namespace AppleOne

variable {α β σ : Type}

/-! ### Checked memories -/

namespace Checked

/-- The byte at a place. -/
def fetch (bytes : Array UInt8) (place : Nat) : Checked UInt8 :=
  if h : place < bytes.size then .ok bytes[place] else .error .outOfRange

/-- Replaces the byte at a place. -/
def put (bytes : Array UInt8) (place : Nat) (value : UInt8) : Checked (Array UInt8) :=
  if h : place < bytes.size then .ok (bytes.set place value) else .error .outOfRange

/-- The bytes from `start` up to `stop`. -/
def slice (bytes : Array UInt8) (start stop : Nat) : Checked (Array UInt8) :=
  if start ≤ stop ∧ stop ≤ bytes.size then .ok (bytes.extract start stop) else .error .outOfRange

/-- Replaces the bytes from `start` up to `stop` by just as many. -/
def copy (bytes image : Array UInt8) (start stop : Nat) : Checked (Array UInt8) :=
  if start ≤ stop ∧ stop ≤ bytes.size ∧ image.size = stop - start then
    .ok (Machine.overlay bytes image start)
  else .error .outOfRange

/-- What was checked, as a step of an execution. -/
def run (checked : Checked α) : EStateM Trap σ α := fun s =>
  match checked with
  | .ok result => .ok result s
  | .error trap => .error trap s

end Checked

/-- An execution without checks, among those with checks. -/
def widen (x : EStateM Fault σ α) : EStateM Trap σ α := fun s =>
  match x s with
  | .ok result s => .ok result s
  | .error fault s => .error (.fault fault) s

theorem widen_pure (result : α) : widen (pure result : EStateM Fault σ α) = pure result := rfl

theorem widen_bind (x : EStateM Fault σ α) (f : α → EStateM Fault σ β) :
    widen (x >>= f) = widen x >>= fun result => widen (f result) := by
  funext s
  simp only [widen, bind, EStateM.bind]
  cases x s <;> rfl

theorem widen_map (f : α → β) (x : EStateM Fault σ α) : widen (f <$> x) = f <$> widen x := by
  funext s
  simp only [widen, Functor.map, EStateM.map]
  cases x s <;> rfl

theorem widen_repeatWithin (x : EStateM Fault σ Nat) (fuel budget executed : Nat) :
    widen (Machine.repeatWithin x fuel budget executed) =
      Machine.repeatWithin (widen x) fuel budget executed := by
  induction fuel generalizing executed with
  | zero => rfl
  | succ fuel ih =>
      rw [Machine.repeatWithin, Machine.repeatWithin]
      split
      · simp only [widen_bind, ih]
      · rfl

/-! ### The board -/

open Checked (fetch put slice copy plus minus)

def Roms.checkedRead (roms : Roms) (address : UInt16) : Checked UInt8 :=
  let place := address.toNat
  if 0xE000 ≤ place ∧ place ≤ 0xEFFF then do
    fetch roms.basic.toArray (← minus place 0xE000)
  else if 0xFF00 ≤ place ∧ place ≤ 0xFFFB then do
    fetch roms.monitor.toArray (← minus place 0xFF00)
  else if place = 0xFFFC then .ok resetTarget.toUInt8
  else if place = 0xFFFD then .ok (resetTarget >>> 8).toUInt8
  else .ok 0

namespace Board

/-- The interface adapter has no places to check. -/
def checkedRead (address : UInt16) : EStateM Trap Board UInt8 := fun board =>
  if address.toNat < board.ram.size then (fetch board.ram address.toNat).run board
  else if Pia.covers address then widen (read address) board
  else (board.roms.checkedRead address).run board

def checkedWrite (address : UInt16) (value : UInt8) : EStateM Trap Board Unit := fun board =>
  if address.toNat < board.ram.size then
    match put board.ram address.toNat value with
    | .ok ram => .ok () { board with ram := ram }
    | .error trap => .error trap board
  else widen (write address value) board

instance : Device (EStateM Trap Board) where
  read := checkedRead
  write := checkedWrite
  note diagnostic := widen (note diagnostic)

end Board

theorem Roms.checkedRead_eq (roms : Roms) (address : UInt16) :
    roms.checkedRead address = .ok (roms.read address) := by
  rw [checkedRead, read]
  split
  · rename_i inside
    rw [Checked.minus_eq inside.1, Checked.ok_bind, fetch, dif_pos (by simp; omega)]
    rfl
  · split
    · rename_i inside
      rw [Checked.minus_eq inside.1, Checked.ok_bind, fetch, dif_pos (by simp; omega)]
      rfl
    · split
      · rfl
      · split <;> rfl

namespace Board

theorem checkedRead_eq (address : UInt16) : checkedRead address = widen (read address) := by
  funext board
  by_cases inside : address.toNat < board.ram.size
  · rw [checkedRead, if_pos inside, fetch, dif_pos inside, widen, read, dif_pos inside]
    rfl
  · rw [checkedRead, if_neg inside]
    split
    · rfl
    · rename_i uncovered
      rw [Roms.checkedRead_eq, widen, read, dif_neg inside, if_neg uncovered]
      rfl

theorem checkedWrite_eq (address : UInt16) (value : UInt8) :
    checkedWrite address value = widen (write address value) := by
  funext board
  rw [checkedWrite]
  split
  · rename_i inside
    rw [put, dif_pos inside, widen, write_ram inside]
  · rfl

theorem perform_widen (t : Transaction α) :
    (t.perform : EStateM Trap Board α) = widen (t.perform : EStateM Fault Board α) := by
  induction t with
  | done result => rfl
  | read address next ih =>
      simp only [Transaction.perform, Device.read, widen_bind, checkedRead_eq, ih]
  | write address value next ih =>
      simp only [Transaction.perform, Device.write, widen_bind, checkedWrite_eq, ih]
  | note diagnostic next ih => simp only [Transaction.perform, Device.note, widen_bind, ih]

end Board

/-! ### Commands -/

namespace Machine

def checkedPerform (act : Cpu → Transaction (Checked (α × Cpu))) : EStateM Trap Machine α :=
  fun ⟨cpu, config, board⟩ =>
    match ((act cpu).perform : EStateM Trap Board (Checked (α × Cpu))) board with
    | .ok (.ok (result, cpu)) board => .ok result ⟨cpu, config, board⟩
    | .ok (.error trap) board => .error trap ⟨cpu, config, board⟩
    | .error trap board => .error trap ⟨cpu, config, board⟩

def checkedRequest (f : Machine → Checked (Except Error Machine)) : EStateM Trap Machine Reply :=
  fun machine =>
    match f machine with
    | .ok (.ok after) => .ok .done after
    | .ok (.error cause) => .ok (.refused cause) machine
    | .error trap => .error trap machine

def checkedQuery (f : Machine → Checked (Except Error (Array UInt8))) : EStateM Trap Machine Reply :=
  fun machine =>
    match f machine with
    | .ok (.ok values) => .ok (.bytes values) machine
    | .ok (.error cause) => .ok (.refused cause) machine
    | .error trap => .error trap machine

def checkedReset (reply : Reply) : EStateM Trap Machine Reply :=
  (fun _ => reply) <$> checkedPerform fun cpu => (fun cpu => .ok ((), cpu)) <$> cpu.reset

/-- The reset key is the only one that reaches the bus. -/
def checkedHandleKey (key : HostKey) : EStateM Trap Machine Reply :=
  if key.action = some .reset then checkedReset (.action key.action)
  else widen (Command.run (.handleKey key))

def checkedLoadImage (address : UInt16) (image : Array UInt8) (machine : Machine) :
    Checked (Except Error Machine) :=
  if machine.ramSize ≤ address.toNat then return .error (.outsideRam address machine.ramSize)
  else do
    let stop ← plus .size address.toNat image.size
    if machine.ramSize < stop then
      return .error (.imageTooLarge image.size address machine.ramSize)
    else
      let ram ← copy machine.board.ram image address.toNat stop
      return .ok { machine with board := { machine.board with
        ram := ram
        journal := machine.board.journal.note (.imageLoaded image.size address) } }

def checkedSaveRegion (start last : UInt16) (machine : Machine) :
    Checked (Except Error (Array UInt8)) :=
  if last ≤ start then return .error (.emptyRegion start last)
  else if machine.ramSize ≤ last.toNat then return .error (.outsideRam last machine.ramSize)
  else .ok <$> do slice machine.board.ram start.toNat (← plus .size last.toNat 1)

/-- A state is checked against the RAM before its bytes are copied there. -/
def checkedLoadState (value : Json) (machine : Machine) : Checked (Except Error Machine) :=
  match SavedState.ofJson machine.ramSize value with
  | .error cause => return .error cause
  | .ok saved => do
    let ram ← copy machine.board.ram saved.ram 0 machine.board.ram.size
    return .ok (machine.restore { saved with ram := ram })

namespace Command

/-- The command with every place and every sum checked. Those at the end have none. -/
def checked : Command → EStateM Trap Machine Reply
  | .step => .cycles <$> checkedPerform Cpu.checkedStep
  | .tick => .cycles <$> fun machine =>
    repeatStep (checkedPerform Cpu.checkedStep) machine.config.cyclesPerTick machine
  | .runCycles budget => .cycles <$> repeatStep (checkedPerform Cpu.checkedStep) budget
  | .reset => checkedReset .done
  | .handleKey key => checkedHandleKey key
  | .peek address =>
    .byte <$> checkedPerform fun cpu => .read address fun value => .done (.ok (value, cpu))
  | .poke address value =>
    (fun _ => .done) <$> checkedPerform fun cpu => .write address value (.done (.ok ((), cpu)))
  | .loadImage address image => checkedRequest (checkedLoadImage address image)
  | .saveRegion start last => checkedQuery (checkedSaveRegion start last)
  | .loadState state => checkedRequest (checkedLoadState state)
  | command => widen command.run

/-- An image lies in the memory of the host, which holds at most half of what a size can count. -/
def InRange : Command → Prop
  | .loadImage _ image => image.size < 0x8000000000000000
  | _ => True

end Command

theorem checkedPerform_eq {act : Cpu → Transaction (Checked (α × Cpu))}
    {plain : Cpu → Transaction (α × Cpu)} (same : ∀ cpu, act cpu = Except.ok <$> plain cpu) :
    checkedPerform act = widen (perform plain) := by
  funext ⟨cpu, config, board⟩
  rw [checkedPerform, Board.perform_widen, same, map_eq_pure_bind, Transaction.perform_bind, widen,
    widen, perform]
  simp only [bind, EStateM.bind]
  cases ((plain cpu).perform : EStateM Fault Board (α × Cpu)) board <;> rfl

theorem checkedRequest_eq {f : Machine → Checked (Except Error Machine)}
    {plain : Machine → Except Error Machine} (same : ∀ machine, f machine = .ok (plain machine)) :
    checkedRequest f = widen (request plain) := by
  funext machine
  rw [checkedRequest, same, widen, request]
  cases plain machine <;> rfl

theorem checkedQuery_eq {f : Machine → Checked (Except Error (Array UInt8))}
    {plain : Machine → Except Error (Array UInt8)} (same : ∀ machine, f machine = .ok (plain machine)) :
    checkedQuery f = widen (query fun machine =>
      match plain machine with
      | .ok values => .bytes values
      | .error cause => .refused cause) := by
  funext machine
  rw [checkedQuery, same, widen, query]
  cases plain machine <;> rfl

theorem checkedReset_eq (reply : Reply) : checkedReset reply = widen (change reply reset) := by
  have plain : checkedPerform (fun cpu => (fun cpu => .ok ((), cpu)) <$> cpu.reset) =
      widen (perform fun cpu => Prod.mk () <$> cpu.reset) :=
    checkedPerform_eq fun cpu => (LawfulFunctor.comp_map (Prod.mk ()) Except.ok cpu.reset)
  rw [checkedReset, plain, perform_reset]
  rfl

theorem checkedHandleKey_eq (key : HostKey) :
    checkedHandleKey key = widen (Command.run (.handleKey key)) := by
  rw [checkedHandleKey]
  split
  · rename_i escape
    rw [checkedReset_eq, Command.run, handleKey_reset escape]
  · rfl

theorem checkedLoadImage_eq {address : UInt16} {image : Array UInt8}
    (short : image.size < 0x8000000000000000) (machine : Machine) :
    checkedLoadImage address image machine = .ok (machine.loadImage address image) := by
  have inside := address.toNat_lt
  rw [checkedLoadImage, loadImage]
  split
  · rfl
  · rw [Checked.plus_size (by omega), Checked.ok_bind]
    split
    · rfl
    · rename_i fits
      have bounds : address.toNat ≤ address.toNat + image.size ∧
          address.toNat + image.size ≤ machine.board.ram.size ∧
          image.size = address.toNat + image.size - address.toNat :=
        ⟨by omega, Nat.le_of_not_lt fits, by omega⟩
      rw [copy, if_pos bounds]
      rfl

theorem checkedSaveRegion_eq (start last : UInt16) (machine : Machine) :
    checkedSaveRegion start last machine = .ok (machine.saveRegion start last) := by
  have inside := last.toNat_lt
  rw [checkedSaveRegion, saveRegion]
  split
  · rfl
  · rename_i later
    split
    · rfl
    · rename_i fits
      have ordered : start.toNat < last.toNat := UInt16.not_le.mp later
      have bounds : start.toNat ≤ last.toNat + 1 ∧ last.toNat + 1 ≤ machine.board.ram.size :=
        ⟨by omega, Nat.lt_of_not_le fits⟩
      rw [Checked.plus_size (by omega), Checked.ok_bind, slice, if_pos bounds]
      rfl

theorem overlay_all {ram image : Array UInt8} (same : image.size = ram.size) :
    overlay ram image 0 = image := by
  simp [overlay, same]

theorem checkedLoadState_eq (value : Json) (machine : Machine) :
    checkedLoadState value machine = .ok (machine.loadState value) := by
  rw [checkedLoadState, loadState]
  cases read : SavedState.ofJson machine.ramSize value with
  | error cause => rfl
  | ok saved =>
      have same : saved.ram.size = machine.board.ram.size := (SavedState.ofJson_eq_ok_iff.mp read).2
      dsimp only
      rw [copy, if_pos ⟨Nat.zero_le _, Nat.le_refl _, same⟩, overlay_all same]
      rfl

theorem checkedStep_eq : checkedPerform Cpu.checkedStep = widen step :=
  checkedPerform_eq Cpu.checkedStep_eq

/-- No place is past the end of a memory and no sum leaves its type: with the checks, a command does what
it does without them. -/
theorem Command.checked_eq {command : Command} (inRange : command.InRange) :
    command.checked = widen command.run := by
  cases command with
  | step =>
      change Reply.cycles <$> checkedPerform Cpu.checkedStep = widen (Reply.cycles <$> Machine.step)
      rw [checkedStep_eq, widen_map]
  | tick =>
      change (Reply.cycles <$> fun machine : Machine =>
          repeatStep (checkedPerform Cpu.checkedStep) machine.config.cyclesPerTick machine) =
        widen (Reply.cycles <$> Machine.tick)
      rw [checkedStep_eq, widen_map]
      refine congrArg _ (funext fun machine => ?_)
      exact (congrFun (widen_repeatWithin Machine.step _ _ _) machine).symm
  | runCycles budget =>
      change Reply.cycles <$> repeatStep (checkedPerform Cpu.checkedStep) budget =
        widen (Reply.cycles <$> Machine.runCycles budget)
      rw [checkedStep_eq, widen_map]
      exact congrArg _ (widen_repeatWithin Machine.step _ _ _).symm
  | reset => exact checkedReset_eq .done
  | handleKey key => exact checkedHandleKey_eq key
  | peek address =>
      change Reply.byte <$> checkedPerform _ = widen (Reply.byte <$> Machine.peek address)
      rw [peek_eq, widen_map]
      exact congrArg _ (checkedPerform_eq fun _ => rfl)
  | poke address value =>
      change (fun _ => Reply.done) <$> checkedPerform _ =
        widen ((fun _ => Reply.done) <$> Machine.poke address value)
      rw [poke_eq, widen_map]
      exact congrArg _ (checkedPerform_eq fun _ => rfl)
  | loadImage address image => exact checkedRequest_eq (checkedLoadImage_eq inRange)
  | saveRegion start last => exact checkedQuery_eq (checkedSaveRegion_eq start last)
  | loadState state => exact checkedRequest_eq (checkedLoadState_eq state)
  | press | setIrq | nmi | advance | setTime | setRegisters | saveState => rfl

end Machine

end AppleOne
