import AppleOne.Machine.SaveState
import AppleOne.Proofs.Bus.Lockstep

/-!
What a host can ask of a machine, as data: commands, sessions of them, and the machines that sessions
reach.
-/

namespace AppleOne.Machine

/-- What a host asks of a machine. -/
inductive Command where
  | step
  | tick
  | runCycles (budget : UInt32)
  | reset
  | press (code : UInt8)
  | handleKey (key : HostKey)
  | setIrq (level : Bool)
  | nmi
  | peek (address : UInt16)
  | poke (address : UInt16) (value : UInt8)
  | loadImage (address : UInt16) (image : Array UInt8)
  | saveRegion (start last : UInt16)
  | advance (span : Duration)
  | setTime (time : Duration)
  | setRegisters (registers : Registers)
  | saveState
  | loadState (state : Json)

inductive Reply where
  | done
  | cycles (count : Nat)
  | action (action : Option KeyAction)
  | byte (value : UInt8)
  | bytes (values : Array UInt8)
  | state (value : Json)
  | refused (cause : Error)

def change (reply : Reply) (f : Machine → Machine) : Run Reply :=
  fun machine => .ok reply (f machine)

/-- A command that may be refused, which leaves the machine as it is. -/
def request (f : Machine → Except Error Machine) : Run Reply := fun machine =>
  match f machine with
  | .ok after => .ok .done after
  | .error cause => .ok (.refused cause) machine

def query (f : Machine → Reply) : Run Reply := fun machine => .ok (f machine) machine

def Command.run : Command → Run Reply
  | .step => .cycles <$> Machine.step
  | .tick => .cycles <$> Machine.tick
  | .runCycles budget => .cycles <$> Machine.runCycles budget
  | .reset => change .done Machine.reset
  | .press code => change .done (Machine.press code)
  | .handleKey key => change (.action key.action) (Machine.handleKey key)
  | .setIrq level => change .done (Machine.setIrq level)
  | .nmi => change .done Machine.nmi
  | .peek address => .byte <$> Machine.peek address
  | .poke address value => (fun _ => .done) <$> Machine.poke address value
  | .loadImage address image => request (Machine.loadImage address image)
  | .saveRegion start last => query fun machine =>
    match machine.saveRegion start last with
    | .ok values => .bytes values
    | .error cause => .refused cause
  | .advance span => (fun _ => .done) <$> Machine.advance span
  | .setTime time => change .done (Machine.setTime time)
  | .setRegisters registers =>
    change .done fun machine => { machine with cpu := machine.cpu.setRegisters registers }
  | .saveState => query fun machine => .state machine.saveState
  | .loadState state => request (Machine.loadState state)

/-- Commands one after the other, up to the first fault. -/
def session : List Command → Run (List Reply)
  | [] => pure []
  | command :: rest => do
    let reply ← command.run
    let replies ← session rest
    return reply :: replies

/-- Built, and driven by commands without a fault. -/
inductive Reachable : Machine → Prop where
  | build {config : Config} {roms : Roms} {terminal : Terminal} {journal : Log.Journal}
      {machine : Machine} :
      Machine.build config roms terminal journal = .ok machine → Reachable machine
  | run {machine after : Machine} (command : Command) {reply : Reply} :
      Reachable machine → command.run machine = .ok reply after → Reachable after

/-! ### The board is only touched by transactions -/

theorem peek_eq (address : UInt16) :
    peek address = perform fun cpu => .read address fun value => .done (value, cpu) := by
  funext ⟨cpu, config, board⟩
  dsimp only [peek, perform, Transaction.perform, Device.read, bind, EStateM.bind]
  cases Board.read address board <;> rfl

theorem poke_eq (address : UInt16) (value : UInt8) :
    poke address value = perform fun cpu => .write address value (.done ((), cpu)) := by
  funext ⟨cpu, config, board⟩
  dsimp only [poke, perform, Transaction.perform, Device.write, bind, EStateM.bind]
  cases Board.write address value board <;> rfl

/-- A reset as a transaction, with any result. -/
theorem reset_eq_final {α : Type} (result : α) (machine : Machine) :
    machine.reset = final (perform (fun cpu => Prod.mk result <$> cpu.reset) machine) := by
  obtain ⟨cpu, config, board⟩ := machine
  have performed : ((Prod.mk result <$> cpu.reset).perform : EStateM Fault Board (α × Cpu)) =
      Prod.mk result <$> cpu.reset.perform := by
    rw [map_eq_pure_bind, map_eq_pure_bind, Transaction.perform_bind]
    rfl
  dsimp only [reset, perform]
  rw [performed]
  dsimp only [Functor.map, EStateM.map]
  cases (cpu.reset.perform : EStateM Fault Board Cpu) board <;> rfl

theorem handleKey_reset {key : HostKey} (escape : key.action = some .reset) :
    handleKey key = reset := by
  funext machine
  rw [handleKey, escape]
  rfl

theorem reset_eq (machine : Machine) :
    machine.reset = final (perform (fun cpu => Prod.mk () <$> cpu.reset) machine) :=
  reset_eq_final () machine

end AppleOne.Machine
