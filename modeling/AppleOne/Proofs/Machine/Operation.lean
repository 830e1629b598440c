import AppleOne.Proofs.Machine.Output

/-!
All that a host does with a machine: commands, looks that leave everything as it is, and taking the shown
events away.
-/

namespace AppleOne.Machine

/-- What a host looks at. -/
inductive Look where
  | events
  | text
  | debugInfo
  | displayBusy

inductive Operation where
  | ask (command : Command)
  | look (what : Look)
  | takeEvents

inductive Answer where
  | reply (reply : Reply)
  | events (events : List Terminal.Event)
  | text (text : String)
  | info (info : DebugInfo)
  | busy (busy : Bool)

/-- What there is to see. -/
def Look.seen (machine : Machine) : Look → Answer
  | events => .events machine.board.terminal.events.toList
  | text => .text machine.board.terminal.text
  | debugInfo => .info machine.debugInfo
  | displayBusy => .busy machine.board.displayBusy

def Operation.run : Operation → Run Answer
  | .ask command => .reply <$> command.run
  | .look what => fun machine => .ok (what.seen machine) machine
  | .takeEvents => .events <$> Machine.takeEvents

/-- Operations one after the other, up to the first fault. -/
def operate : List Operation → Run (List Answer)
  | [] => pure []
  | operation :: rest => do
    let answer ← operation.run
    let answers ← operate rest
    return answer :: answers

namespace Recording

def operation : Operation → Recording Answer
  | .ask asked => .reply <$> command asked
  | .look what => fun chronicle => .ok (what.seen chronicle.machine) chronicle
  | .takeEvents => .events <$> takeEvents

theorem records_operation (operation : Operation) :
    Records (Recording.operation operation) operation.run := by
  cases operation with
  | ask command => exact (records_command command).map _
  | look what => exact fun _ => rfl
  | takeEvents => exact Records.map _ fun _ => rfl

end Recording

end AppleOne.Machine
