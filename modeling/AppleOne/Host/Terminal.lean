/-!
The host's end of the display: a record of what was shown, or nothing at all.
-/

namespace AppleOne

namespace Terminal

/-- One thing shown. -/
inductive Event where
  | char (code : UInt8)
  | newLine
  deriving DecidableEq, Repr

/-- The character shown; a code is the number of its character. -/
def Event.toChar : Event → Char
  | char code => Char.ofNat code.toNat
  | newLine => '\n'

/-- Events as text. -/
def textOf (events : List Event) : String := String.ofList (events.map Event.toChar)

end Terminal

/-- What becomes of the display's output. -/
inductive Terminal where
  | recording (events : Array Terminal.Event)
  | discarding
  /-- Behind a pointer, which passes everything on. -/
  | boxed (inner : Terminal)
  deriving DecidableEq, Repr

namespace Terminal

/-- A recording that is still empty. -/
def recorder : Terminal := .recording #[]

def put (terminal : Terminal) (event : Event) : Terminal :=
  match terminal with
  | recording events => .recording (events.push event)
  | discarding => .discarding
  | boxed inner => .boxed (inner.put event)

/-- The events recorded and not taken yet. -/
def events : Terminal → Array Event
  | recording events => events
  | discarding => #[]
  | boxed inner => inner.events

def isRecording : Terminal → Bool
  | recording _ => true
  | discarding => false
  | boxed inner => inner.isRecording

/-- Takes the recorded events away. -/
def take : Terminal → Array Event × Terminal
  | recording events => (events, recorder)
  | discarding => (#[], .discarding)
  | boxed inner =>
    let (events, inner) := inner.take
    (events, .boxed inner)

theorem isRecording_put (terminal : Terminal) (event : Event) :
    (terminal.put event).isRecording = terminal.isRecording := by
  induction terminal with
  | recording | discarding => rfl
  | boxed inner ih => exact ih

theorem events_put {terminal : Terminal} (recording : terminal.isRecording) (event : Event) :
    (terminal.put event).events = terminal.events.push event := by
  induction terminal with
  | recording events => rfl
  | discarding => cases recording
  | boxed inner ih => exact ih recording

theorem take_events (terminal : Terminal) : terminal.take.1 = terminal.events := by
  induction terminal with
  | recording | discarding => rfl
  | boxed inner ih => exact ih

theorem isRecording_take (terminal : Terminal) : terminal.take.2.isRecording = terminal.isRecording := by
  induction terminal with
  | recording | discarding => rfl
  | boxed inner ih => exact ih

theorem events_take (terminal : Terminal) : terminal.take.2.events = #[] := by
  induction terminal with
  | recording | discarding => rfl
  | boxed inner ih => exact ih

/-- The recorded output as text. -/
def text (terminal : Terminal) : String := textOf terminal.events.toList

end Terminal

end AppleOne
