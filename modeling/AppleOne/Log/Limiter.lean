/-!
The rate limiter of one category within one second. At most `limit` messages pass; the first message
refused is reported at once, later ones are counted and reported when a message passes again.
-/

namespace AppleOne.Log

/-- What happened in the present second. -/
structure Window where
  passed : Nat
  /-- Refused messages that no report has counted yet. -/
  unreported : Nat
  /-- Whether a report was made. -/
  reported : Bool
  deriving DecidableEq, Repr

/-- The limiter's answer to one message. -/
structure Verdict where
  allowed : Bool
  /-- A report that is due now: how many messages were refused. -/
  report : Option Nat
  deriving DecidableEq, Repr

namespace Window

def initial : Window where
  passed := 0
  unreported := 0
  reported := false

/-- Asks for one more message under the limit now in force. -/
def judge (limit : Nat) (w : Window) : Verdict × Window :=
  if w.passed < limit then
    if 0 < w.unreported then
      (⟨true, some w.unreported⟩, { passed := w.passed + 1, unreported := 0, reported := true })
    else
      (⟨true, none⟩, { w with passed := w.passed + 1 })
  else if w.reported then
    (⟨false, none⟩, { w with unreported := w.unreported + 1 })
  else
    (⟨false, some (w.unreported + 1)⟩, { w with unreported := 0, reported := true })

end Window

end AppleOne.Log
