import AppleOne.Time.Duration

/-!
Clocks that are moved by hand. Several handles may show one clock: what is done through one of them
shows on all of them. A handle that does not exist shows zero and moves nothing.
-/

namespace AppleOne

structure Clocks where
  /-- The time of each clock. -/
  times : Array Duration
  /-- For each handle the clock that it shows. -/
  handles : Array Nat

namespace Clocks

/-- One clock at zero with one handle. -/
def initial : Clocks where
  times := #[.zero]
  handles := #[0]

/-- The time of a clock. -/
def timeOf (clocks : Clocks) (clock : Nat) : Duration := clocks.times[clock]?.getD .zero

/-- The time that a handle shows. -/
def now (clocks : Clocks) (handle : Nat) : Duration :=
  match clocks.handles[handle]? with
  | some clock => clocks.timeOf clock
  | none => .zero

/-- A new handle to the clock of another one. -/
def share (clocks : Clocks) (handle : Nat) : Clocks :=
  match clocks.handles[handle]? with
  | some clock => { clocks with handles := clocks.handles.push clock }
  | none => clocks

/-- A new clock at zero with a handle of its own. -/
def fresh (clocks : Clocks) : Clocks where
  times := clocks.times.push .zero
  handles := clocks.handles.push clocks.times.size

/-- Puts the clock of a handle to a time. -/
def put (clocks : Clocks) (handle : Nat) (time : Duration) : Clocks :=
  match clocks.handles[handle]? with
  | some clock => { clocks with times := clocks.times.setIfInBounds clock time }
  | none => clocks

/-- Moves a clock forward, unless it would run past the last time there is. -/
def advance? (clocks : Clocks) (handle : Nat) (step : Duration) : Option Clocks :=
  (clocks.put handle ·) <$> (clocks.now handle).add? step

/-- Moves a clock to a time, unless it is later already. -/
def set (clocks : Clocks) (handle : Nat) (time : Duration) : Clocks :=
  clocks.put handle ((clocks.now handle).longer time)

/-- The times that all handles show, in order. -/
def readings (clocks : Clocks) : List Duration := clocks.handles.toList.map clocks.timeOf

end Clocks

end AppleOne
