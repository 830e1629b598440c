/-!
Spans of time in whole nanoseconds. They are bounded, so a sum may fail to exist.
-/

namespace AppleOne

/-- Nanoseconds in `2 ^ 64` seconds. -/
def Duration.limit : Nat := 0x10000000000000000 * 1000000000

/-- A span of less than `2 ^ 64` seconds. -/
structure Duration where
  nanoseconds : Nat
  bounded : nanoseconds < Duration.limit
  deriving DecidableEq

namespace Duration

@[ext] theorem ext {a b : Duration} (h : a.nanoseconds = b.nanoseconds) : a = b := by
  cases a
  cases b
  cases h
  rfl

/-- The span of a number of nanoseconds, if it is short enough. -/
def ofNanoseconds? (n : Nat) : Option Duration :=
  if bounded : n < limit then some ⟨n, bounded⟩ else none

def zero : Duration := ⟨0, by decide⟩

instance : Inhabited Duration := ⟨zero⟩

instance : LE Duration := ⟨fun a b => a.nanoseconds ≤ b.nanoseconds⟩

instance (a b : Duration) : Decidable (a ≤ b) :=
  inferInstanceAs (Decidable (a.nanoseconds ≤ b.nanoseconds))

/-- The sum of two spans, if it is short enough. -/
def add? (a b : Duration) : Option Duration := ofNanoseconds? (a.nanoseconds + b.nanoseconds)

theorem add?_eq_some_iff {a b c : Duration} :
    a.add? b = some c ↔ c.nanoseconds = a.nanoseconds + b.nanoseconds := by
  unfold add? ofNanoseconds?
  split
  · constructor
    · intro h
      cases h
      rfl
    · intro h
      exact congrArg some (Duration.ext h.symm)
  · rename_i h
    constructor
    · intro none
      cases none
    · intro sum
      exact absurd (sum ▸ c.bounded) h

theorem add?_eq_none_iff {a b : Duration} :
    a.add? b = none ↔ limit ≤ a.nanoseconds + b.nanoseconds := by
  unfold add? ofNanoseconds?
  split
  · rename_i h
    exact ⟨nofun, fun late => absurd h (Nat.not_lt.mpr late)⟩
  · rename_i h
    exact ⟨fun _ => Nat.le_of_not_lt h, fun _ => rfl⟩

/-- The longer of two spans. -/
def longer (a b : Duration) : Duration := if a ≤ b then b else a

theorem nanoseconds_longer (a b : Duration) :
    (a.longer b).nanoseconds = max a.nanoseconds b.nanoseconds := by
  unfold longer
  split
  · rename_i h
    exact (Nat.max_eq_right h).symm
  · rename_i h
    exact (Nat.max_eq_left (Nat.le_of_not_le h)).symm

def seconds (d : Duration) : Nat := d.nanoseconds / 1000000000

/-- What is left over after whole seconds. -/
def subseconds (d : Duration) : Nat := d.nanoseconds % 1000000000

end Duration

end AppleOne
