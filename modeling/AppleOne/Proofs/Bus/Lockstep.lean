import AppleOne.Bus.Transaction

/-!
Runs that cannot be told apart. A program runs in lockstep for a relation if from related states it
ends alike and in related states. An invariant is the case of a state that is related to itself.
-/

namespace AppleOne

variable {α β ε σ : Type}

/-- The state at the end, whether it is a success or a failure. -/
def final : EStateM.Result ε σ α → σ
  | .ok _ s => s
  | .error _ s => s

/-- The same result or the same failure, in related states. -/
inductive Alike (R : σ → σ → Prop) : EStateM.Result ε σ α → EStateM.Result ε σ α → Prop where
  | ok (result : α) {s t : σ} (related : R s t) : Alike R (.ok result s) (.ok result t)
  | error (failure : ε) {s t : σ} (related : R s t) : Alike R (.error failure s) (.error failure t)

theorem Alike.final {R : σ → σ → Prop} {left right : EStateM.Result ε σ α}
    (h : Alike R left right) : R (final left) (final right) := by
  cases h with
  | ok result related => exact related
  | error failure related => exact related

/-- From related states the program ends alike. -/
def Lockstep (R : σ → σ → Prop) (x : EStateM ε σ α) : Prop := ∀ s t, R s t → Alike R (x s) (x t)

namespace Lockstep

variable {R : σ → σ → Prop}

protected theorem pure (result : α) : Lockstep R (pure result : EStateM ε σ α) :=
  fun _ _ related => .ok result related

protected theorem bind {x : EStateM ε σ α} {f : α → EStateM ε σ β} (hx : Lockstep R x)
    (hf : ∀ result, Lockstep R (f result)) : Lockstep R (x >>= f) := by
  intro s t related
  have first := hx s t related
  simp only [bind, EStateM.bind]
  generalize x s = left at first ⊢
  generalize x t = right at first ⊢
  cases first with
  | ok result related => exact hf result _ _ related
  | error failure related => exact .error failure related

protected theorem map {x : EStateM ε σ α} (f : α → β) (hx : Lockstep R x) : Lockstep R (f <$> x) := by
  rw [map_eq_pure_bind]
  exact hx.bind fun _ => .pure _

/-- A device that answers related states alike does so to whole transactions. -/
protected theorem perform [Device (EStateM ε σ)]
    (read : ∀ address, Lockstep R (Device.read address : EStateM ε σ UInt8))
    (write : ∀ address value, Lockstep R (Device.write address value : EStateM ε σ Unit))
    (note : ∀ diagnostic, Lockstep R (Device.note diagnostic : EStateM ε σ Unit))
    (t : Transaction α) : Lockstep R (t.perform : EStateM ε σ α) := by
  induction t with
  | done result => exact .pure result
  | read address next ih => exact (read address).bind ih
  | write address value next ih => exact (write address value).bind fun _ => ih
  | note diagnostic next ih => exact (note diagnostic).bind fun _ => ih

end Lockstep

/-! ### Invariants -/

/-- The program keeps an invariant, also where it fails. -/
def Keeps (I : σ → Prop) (x : EStateM ε σ α) : Prop := ∀ s, I s → I (final (x s))

theorem keeps_iff_lockstep {I : σ → Prop} {x : EStateM ε σ α} :
    Keeps I x ↔ Lockstep (fun s t => s = t ∧ I s) x := by
  constructor
  · rintro keeps s _ ⟨rfl, inv⟩
    have after := keeps s inv
    generalize x s = outcome at after ⊢
    cases outcome with
    | ok result s' => exact .ok result ⟨rfl, after⟩
    | error failure s' => exact .error failure ⟨rfl, after⟩
  · intro lockstep s inv
    exact (lockstep s s ⟨rfl, inv⟩).final.2

namespace Keeps

variable {I : σ → Prop}

protected theorem map {x : EStateM ε σ α} (f : α → β) (hx : Keeps I x) : Keeps I (f <$> x) :=
  keeps_iff_lockstep.mpr ((keeps_iff_lockstep.mp hx).map f)

protected theorem perform [Device (EStateM ε σ)]
    (read : ∀ address, Keeps I (Device.read address : EStateM ε σ UInt8))
    (write : ∀ address value, Keeps I (Device.write address value : EStateM ε σ Unit))
    (note : ∀ diagnostic, Keeps I (Device.note diagnostic : EStateM ε σ Unit))
    (t : Transaction α) : Keeps I (t.perform : EStateM ε σ α) :=
  keeps_iff_lockstep.mpr <| .perform (fun address => keeps_iff_lockstep.mp (read address))
    (fun address value => keeps_iff_lockstep.mp (write address value))
    (fun diagnostic => keeps_iff_lockstep.mp (note diagnostic)) t

end Keeps

/-! ### Successful runs -/

section

variable {x : EStateM ε σ α} {s after : σ} {result : β}

theorem exists_of_bind_ok {f : α → EStateM ε σ β} (done : (x >>= f) s = .ok result after) :
    ∃ first between, x s = .ok first between ∧ f first between = .ok result after := by
  simp only [bind, EStateM.bind] at done
  split at done
  · exact ⟨_, _, ‹_›, done⟩
  · cases done

theorem exists_of_map_ok {f : α → β}
    (done : (f <$> x) s = .ok result after) : ∃ first, x s = .ok first after := by
  simp only [Functor.map, EStateM.map] at done
  split at done
  · cases done
    exact ⟨_, ‹_›⟩
  · cases done

end

/-! ### States of two kinds -/

/-- From related states two programs end alike, each on its own kind of state. -/
def Simulates {τ : Type} (R : σ → τ → Prop) (x : EStateM ε σ α) (y : EStateM ε τ α) : Prop :=
  ∀ s t, R s t →
    match x s, y t with
    | .ok result s, .ok result' t => result = result' ∧ R s t
    | .error failure s, .error failure' t => failure = failure' ∧ R s t
    | _, _ => False

namespace Simulates

variable {τ : Type} {R : σ → τ → Prop}

protected theorem pure (result : α) :
    Simulates R (pure result : EStateM ε σ α) (pure result : EStateM ε τ α) :=
  fun _ _ related => ⟨rfl, related⟩

protected theorem bind {x : EStateM ε σ α} {y : EStateM ε τ α} {f : α → EStateM ε σ β}
    {g : α → EStateM ε τ β} (first : Simulates R x y)
    (rest : ∀ result, Simulates R (f result) (g result)) : Simulates R (x >>= f) (y >>= g) := by
  intro s t related
  have begun := first s t related
  simp only [bind, EStateM.bind]
  generalize x s = left at begun ⊢
  generalize y t = right at begun ⊢
  match left, right, begun with
  | .ok result s, .ok _ t, ⟨rfl, related⟩ => exact rest result s t related
  | .error failure s, .error _ t, ⟨rfl, related⟩ => exact ⟨rfl, related⟩

/-- Devices that answer alike do so to whole transactions. -/
protected theorem perform [Device (EStateM ε σ)] [Device (EStateM ε τ)]
    (read : ∀ address, Simulates R (Device.read address : EStateM ε σ UInt8)
      (Device.read address : EStateM ε τ UInt8))
    (write : ∀ address value, Simulates R (Device.write address value : EStateM ε σ Unit)
      (Device.write address value : EStateM ε τ Unit))
    (note : ∀ diagnostic, Simulates R (Device.note diagnostic : EStateM ε σ Unit)
      (Device.note diagnostic : EStateM ε τ Unit))
    (t : Transaction α) : Simulates R (t.perform : EStateM ε σ α) (t.perform : EStateM ε τ α) := by
  induction t with
  | done result => exact .pure result
  | read address next ih => exact (read address).bind ih
  | write address value next ih => exact (write address value).bind fun _ => ih
  | note diagnostic next ih => exact (note diagnostic).bind fun _ => ih

end Simulates

end AppleOne
