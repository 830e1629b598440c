import AppleOne.Log.Diagnostic

/-!
What a processor asks of the bus. A transaction is the tree of its reads and writes, each read
branching on the byte that comes back; a device answers it. Whatever holds for every answer is a
property of the tree alone, and a run on a device is one fold over it.
-/

namespace AppleOne

open Log (Diagnostic)

/-- A sequence of bus accesses, each of which may depend on the bytes read before it, that ends with
a result. -/
inductive Transaction (α : Type) where
  | done (result : α)
  | read (address : UInt16) (next : UInt8 → Transaction α)
  | write (address : UInt16) (value : UInt8) (next : Transaction α)
  | note (diagnostic : Diagnostic) (next : Transaction α)

/-- A context in which accesses can be performed. -/
class Device (m : Type → Type) where
  read : UInt16 → m UInt8
  write : UInt16 → UInt8 → m Unit
  note : Diagnostic → m Unit

namespace Transaction

variable {α β γ : Type}

protected def bind : Transaction α → (α → Transaction β) → Transaction β
  | done result, f => f result
  | read address next, f => .read address fun value => (next value).bind f
  | write address value next, f => .write address value (next.bind f)
  | note diagnostic next, f => .note diagnostic (next.bind f)

instance : Monad Transaction where
  pure := .done
  bind := .bind

@[simp] theorem pure_eq (result : α) : (pure result : Transaction α) = .done result := rfl

@[simp] theorem done_bind (result : α) (f : α → Transaction β) : (done result >>= f) = f result := rfl

@[simp] theorem read_bind (address : UInt16) (next : UInt8 → Transaction α) (f : α → Transaction β) :
    (read address next >>= f) = read address fun value => next value >>= f := rfl

@[simp] theorem write_bind (address : UInt16) (value : UInt8) (next : Transaction α)
    (f : α → Transaction β) : (write address value next >>= f) = write address value (next >>= f) := rfl

@[simp] theorem note_bind (diagnostic : Diagnostic) (next : Transaction α) (f : α → Transaction β) :
    (note diagnostic next >>= f) = note diagnostic (next >>= f) := rfl

protected theorem bind_done (t : Transaction α) : t.bind done = t := by
  induction t with
  | done => rfl
  | read address next ih => exact congrArg (read address) (funext ih)
  | write address value next ih => exact congrArg (write address value) ih
  | note diagnostic next ih => exact congrArg (note diagnostic) ih

protected theorem bind_bind (t : Transaction α) (f : α → Transaction β) (g : β → Transaction γ) :
    (t.bind f).bind g = t.bind fun result => (f result).bind g := by
  induction t with
  | done => rfl
  | read address next ih => exact congrArg (read address) (funext ih)
  | write address value next ih => exact congrArg (write address value) ih
  | note diagnostic next ih => exact congrArg (note diagnostic) ih

instance : LawfulMonad Transaction :=
  LawfulMonad.mk' Transaction Transaction.bind_done (fun _ _ => rfl) Transaction.bind_bind

/-- Reads one byte. -/
def byteAt (address : UInt16) : Transaction UInt8 := .read address .done

/-- Writes one byte. -/
def store (address : UInt16) (value : UInt8) : Transaction Unit := .write address value (.done ())

/-- Reports to the log. -/
def report (diagnostic : Diagnostic) : Transaction Unit := .note diagnostic (.done ())

/-- Performs the accesses in order on a device. -/
@[specialize] def perform {m : Type → Type} [Monad m] [Device m] : Transaction α → m α
  | done result => pure result
  | read address next => do
    let value ← Device.read address
    (next value).perform
  | write address value next => do
    Device.write address value
    next.perform
  | note diagnostic next => do
    Device.note diagnostic
    next.perform

theorem perform_bind {m : Type → Type} [Monad m] [LawfulMonad m] [Device m] (t : Transaction α)
    (f : α → Transaction β) :
    (t >>= f).perform (m := m) = t.perform >>= fun result => (f result).perform := by
  induction t with
  | done => simp [perform]
  | read address next ih => simp [perform, ih]
  | write address value next ih => simp [perform, ih]
  | note diagnostic next ih => simp [perform, ih]

end Transaction

end AppleOne
