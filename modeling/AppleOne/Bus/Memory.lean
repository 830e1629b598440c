import AppleOne.Bus.Transaction
import AppleOne.Log.Journal

/-!
Flat memory: 64K bytes without side effects. As a device it answers transactions, alone or on a
bench that keeps a log and a record of the accesses.
-/

namespace AppleOne

structure Memory where
  bytes : Vector UInt8 65536

namespace Memory

/-- All bytes zero. -/
def zero : Memory := ⟨Vector.replicate 65536 0⟩

def get (memory : Memory) (address : UInt16) : UInt8 :=
  have := address.toNat_lt
  memory.bytes[address.toNat]

def set (memory : Memory) (address : UInt16) (value : UInt8) : Memory :=
  ⟨memory.bytes.set address.toNat value address.toNat_lt⟩

@[simp] theorem get_zero (address : UInt16) : zero.get address = 0 := by simp [zero, get]

theorem get_set (memory : Memory) (address other : UInt16) (value : UInt8) :
    (memory.set address value).get other = if address = other then value else memory.get other := by
  simp only [set, get, Vector.getElem_set, UInt16.toNat_inj]

/-- Writes bytes from an address on, going round at the end of memory. -/
def write (memory : Memory) (address : UInt16) : List UInt8 → Memory
  | [] => memory
  | value :: rest => (memory.set address value).write (address + 1) rest

/-- Reads bytes from an address on, going round at the end of memory. -/
def read (memory : Memory) (address : UInt16) : Nat → List UInt8
  | 0 => []
  | length + 1 => memory.get address :: memory.read (address + 1) length

/-- Points a vector at a target, low byte first. -/
def setVector (memory : Memory) (vector target : UInt16) : Memory :=
  (memory.set vector target.toUInt8).set (vector + 1) (target >>> 8).toUInt8

/-- Copies a program and points the reset vector at it. There is none if it leaves memory. -/
def loadProgram? (memory : Memory) (address : UInt16) (program : List UInt8) : Option Memory :=
  if address.toNat + program.length ≤ 65536 then
    some ((memory.write address program).setVector resetVector address)
  else
    none

instance : Device (StateM Memory) where
  read address := fun memory => (memory.get address, memory)
  write address value := fun memory => ((), memory.set address value)
  note _ := pure ()

/-- Performs a transaction on the memory. -/
def run {α : Type} (memory : Memory) (t : Transaction α) : α × Memory :=
  (t.perform : StateM Memory α) memory

end Memory

/-- One access as seen on the bus. -/
inductive Access where
  | read (address : UInt16) (value : UInt8)
  | write (address : UInt16) (value : UInt8)
  deriving DecidableEq, Repr

/-- A bench for a lone processor: flat memory, a log, and a record of the accesses made. -/
structure Bench where
  memory : Memory
  journal : Log.Journal
  accesses : Array Access

namespace Bench

instance : Device (StateM Bench) where
  read address := fun bench =>
    let value := bench.memory.get address
    (value, { bench with accesses := bench.accesses.push (.read address value) })
  write address value := fun ⟨memory, journal, accesses⟩ =>
    ((), ⟨memory.set address value, journal, accesses.push (.write address value)⟩)
  note diagnostic := fun ⟨memory, journal, accesses⟩ =>
    ((), ⟨memory, journal.note diagnostic, accesses⟩)

/-- Performs a transaction, the record of accesses starting afresh. -/
def run {α : Type} (bench : Bench) (t : Transaction α) : α × Bench :=
  let ⟨memory, journal, _⟩ := bench
  (t.perform : StateM Bench α) ⟨memory, journal, #[]⟩

end Bench

end AppleOne
