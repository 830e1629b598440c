/-!
Levels and categories of the diagnostic log. Levels are ordered from `off` to `trace`; a category
stands for one emulated component.
-/

namespace AppleOne.Log

inductive Level where
  | off | error | warn | info | debug | trace
  deriving DecidableEq, Repr

namespace Level

/-- Position in the order of detail. -/
def rank : Level → Nat
  | off => 0
  | error => 1
  | warn => 2
  | info => 3
  | debug => 4
  | trace => 5

instance : LE Level := ⟨fun a b => a.rank ≤ b.rank⟩

instance (a b : Level) : Decidable (a ≤ b) := inferInstanceAs (Decidable (a.rank ≤ b.rank))

def all : List Level := [off, error, warn, info, debug, trace]

def name : Level → String
  | off => "Off"
  | error => "Error"
  | warn => "Warn"
  | info => "Info"
  | debug => "Debug"
  | trace => "Trace"

/-- The level that a text names, in letters of either case or as its rank. The words are ASCII, so
folding ASCII letters decides which texts name one. -/
def ofText? (text : String) : Option Level :=
  match text.map Char.toLower with
  | "off" | "0" => some off
  | "error" | "err" | "1" => some error
  | "warn" | "warning" | "2" => some warn
  | "info" | "3" => some info
  | "debug" | "4" => some debug
  | "trace" | "5" => some trace
  | _ => none

/-- What is said of a text that names no level. -/
def unknownMessage (text : String) : String := "Unknown log level: " ++ text

end Level

/-- The components that report to the log. -/
inductive Category where
  /-- Resets and breaks. -/
  | cpu
  /-- Address decoding. -/
  | bus
  /-- Keyboard and display registers. -/
  | pia
  /-- Interrupt entries. -/
  | interrupts
  /-- Behaviour that is not emulated. -/
  | stubs
  deriving DecidableEq, Repr

namespace Category

def all : List Category := [cpu, bus, pia, interrupts, stubs]

def name : Category → String
  | cpu => "CPU"
  | bus => "Bus"
  | pia => "Pia"
  | interrupts => "Interrupts"
  | stubs => "Stubs"

def ofName? (text : String) : Option Category := all.find? (·.name == text)

def index : Category → Fin 5
  | cpu => 0
  | bus => 1
  | pia => 2
  | interrupts => 3
  | stubs => 4

theorem index_inj {a b : Category} : a.index = b.index ↔ a = b := by
  cases a <;> cases b <;> decide

end Category

/-- One value for each category. -/
structure PerCategory (α : Type) where
  values : Vector α 5

namespace PerCategory

variable {α : Type}

def const (value : α) : PerCategory α := ⟨Vector.replicate 5 value⟩

def get (p : PerCategory α) (category : Category) : α := p.values[category.index]

def set (p : PerCategory α) (category : Category) (value : α) : PerCategory α :=
  ⟨p.values.set category.index value⟩

@[simp] theorem get_const (value : α) (category : Category) : (const value).get category = value := by
  simp [const, get]

theorem get_set (p : PerCategory α) (category other : Category) (value : α) :
    (p.set category value).get other = if category = other then value else p.get other := by
  simp only [set, get, Fin.getElem_fin, Vector.getElem_set, Fin.val_inj, Category.index_inj]

end PerCategory

end AppleOne.Log
