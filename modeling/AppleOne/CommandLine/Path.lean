/-!
Paths to files: steps from one directory to another, with slashes between them, and the places they
lead to.
-/

namespace AppleOne.CommandLine

/-- A step of a path. -/
inductive PathStep where
  /-- Stays in the directory. -/
  | here
  /-- Goes to the directory above. -/
  | up
  | into (name : String)
  deriving DecidableEq, Repr

/-- The most bytes that a name may have. -/
def longestName : Nat := 255

/-- The most bytes that a path may have. -/
def longestPath : Nat := 4095

namespace PathStep

def ofPart : List Char → PathStep
  | ['.'] => .here
  | ['.', '.'] => .up
  | name => .into (String.ofList name)

def tooLong : PathStep → Bool
  | .into name => decide (longestName < name.utf8ByteSize)
  | _ => false

end PathStep

/-- The parts of a text between its slashes. -/
def slashParts : List Char → List (List Char)
  | [] => [[]]
  | c :: rest =>
    if c = '/' then [] :: slashParts rest
    else
      match slashParts rest with
      | [] => [[c]]
      | part :: parts => (c :: part) :: parts

/-- Where a path starts. -/
inductive Origin where
  | root
  /-- The directory some levels above the working directory. -/
  | working (levels : Nat)
  deriving DecidableEq, Repr

/-- The directory above. The root is its own. -/
def Origin.above : Origin → Origin
  | root => root
  | working levels => working (levels + 1)

/-- A place among the files: names that lead down from an origin. -/
structure Place where
  origin : Origin
  names : List String
  deriving DecidableEq, Repr

/-- Where a step leads, if it can be made. -/
def Place.after (place : Place) : PathStep → Place
  | .here => place
  | .up =>
    if place.names.isEmpty then ⟨place.origin.above, []⟩ else ⟨place.origin, place.names.dropLast⟩
  | .into name => ⟨place.origin, place.names ++ [name]⟩

structure Path where
  start : Origin
  steps : List PathStep
  /-- Whether it ends with a slash, as only a path to a directory may. -/
  slashed : Bool
  deriving DecidableEq, Repr

namespace Path

/-- Takes a path apart. Several slashes in a row are as good as one. -/
def ofText (text : String) : Path where
  start := if text.toList.head? = some '/' then .root else .working 0
  steps := ((slashParts text.toList).filter (!·.isEmpty)).map PathStep.ofPart
  slashed := text.toList.getLast? == some '/'

/-- Where a path leads, if every step can be made. -/
def place (path : Path) : Place := path.steps.foldl Place.after ⟨path.start, []⟩

end Path

end AppleOne.CommandLine
