import Std.Data.TreeMap

/-!
# Scenario.Files.Path

Paths, and the places they lead to.

A path is what a text says: where it starts from and its parts, of which two
dots are one like any other.  It keeps its wording, because messages show
paths as they were given.  A location is a place among the files: the names
that lead to it, with no dots in them.  Two paths may lead to one location,
and which location a path leads to depends on what lies on the way.
-/

namespace Scenario

/-! ## Paths -/

/-- A path as its parts.  Empty parts and single dots do not count. -/
structure Path where
  /-- How many slashes it starts with, none for a relative path.  Two are
  kept, more count as one. -/
  slashes : Nat
  parts : List String
  deriving DecidableEq, Repr

namespace Path

/-- How many slashes a path keeps of those that a text starts with. -/
def slashesOf (s : String) : Nat :=
  match (s.toList.takeWhile (· == '/')).length with
  | 0 => 0
  | 2 => 2
  | _ => 1

/-- The path that a text names. -/
def ofString (s : String) : Path :=
  { slashes := slashesOf s
    parts := (s.splitOn "/").filter fun part => part != "" && part != "." }

/-- The text of a path. -/
def toString (p : Path) : String :=
  match p.slashes, p.parts with
  | 0, [] => "."
  | slashes, parts => String.ofList (List.replicate slashes '/') ++ "/".intercalate parts

/-- The last part of a path. -/
def name (p : Path) : String := p.parts.getLast?.getD ""

/-- The directory that holds what the path names. -/
def parent (p : Path) : Path := { p with parts := p.parts.dropLast }

/-- What has the given name in the directory. -/
def child (p : Path) (name : String) : Path := { p with parts := p.parts ++ [name] }

/-- The paths of all directories on the way, the outermost first. -/
def ancestors (p : Path) : List Path :=
  (List.range p.parts.length).map fun count => { p with parts := p.parts.take count }

/-- Whether a path holds a null character.  No file has such a path. -/
def hasNull (p : Path) : Bool := p.parts.any fun part => part.toList.contains '\x00'

end Path

/-! ## Locations -/

/-- Where the way to a location starts. -/
inductive Base where
  /-- The outermost directory of all. -/
  | top
  /-- The directory that many levels above the working directory. -/
  | above (levels : Nat)
  deriving DecidableEq, Repr

/-- Bases in order: the outermost directory, then the others by their
levels. -/
def Base.rank : Base → Nat
  | top => 0
  | above levels => levels + 1

/-- A place among the files: the names on the way to it. -/
structure Location where
  base : Base
  names : List String
  deriving DecidableEq, Repr

namespace Location

/-- The order of locations: by their bases first, and then by their names. -/
def order : Location → Location → Ordering :=
  compareLex (compareOn fun l => l.base.rank) (compareOn names)

instance : Ord Location := ⟨order⟩

instance : Std.TransOrd Location :=
  inferInstanceAs (Std.TransCmp (compareLex (compareOn fun l : Location => l.base.rank)
    (compareOn names)))

instance : Std.LawfulEqOrd Location where
  eq_of_compare := by
    rintro ⟨a, as⟩ ⟨b, bs⟩ (h : (compare a.rank b.rank).then (compare as bs) = .eq)
    simp only [Ordering.then_eq_eq, Std.LawfulEqCmp.compare_eq_iff_eq] at h
    cases a <;> cases b <;> simp_all [Base.rank]

/-- The working directory. -/
def working : Location := ⟨.above 0, []⟩

/-- The place of a name in a directory. -/
def child (l : Location) (name : String) : Location := { l with names := l.names ++ [name] }

/-- The directory that holds a place.  Nothing holds the outermost one. -/
def up (l : Location) : Location :=
  match l.names, l.base with
  | [], .top => l
  | [], .above levels => ⟨.above (levels + 1), []⟩
  | names, base => ⟨base, names.dropLast⟩

/-- A path that leads to a location, if the names on the way are directories. -/
def toPath (l : Location) : Path :=
  match l.base with
  | .top => ⟨1, l.names⟩
  | .above levels => ⟨0, List.replicate levels ".." ++ l.names⟩

end Location

/-- Where the way of a path starts. -/
def Path.start (p : Path) : Location :=
  if p.slashes = 0 then .working else ⟨.top, []⟩

end Scenario
