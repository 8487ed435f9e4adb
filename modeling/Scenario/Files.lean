import Scenario.Bytes
import Scenario.Files.Path
import Scenario.Host
import Scenario.Ordered

/-!
# Scenario.Files

Files and directories as a value: a tree that maps locations to what lies
there.  Operations fail as those of an operating system do, and a failure
names the path that was asked for.

1. The directories from which paths start always exist.
2. A path is followed part by part.  Every part but the last must lead to a
   directory, and two dots lead to the directory that holds it.  A name has
   at most 255 bytes and a path at most 4095.
3. A file is only written into a directory that exists, and never over a
   directory.
4. Making a directory makes those above it as well, and is content with one
   that exists.  Where it fails, the directories made before stay.
5. A file may be locked, and then it can be neither read nor written.  In all
   other places everything is allowed.  There are no links: what lies at two
   locations are two things.
-/

namespace Scenario

/-- What lies at a location. -/
inductive Node where
  | file (data : Bytes)
  /-- A file that can be neither read nor written. -/
  | locked
  | directory
  deriving DecidableEq, Repr

/-- Files and directories by location. -/
structure Tree where
  entries : Ordered Location Node

namespace Tree

/-- Nothing but the directories from which paths start. -/
def empty : Tree := ⟨.empty⟩

/-- What lies at a location. -/
def get? (t : Tree) (l : Location) : Option Node :=
  if l.names.isEmpty then some .directory else t.entries.get? l

/-- The tree with something else at a location. -/
def set (t : Tree) (l : Location) (node : Node) : Tree := ⟨t.entries.set l node⟩

/-- The names in a directory, in the order of code points. -/
def names (t : Tree) (l : Location) : List String :=
  (t.entries.toList.filterMap fun (m, _) =>
    match m.names.getLast? with
    | some name => if m.up = l then some name else none
    | none => none).mergeSort fun a b => a ≤ b

/-! ## Following paths -/

/-- Greatest number of bytes in a name. -/
def maxName : Nat := 255

/-- Greatest number of bytes in a path. -/
def maxPath : Nat := 4095

/-- Follows one part of a path. -/
def step (t : Tree) (l : Location) (part : String) : Except FileFault Location :=
  match t.get? l with
  | none => .error .notFound
  | some (.file _) | some .locked => .error .notDirectory
  | some .directory =>
    if part = ".." then .ok l.up
    else if maxName < part.utf8ByteSize then .error .nameTooLong
    else .ok (l.child part)

/-- The location that a path leads to.  Whether something lies there is left
open. -/
def locate (t : Tree) (p : Path) : Except FileFault Location :=
  if maxPath < p.toString.utf8ByteSize then .error .nameTooLong
  else p.parts.foldlM t.step p.start

/-- What a path leads to. -/
def find (t : Tree) (p : Path) : Except FileFault Node := do
  match t.get? (← t.locate p) with
  | some node => .ok node
  | none => .error .notFound

/-- What a path leads to, if anything.  A name that is too long is still a
failure. -/
def find? (t : Tree) (p : Path) : Except FileError (Option Node) :=
  if p.hasNull then .ok none
  else
    match t.find p with
    | .ok node => .ok (some node)
    | .error .nameTooLong => .error (.refused .nameTooLong p.toString)
    | .error _ => .ok none

/-- Whether a path leads to a file. -/
def isFile (t : Tree) (p : Path) : Except FileError Bool := do
  match ← t.find? p with
  | some (.file _) | some .locked => return true
  | _ => return false

/-- Whether a path leads to a directory. -/
def isDirectory (t : Tree) (p : Path) : Except FileError Bool := do
  return (← t.find? p) = some .directory

/-! ## Operations -/

/-- A result for a path. -/
def answer {α : Type} (p : Path) (r : Except FileFault α) : Except FileError α :=
  if p.hasNull then .error .nullInPath
  else
    match r with
    | .ok a => .ok a
    | .error fault => .error (.refused fault p.toString)

/-- The contents of a file. -/
def readFile (t : Tree) (p : Path) : Except FileError Bytes :=
  answer p do
    match ← t.find p with
    | .file data => .ok data
    | .locked => .error .denied
    | .directory => .error .isDirectory

/-- The names of the files in a directory, in the order of code points. -/
def fileNames (t : Tree) (p : Path) : Except FileError (List String) := do
  let names ← answer p do
    let l ← t.locate p
    match t.get? l with
    | some .directory => .ok (t.names l)
    | some (.file _) | some .locked => .error .notDirectory
    | none => .error .notFound
  names.filterM fun name => t.isFile (p.child name)

/-- The location where a file can be written. -/
def target (t : Tree) (p : Path) : Except FileError Location :=
  answer p do
    let l ← t.locate p
    if t.get? l = some .directory then .error .isDirectory
    else if t.get? l = some .locked then .error .denied
    else .ok l

/-- Writes a file. -/
def writeFile (t : Tree) (p : Path) (data : Bytes) : Except FileError Tree := do
  return t.set (← t.target p) (.file data)

/-- Makes one directory. -/
def makeOne (t : Tree) (p : Path) : Except FileFault Tree := do
  let l ← t.locate p
  if (t.get? l).isSome then .error .exists else .ok (t.set l .directory)

/-- Settles what became of making a directory: a refusal does not count where
there is one. -/
def settle (t : Tree) (p : Path) : Except FileFault Tree → Tree × Except FileError Unit
  | .ok t' => (t', .ok ())
  | .error fault =>
    match t.find p with
    | .ok .directory => (t, .ok ())
    | _ => (t, .error (.refused fault p.toString))

/-- Makes the directory with these parts, the last of which comes first, and
those above it, `depth` of them at most. -/
def makeParts (t : Tree) (slashes : Nat) :
    (depth : Nat) → (reversed : List String) → Tree × Except FileError Unit
  | _, [] => (t, .ok ())
  | 0, _ => (t, .error .tooDeep)
  | depth + 1, part :: above =>
    let p : Path := ⟨slashes, (part :: above).reverse⟩
    match t.makeOne p with
    | .error .notFound =>
      match t.makeParts slashes depth above with
      | (t', .ok ()) => t'.settle p (t'.makeOne p)
      | failed => failed
    | result => t.settle p result

/-- Makes a directory and those above it. -/
def makeDirectory [Host] (t : Tree) (p : Path) : Tree × Except FileError Unit :=
  if p.hasNull then (t, .error .nullInPath)
  else t.makeParts p.slashes Host.maxDepth p.parts.reverse

/-! ## Changes -/

/-- What is new or different at a location: the contents of a file, or a new
directory. -/
def change? (before : Tree) (l : Location) : Node → Option (Option Bytes)
  | .file data => if before.get? l = some (.file data) then none else some (some data)
  | .locked => none
  | .directory => if before.get? l = some .directory then none else some none

/-- What is new or different in a tree, the outermost directories first. -/
def changes (before after : Tree) : List (Location × Option Bytes) :=
  after.entries.toList.filterMap fun (l, node) => (before.change? l node).map fun change => (l, change)

end Tree

end Scenario
