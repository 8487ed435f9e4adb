import Scenario.Command

/-!
# Scenario.Main

The command line program.  It takes in what lies at the paths of a command,
carries the command out on that, and writes back what has changed.
-/

namespace Scenario

/-- Adds what lies at a path to a tree that holds what lies on the way. -/
def takeIn (t : Tree) (p : Path) : IO Tree := do
  match t.locate p with
  | .error _ => return t
  | .ok l =>
    let place := (← IO.currentDir) / p.toString
    if ← place.isDir then return t.set l .directory
    else if ← place.pathExists then
      try return t.set l (.file (← IO.FS.readBinFile place).toList)
      catch _ => return t.set l .locked
    else return t

/-- Adds what lies in a directory to a tree. -/
def takeInBelow (t : Tree) (p : Path) : IO Tree := do
  let place := (← IO.currentDir) / p.toString
  if ← place.isDir then
    (← place.readDir).toList.foldlM (fun t entry => takeIn t (p.child entry.fileName)) t
  else return t

/-- What lies at paths, on the way to them and in them. -/
def snapshot (paths : List Path) : IO Tree :=
  (paths.filter fun p => !p.hasNull).foldlM (fun t p => do
    let t ← (p.ancestors ++ [p]).foldlM takeIn t
    takeInBelow t p) Tree.empty

/-- Makes the changes between two trees. -/
def writeBack (before after : Tree) : IO Unit :=
  (before.changes after).forM fun (l, data) =>
    match data with
    | some data => IO.FS.writeBinFile l.toPath.toString (ByteArray.mk data.toArray)
    | none => IO.FS.createDirAll l.toPath.toString

/-- Carries a command out on the files outside. -/
def carryOut (c : Command) : IO UInt32 := do
  let files ← snapshot c.action.paths
  let outcome := c.run files
  writeBack files outcome.files
  outcome.log.forM fun line => IO.eprintln line
  outcome.printed.forM fun line => IO.println line
  match outcome.status with
  | .ok status => return status.toUInt32
  | .error e =>
    IO.eprintln e.message
    return 1

end Scenario

/-- Reads the command line and carries the command out. -/
def main (words : List String) : IO UInt32 := do
  match Scenario.Arguments.parse words with
  | .ok c => Scenario.carryOut c
  | .error .help =>
    IO.println Scenario.Arguments.usage
    return 0
  | .error .misuse =>
    IO.eprintln Scenario.Arguments.usage
    return 2
