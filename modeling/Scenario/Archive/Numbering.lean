import Scenario.Error
import Scenario.Text.Digit
import Std.Data.HashSet

/-!
# Scenario.Archive.Numbering

Which files of a directory are packed.  Entries are numbered files; a name of
five decimal digits, of whatever script, takes part, also with a line feed
behind it.  The files are taken in the order of their names, and every number
up to that of the last one must be present in ASCII digits.
-/

namespace Scenario.Archive

/-- The digits of a name that takes part in an archive. -/
def nameDigits? (name : String) : Option (List Char) :=
  let digits := name.toList.takeWhile Text.isDecimalDigit
  let rest := name.toList.drop 5
  if digits.length = 5 ∧ (rest = [] ∨ rest = ['\n']) then some digits else none

/-- Whether a file takes part in an archive. -/
def isNumbered (name : String) : Bool := (nameDigits? name).isSome

/-- The number that a name spells. -/
def numberOf (name : String) : Nat := Text.decimalValue ((nameDigits? name).getD [])

/-- The lowest index below `count`, counted from `index`, whose file is not
present. -/
def firstMissing? (present : Std.HashSet String) : (count index : Nat) → Option Nat
  | 0, _ => none
  | count + 1, index =>
    if present.contains (Numeral.decimalPadded 5 index) then firstMissing? present count (index + 1)
    else some index

/-- The files to pack among the files of a directory. -/
def numberedFiles (directory : String) (names : List String) : Except Error (List String) :=
  let files := (names.filter isNumbered).mergeSort fun a b => a ≤ b
  match files.getLast? with
  | none => .error (.archive (.nothingToPack (some directory)))
  | some last =>
    match firstMissing? (.ofList files) (numberOf last + 1) 0 with
    | some index => .error (.archive (.missingFile index directory))
    | none => .ok files

end Scenario.Archive
