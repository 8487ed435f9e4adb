import Scenario.Dialect.V0
import Scenario.Dialect.V1
import Scenario.Dialect.V2
import Scenario.Text.Blank

/-!
# Scenario.Dialect

What an opcode byte means.  Opcodes are the same in every format; functions
differ, and a dialect is a name with a table of functions.  Three dialects
belong to versions of the script format; any other table makes a dialect of
its own.
-/

namespace Scenario

open ArgumentKind OperandKind

/-- The opcodes, in ascending order. -/
def opcodes : List (UInt8 × Spec OperandKind) := [
  (0x00, ⟨"exec_func", [function], ["function"]⟩),
  (0x04, ⟨"store_v", [byte, argument word, argument expression], ["register", "mask", "value"]⟩),
  (0x05, ⟨"store_f", [byte, argument word, function], ["register", "mask", "function"]⟩),
  (0x08, ⟨"jump", [argument word], ["target"]⟩),
  (0x09, ⟨"switch", [byte, argument word, switch], ["register", "mask", "table"]⟩),
  (0x0A, ⟨"load_script", [argument expression], ["script"]⟩),
  (0x0B, ⟨"call", [argument expression, argument expression], ["label", "arg"]⟩),
  (0x0C, ⟨"jump_label", [argument expression], ["label"]⟩),
  (0x0D, ⟨"ret", [], []⟩),
  (0x10, ⟨"call_script", [argument expression, argument expression, argument expression],
    ["script", "label", "arg"]⟩),
  (0x11, ⟨"opcode_11", [], []⟩),
  (0x12, ⟨"jump_true", [argument expression, argument word], ["flag", "target"]⟩)]

/-- A name and the functions that go with it. -/
structure Dialect where
  name : String
  functions : FunctionTable

/-- The versions of the script format. -/
inductive Version where
  | v0
  | v1
  | v2
  deriving DecidableEq, Repr

namespace Version

/-- All versions, in order. -/
def all : List Version := [v0, v1, v2]

/-- The version of a script unless another is asked for. -/
def default : Version := v0

/-- The name of a version. -/
def name : Version → String
  | v0 => "v0"
  | v1 => "v1"
  | v2 => "v2"

/-- Other names of a version. -/
def aliases : Version → List String
  | v0 => ["0", "legacy"]
  | v1 => ["1"]
  | v2 => ["2"]

/-- One sentence on a version. -/
def description : Version → String
  | v0 => "Unversioned script format (no version flag)"
  | v1 => "Script format selected with the v1 flag"
  | v2 => "Script format selected with the v2 flag; adds a raw u16 suffix to function 0x9F"

/-- A version's tables as diagnostics show them. -/
def display : Version → String
  | v0 => "<LegacyHandler v0>"
  | v1 => "<V1Handler v1>"
  | v2 => "<V2Handler v2>"

/-- Every name that the command line takes. -/
def choices : List String := all.flatMap fun v => v.name :: v.aliases

/-- A key as it is compared with names: numbers in decimal, without white
space at the ends, in lower case. -/
def normalKey : VersionKey → String
  | .text name => (Text.strip name).toLower
  | .number value => Numeral.decimal value
  | .blank => VersionKey.blank.shown

/-- The version that a key names. -/
def ofKey (key : VersionKey) : Except Error Version :=
  match all.find? fun v => (v.name :: v.aliases).contains (normalKey key) with
  | some v => .ok v
  | none => .error (.unknownVersion key)

/-- The table of signatures that are known to be sound; it would be empty if
one were not. -/
def soundTable (runs : List (Int × List String)) (names : List (Int × String)) : FunctionTable :=
  match FunctionTable.build (FunctionTable.expandRuns runs) names with
  | .ok table => table
  | .error _ => []

/-- Functions of the unversioned format. -/
def functions0 : FunctionTable := soundTable Dialect.V0.signatureRuns Dialect.V0.names

/-- Functions of format v1. -/
def functions1 : FunctionTable := soundTable Dialect.V1.signatureRuns Dialect.V1.names

/-- Functions of format v2. -/
def functions2 : FunctionTable := soundTable Dialect.V2.signatureRuns Dialect.V2.names

/-- The dialect of a version. -/
def dialect (v : Version) : Dialect :=
  { name := v.name
    functions :=
      match v with
      | v0 => functions0
      | v1 => functions1
      | v2 => functions2 }

end Version

end Scenario
