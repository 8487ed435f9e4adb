import Scenario.Error

/-!
# Scenario.Dialect.Signature

Operand schemas, written as signatures with one letter for each operand:

```
B   raw byte
W   raw 16-bit field
E   expression
S   string reference
F   nested function of the dialect
T   jump table of a switch
```

Functions take only `W`, `E` and `S`, so calls do not nest further; the two
kinds of schema have types of their own.
-/

namespace Scenario

/-! ## Kinds of operand -/

/-- What a function can take as an operand. -/
inductive ArgumentKind where
  | word
  | expression
  | string
  deriving DecidableEq, Repr

/-- What an instruction can take as an operand. -/
inductive OperandKind where
  | byte
  | argument (kind : ArgumentKind)
  | function
  | switch
  deriving DecidableEq, Repr

namespace ArgumentKind

/-- The letter of a kind. -/
def letter : ArgumentKind → Char
  | word => 'W'
  | expression => 'E'
  | string => 'S'

/-- The kind of a letter. -/
def ofLetter? : Char → Option ArgumentKind
  | 'W' => some word
  | 'E' => some expression
  | 'S' => some string
  | _ => none

end ArgumentKind

namespace OperandKind

/-- The letter of a kind. -/
def letter : OperandKind → Char
  | byte => 'B'
  | argument kind => kind.letter
  | function => 'F'
  | switch => 'T'

/-- All letters. -/
def letters : List Char := ['B', 'W', 'E', 'S', 'F', 'T']

end OperandKind

/-! ## Schemas -/

/-- Mnemonic and operands of an opcode or of a function. -/
structure Spec (κ : Type) where
  mnemonic : String
  operands : List κ
  /-- Names of the leading operands. -/
  names : List String

namespace Spec

variable {κ : Type}

/-- Name of the operand at an index. -/
def operandName (spec : Spec κ) (index : Nat) : String :=
  (spec.names[index]?).getD ("arg" ++ Numeral.decimal index)

/-- Names of all operands. -/
def operandNames (spec : Spec κ) : List String :=
  (List.range spec.operands.length).map spec.operandName

/-- The signature of a schema. -/
def signature (letter : κ → Char) (spec : Spec κ) : String :=
  String.ofList (spec.operands.map letter)

end Spec

namespace Signature

/-- Reads a signature letter by letter; the first letter that `read` does not
know is an error. -/
def parse {κ : Type} (read : Char → Option κ) (signature : String) : Except Error (List κ) :=
  signature.toList.mapM fun letter =>
    match read letter with
    | some kind => .ok kind
    | none => .error (.unknownKind letter signature)

end Signature

/-! ## Function tables -/

/-- Functions of a dialect by their code. -/
abbrev FunctionTable := List (UInt8 × Spec ArgumentKind)

namespace FunctionTable

/-- The table entry of a code and its signature.  A function without a name
is called after its code. -/
def entry (names : List (Int × String)) (code : Int) (signature : String) :
    Except Error (UInt8 × Spec ArgumentKind) :=
  if code < 0 ∨ 0xFF < code then .error (.functionCode code)
  else do
    let operands ← Signature.parse ArgumentKind.ofLetter? signature
    let mnemonic := (names.lookup code).getD ("func_" ++ Numeral.hex 2 code)
    return (UInt8.ofNat code.toNat, { mnemonic, operands, names := [] })

/-- The table of a dictionary of signatures, in ascending order of code.  The
lowest code at fault gives the error. -/
def build (signatures names : List (Int × String)) : Except Error FunctionTable :=
  (signatures.mergeSort fun a b => a.1 ≤ b.1).mapM fun (code, signature) =>
    entry names code signature

/-- Pairs of code and signature of runs of consecutive codes. -/
def expandRuns (runs : List (Int × List String)) : List (Int × String) :=
  runs.flatMap fun (first, signatures) =>
    signatures.zipIdx.map fun (signature, i) => (first + i, signature)

end FunctionTable

end Scenario
