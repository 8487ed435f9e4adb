import Scenario.Code.Expression

/-!
# Scenario.Code.Operand

Decoded code: instructions and their operands, and the bytes they stand for.

Instruction values are not restricted to what a reader produces.  Fields are
integers of any size and calls nest to any depth; writing fails where a
field does not fit.  An operand may also be missing, in which case the
instruction has neither a size nor bytes.
-/

namespace Scenario

/-- A 16-bit pool offset at position `codeAddress` of the code, and the text
found there. -/
structure StringRef where
  codeAddress : Int
  offset : Int
  text : String
  deriving DecidableEq, Repr

/-- An operand of an instruction or of a nested call. -/
inductive Operand where
  | expression (e : Expression)
  | string (r : StringRef)
  /-- A field of `width` bytes that is not interpreted. -/
  | raw (name : String) (width value : Int)
  /-- The jump table of a switch: where to go by default, and case numbers
  with their targets. -/
  | switch (default : Int) (cases : List (Int × Int))
  /-- A function called through the dialect's table. -/
  | function (address code : Int) (mnemonic : String) (operands : List Operand)
  | missing

/-- A top-level instruction; `address` is the file offset of its opcode. -/
structure Instruction where
  address : Int
  opcode : Int
  mnemonic : String
  operands : List Operand

namespace Operand

/-! ## Sizes -/

mutual

/-- Bytes that an operand occupies, unless one is missing in it. -/
def size? : Operand → Option Int
  | .expression e => some e.size
  | .string _ => some 2
  | .raw _ width _ => some width
  | .switch _ cases => some (3 + 3 * cases.length)
  | .function _ _ _ operands => (totalSize? operands).map (1 + ·)
  | .missing => none

/-- Bytes that a run of operands occupies. -/
def totalSize? : List Operand → Option Int
  | [] => some 0
  | o :: os =>
    match size? o, totalSize? os with
    | some a, some b => some (a + b)
    | _, _ => none

end

/-! ## References -/

mutual

/-- The string references of an operand, those of nested calls included, in
operand order. -/
def references : Operand → List StringRef
  | .string r => [r]
  | .function _ _ _ operands => allReferences operands
  | _ => []

/-- The string references of a run of operands. -/
def allReferences : List Operand → List StringRef
  | [] => []
  | o :: os => references o ++ allReferences os

end

/-! ## Writing -/

/-- A code byte. -/
def codeByte (code : Int) : Except Error UInt8 :=
  if 0 ≤ code ∧ code < 256 then .ok (UInt8.ofNat code.toNat) else .error .codeRange

/-- Bytes of an uninterpreted field.  The width is checked before the
value. -/
def encodeRaw (width value : Int) : Except Error Bytes :=
  if !Bytes.isCountable width then .error .widthRange
  else if width < 0 then .error .widthNegative
  else if Bytes.maxLength < width then .error .widthTooLong
  else if !Bytes.isHeld width then .error .outOfMemory
  else if value < 0 then .error .rawNegative
  else if Nat.pow 256 width.toNat ≤ value then .error .rawTooLarge
  else .ok (Bytes.ofNat width.toNat value.toNat)

/-- Bytes of one case of a switch. -/
def encodeCase (case : Int × Int) : Except Error Bytes := do
  let number ← Bytes.byte case.1
  let target ← Bytes.pack 2 case.2
  return number :: target

/-- Bytes of a jump table. -/
def encodeSwitch (default : Int) (cases : List (Int × Int)) : Except Error Bytes := do
  let head ← Bytes.pack 2 default
  let count ← Bytes.byte cases.length
  let body ← cases.mapM encodeCase
  return head ++ count :: body.flatten

mutual

/-- Bytes of an operand. -/
def encode : Operand → Except Error Bytes
  | .expression e => Expression.encodeTokens e.tokens
  | .string r => Bytes.pack 2 r.offset
  | .raw _ width value => encodeRaw width value
  | .switch default cases => encodeSwitch default cases
  | .function _ code _ operands => do
    let first ← codeByte code
    let rest ← encodeAll operands
    return first :: rest
  | .missing => .error .unsupportedOperand

/-- Bytes of a run of operands. -/
def encodeAll : List Operand → Except Error Bytes
  | [] => .ok []
  | o :: os => do
    let first ← encode o
    let rest ← encodeAll os
    return first ++ rest

end

end Operand

namespace Instruction

/-- Bytes that an instruction occupies, unless an operand is missing. -/
def size? (i : Instruction) : Option Int := (Operand.totalSize? i.operands).map (1 + ·)

/-- The string references of an instruction, in operand order. -/
def references (i : Instruction) : List StringRef := Operand.allReferences i.operands

/-- Mnemonic of the first nested call. -/
def functionName? (i : Instruction) : Option String :=
  i.operands.findSome? fun
    | .function _ _ mnemonic _ => some mnemonic
    | _ => none

/-- Bytes of an instruction. -/
def encode (i : Instruction) : Except Error Bytes := do
  let first ← Operand.codeByte i.opcode
  let rest ← Operand.encodeAll i.operands
  return first :: rest

/-- Bytes of a run of instructions. -/
def encodeAll (instructions : List Instruction) : Except Error Bytes := do
  let parts ← instructions.mapM encode
  return parts.flatten

end Instruction

end Scenario
