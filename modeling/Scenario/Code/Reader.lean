import Scenario.Code.Cursor
import Scenario.Code.Operand
import Scenario.Dialect
import Scenario.Image
import Scenario.Pool

/-!
# Scenario.Code.Reader

From code bytes to instructions.  Code has no length fields: each opcode's
schema says how many bytes belong to its instruction, and the opcodes for
calls look a second byte up in the functions of the dialect.

1. Reading goes from the first byte to the last.  Fewer than four bytes at
   the end that are all zero are padding and end it as well.
2. Every string reference is resolved as it is read; one that points outside
   the pool ends decoding.
3. The positions of string fields are noted in the order of reading.
4. When decoding fails, the instructions read before are still known.
-/

namespace Scenario

/-- What code refers to: the functions of a dialect, and the texts of a
pool in an encoding. -/
structure Context where
  dialect : Dialect
  pool : Pool.Index
  encoding : String

namespace Read

variable {κ : Type} [Codecs]

/-! ## Operands -/

/-- Resolves a pool offset that was read at `address`. -/
def resolve (ctx : Context) (offset : Nat) (address : Int) : Read String := fun c =>
  match ctx.pool.resolve offset ctx.encoding (some address) with
  | .ok text => .ok text c
  | .error e => .error e c

/-- Reads a string reference and notes its position. -/
def stringRef (ctx : Context) : Read StringRef := do
  let address ← address
  let position ← position
  let offset ← u16
  let text ← resolve ctx offset address
  noteField position
  return { codeAddress := position, offset, text }

/-- Reads an operand that a function can take. -/
def argument (ctx : Context) (name : String) : ArgumentKind → Read Operand
  | .word => do return .raw name 2 (← u16)
  | .expression => do return .expression (← expression)
  | .string => do return .string (← stringRef ctx)

/-- Reads the operands of `kinds`, the first of which has the index `index`
in its schema. -/
def operands (read : String → κ → Read Operand) (spec : Spec κ) :
    (index : Nat) → (kinds : List κ) → Read (List Operand)
  | _, [] => pure []
  | index, kind :: kinds => do
    let first ← read (spec.operandName index) kind
    let rest ← operands read spec (index + 1) kinds
    return first :: rest

/-- Reads a call of a function. -/
def call (ctx : Context) : Read Operand := do
  let address ← address
  let code ← u8
  match ctx.dialect.functions.lookup code with
  | none => stop (.unknownCode .function code address)
  | some spec =>
    let operands ← operands (argument ctx) spec 0 spec.operands
    return .function address code.toNat spec.mnemonic operands

/-- Reads the cases of a jump table. -/
def cases : (count : Nat) → Read (List (Int × Int))
  | 0 => pure []
  | count + 1 => do
    let number ← u8
    let target ← u16
    let rest ← cases count
    return (number.toNat, target) :: rest

/-- Reads a jump table. -/
def switch : Read Operand := do
  let default ← u16
  let count ← u8
  let cases ← cases count.toNat
  return .switch default cases

/-- Reads an operand of an instruction. -/
def operand (ctx : Context) (name : String) : OperandKind → Read Operand
  | .byte => do return .raw name 1 (← u8).toNat
  | .argument kind => argument ctx name kind
  | .function => call ctx
  | .switch => switch

/-- Reads an instruction. -/
def instruction (ctx : Context) : Read Instruction := do
  let address ← address
  let opcode ← u8
  match opcodes.lookup opcode with
  | none => stop (.unknownCode .opcode opcode address)
  | some spec =>
    let operands ← operands (operand ctx) spec 0 spec.operands
    return { address, opcode := opcode.toNat, mnemonic := spec.mnemonic, operands }

/-! ## Instructions move forward -/

theorem forward_resolve (ctx : Context) (offset : Nat) (address : Int) :
    Forward (resolve ctx offset address) := by
  intro c v c' h
  unfold resolve at h
  split at h
  · cases h
    exact Nat.le_refl _
  · cases h

theorem forward_stringRef (ctx : Context) : Forward (stringRef ctx) := by
  refine forward_address.bind fun _ => forward_position.bind fun _ => ?_
  refine progress_u16.forward.bind fun _ => (forward_resolve ..).bind fun _ => ?_
  exact (forward_noteField _).bind fun _ => forward_pure _

theorem forward_argument (ctx : Context) (name : String) (kind : ArgumentKind) :
    Forward (argument ctx name kind) := by
  cases kind with
  | word => exact progress_u16.forward.bind fun _ => forward_pure _
  | expression => exact forward_expression.bind fun _ => forward_pure _
  | string => exact (forward_stringRef ctx).bind fun _ => forward_pure _

omit [Codecs] in
theorem forward_operands {read : String → κ → Read Operand}
    (h : ∀ name kind, Forward (read name kind)) (spec : Spec κ) (index : Nat) (kinds : List κ) :
    Forward (operands read spec index kinds) := by
  induction kinds generalizing index with
  | nil => exact forward_pure _
  | cons kind kinds ih => exact (h ..).bind fun _ => (ih _).bind fun _ => forward_pure _

theorem forward_call (ctx : Context) : Forward (call ctx) := by
  refine forward_address.bind fun _ => progress_u8.forward.bind fun _ => ?_
  split
  · exact forward_stop _
  · exact (forward_operands (forward_argument ctx) ..).bind fun _ => forward_pure _

omit [Codecs] in
theorem forward_cases (count : Nat) : Forward (cases count) := by
  induction count with
  | zero => exact forward_pure _
  | succ count ih =>
    refine progress_u8.forward.bind fun _ => progress_u16.forward.bind fun _ => ?_
    exact ih.bind fun _ => forward_pure _

omit [Codecs] in
theorem forward_switch : Forward switch := by
  refine progress_u16.forward.bind fun _ => progress_u8.forward.bind fun _ => ?_
  exact (forward_cases _).bind fun _ => forward_pure _

theorem forward_operand (ctx : Context) (name : String) (kind : OperandKind) :
    Forward (operand ctx name kind) := by
  cases kind with
  | byte => exact progress_u8.forward.bind fun _ => forward_pure _
  | argument kind => exact forward_argument ctx name kind
  | function => exact forward_call ctx
  | switch => exact forward_switch

/-- An instruction takes at least its opcode. -/
theorem progress_instruction (ctx : Context) : Progress (instruction ctx) := by
  intro c v c' h
  obtain ⟨a, c₁, h₁, h₂⟩ := bind_eq_ok h
  cases h₁
  refine (progress_u8.bind fun opcode => ?_) h₂
  split
  · exact forward_stop _
  · exact (forward_operands (forward_operand ctx) ..).bind fun _ => forward_pure _

end Read

/-! ## Whole code -/

/-- Instructions of a code, and what was learnt on the way. -/
structure Decoded where
  instructions : List Instruction
  /-- Positions of the string fields in the code, in the order of reading. -/
  stringRefs : List Int
  /-- Name of the dialect. -/
  version : String
  /-- How many bytes the instructions take. -/
  consumed : Int

/-- A decoding that failed, with the instructions read before. -/
structure Interrupted where
  error : Error
  instructions : List Instruction

namespace Code

/-- Fewer bytes than this at the end can be padding. -/
def paddingWindow : Nat := 4

/-- Whether what lies ahead is padding.  Only the window is counted, not the
whole rest. -/
def isPadding (rest : Bytes) : Bool :=
  (rest.drop (paddingWindow - 1)).isEmpty && rest.all (· == 0)

/-- Reads instructions up to the end of the code; `read` holds those read
before, newest first. -/
def instructions [Codecs] (ctx : Context) (read : List Instruction) (c : Cursor) :
    Except Interrupted (List Instruction × Cursor) :=
  if isPadding c.rest then .ok (read.reverse, c)
  else
    match _h : Read.instruction ctx c with
    | .error e _ => .error ⟨e, read.reverse⟩
    | .ok i c' => instructions ctx (i :: read) c'
termination_by c.rest.length
decreasing_by exact Read.progress_instruction ctx _h

/-- Decodes a code whose first byte lies at file offset `base`. -/
def decode [Codecs] (ctx : Context) (base : Int) (code : Bytes) : Except Interrupted Decoded := do
  let (instructions, c) ← instructions ctx [] (Cursor.start code base 0)
  return {
    instructions
    stringRefs := c.fields.reverse
    version := ctx.dialect.name
    consumed := c.position }

end Code

namespace Decoded

/-- The string references found by a walk over the instructions. -/
def references (d : Decoded) : List StringRef := d.instructions.flatMap Instruction.references

end Decoded

namespace Image

/-- Decodes the code of an image. -/
def decode [Codecs] (image : Image) (dialect : Dialect) (encoding : String) :
    Except Interrupted Decoded :=
  Code.decode ⟨dialect, .ofPool image.pool, encoding⟩ image.codeBase image.code

end Image

end Scenario
