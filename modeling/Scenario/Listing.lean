import Scenario.Code.Operand
import Scenario.Image
import Scenario.Json

/-!
# Scenario.Listing

Decoded code for reading: a listing of lines, or a JSON document.

Every line of a listing starts with an address.  An instruction has a line
with its mnemonic and then a comment line for each part of its operands, all
at the address of the instruction; a nested call starts again with its own
address and mnemonic.  Texts are escaped so that they stay on one line and
end at the closing quote.
-/

namespace Scenario

open Numeral

namespace Listing

/-! ## Lines -/

/-- How a character of a text stands in a listing. -/
def escapeChar (c : Char) : List Char :=
  if c = '\\' then ['\\', '\\']
  else if c = '\r' then ['\\', 'r']
  else if c = '\n' then ['\\', 'n']
  else if c = '\"' then ['\\', '\"']
  else [c]

/-- A text as it stands between quotes in a listing. -/
def escape (s : String) : String := String.ofList (s.toList.flatMap escapeChar)

/-- A line with a mnemonic. -/
def mnemonicLine (address : Int) (mnemonic : String) : String :=
  hex 8 address ++ " | " ++ mnemonic

/-- A comment line. -/
def commentLine (address : Int) (comment : String) : String :=
  hex 8 address ++ " | ; " ++ comment

/-- Comment on an uninterpreted field, with two digits for each byte; a jump
target is shown as a label. -/
def rawComment (name : String) (width value : Int) : Except Error String :=
  if name = "target" then .ok ("target L_" ++ hex 4 value)
  else if width < 0 then .error (.digitsNegative (2 * width))
  else if !Bytes.isCountable (2 * width) then .error .digitsRange
  else if !Bytes.isHeld (2 * width) then .error .outOfMemory
  else .ok (name ++ " 0x" ++ hex (2 * width).toNat value)

/-- Comments on a jump table. -/
def switchComments (default : Int) (cases : List (Int × Int)) : List String :=
  ("default L_" ++ hex 4 default) :: ("count " ++ decimal cases.length) ::
    cases.map fun (number, target) => "case 0x" ++ hex 2 number ++ " L_" ++ hex 4 target

mutual

/-- Lines of an operand that belongs to `address`. -/
def operandLines (address : Int) : Operand → Except Error (List String)
  | .expression e => .ok [commentLine address ("expr " ++ e.display)]
  | .string r =>
    .ok [commentLine address ("ref 0x" ++ hex 4 r.offset ++ " \"" ++ escape r.text ++ "\"")]
  | .raw name width value => do
    let comment ← rawComment name width value
    return [commentLine address comment]
  | .switch default cases => .ok ((switchComments default cases).map (commentLine address))
  | .function start _ mnemonic operands => do
    let lines ← operandsLines start operands
    return mnemonicLine start mnemonic :: lines
  | .missing => .error .unsupportedOperand

/-- Lines of a run of operands. -/
def operandsLines (address : Int) : List Operand → Except Error (List String)
  | [] => .ok []
  | o :: os => do
    let first ← operandLines address o
    let rest ← operandsLines address os
    return first ++ rest

end

/-- Lines of an instruction. -/
def instructionLines (i : Instruction) : Except Error (List String) := do
  let lines ← operandsLines i.address i.operands
  return mnemonicLine i.address i.mnemonic :: lines

/-- Lines of a label section. -/
def labelLines (labels : List Label) : List String :=
  labels.zipIdx.map fun (label, index) =>
    "; label " ++ decimalPadded 4 index ++ " 0x" ++ hex 4 label.first ++ " 0x" ++ hex 4 label.second

/-- Lines on the sections of an image; an empty version is left out. -/
def headerLines (image : Image) (version : String) : List String :=
  ("; code 0x" ++ hex 8 image.codeBase ++ " size 0x" ++ hex 4 image.code.length) ::
    ("; pool size 0x" ++ hex 4 image.pool.length) ::
    ((if version = "" then [] else ["; version " ++ version]) ++ labelLines image.labels ++ [""])

/-- Lines joined to a text that ends with a line feed. -/
def text (lines : List String) : String := "\n".intercalate lines ++ "\n"

/-- A listing, with a header if an image is given. -/
def render (instructions : List Instruction) (image : Option Image) (version : String) :
    Except Error String := do
  let header := match image with
    | some image => headerLines image version
    | none => []
  let lines ← instructions.mapM instructionLines
  return text (header ++ lines.flatten)

/-! ## Documents -/

/-- A token as a document. -/
def tokenJson : Token → Json
  | .load register mask address =>
    .object [("kind", .text "load"), ("register", .int register), ("mask", .int mask),
      ("address", .int address)]
  | .operator code name flag address =>
    .object [("kind", .text "operator"), ("name", .text name), ("code", .int code),
      ("flag", .int flag), ("address", .int address)]

mutual

/-- An operand as a document. -/
def operandJson : Operand → Except Error Json
  | .expression e =>
    .ok (.object [("kind", .text "expression"), ("address", .int e.address), ("size", .int e.size),
      ("tokens", .list (e.tokens.map tokenJson))])
  | .string r =>
    .ok (.object [("kind", .text "string"), ("code_address", .int r.codeAddress),
      ("offset", .int r.offset), ("text", .text r.text)])
  | .raw name width value =>
    .ok (.object [("kind", .text "raw"), ("name", .text name), ("width", .int width),
      ("value", .int value)])
  | .switch default cases =>
    .ok (.object [("kind", .text "switch"), ("default", .int default),
      ("cases", .list (cases.map fun (number, target) =>
        .object [("id", .int number), ("addr", .int target)]))])
  | .function address code mnemonic operands => do
    let operands ← operandsJson operands
    return .object [("kind", .text "function"), ("address", .int address), ("code", .int code),
      ("mnemonic", .text mnemonic), ("operands", .list operands)]
  | .missing => .error .unsizedOperand

/-- A run of operands as documents. -/
def operandsJson : List Operand → Except Error (List Json)
  | [] => .ok []
  | o :: os => do
    let first ← operandJson o
    let rest ← operandsJson os
    return first :: rest

end

/-- Size of an instruction, or the error that it has none. -/
def instructionSize (i : Instruction) : Except Error Int :=
  match i.size? with
  | some size => .ok size
  | none => .error .unsizedOperand

/-- An instruction as a document. -/
def instructionJson (i : Instruction) : Except Error Json := do
  let size ← instructionSize i
  let operands ← operandsJson i.operands
  return .object [("address", .int i.address), ("opcode", .int i.opcode),
    ("mnemonic", .text i.mnemonic), ("size", .int size), ("operands", .list operands)]

/-- Instructions as the text of a document. -/
def renderJson (instructions : List Instruction) : Except Error String := do
  let documents ← instructions.mapM instructionJson
  return (Json.list documents).render

end Listing

end Scenario
