import Scenario.Bytes

/-!
# Scenario.Code.Expression

Expressions of the stack machine: a flat run of tokens behind selectors.

```
00 RR MMMM   load register RR with mask MMMM
XX OO        any other selector XX announces operator OO
FF           end of the expression
```

Nothing is evaluated; tokens keep the order of the stream.  A token's
address is that of the byte behind its selector.
-/

namespace Scenario

/-! ## Tokens -/

/-- One step of an expression. -/
inductive Token where
  | load (register mask address : Int)
  | operator (code : Int) (name : String) (flag address : Int)
  deriving DecidableEq, Repr

/-- A run of tokens; `size` counts the bytes with the end selector. -/
structure Expression where
  address : Int
  tokens : List Token
  size : Int
  deriving DecidableEq, Repr

namespace Token

/-- Bytes of a token with its selector. -/
def size : Token → Nat
  | load .. => 4
  | operator .. => 2

/-- Whether a token is a load. -/
def isLoad : Token → Bool
  | load .. => true
  | operator .. => false

/-- Name of an operator token. -/
def operatorName? : Token → Option String
  | load .. => none
  | operator _ name _ _ => some name

end Token

namespace Expression

/-- Selector of a load. -/
def loadFlag : UInt8 := 0x00

/-- Selector that ends an expression. -/
def endFlag : UInt8 := 0xFF

/-- Operator codes and their names, in ascending order. -/
def operators : List (Int × String) := [
  (0x00, "greater"), (0x01, "less_equal"), (0x02, "not_equal"), (0x03, "equal"),
  (0x04, "greater_equal"), (0x05, "less"), (0x0A, "is_zero"), (0x0B, "logical_and"),
  (0x0C, "logical_or"), (0x14, "add"), (0x15, "sub"), (0x16, "mul"), (0x17, "div"),
  (0x18, "mod")]

/-- Name of an operator code. -/
def operator? (code : Int) : Option String := operators.lookup code

/-- The loads of an expression. -/
def loads (e : Expression) : List Token := e.tokens.filter Token.isLoad

/-- The names of an expression's operators, in order. -/
def operatorNames (e : Expression) : List String := e.tokens.filterMap Token.operatorName?

/-! ## Selectors -/

/-- What was read last. -/
inductive Phase where
  | accumulatingLoads
  | postOperator
  | terminated
  deriving DecidableEq, Repr

namespace Phase

/-- The name of a phase. -/
def name : Phase → String
  | accumulatingLoads => "accumulating_loads"
  | postOperator => "post_operator"
  | terminated => "terminated"

/-- The phase that a selector leads to. -/
def ofSelector (flag : Int) : Phase :=
  if flag = loadFlag.toNat then accumulatingLoads
  else if flag = endFlag.toNat then terminated
  else postOperator

/-- The phase behind the next selector; an expression that has ended takes
none. -/
def step (phase : Phase) (flag : Int) : Except Error Phase :=
  match phase with
  | terminated => .error .expressionEnded
  | _ => .ok (ofSelector flag)

end Phase

/-! ## Writing -/

/-- Bytes of a token.  Registers and masks are cut to their fields. -/
def encodeToken : Token → Except Error Bytes
  | .load register mask _ =>
    .ok (loadFlag :: UInt8.ofNat (register % 256).toNat :: Bytes.ofNat 2 (mask % 65536).toNat)
  | .operator code _ flag _ =>
    if flag = loadFlag.toNat ∨ flag = endFlag.toNat then .error (.operatorSelector flag)
    else if (operator? code).isNone then .error (.operatorCode code)
    else do
      let selector ← Bytes.byte flag
      let operator ← Bytes.byte code
      return [selector, operator]

/-- Bytes of an expression with its end selector. -/
def encodeTokens (tokens : List Token) : Except Error Bytes := do
  let parts ← tokens.mapM encodeToken
  return parts.flatten ++ [endFlag]

/-! ## Display -/

/-- A token as listings show it. -/
def showToken : Token → String
  | .load register mask _ =>
    "load(0x" ++ Numeral.hex 2 register ++ ",0x" ++ Numeral.hex 4 mask ++ ")"
  | .operator _ name _ _ => name

/-- An expression as listings show it. -/
def display (e : Expression) : String :=
  if e.tokens.isEmpty then "<empty>" else " ".intercalate (e.tokens.map showToken)

end Expression

end Scenario
