import Scenario.Code.Reader
import Scenario.Proofs.Bytes

/-!
# Scenario.Proofs.Layout

How decoded code lies in bytes, said without a reader and without a writer.

`TokensLaid`, `ArgumentLaid`, `CasesLaid`, `OperandLaid`, `InstructionLaid`
and `CodeLaid` relate a value to the bytes that hold it at a place; the place
matters because decoded values carry their addresses, and string references
their positions.  The reader (`Scenario.Proofs.Reading`) and the writer
(`Scenario.Proofs.Writing`) are each compared with these relations, and what
is true of all code is proved from them by induction:

* `CodeLaid.fieldsIn` — the string fields of a code lie inside it and do not
  overlap;
* `CodeLaid.two_le_of_mem_fields` — none of them begins in the first two
  bytes, so a code with a string field is longer than any padding.
-/

namespace Scenario

/-! ## the relations -/

/-- The tokens of an expression that begins at file offset `address`, with
the end selector. -/
inductive TokensLaid : (address : Int) → List Token → Bytes → Prop where
  | done {address : Int} : TokensLaid address [] [Expression.endFlag]
  | load {address : Int} {tokens : List Token} {bs : Bytes} (register low high : UInt8)
      (rest : TokensLaid (address + 4) tokens bs) :
      TokensLaid address
        (.load register.toNat (Bytes.word low high) (address + 1) :: tokens)
        (Expression.loadFlag :: register :: low :: high :: bs)
  | operator {address : Int} {tokens : List Token} {bs : Bytes} {name : String}
      (flag code : UInt8) (hload : flag ≠ Expression.loadFlag) (hend : flag ≠ Expression.endFlag)
      (hname : Expression.operator? code.toNat = some name)
      (rest : TokensLaid (address + 2) tokens bs) :
      TokensLaid address
        (.operator code.toNat name flag.toNat (address + 1) :: tokens) (flag :: code :: bs)

/-- The cases of a jump table. -/
inductive CasesLaid : List (Int × Int) → Bytes → Prop where
  | nil : CasesLaid [] []
  | cons {cases : List (Int × Int)} {bs : Bytes} (number low high : UInt8)
      (rest : CasesLaid cases bs) :
      CasesLaid (((number.toNat : Int), (Bytes.word low high : Int)) :: cases)
        (number :: low :: high :: bs)

section Relations

variable [Codecs] (ctx : Context) (base : Int)

/-- An operand that a function can take, at `position` of a code that begins
at file offset `base`. -/
inductive ArgumentLaid (position : Int) (name : String) :
    ArgumentKind → Operand → Bytes → Prop where
  | word (low high : UInt8) :
      ArgumentLaid position name .word (.raw name 2 (Bytes.word low high)) [low, high]
  | expression {tokens : List Token} {bs : Bytes}
      (htokens : TokensLaid (base + position) tokens bs) :
      ArgumentLaid position name .expression
        (.expression ⟨base + position, tokens, bs.length⟩) bs
  | string {text : String} (low high : UInt8)
      (htext : ctx.pool.resolve (Bytes.word low high) ctx.encoding (some (base + position)) =
        .ok text) :
      ArgumentLaid position name .string (.string ⟨position, Bytes.word low high, text⟩) [low, high]

/-- A run of operands, each behind the one before; `one` is the relation for
a single operand. -/
inductive OperandsLaid {κ : Type} (one : Int → String → κ → Operand → Bytes → Prop)
    (spec : Spec κ) : (position : Int) → (index : Nat) → List κ → List Operand → Bytes → Prop where
  | nil {position : Int} {index : Nat} : OperandsLaid one spec position index [] [] []
  | cons {position : Int} {index : Nat} {kind : κ} {kinds : List κ} {o : Operand}
      {os : List Operand} {bs bs' : Bytes}
      (first : one position (spec.operandName index) kind o bs)
      (rest : OperandsLaid one spec (position + bs.length) (index + 1) kinds os bs') :
      OperandsLaid one spec position index (kind :: kinds) (o :: os) (bs ++ bs')

/-- An operand of an instruction. -/
inductive OperandLaid (position : Int) (name : String) :
    OperandKind → Operand → Bytes → Prop where
  | byte (b : UInt8) : OperandLaid position name .byte (.raw name 1 b.toNat) [b]
  | argument {kind : ArgumentKind} {o : Operand} {bs : Bytes}
      (h : ArgumentLaid ctx base position name kind o bs) :
      OperandLaid position name (.argument kind) o bs
  | function {spec : Spec ArgumentKind} {os : List Operand} {bs : Bytes} (code : UInt8)
      (hspec : ctx.dialect.functions.lookup code = some spec)
      (hos : OperandsLaid (ArgumentLaid ctx base) spec (position + 1) 0 spec.operands os bs) :
      OperandLaid position name .function
        (.function (base + position) code.toNat spec.mnemonic os) (code :: bs)
  | switch {cases : List (Int × Int)} {bs : Bytes} (low high count : UInt8)
      (hcount : cases.length = count.toNat) (hcases : CasesLaid cases bs) :
      OperandLaid position name .switch (.switch (Bytes.word low high) cases)
        (low :: high :: count :: bs)

/-- An instruction. -/
inductive InstructionLaid (position : Int) : Instruction → Bytes → Prop where
  | mk {spec : Spec OperandKind} {os : List Operand} {bs : Bytes} (opcode : UInt8)
      (hspec : opcodes.lookup opcode = some spec)
      (hos : OperandsLaid (OperandLaid ctx base) spec (position + 1) 0 spec.operands os bs) :
      InstructionLaid position ⟨base + position, opcode.toNat, spec.mnemonic, os⟩ (opcode :: bs)

/-- A run of instructions up to the padding `tail`.  What lies ahead is never
padding before the last instruction is over. -/
inductive CodeLaid : (position : Int) → List Instruction → Bytes → (tail : Bytes) → Prop where
  | done {position : Int} {tail : Bytes} (hpad : Code.isPadding tail = true) :
      CodeLaid position [] [] tail
  | step {position : Int} {i : Instruction} {is : List Instruction} {bs bs' tail : Bytes}
      (hpad : Code.isPadding (bs ++ (bs' ++ tail)) = false)
      (first : InstructionLaid ctx base position i bs)
      (rest : CodeLaid (position + bs.length) is bs' tail) :
      CodeLaid position (i :: is) (bs ++ bs') tail

end Relations

/-! ## padding -/

namespace Code

/-- Padding is fewer than four bytes, all zero. -/
theorem isPadding_iff (rest : Bytes) :
    isPadding rest = true ↔ rest.length < paddingWindow ∧ ∀ b ∈ rest, b = 0 := by
  rw [isPadding, Bool.and_eq_true, List.isEmpty_iff, List.drop_eq_nil_iff, List.all_eq_true]
  simp only [paddingWindow, beq_iff_eq]
  constructor
  · exact fun ⟨hlength, hzero⟩ => ⟨by omega, hzero⟩
  · exact fun ⟨hlength, hzero⟩ => ⟨by omega, hzero⟩

theorem isPadding_eq_false_of_mem {rest : Bytes} {b : UInt8} (hmem : b ∈ rest) (hb : b ≠ 0) :
    isPadding rest = false := by
  rw [← Bool.not_eq_true, isPadding_iff]
  exact fun h => hb (h.2 b hmem)

theorem isPadding_eq_false_of_length {rest : Bytes} (h : paddingWindow ≤ rest.length) :
    isPadding rest = false := by
  rw [← Bool.not_eq_true, isPadding_iff]
  exact fun h' => absurd h'.1 (Nat.not_lt.mpr h)

end Code

/-! ## places that may refer to an offset -/

section Resolving

variable [Codecs]

/-- The encoding of that name has a text for all bytes. -/
def Encoding.Decodes (encoding : String) : Prop :=
  ∀ raw, ∃ text, Pool.decodeText encoding raw = .ok text

/-- A codec that is held has a text for all bytes. -/
theorem Encoding.decodes_of_lenient {encoding : String} {decode : Bytes → List Char}
    {encode? : String → Option Bytes}
    (h : ofName .decoding encoding = .ok (lenient decode encode?)) : Decodes encoding := by
  intro raw
  rw [Pool.decodeText]
  split
  · exact ⟨_, rfl⟩
  · exact ⟨String.ofList (decode raw), by rw [h]; rfl⟩

/-- An offset resolves to the text of the string there, if it lies in the pool
and the string has one. -/
theorem Pool.resolve_eq_ok_iff {pool : Bytes} {offset : Int} {encoding : String}
    {address : Option Int} {text : String} :
    resolve pool offset encoding address = .ok text ↔
      0 ≤ offset ∧ offset < pool.length ∧
        decodeText encoding (stringAt pool offset) = .ok text := by
  rw [resolve]
  split
  · simp only [reduceCtorEq, false_iff]
    omega
  · next hinside =>
    rw [not_or, Int.not_lt, Int.not_le] at hinside
    simp [hinside]

/-- Every place may refer to an offset. -/
def Context.Resolves (ctx : Context) (offset : Nat) : Prop :=
  ∀ address : Int, ∃ text, ctx.pool.resolve offset ctx.encoding (some address) = .ok text

/-- An offset inside the pool can be referred to, if the pool's encoding has
a text for all bytes. -/
theorem Context.resolves_of_lt {ctx : Context} {offset : Nat}
    (hdecodes : Encoding.Decodes ctx.encoding) (h : offset < ctx.pool.suffixes.size) :
    ctx.Resolves offset := by
  intro address
  rw [Pool.Index.resolve, if_neg (by omega)]
  exact hdecodes _

end Resolving

/-! ## positions of string fields -/

/-- Positions of the string fields of an operand. -/
def Operand.fields (o : Operand) : List Int := o.references.map StringRef.codeAddress

/-- Positions of the string fields of a run of operands. -/
def Operand.allFields (os : List Operand) : List Int :=
  (Operand.allReferences os).map StringRef.codeAddress

/-- Positions of the string fields of an instruction. -/
def Instruction.fields (i : Instruction) : List Int := i.references.map StringRef.codeAddress

/-- Positions of the string fields of a run of instructions. -/
def Instruction.allFields (is : List Instruction) : List Int := is.flatMap Instruction.fields

section FieldEquations

open Operand

@[simp] theorem Operand.fields_raw (name : String) (width value : Int) :
    (Operand.raw name width value).fields = [] := rfl

@[simp] theorem Operand.fields_expression (e : Expression) :
    (Operand.expression e).fields = [] := rfl

@[simp] theorem Operand.fields_string (r : StringRef) :
    (Operand.string r).fields = [r.codeAddress] := rfl

@[simp] theorem Operand.fields_switch (default : Int) (cases : List (Int × Int)) :
    (Operand.switch default cases).fields = [] := rfl

@[simp] theorem Operand.fields_function (address code : Int) (mnemonic : String)
    (os : List Operand) : (Operand.function address code mnemonic os).fields = allFields os := rfl

@[simp] theorem Operand.allFields_nil : allFields [] = [] := rfl

@[simp] theorem Operand.allFields_cons (o : Operand) (os : List Operand) :
    allFields (o :: os) = o.fields ++ allFields os := by
  rw [allFields, allReferences, List.map_append]
  rfl

@[simp] theorem Instruction.fields_mk (address opcode : Int) (mnemonic : String)
    (os : List Operand) :
    (Instruction.mk address opcode mnemonic os).fields = Operand.allFields os := rfl

@[simp] theorem Instruction.allFields_nil : Instruction.allFields [] = [] := rfl

@[simp] theorem Instruction.allFields_cons (i : Instruction) (is : List Instruction) :
    Instruction.allFields (i :: is) = i.fields ++ Instruction.allFields is := rfl

end FieldEquations

/-- Two-byte fields at increasing positions from `low` up to `high`, none
reaching into the next. -/
structure FieldsIn (low high : Int) (fields : List Int) : Prop where
  inside : ∀ r ∈ fields, low ≤ r ∧ r + 2 ≤ high
  apart : fields.Pairwise fun a b => a + 2 ≤ b

namespace FieldsIn

theorem nil {low high : Int} : FieldsIn low high [] := ⟨by simp, .nil⟩

theorem single {r high : Int} (h : r + 2 ≤ high) : FieldsIn r high [r] :=
  ⟨by simpa using h, by simp⟩

/-- Fields of two neighbouring stretches. -/
theorem append {a b c : Int} {fields fields' : List Int} (h : FieldsIn a b fields)
    (h' : FieldsIn b c fields') (hab : a ≤ b) (hbc : b ≤ c) :
    FieldsIn a c (fields ++ fields') := by
  constructor
  · intro r hr
    rcases List.mem_append.mp hr with hr | hr
    · have := h.inside r hr
      omega
    · have := h'.inside r hr
      omega
  · refine List.pairwise_append.mpr ⟨h.apart, h'.apart, fun r hr s hs => ?_⟩
    have := h.inside r hr
    have := h'.inside s hs
    omega

/-- Fields of a stretch lie in a larger one. -/
theorem mono {a b c d : Int} {fields : List Int} (h : FieldsIn b c fields) (hab : a ≤ b)
    (hcd : c ≤ d) : FieldsIn a d fields := by
  refine ⟨fun r hr => ?_, h.apart⟩
  have := h.inside r hr
  omega

/-- No position comes twice. -/
theorem nodup {a b : Int} {fields : List Int} (h : FieldsIn a b fields) : fields.Nodup :=
  h.apart.imp fun {r s} hrs => by omega

/-- Two fields are the same or do not overlap. -/
theorem eq_or_apart {a b r s : Int} {fields : List Int} (h : FieldsIn a b fields)
    (hr : r ∈ fields) (hs : s ∈ fields) : r = s ∨ r + 2 ≤ s ∨ s + 2 ≤ r := by
  have hall : fields.Pairwise fun x y => x = y ∨ x + 2 ≤ y ∨ y + 2 ≤ x :=
    h.apart.imp fun hxy => .inr (.inl hxy)
  have hflip : fields.Pairwise (flip fun x y => x = y ∨ x + 2 ≤ y ∨ y + 2 ≤ x) :=
    h.apart.imp fun hxy => .inr (.inr hxy)
  exact hall.forall_of_forall_of_flip (fun _ _ => .inl rfl) hflip hr hs

end FieldsIn

section LaidFields

variable [Codecs] {ctx : Context} {base position : Int}

theorem ArgumentLaid.fieldsIn {name : String} {kind : ArgumentKind} {o : Operand} {bs : Bytes}
    (h : ArgumentLaid ctx base position name kind o bs) :
    FieldsIn position (position + bs.length) o.fields := by
  cases h with
  | word low high => exact .nil
  | expression htokens => exact .nil
  | string low high htext => exact .single (by simp)

omit [Codecs] in
/-- What holds of the fields of each operand holds of a run of them. -/
theorem OperandsLaid.fieldsIn {κ : Type} {one : Int → String → κ → Operand → Bytes → Prop}
    (hone : ∀ {p name kind o bs}, one p name kind o bs → FieldsIn p (p + bs.length) o.fields)
    {spec : Spec κ} {index : Nat} {kinds : List κ} {os : List Operand} {bs : Bytes}
    (h : OperandsLaid one spec position index kinds os bs) :
    FieldsIn position (position + bs.length) (Operand.allFields os) := by
  induction h with
  | nil => exact .nil
  | cons first rest ih =>
      rw [Operand.allFields_cons]
      refine (hone first).append (ih.mono (Int.le_refl _) ?_) (by omega) ?_ <;>
        simp only [List.length_append] <;> omega

theorem OperandLaid.fieldsIn {name : String} {kind : OperandKind} {o : Operand} {bs : Bytes}
    (h : OperandLaid ctx base position name kind o bs) :
    FieldsIn position (position + bs.length) o.fields := by
  cases h with
  | byte b => exact .nil
  | argument h => exact h.fieldsIn
  | function code hspec hos =>
      refine (hos.fieldsIn ArgumentLaid.fieldsIn).mono (by omega) ?_
      simp only [List.length_cons]
      omega
  | switch low high count hcount hcases => exact .nil

theorem InstructionLaid.fieldsIn {i : Instruction} {bs : Bytes}
    (h : InstructionLaid ctx base position i bs) :
    FieldsIn position (position + bs.length) i.fields := by
  cases h with
  | mk opcode hspec hos =>
      refine (hos.fieldsIn OperandLaid.fieldsIn).mono (by omega) ?_
      simp only [List.length_cons]
      omega

/-- **String fields** of a code lie inside it and do not overlap. -/
theorem CodeLaid.fieldsIn {is : List Instruction} {bs tail : Bytes}
    (h : CodeLaid ctx base position is bs tail) :
    FieldsIn position (position + bs.length) (Instruction.allFields is) := by
  induction h with
  | done hpad => exact .nil
  | step hpad first rest ih =>
      rw [Instruction.allFields_cons]
      refine first.fieldsIn.append (ih.mono (Int.le_refl _) ?_) (by omega) ?_ <;>
        simp only [List.length_append] <;> omega

end LaidFields

/-! ## string fields lie behind two bytes -/

/-- No opcode takes a string itself; only functions do. -/
theorem string_notMem_operands {opcode : UInt8} {spec : Spec OperandKind}
    (h : opcodes.lookup opcode = some spec) : OperandKind.argument .string ∉ spec.operands := by
  obtain ⟨before, behind, hsplit, -⟩ := List.lookup_eq_some_iff.mp h
  have hall : ∀ entry ∈ opcodes, OperandKind.argument .string ∉ entry.2.operands := by decide
  exact hall (opcode, spec) (by rw [hsplit]; simp)

section BehindTwo

variable [Codecs] {ctx : Context} {base position : Int}

/-- A function's code byte lies before its string fields. -/
theorem OperandLaid.succ_le_of_mem_fields {name : String} {kind : OperandKind} {o : Operand}
    {bs : Bytes} (h : OperandLaid ctx base position name kind o bs)
    (hkind : kind ≠ .argument .string) {r : Int} (hr : r ∈ o.fields) : position + 1 ≤ r := by
  cases h with
  | byte b => simp at hr
  | argument h =>
      cases h with
      | word low high => simp at hr
      | expression htokens => simp at hr
      | string low high htext => exact absurd rfl hkind
  | function code hspec hos => exact ((hos.fieldsIn ArgumentLaid.fieldsIn).inside r hr).1
  | switch low high count hcount hcases => simp at hr

theorem OperandsLaid.succ_le_of_mem_fields {spec : Spec OperandKind} {index : Nat}
    {kinds : List OperandKind} {os : List Operand} {bs : Bytes}
    (h : OperandsLaid (OperandLaid ctx base) spec position index kinds os bs)
    (hkinds : OperandKind.argument .string ∉ kinds) {r : Int} (hr : r ∈ Operand.allFields os) :
    position + 1 ≤ r := by
  induction h with
  | nil => simp at hr
  | cons first rest ih =>
      rw [List.mem_cons, not_or] at hkinds
      rw [Operand.allFields_cons, List.mem_append] at hr
      rcases hr with hr | hr
      · exact first.succ_le_of_mem_fields (Ne.symm hkinds.1) hr
      · have := ih hkinds.2 hr
        omega

theorem InstructionLaid.two_le_of_mem_fields {i : Instruction} {bs : Bytes}
    (h : InstructionLaid ctx base position i bs) {r : Int} (hr : r ∈ i.fields) :
    position + 2 ≤ r := by
  cases h with
  | mk opcode hspec hos =>
      have := hos.succ_le_of_mem_fields (string_notMem_operands hspec) hr
      omega

/-- The opcode and the function's code lie before every string field. -/
theorem CodeLaid.two_le_of_mem_fields {is : List Instruction} {bs tail : Bytes}
    (h : CodeLaid ctx base position is bs tail) {r : Int} (hr : r ∈ Instruction.allFields is) :
    position + 2 ≤ r := by
  induction h with
  | done hpad => simp at hr
  | step hpad first rest ih =>
      rw [Instruction.allFields_cons, List.mem_append] at hr
      rcases hr with hr | hr
      · exact first.two_le_of_mem_fields hr
      · have := ih hr
        omega

end BehindTwo

end Scenario
