import Mathlib.Algebra.BigOperators.Group.List.Basic
import Mathlib.Algebra.Group.Action.Defs
import Mathlib.Algebra.Ring.Int.Defs
import Mathlib.Algebra.Ring.Nat
import Scenario.Proofs.Bytes
import Scenario.Proofs.Traverse

/-!
# Scenario.Proofs.Sizes

Sizes against the writer, for values of any origin.  The size of an operand is
told by its kind, added up over a call, or kept in an expression; the writer
looks at none of these.  Addresses, listings and documents are made from
sizes alone, so the two have to agree on values that no reader made too.

Only an expression can say a wrong size.  `Expression.Measured` rules that
out, and with it `Code.size?_of_encode` holds of every operand and
instruction that can be written:

* the atoms are the fields of one width, whatever is in them;
* runs of tokens and of cases add up (`length_flatten_of_mapM`);
* operands are taken by recursion, since calls nest to any depth.
-/

namespace Scenario

/-! ## expressions inside operands -/

/-- An expression says the size of its tokens and of the end selector. -/
def Expression.Measured (e : Expression) : Prop :=
  e.size = 1 + ((e.tokens.map Token.size).sum : Nat)

namespace Operand

mutual

/-- The expressions of an operand, those of nested calls included. -/
def expressions : Operand → List Expression
  | .expression e => [e]
  | .function _ _ _ operands => allExpressions operands
  | _ => []

/-- The expressions of a run of operands. -/
def allExpressions : List Operand → List Expression
  | [] => []
  | o :: os => expressions o ++ allExpressions os

end

end Operand

/-- The expressions of an instruction. -/
def Instruction.expressions (i : Instruction) : List Expression :=
  Operand.allExpressions i.operands

/-! ## fields -/

/-- A packed field has its width. -/
theorem Bytes.length_of_pack {width : Nat} {value : Int} {bs : Bytes}
    (h : pack width value = .ok bs) : bs.length = width := by
  rw [pack] at h
  split at h
  · rw [← Except.ok.inj h, length_ofNat]
  · cases h

/-- An uninterpreted field has the width it says, whatever that is. -/
theorem Operand.length_of_encodeRaw {width value : Int} {bs : Bytes}
    (h : encodeRaw width value = .ok bs) : (bs.length : Int) = width := by
  rw [encodeRaw] at h
  split_ifs at h with hcountable hnegative
  rw [← Except.ok.inj h, Bytes.length_ofNat]
  exact Int.toNat_of_nonneg (Int.not_lt.mp hnegative)

/-! ## runs -/

/-- Parts of known lengths that were written one by one have the sum of these
lengths. -/
theorem length_flatten_of_mapM {ε α β : Type} {f : α → Except ε (List β)} {size : α → Nat}
    (hf : ∀ x part, f x = .ok part → part.length = size x) {xs : List α} {parts : List (List β)}
    (h : xs.mapM f = .ok parts) : parts.flatten.length = (xs.map size).sum := by
  induction mapM_eq_ok_iff.mp h with
  | nil => rfl
  | cons hx hrest ih =>
      rw [List.flatten_cons, List.length_append, List.map_cons, List.sum_cons, hf _ _ hx,
        ih (mapM_eq_ok_iff.mpr hrest)]

namespace Expression

theorem length_of_encodeToken {t : Token} {bs : Bytes} (h : encodeToken t = .ok bs) :
    bs.length = t.size := by
  cases t with
  | load register mask address =>
      rw [← Except.ok.inj h, List.length_cons, List.length_cons, Bytes.length_ofNat]
      rfl
  | operator code name flag address =>
      rw [encodeToken] at h
      split_ifs at h
      obtain ⟨selector, -, h⟩ := andThen_eq_ok_iff.mp h
      obtain ⟨operator, -, h⟩ := andThen_eq_ok_iff.mp h
      rw [← Except.ok.inj h]
      rfl

/-- An expression has the bytes of its tokens and the end selector. -/
theorem length_of_encodeTokens {ts : List Token} {bs : Bytes} (h : encodeTokens ts = .ok bs) :
    bs.length = 1 + (ts.map Token.size).sum := by
  obtain ⟨parts, hparts, h⟩ := andThen_eq_ok_iff.mp h
  rw [← Except.ok.inj h, List.length_append,
    length_flatten_of_mapM (fun _ _ => length_of_encodeToken) hparts, Nat.add_comm]
  rfl

end Expression

namespace Operand

theorem length_of_encodeCase {case : Int × Int} {bs : Bytes} (h : encodeCase case = .ok bs) :
    bs.length = 3 := by
  obtain ⟨number, -, h⟩ := andThen_eq_ok_iff.mp h
  obtain ⟨target, htarget, h⟩ := andThen_eq_ok_iff.mp h
  rw [← Except.ok.inj h, List.length_cons, Bytes.length_of_pack htarget]

/-- A jump table has three bytes, and three for each case. -/
theorem length_of_encodeSwitch {default : Int} {cases : List (Int × Int)} {bs : Bytes}
    (h : encodeSwitch default cases = .ok bs) : bs.length = 3 + 3 * cases.length := by
  obtain ⟨head, hhead, h⟩ := andThen_eq_ok_iff.mp h
  obtain ⟨count, -, h⟩ := andThen_eq_ok_iff.mp h
  obtain ⟨body, hbody, h⟩ := andThen_eq_ok_iff.mp h
  have hlength := length_flatten_of_mapM (fun _ _ => length_of_encodeCase) hbody
  rw [List.map_const', List.sum_replicate, smul_eq_mul] at hlength
  rw [← Except.ok.inj h, List.length_append, List.length_cons, Bytes.length_of_pack hhead, hlength]
  omega

/-! ## operands of any depth -/

mutual

/-- An operand has as many bytes as it says. -/
theorem size?_eq_length : (o : Operand) → (∀ e ∈ o.expressions, e.Measured) → {bs : Bytes} →
    o.encode = .ok bs → o.size? = some (bs.length : Int)
  | .expression e, hmeasured, bs, h => by
      have hsize : e.size = 1 + ((e.tokens.map Token.size).sum : Nat) :=
        hmeasured e (by simp [expressions])
      rw [encode] at h
      rw [size?, hsize, Expression.length_of_encodeTokens h, Nat.cast_add, Nat.cast_one]
  | .string r, _, bs, h => by
      rw [encode] at h
      rw [size?, Bytes.length_of_pack h]
      rfl
  | .raw name width value, _, bs, h => by
      rw [encode] at h
      rw [size?, length_of_encodeRaw h]
  | .switch default cases, _, bs, h => by
      rw [encode] at h
      rw [size?, length_of_encodeSwitch h]
      push_cast
      rfl
  | .function address code mnemonic operands, hmeasured, bs, h => by
      rw [encode] at h
      obtain ⟨first, -, h⟩ := andThen_eq_ok_iff.mp h
      obtain ⟨rest, hrest, h⟩ := andThen_eq_ok_iff.mp h
      rw [expressions] at hmeasured
      rw [size?, totalSize?_eq_length operands hmeasured hrest, ← Except.ok.inj h,
        List.length_cons, Option.map_some, Nat.cast_add, Nat.cast_one, add_comm]
  | .missing, _, bs, h => by
      rw [encode] at h
      cases h

/-- A run of operands has as many bytes as they say together. -/
theorem totalSize?_eq_length : (os : List Operand) → (∀ e ∈ allExpressions os, e.Measured) →
    {bs : Bytes} → encodeAll os = .ok bs → totalSize? os = some (bs.length : Int)
  | [], _, bs, h => by
      rw [encodeAll] at h
      rw [← Except.ok.inj h]
      rfl
  | o :: os, hmeasured, bs, h => by
      rw [encodeAll] at h
      obtain ⟨first, hfirst, h⟩ := andThen_eq_ok_iff.mp h
      obtain ⟨rest, hrest, h⟩ := andThen_eq_ok_iff.mp h
      rw [allExpressions, List.forall_mem_append] at hmeasured
      rw [totalSize?, size?_eq_length o hmeasured.1 hfirst,
        totalSize?_eq_length os hmeasured.2 hrest, ← Except.ok.inj h, List.length_append,
        Nat.cast_add]

end

end Operand

/-- **Sizes are those of the bytes**: an instruction that can be written has
as many bytes as it says, and so has every operand, if expressions say their
own sizes rightly.  Widths, numbers of cases and depths of calls are any that
the writer takes. -/
theorem Code.size?_of_encode :
    (∀ (i : Instruction) (bs : Bytes), (∀ e ∈ i.expressions, e.Measured) → i.encode = .ok bs →
      i.size? = some (bs.length : Int)) ∧
    ∀ (o : Operand) (bs : Bytes), (∀ e ∈ o.expressions, e.Measured) → o.encode = .ok bs →
      o.size? = some (bs.length : Int) := by
  refine ⟨fun i bs hmeasured h => ?_, fun o bs hmeasured h => o.size?_eq_length hmeasured h⟩
  obtain ⟨first, -, h⟩ := andThen_eq_ok_iff.mp h
  obtain ⟨rest, hrest, h⟩ := andThen_eq_ok_iff.mp h
  rw [Instruction.size?, Operand.totalSize?_eq_length i.operands hmeasured hrest,
    ← Except.ok.inj h, List.length_cons, Option.map_some, Nat.cast_add, Nat.cast_one, add_comm]

/-- An expression in a call inside a call, a field of three bytes and a jump
table, at addresses that no reader gives. -/
def Instruction.sampleNested : Instruction :=
  ⟨-1, 0x0D, "", [
    .function 0 1 "" [
      .function 0 2 "" [.expression ⟨0, [.load 1 2 0, .operator 0x14 "add" 1 0], 7⟩],
      .raw "" 3 0x010203],
    .switch 5 [(1, 2), (3, 4)],
    .string ⟨-7, 9, ""⟩]⟩

theorem Code.size?_sampleNested :
    Instruction.sampleNested.encode =
      .ok [0x0D, 0x01, 0x02, 0x00, 0x01, 0x02, 0x00, 0x01, 0x14, 0xFF, 0x03, 0x02, 0x01,
        0x05, 0x00, 0x02, 0x01, 0x02, 0x00, 0x03, 0x04, 0x00, 0x09, 0x00] ∧
    Instruction.sampleNested.size? = some 24 := by
  have hbytes : Instruction.sampleNested.encode =
      .ok [0x0D, 0x01, 0x02, 0x00, 0x01, 0x02, 0x00, 0x01, 0x14, 0xFF, 0x03, 0x02, 0x01,
        0x05, 0x00, 0x02, 0x01, 0x02, 0x00, 0x03, 0x04, 0x00, 0x09, 0x00] := rfl
  have hmeasured : ∀ e ∈ Instruction.sampleNested.expressions, e.Measured := by
    intro e he
    obtain rfl := List.mem_singleton.mp he
    rfl
  exact ⟨hbytes, size?_of_encode.1 _ _ hmeasured hbytes⟩

end Scenario
