import Mathlib.Data.List.Forall2
import Scenario.Proofs.Expressions
import Scenario.Proofs.Recast
import Scenario.Proofs.Tables

/-!
# Scenario.Proofs.Unambiguous

Decoding undoes writing.  Code has no length fields and its end is guessed:
fewer than four zero bytes are padding.  So instructions whose fields fit can
be read back only if no instruction looks like padding.  Two facts together
rule that out: the opcode zero is followed by the code of a function, and
function zero takes a string in every version of the format, which makes the
shortest instruction of zero bytes as long as the padding window.

1. `Operand.Fits` and `Instruction.Fits` say which operands a schema takes
   and which values its fields hold; they say nothing about places and names.
2. Instructions that fit can be laid out anywhere (`CodeLaid.exists_of_fits`),
   where they get the places, names and texts that belong there.
3. What is laid out is read back, for any padding.
-/

namespace Scenario

/-! ## operands that fit a schema -/

/-- The fields of a token fit the bytes they are written to. -/
def Token.Fits : Token → Prop
  | .load register mask _ => 0 ≤ register ∧ register < 256 ∧ 0 ≤ mask ∧ mask < 65536
  | .operator code _ flag _ => 1 ≤ flag ∧ flag ≤ 254 ∧ (Expression.operator? code).isSome

/-- An operand is one that a function takes; string offsets lie inside a pool
of `poolLength` bytes. -/
def Operand.FitsArgument (poolLength : Nat) : ArgumentKind → Operand → Prop
  | .word, .raw _ width value => width = 2 ∧ 0 ≤ value ∧ value < 65536
  | .expression, .expression e => ∀ t ∈ e.tokens, t.Fits
  | .string, .string r => 0 ≤ r.offset ∧ r.offset < 65536 ∧ r.offset < poolLength
  | _, _ => False

/-- An operand is one that an instruction takes. -/
def Operand.Fits (functions : FunctionTable) (poolLength : Nat) : OperandKind → Operand → Prop
  | .byte, .raw _ width value => width = 1 ∧ 0 ≤ value ∧ value < 256
  | .argument kind, o => o.FitsArgument poolLength kind
  | .function, .function _ code _ operands =>
    ∃ (b : UInt8) (spec : Spec ArgumentKind), code = b.toNat ∧ functions.lookup b = some spec ∧
      List.Forall₂ (Operand.FitsArgument poolLength) spec.operands operands
  | .switch, .switch default cases =>
    0 ≤ default ∧ default < 65536 ∧ cases.length ≤ 255 ∧
      ∀ case ∈ cases, 0 ≤ case.1 ∧ case.1 < 256 ∧ 0 ≤ case.2 ∧ case.2 < 65536
  | _, _ => False

/-- An instruction has a known opcode and the operands of its schema. -/
def Instruction.Fits (functions : FunctionTable) (poolLength : Nat) (i : Instruction) : Prop :=
  ∃ (b : UInt8) (spec : Spec OperandKind), i.opcode = b.toNat ∧ opcodes.lookup b = some spec ∧
    List.Forall₂ (Operand.Fits functions poolLength) spec.operands i.operands

/-! ## laying operands out -/

section Placing

open Recast

/-- A token that fits can be written. -/
theorem Token.Fits.writable {t : Token} (h : t.Fits) : t.Writable := by
  cases t with
  | load register mask a => trivial
  | operator code name flag a => exact h

/-- Nothing is cut off a token that fits. -/
theorem Token.Fits.recast_readBack {t : Token} (h : t.Fits) (address : Int) :
    (t.readBack address).recast forgetPlaces = t.recast forgetPlaces := by
  cases t with
  | load register mask a =>
      obtain ⟨hr0, hr, hm0, hm⟩ := h
      rw [Token.readBack, Int.emod_eq_of_lt hr0 hr, Int.emod_eq_of_lt hm0 hm]
      rfl
  | operator code name flag a => rfl

/-- Tokens that fit can be laid out at any address. -/
theorem TokensLaid.exists_of_fits {ts : List Token} (h : ∀ t ∈ ts, t.Fits) (address : Int) :
    ∃ ts' bs, TokensLaid address ts' bs ∧
      ts'.map (Token.recast forgetPlaces) = ts.map (Token.recast forgetPlaces) := by
  obtain ⟨bs, -, hlaid⟩ := Expression.encodeTokens_of_writable fun t ht => (h t ht).writable
  refine ⟨_, bs, hlaid address, ?_⟩
  clear hlaid
  induction ts generalizing address with
  | nil => rfl
  | cons t ts ih =>
      rw [List.forall_mem_cons] at h
      rw [Token.readBackAll, List.map_cons, List.map_cons, h.1.recast_readBack, ih h.2]

/-- Cases that fit have bytes. -/
theorem CasesLaid.exists_of_fits {cases : List (Int × Int)}
    (h : ∀ case ∈ cases, 0 ≤ case.1 ∧ case.1 < 256 ∧ 0 ≤ case.2 ∧ case.2 < 65536) :
    ∃ bs, CasesLaid cases bs := by
  induction cases with
  | nil => exact ⟨[], .nil⟩
  | cons case cases ih =>
      obtain ⟨number, target⟩ := case
      obtain ⟨hn0, hn, ht0, ht⟩ := h _ List.mem_cons_self
      obtain ⟨b, hb⟩ := Bytes.exists_byte_of_lt hn0 hn
      obtain ⟨low, high, hword⟩ := Bytes.exists_word_of_lt ht0 ht
      obtain ⟨bs, hlaid⟩ := ih fun case hcase => h case (List.mem_cons_of_mem _ hcase)
      dsimp only at hb hword
      subst hb hword
      exact ⟨_, .cons b low high hlaid⟩

/-- Operands that fit their kinds one by one can be laid out as a run. -/
theorem OperandsLaid.exists_of_fits {κ : Type} {one : Int → String → κ → Operand → Bytes → Prop}
    {fits : κ → Operand → Prop} {kinds : List κ} {os : List Operand}
    (h : List.Forall₂ fits kinds os)
    (hone : ∀ kind o, fits kind o → ∀ position name, ∃ o' bs, one position name kind o' bs ∧
      o'.recast forgetPlaces = o.recast forgetPlaces)
    (spec : Spec κ) (position : Int) (index : Nat) :
    ∃ os' bs, OperandsLaid one spec position index kinds os' bs ∧
      Operand.recastAll forgetPlaces os' = Operand.recastAll forgetPlaces os := by
  induction h generalizing position index with
  | nil => exact ⟨[], [], .nil, rfl⟩
  | cons hfirst _ ih =>
      obtain ⟨o', bs, hlaid, hsame⟩ := hone _ _ hfirst position (spec.operandName index)
      obtain ⟨os', bs', hrest, hsames⟩ := ih (position + bs.length) (index + 1)
      exact ⟨o' :: os', bs ++ bs', .cons hlaid hrest,
        by rw [Operand.recastAll, Operand.recastAll, hsame, hsames]⟩

variable [Codecs] {ctx : Context} (hdecodes : Encoding.Decodes ctx.encoding)

include hdecodes

theorem ArgumentLaid.exists_of_fits {kind : ArgumentKind} {o : Operand}
    (h : o.FitsArgument ctx.pool.suffixes.size kind) (base position : Int) (name : String) :
    ∃ o' bs, ArgumentLaid ctx base position name kind o' bs ∧
      o'.recast forgetPlaces = o.recast forgetPlaces := by
  match kind, o, h with
  | .word, .raw _ _ _, ⟨rfl, hv0, hv⟩ =>
      obtain ⟨low, high, rfl⟩ := Bytes.exists_word_of_lt hv0 hv
      exact ⟨_, _, .word low high, rfl⟩
  | .expression, .expression e, h =>
      obtain ⟨ts, bs, hlaid, hsame⟩ := TokensLaid.exists_of_fits h (base + position)
      refine ⟨_, _, .expression hlaid, ?_⟩
      simp only [Operand.recast, Expression.recast, hsame]
      rfl
  | .string, .string r, ⟨h0, hlt, hpool⟩ =>
      obtain ⟨low, high, hword⟩ := Bytes.exists_word_of_lt h0 hlt
      have hin : Bytes.word low high < ctx.pool.suffixes.size := by omega
      obtain ⟨text, htext⟩ := Context.resolves_of_lt hdecodes hin (base + position)
      refine ⟨_, _, .string low high htext, ?_⟩
      simp only [Operand.recast, forgetPlaces, hword]

theorem OperandLaid.exists_of_fits {kind : OperandKind} {o : Operand}
    (h : o.Fits ctx.dialect.functions ctx.pool.suffixes.size kind) (base position : Int)
    (name : String) :
    ∃ o' bs, OperandLaid ctx base position name kind o' bs ∧
      o'.recast forgetPlaces = o.recast forgetPlaces := by
  match kind, o, h with
  | .byte, .raw _ _ _, ⟨rfl, hv0, hv⟩ =>
      obtain ⟨b, rfl⟩ := Bytes.exists_byte_of_lt hv0 hv
      exact ⟨_, _, .byte b, rfl⟩
  | .argument kind, o, h =>
      obtain ⟨o', bs, hlaid, hsame⟩ := ArgumentLaid.exists_of_fits hdecodes h base position name
      exact ⟨o', bs, .argument hlaid, hsame⟩
  | .function, .function _ _ _ operands, ⟨b, spec, rfl, hspec, hoperands⟩ =>
      obtain ⟨os', bs, hlaid, hsame⟩ := OperandsLaid.exists_of_fits hoperands
        (fun _ _ h => ArgumentLaid.exists_of_fits hdecodes h base) spec (position + 1) 0
      refine ⟨_, _, .function b hspec hlaid, ?_⟩
      simp only [Operand.recast, hsame]
      rfl
  | .switch, .switch _ cases, ⟨hd0, hd, hcount, hcases⟩ =>
      obtain ⟨low, high, rfl⟩ := Bytes.exists_word_of_lt hd0 hd
      obtain ⟨count, hcount⟩ := @Bytes.exists_byte_of_lt cases.length (by omega) (by omega)
      obtain ⟨bs, hlaid⟩ := CasesLaid.exists_of_fits hcases
      exact ⟨_, _, .switch low high count (by omega) hlaid, rfl⟩

theorem InstructionLaid.exists_of_fits {i : Instruction}
    (h : i.Fits ctx.dialect.functions ctx.pool.suffixes.size) (base position : Int) :
    ∃ i' bs, InstructionLaid ctx base position i' bs ∧
      i'.recast forgetPlaces = i.recast forgetPlaces := by
  obtain ⟨b, spec, hopcode, hspec, hoperands⟩ := h
  obtain ⟨os', bs, hlaid, hsame⟩ := OperandsLaid.exists_of_fits hoperands
    (fun _ _ h => OperandLaid.exists_of_fits hdecodes h base) spec (position + 1) 0
  refine ⟨_, _, .mk b hspec hlaid, ?_⟩
  simp only [Instruction.recast, hsame, hopcode]
  rfl

end Placing

/-! ## no instruction looks like padding -/

section Padding

variable {ctx : Context} {base position : Int}

theorem OperandsLaid.two_le_length [Codecs] {spec : Spec ArgumentKind} {index : Nat}
    {kinds : List ArgumentKind} {os : List Operand} {bs : Bytes}
    (h : OperandsLaid (ArgumentLaid ctx base) spec position index kinds os bs)
    (hstring : ArgumentKind.string ∈ kinds) : 2 ≤ bs.length := by
  induction h with
  | nil => cases hstring
  | cons first rest ih =>
      rw [List.length_append]
      rcases List.mem_cons.mp hstring with hkind | hkinds
      · subst hkind
        cases first with
        | string low high htext => exact Nat.le_add_right 2 _
      · have := ih hkinds
        omega

/-- An instruction has a byte other than zero or is as long as the padding
window, if function zero takes a string. -/
theorem InstructionLaid.isPadding_append [Codecs]
    (hzero : ∀ spec, ctx.dialect.functions.lookup 0 = some spec → spec.operands = [.string])
    {i : Instruction} {bs : Bytes} (h : InstructionLaid ctx base position i bs) (rest : Bytes) :
    Code.isPadding (bs ++ rest) = false := by
  cases h with
  | mk opcode hspec hos =>
      by_cases hopcode : opcode = 0
      · subst hopcode
        have hcall : opcodes.lookup 0 = some ⟨"exec_func", [.function], ["function"]⟩ := rfl
        rw [hcall, Option.some.injEq] at hspec
        subst hspec
        cases hos with
        | cons first hrest =>
            cases hrest
            cases first with
            | function code hspec hos =>
                by_cases hcode : code = 0
                · subst hcode
                  have hlength := hos.two_le_length (hzero _ hspec ▸ List.mem_singleton_self _)
                  refine Code.isPadding_eq_false_of_length ?_
                  simp only [Code.paddingWindow, List.length_append, List.length_cons]
                  omega
                · exact Code.isPadding_eq_false_of_mem (b := code) (by simp) hcode
      · exact Code.isPadding_eq_false_of_mem (b := opcode) (by simp) hopcode

end Padding

/-- Instructions that fit can be laid out before any padding. -/
theorem CodeLaid.exists_of_fits [Codecs] {ctx : Context}
    (hdecodes : Encoding.Decodes ctx.encoding)
    (hzero : ∀ spec, ctx.dialect.functions.lookup 0 = some spec → spec.operands = [.string])
    {tail : Bytes} (htail : Code.isPadding tail = true) {is : List Instruction}
    (h : ∀ i ∈ is, i.Fits ctx.dialect.functions ctx.pool.suffixes.size) (base position : Int) :
    ∃ is' bs, CodeLaid ctx base position is' bs tail ∧
      is'.map (Instruction.recast .forgetPlaces) = is.map (Instruction.recast .forgetPlaces) := by
  induction is generalizing position with
  | nil => exact ⟨[], [], .done htail, rfl⟩
  | cons i is ih =>
      obtain ⟨i', bs, hfirst, hsame⟩ :=
        InstructionLaid.exists_of_fits hdecodes (h i List.mem_cons_self) base position
      obtain ⟨is', bs', hrest, hsames⟩ :=
        ih (fun i hi => h i (List.mem_cons_of_mem _ hi)) (position + bs.length)
      exact ⟨i' :: is', bs ++ bs', .step (hfirst.isPadding_append hzero _) hfirst hrest,
        by rw [List.map_cons, List.map_cons, hsame, hsames]⟩

/-- **Decoding undoes writing**: instructions that fit a version are written,
and read back from their bytes and up to three zero bytes behind them. -/
theorem Version.decode_encodeAll [Codecs] (v : Version) (image : Image) {encoding : String}
    (hdecodes : Encoding.Decodes encoding)
    {is : List Instruction} (h : ∀ i ∈ is, i.Fits v.dialect.functions image.pool.length)
    {k : Nat} (hk : k ≤ 3) :
    ∃ (bs : Bytes) (d : Decoded), Instruction.encodeAll is = .ok bs ∧
      { image with code := bs ++ List.replicate k 0 }.decode v.dialect encoding = .ok d ∧
      d.instructions.map (Instruction.recast .forgetPlaces) =
        is.map (Instruction.recast .forgetPlaces) ∧
      d.consumed = bs.length ∧
      CodeLaid ⟨v.dialect, .ofPool image.pool, encoding⟩ image.codeBase 0 d.instructions bs
        (List.replicate k 0) := by
  have htail : Code.isPadding (List.replicate k 0) = true := by
    rw [Code.isPadding_iff, List.length_replicate]
    exact ⟨Nat.lt_succ_of_le hk, fun b hb => List.eq_of_mem_replicate hb⟩
  obtain ⟨is', bs, hlaid, hsame⟩ := @CodeLaid.exists_of_fits _
    ⟨v.dialect, .ofPool image.pool, encoding⟩ hdecodes
    (fun _ => v.operands_of_lookup_zero) _ htail is
    (by simpa using h) image.codeBase 0
  refine ⟨bs, _, ?_, Code.decode_eq_ok_iff.mpr ⟨is', bs, _, hlaid, rfl, rfl⟩, hsame, rfl, hlaid⟩
  rw [← Instruction.encodeAll_eq_of_forgetPlaces hsame]
  exact hlaid.encodeAll

/-- The call of function zero with the first string of the pool, all of whose
four bytes are zero. -/
def Instruction.firstString : Instruction :=
  ⟨0, 0x00, "exec_func", [.function 1 0 "" [.string ⟨2, 0, ""⟩]]⟩

/-- Of seven zero bytes the first four are an instruction, and only the other
three are padding. -/
theorem Version.decode_zeros :
    ∃ d : Decoded,
      Image.decode ⟨[], [], List.replicate 7 0, 12, [0x41, 0, 0]⟩ v2.dialect "ascii" = .ok d ∧
      d.instructions.map (Instruction.recast .forgetPlaces) =
        [Instruction.firstString.recast .forgetPlaces] ∧
      d.consumed = 4 := by
  have hfits : ∀ i ∈ [Instruction.firstString], i.Fits v2.dialect.functions 3 := by
    intro i hi
    rw [List.mem_singleton] at hi
    subst hi
    obtain ⟨spec, hspec, hoperands⟩ := v2.lookup_zero
    refine ⟨0, ⟨"exec_func", [.function], ["function"]⟩, rfl, rfl, .cons ?_ .nil⟩
    refine ⟨0, spec, rfl, hspec, ?_⟩
    rw [hoperands]
    exact .cons (by simp [Operand.FitsArgument]) .nil
  have hdecodes : Encoding.Decodes "ascii" := Encoding.decodes_of_lenient rfl
  obtain ⟨bs, d, hbs, hd, hsame, hconsumed, -⟩ :=
    v2.decode_encodeAll ⟨[], [], [], 12, [0x41, 0, 0]⟩ hdecodes hfits (k := 3) (by decide)
  have hzeros : Instruction.encodeAll [Instruction.firstString] = .ok [0, 0, 0, 0] := rfl
  rw [hzeros, Except.ok.injEq] at hbs
  subst hbs
  exact ⟨d, hd, hsame, hconsumed⟩

end Scenario
