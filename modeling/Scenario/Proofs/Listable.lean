import Scenario.Listing
import Scenario.Proofs.Tiling

/-!
# Scenario.Proofs.Listable

Decoded code can be shown.  A listing or a document of instructions can fail:
operands may be missing, and uninterpreted fields may be of any width.  Readers
make neither, so what was decoded is shown in both forms
(`Image.exists_render_of_decode`).
-/

namespace Scenario

/-! ## operands as readers make them -/

mutual

/-- Nothing is missing in an operand, and its uninterpreted fields have no more
than two bytes. -/
def Operand.Listable : Operand → Prop
  | .expression _ => True
  | .string _ => True
  | .raw _ width _ => 0 ≤ width ∧ width ≤ 2
  | .switch .. => True
  | .function _ _ _ operands => Operand.AllListable operands
  | .missing => False

/-- The same of each of a run of operands. -/
def Operand.AllListable : List Operand → Prop
  | [] => True
  | o :: os => Operand.Listable o ∧ Operand.AllListable os

end

section Laid

variable {ctx : Context} {base position : Int}

theorem ArgumentLaid.listable [Codecs] {name : String} {kind : ArgumentKind} {o : Operand}
    {bs : Bytes} (h : ArgumentLaid ctx base position name kind o bs) : o.Listable := by
  cases h <;> simp [Operand.Listable]

theorem OperandsLaid.allListable {κ : Type} {one : Int → String → κ → Operand → Bytes → Prop}
    (hone : ∀ {p name kind o bs}, one p name kind o bs → o.Listable)
    {spec : Spec κ} {index : Nat} {kinds : List κ} {os : List Operand} {bs : Bytes}
    (h : OperandsLaid one spec position index kinds os bs) : Operand.AllListable os := by
  induction h with
  | nil => trivial
  | cons first rest ih => exact ⟨hone first, ih⟩

theorem OperandLaid.listable [Codecs] {name : String} {kind : OperandKind} {o : Operand}
    {bs : Bytes} (h : OperandLaid ctx base position name kind o bs) : o.Listable := by
  cases h with
  | byte b => exact ⟨by decide, by decide⟩
  | argument h => exact h.listable
  | function code hspec hos => exact hos.allListable ArgumentLaid.listable
  | switch low high count hcount hcases => trivial

end Laid

/-! ## showing them -/

namespace Listing

/-- A field of no more than two bytes has digits. -/
theorem exists_rawComment {width : Int} (h : 0 ≤ width ∧ width ≤ 2) (name : String) (value : Int) :
    ∃ comment, rawComment name width value = .ok comment := by
  obtain ⟨hlow, hhigh⟩ := h
  have hcountable : Bytes.isCountable (2 * width) = true := by
    simp only [Bytes.isCountable, Bool.and_eq_true, decide_eq_true_eq]
    omega
  have hheld : Bytes.isHeld (2 * width) = true := by
    simp only [Bytes.isHeld, decide_eq_true_eq]
    omega
  rw [rawComment, hcountable, hheld, if_neg (Int.not_lt.mpr hlow)]
  split
  · exact ⟨_, rfl⟩
  · exact ⟨_, rfl⟩

mutual

theorem exists_operandLines (address : Int) : (o : Operand) → o.Listable →
    ∃ lines, operandLines address o = .ok lines
  | .expression e, _ => ⟨_, by rw [operandLines]⟩
  | .string r, _ => ⟨_, by rw [operandLines]⟩
  | .raw name width value, h => by
      obtain ⟨comment, hcomment⟩ := exists_rawComment h name value
      exact ⟨_, by rw [operandLines, hcomment]; rfl⟩
  | .switch default cases, _ => ⟨_, by rw [operandLines]⟩
  | .function start code mnemonic operands, h => by
      obtain ⟨lines, hlines⟩ := exists_operandsLines start operands h
      exact ⟨_, by rw [operandLines, hlines]; rfl⟩
  | .missing, h => h.elim

theorem exists_operandsLines (address : Int) : (os : List Operand) → Operand.AllListable os →
    ∃ lines, operandsLines address os = .ok lines
  | [], _ => ⟨_, by rw [operandsLines]⟩
  | o :: os, h => by
      obtain ⟨first, hfirst⟩ := exists_operandLines address o h.1
      obtain ⟨rest, hrest⟩ := exists_operandsLines address os h.2
      exact ⟨_, by rw [operandsLines, hfirst, hrest]; rfl⟩

end

mutual

theorem exists_operandJson : (o : Operand) → o.Listable →
    ∃ document, operandJson o = .ok document
  | .expression e, _ => ⟨_, by rw [operandJson]⟩
  | .string r, _ => ⟨_, by rw [operandJson]⟩
  | .raw name width value, _ => ⟨_, by rw [operandJson]⟩
  | .switch default cases, _ => ⟨_, by rw [operandJson]⟩
  | .function start code mnemonic operands, h => by
      obtain ⟨documents, hdocuments⟩ := exists_operandsJson operands h
      exact ⟨_, by rw [operandJson, hdocuments]; rfl⟩
  | .missing, h => h.elim

theorem exists_operandsJson : (os : List Operand) → Operand.AllListable os →
    ∃ documents, operandsJson os = .ok documents
  | [], _ => ⟨_, by rw [operandsJson]⟩
  | o :: os, h => by
      obtain ⟨first, hfirst⟩ := exists_operandJson o h.1
      obtain ⟨rest, hrest⟩ := exists_operandsJson os h.2
      exact ⟨_, by rw [operandsJson, hfirst, hrest]; rfl⟩

end

end Listing

section Laid

variable [Codecs] {ctx : Context} {base position : Int}

theorem InstructionLaid.exists_lines {i : Instruction} {bs : Bytes}
    (h : InstructionLaid ctx base position i bs) :
    ∃ lines, Listing.instructionLines i = .ok lines := by
  cases h with
  | mk opcode hspec hos =>
      obtain ⟨lines, hlines⟩ :=
        Listing.exists_operandsLines (base + position) _ (hos.allListable OperandLaid.listable)
      exact ⟨_, by rw [Listing.instructionLines, hlines]; rfl⟩

theorem InstructionLaid.exists_json {i : Instruction} {bs : Bytes}
    (h : InstructionLaid ctx base position i bs) :
    ∃ document, Listing.instructionJson i = .ok document := by
  have hsize : Listing.instructionSize i = .ok (bs.length : Int) := by
    rw [Listing.instructionSize, h.size?.2]
  cases h with
  | mk opcode hspec hos =>
      obtain ⟨documents, hdocuments⟩ :=
        Listing.exists_operandsJson _ (hos.allListable OperandLaid.listable)
      exact ⟨_, by rw [Listing.instructionJson, hsize, hdocuments]; rfl⟩

theorem CodeLaid.exists_laid_of_mem {is : List Instruction} {bs tail : Bytes}
    (h : CodeLaid ctx base position is bs tail) {i : Instruction} (hi : i ∈ is) :
    ∃ place part, InstructionLaid ctx base place i part := by
  induction h with
  | done hpad => cases hi
  | step hpad first rest ih =>
      rcases List.mem_cons.mp hi with rfl | hi
      · exact ⟨_, _, first⟩
      · exact ih hi

end Laid

/-- Decoded instructions can be listed, and written as a document. -/
theorem Image.exists_render_of_decode [Codecs] {image : Image} {dialect : Dialect}
    {encoding : String} {d : Decoded} (h : image.decode dialect encoding = .ok d) :
    (∀ shown version, ∃ text, Listing.render d.instructions shown version = .ok text) ∧
      ∃ text, Listing.renderJson d.instructions = .ok text := by
  obtain ⟨is, bs, tail, hlaid, -, rfl⟩ := Code.decode_eq_ok_iff.mp h
  constructor
  · intro shown version
    obtain ⟨lines, hlines⟩ := exists_mapM_eq_ok (f := Listing.instructionLines) fun i hi => by
      obtain ⟨_, _, hi⟩ := hlaid.exists_laid_of_mem hi
      exact hi.exists_lines
    exact ⟨_, by rw [Listing.render.eq_def, hlines]; rfl⟩
  · obtain ⟨documents, hdocuments⟩ :=
      exists_mapM_eq_ok (f := Listing.instructionJson) fun i hi => by
        obtain ⟨_, _, hi⟩ := hlaid.exists_laid_of_mem hi
        exact hi.exists_json
    exact ⟨_, by rw [Listing.renderJson, hdocuments]; rfl⟩

end Scenario
