import Scenario.Proofs.Reading
import Scenario.Proofs.Tables
import Scenario.Session

/-!
# Scenario.Proofs.Calls

Scripts that are made of calls.  Function zero takes a string in every
version, so code that calls nothing else, and returns, is decoded in every
version if its strings lie in the pool, and its references lie four bytes
apart (`Image.exists_decode_of_calls`).  What is loaded from such a script is
thereby known without looking into the tables of a version.
-/

namespace Scenario

namespace Code

/-- Code that calls function zero with the string at each of some offsets, and
returns. -/
def ofCalls : List (UInt8 × UInt8) → Bytes
  | [] => [0x0D]
  | (low, high) :: offsets => [0x00, 0x00, low, high] ++ ofCalls offsets

/-- Positions of the references of such code that lies at `position`. -/
def callFields (position : Int) : List (UInt8 × UInt8) → List Int
  | [] => []
  | _ :: offsets => (position + 2) :: callFields (position + 4) offsets

end Code

section Laid

variable [Codecs] {ctx : Context} {base position : Int}

/-- A call of function zero. -/
theorem InstructionLaid.exists_call {v : Version} (hdialect : ctx.dialect = v.dialect)
    {low high : UInt8} (h : ctx.Resolves (Bytes.word low high)) :
    ∃ i, InstructionLaid ctx base position i [0x00, 0x00, low, high] ∧
      i.fields = [position + 2] := by
  obtain ⟨spec, hspec, hoperands⟩ := v.lookup_zero
  rw [← hdialect] at hspec
  obtain ⟨text, htext⟩ := h (base + (position + 1 + 1))
  have hstring : OperandsLaid (ArgumentLaid ctx base) spec (position + 1 + 1) 0 spec.operands
      [.string ⟨position + 1 + 1, Bytes.word low high, text⟩] ([low, high] ++ []) := by
    rw [hoperands]
    exact .cons (.string low high htext) .nil
  have hcall : InstructionLaid ctx base position
      ⟨base + position, 0, "exec_func", [.function (base + (position + 1)) 0 spec.mnemonic
        [.string ⟨position + 1 + 1, Bytes.word low high, text⟩]]⟩
      (0x00 :: ((0x00 :: ([low, high] ++ [])) ++ [])) :=
    .mk 0 rfl (.cons (.function 0 hspec hstring) .nil)
  exact ⟨_, hcall, by simp [Int.add_assoc]⟩

/-- A run of calls of function zero. -/
theorem CodeLaid.exists_calls {v : Version} (hdialect : ctx.dialect = v.dialect)
    {offsets : List (UInt8 × UInt8)} (h : ∀ w ∈ offsets, ctx.Resolves (Bytes.word w.1 w.2)) :
    ∃ is, CodeLaid ctx base position is (Code.ofCalls offsets) [] ∧
      Instruction.allFields is = Code.callFields position offsets := by
  induction offsets generalizing position with
  | nil =>
      have hreturn : InstructionLaid ctx base position ⟨base + position, 0x0D, "ret", []⟩ [0x0D] :=
        .mk 0x0D rfl .nil
      exact ⟨_, .step rfl hreturn (.done rfl), rfl⟩
  | cons w offsets ih =>
      obtain ⟨low, high⟩ := w
      obtain ⟨i, hcall, hfields⟩ := @InstructionLaid.exists_call _ ctx base position v hdialect
        low high (h (low, high) List.mem_cons_self)
      obtain ⟨is, hrest, hallFields⟩ :=
        @ih (position + 4) fun w hw => h w (List.mem_cons_of_mem _ hw)
      refine ⟨i :: is, .step (Code.isPadding_eq_false_of_length ?_) hcall hrest, ?_⟩
      · simp [Code.paddingWindow]
      · rw [Instruction.allFields_cons, hfields, hallFields]
        rfl

end Laid

/-- An image of calls is decoded in every version. -/
theorem Image.exists_decode_of_calls [Codecs] {image : Image} (v : Version) {encoding : String}
    (hdecodes : Encoding.Decodes encoding)
    {offsets : List (UInt8 × UInt8)} (hcode : image.code = Code.ofCalls offsets)
    (h : ∀ w ∈ offsets, Bytes.word w.1 w.2 < image.pool.length) :
    ∃ d, image.decode v.dialect encoding = .ok d ∧ d.stringRefs = Code.callFields 0 offsets := by
  let ctx : Context := ⟨v.dialect, .ofPool image.pool, encoding⟩
  have hresolves : ∀ w ∈ offsets, ctx.Resolves (Bytes.word w.1 w.2) := by
    intro w hw
    have hsize : ctx.pool.suffixes.size = image.pool.length := Pool.Index.size_ofPool _
    exact @Context.resolves_of_lt _ ctx _ hdecodes (by rw [hsize]; exact h w hw)
  obtain ⟨is, hlaid, hfields⟩ :=
    @CodeLaid.exists_calls _ ctx image.codeBase 0 v rfl offsets hresolves
  exact ⟨_, Code.decode_eq_ok_iff.mpr ⟨is, _, _, hlaid, by simpa using hcode, rfl⟩, hfields⟩

/-- A file of calls is loaded in every version. -/
theorem Session.exists_load_of_calls [Codecs] {data : Bytes} {image : Image} {options : Options}
    (hload : Image.load data = .ok image) (hdecodes : Encoding.Decodes options.encoding)
    {offsets : List (UInt8 × UInt8)} (hcode : image.code = Code.ofCalls offsets)
    (h : ∀ w ∈ offsets, Bytes.word w.1 w.2 < image.pool.length) :
    ∃ d, load data options = .ok ⟨image, d, options⟩ ∧
      d.stringRefs = Code.callFields 0 offsets := by
  obtain ⟨d, hd, hrefs⟩ := Image.exists_decode_of_calls options.version hdecodes hcode h
  refine ⟨d, ?_, hrefs⟩
  rw [load, hload]
  exact andThen_eq_ok_iff.mpr ⟨d, hd, rfl⟩

end Scenario
