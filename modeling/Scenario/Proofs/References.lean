import Scenario.Proofs.Reading
import Scenario.Proofs.Traverse

/-!
# Scenario.Proofs.References

The string references of decoded code.  Each of them holds the word that lies
at its place and the text that the pool has there, and the place belongs to
the code (`CodeLaid.laid_of_mem_references`).  In particular every reference
of an image that was decoded leads into its pool
(`Image.exists_offset_of_decode`), to a text (`Image.exists_text_of_decode`).

Decoding notes the positions of references while it reads them, deep inside
calls; a walk over the finished instructions finds the same positions
(`Image.stringRefs_of_decode`).  With the order of the fields this makes the
table of an image safe to patch through (`Image.references_of_decode`).
-/

namespace Scenario

/-- A string reference in bytes that lie at `position`: its offset is the word
at its place, and the pool has its text there. -/
def StringRef.Laid [Codecs] (ctx : Context) (base position : Int) (bs : Bytes) (r : StringRef) :
    Prop :=
  ∃ (before behind : Bytes) (low high : UInt8), bs = before ++ low :: high :: behind ∧
    r.codeAddress = position + before.length ∧ r.offset = Bytes.word low high ∧
    ctx.pool.resolve r.offset ctx.encoding (some (base + r.codeAddress)) = .ok r.text

section Laid

variable [Codecs] {ctx : Context} {base position : Int}

theorem StringRef.Laid.append_right {bs : Bytes} {r : StringRef}
    (h : r.Laid ctx base position bs) (bs' : Bytes) : r.Laid ctx base position (bs ++ bs') := by
  obtain ⟨before, behind, low, high, rfl, hplace, hoffset, htext⟩ := h
  exact ⟨before, behind ++ bs', low, high, by simp, hplace, hoffset, htext⟩

theorem StringRef.Laid.append_left {bs' : Bytes} {r : StringRef} (bs : Bytes)
    (h : r.Laid ctx base (position + bs.length) bs') : r.Laid ctx base position (bs ++ bs') := by
  obtain ⟨before, behind, low, high, rfl, hplace, hoffset, htext⟩ := h
  refine ⟨bs ++ before, behind, low, high, by simp, ?_, hoffset, htext⟩
  rw [hplace, List.length_append]
  omega

theorem ArgumentLaid.laid_of_mem_references {name : String} {kind : ArgumentKind} {o : Operand}
    {bs : Bytes} (h : ArgumentLaid ctx base position name kind o bs) {r : StringRef}
    (hr : r ∈ o.references) : r.Laid ctx base position bs := by
  cases h with
  | word low high => cases hr
  | expression htokens => cases hr
  | string low high htext =>
      obtain rfl := List.mem_singleton.mp hr
      exact ⟨[], [], low, high, rfl, by simp, rfl, htext⟩

/-- What holds of the references of each operand holds of a run of them. -/
theorem OperandsLaid.laid_of_mem_references {κ : Type}
    {one : Int → String → κ → Operand → Bytes → Prop}
    (hone : ∀ {p name kind o bs}, one p name kind o bs → ∀ {r}, r ∈ o.references →
      r.Laid ctx base p bs)
    {spec : Spec κ} {index : Nat} {kinds : List κ} {os : List Operand} {bs : Bytes}
    (h : OperandsLaid one spec position index kinds os bs) {r : StringRef}
    (hr : r ∈ Operand.allReferences os) : r.Laid ctx base position bs := by
  induction h with
  | nil => cases hr
  | cons first rest ih =>
      rw [Operand.allReferences, List.mem_append] at hr
      rcases hr with hr | hr
      · exact (hone first hr).append_right _
      · exact .append_left _ (ih hr)

theorem OperandLaid.laid_of_mem_references {name : String} {kind : OperandKind} {o : Operand}
    {bs : Bytes} (h : OperandLaid ctx base position name kind o bs) {r : StringRef}
    (hr : r ∈ o.references) : r.Laid ctx base position bs := by
  cases h with
  | byte b => cases hr
  | argument h => exact h.laid_of_mem_references hr
  | function code hspec hos =>
      exact .append_left [code]
        (hos.laid_of_mem_references ArgumentLaid.laid_of_mem_references hr)
  | switch low high count hcount hcases => cases hr

theorem InstructionLaid.laid_of_mem_references {i : Instruction} {bs : Bytes}
    (h : InstructionLaid ctx base position i bs) {r : StringRef} (hr : r ∈ i.references) :
    r.Laid ctx base position bs := by
  cases h with
  | mk opcode hspec hos =>
      exact .append_left [opcode]
        (hos.laid_of_mem_references OperandLaid.laid_of_mem_references hr)

/-- **References** of a code hold what lies at their places. -/
theorem CodeLaid.laid_of_mem_references {is : List Instruction} {bs tail : Bytes}
    (h : CodeLaid ctx base position is bs tail) {r : StringRef}
    (hr : r ∈ is.flatMap Instruction.references) : r.Laid ctx base position bs := by
  induction h with
  | done hpad => cases hr
  | step hpad first rest ih =>
      rw [List.flatMap_cons, List.mem_append] at hr
      rcases hr with hr | hr
      · exact (first.laid_of_mem_references hr).append_right _
      · exact .append_left _ (ih hr)

end Laid

/-! ## the table of references -/

/-- The positions that decoding notes are those of the references that a walk
over the instructions finds. -/
theorem Image.stringRefs_of_decode [Codecs] {image : Image} {dialect : Dialect} {encoding : String}
    {d : Decoded} (h : image.decode dialect encoding = .ok d) :
    d.stringRefs = d.references.map StringRef.codeAddress := by
  obtain ⟨is, bs, tail, -, -, rfl⟩ := Code.decode_eq_ok_iff.mp h
  exact (List.map_flatMap ..).symm

/-- A reference of a decoded image holds the word at its place, and the text
that the pool has there. -/
theorem Image.word_of_mem_references [Codecs] {image : Image} {dialect : Dialect}
    {encoding : String} {d : Decoded} (h : image.decode dialect encoding = .ok d) {r : StringRef}
    (hr : r ∈ d.references) :
    ∃ offset : Nat, r.offset = offset ∧ image.code.readUInt? r.codeAddress 2 = some offset ∧
      Pool.resolve image.pool offset encoding (some (image.absolute r.codeAddress)) =
        .ok r.text := by
  obtain ⟨is, bs, tail, hlaid, hcode, rfl⟩ := Code.decode_eq_ok_iff.mp h
  obtain ⟨before, behind, low, high, rfl, hplace, hoffset, htext⟩ :=
    hlaid.laid_of_mem_references hr
  refine ⟨Bytes.word low high, hoffset, ?_, ?_⟩
  · rw [hplace, Int.zero_add, hcode, Bytes.readUInt?_word_iff]
    exact ⟨low, high, by simp, by simp, rfl⟩
  · rw [hoffset, Pool.Index.resolve_ofPool] at htext
    exact htext

/-- The string fields of a decoded image hold offsets at which the pool has a
text. -/
theorem Image.exists_text_of_decode [Codecs] {image : Image} {dialect : Dialect} {encoding : String}
    {d : Decoded} (h : image.decode dialect encoding = .ok d) {reference : Int}
    (hreference : reference ∈ d.stringRefs) :
    ∃ (offset : Nat) (text : String), image.code.readUInt? reference 2 = some offset ∧
      Pool.resolve image.pool offset encoding (some (image.absolute reference)) = .ok text := by
  rw [stringRefs_of_decode h] at hreference
  obtain ⟨r, hr, rfl⟩ := List.mem_map.mp hreference
  obtain ⟨offset, -, hread, htext⟩ := word_of_mem_references h hr
  exact ⟨offset, r.text, hread, htext⟩

/-- The string fields of a decoded image hold offsets inside the pool. -/
theorem Image.exists_offset_of_decode [Codecs] {image : Image} {dialect : Dialect}
    {encoding : String} {d : Decoded} (h : image.decode dialect encoding = .ok d) {reference : Int}
    (hreference : reference ∈ d.stringRefs) :
    ∃ offset, image.code.readUInt? reference 2 = some offset ∧ offset < image.pool.length := by
  obtain ⟨offset, text, hread, htext⟩ := exists_text_of_decode h hreference
  obtain ⟨-, hlt, -⟩ := Pool.resolve_eq_ok_iff.mp htext
  exact ⟨offset, hread, Int.ofNat_lt.mp hlt⟩

/-- **The table of references** that decoding notes has the references of the
instructions in their order, at increasing positions, none of whose fields
reaches into the next or behind the code that was decoded.  Each reference
holds the word at its position, which is an offset inside the pool, and the
text of the string there. -/
theorem Image.references_of_decode [Codecs] {image : Image} {dialect : Dialect} {encoding : String}
    {d : Decoded} (h : image.decode dialect encoding = .ok d) :
    d.stringRefs = d.references.map StringRef.codeAddress ∧
      d.stringRefs.Pairwise (fun a b => a + 2 ≤ b) ∧
      (∀ reference ∈ d.stringRefs, 0 ≤ reference ∧ reference + 2 ≤ d.consumed) ∧
      ∀ r ∈ d.references, ∃ offset : Nat, r.offset = offset ∧
        image.code.readUInt? r.codeAddress 2 = some offset ∧ offset < image.pool.length ∧
        ∀ address, Pool.resolve image.pool offset encoding address = .ok r.text := by
  have hfields := fieldsIn_of_decode h
  refine ⟨stringRefs_of_decode h, hfields.apart, hfields.inside, fun r hr => ?_⟩
  obtain ⟨offset, hoffset, hread, htext⟩ := word_of_mem_references h hr
  -- where the reference lies in the file is told by a failure alone
  obtain ⟨hlow, hlt, hdecode⟩ := Pool.resolve_eq_ok_iff.mp htext
  exact ⟨offset, hoffset, hread, Int.ofNat_lt.mp hlt,
    fun address => Pool.resolve_eq_ok_iff.mpr ⟨hlow, hlt, hdecode⟩⟩

/-- A dialect of one function, which takes two strings with a word between
them. -/
def Dialect.pairs : Dialect := ⟨"pairs", [(0x07, ⟨"pair", [.string, .word, .string], []⟩)]⟩

/-- Two calls of that function, one of them for its value, whose strings lie in
another order than their references, and one of them inside another. -/
def Image.pairs : Image :=
  { header := []
    labels := []
    code := [
      0x00, 0x07, 0x04, 0x00, 0xFF, 0xFF, 0x00, 0x00,
      0x05, 0x01, 0x02, 0x00, 0x07, 0x02, 0x00, 0x04, 0x00, 0x04, 0x00,
      0x0D,
      0x00]
    codeBase := 12
    pool := [0x41, 0x42, 0x43, 0x00, 0x44] }

theorem Image.references_pairs :
    ∃ d : Decoded, Image.pairs.decode Dialect.pairs "ascii" = .ok d ∧ d.consumed = 20 ∧
      d.references = [⟨2, 4, "D"⟩, ⟨6, 0, "ABC"⟩, ⟨13, 2, "C"⟩, ⟨17, 4, "D"⟩] ∧
      d.stringRefs = [2, 6, 13, 17] ∧ Image.pairs.code.readUInt? 13 2 = some 2 ∧
      Pool.resolve Image.pairs.pool 2 "ascii" none = .ok "C" := by
  have hd : (Image.pairs.decode Dialect.pairs "ascii").toOption.map
      (fun d => (d.consumed, d.references)) =
        some (20, [⟨2, 4, "D"⟩, ⟨6, 0, "ABC"⟩, ⟨13, 2, "C"⟩, ⟨17, 4, "D"⟩]) := by
    decide +kernel
  obtain ⟨d, hd, hparts⟩ := exists_ok_of_map_toOption hd
  obtain ⟨hconsumed, hreferences⟩ := Prod.mk.inj hparts
  obtain ⟨htable, -, -, hholds⟩ := Image.references_of_decode hd
  obtain ⟨offset, hoffset, hread, -, htext⟩ := hholds ⟨13, 2, "C"⟩ (by simp [hreferences])
  obtain rfl : 2 = offset := Int.ofNat_inj.mp hoffset
  rw [hreferences] at htable
  exact ⟨d, hd, hconsumed, hreferences, htable, hread, htext none⟩

end Scenario
