import Scenario.Proofs.Recast
import Scenario.Proofs.Reading

/-!
# Scenario.Proofs.Patched

Code with other string fields is parsed as before.

`Patched` relates the bytes of a code to bytes that differ from them in the
string fields only, whose new offsets resolve.  It splits along the layout of
code, because fields do not reach from one part into the next, so the
layouts of `Scenario.Proofs.Layout` are carried over one by one.  What is
special is the end of code: instructions stop where fewer than four zero bytes
are left.  A code with a string field never looks so, whatever the field
holds, since the opcode and the function's code lie before it.

The result is `Image.exists_decode_of_patched`: the instructions are the same
but for the offsets and texts of their references.
-/

namespace Scenario

/-- Bytes that differ in the fields of a code only, where they hold offsets
that resolve in `ctx`.  Both lie at `position`. -/
structure Patched [Codecs] (ctx : Context) (position : Int) (fields : List Int) (bs bs' : Bytes) :
    Prop where
  length_eq : bs'.length = bs.length
  outside : ∀ i : Nat, (∀ r ∈ fields, position + i < r ∨ r + 2 ≤ position + i) → bs'[i]? = bs[i]?
  resolves : ∀ (i : Nat) (low high : UInt8), position + i ∈ fields → bs'[i]? = some low →
    bs'[i + 1]? = some high → ctx.Resolves (Bytes.word low high)

namespace Patched

variable [Codecs] {ctx : Context} {position : Int} {fields : List Int} {bs bs' : Bytes}

/-- Without fields nothing is changed. -/
theorem eq_of_nil (h : Patched ctx position [] bs bs') : bs' = bs :=
  List.ext_getElem? fun i => h.outside i (by simp)

/-- Two neighbouring stretches are changed each for itself. -/
theorem split {fields' : List Int} {bs₁ bs₂ : Bytes} {high : Int}
    (h : Patched ctx position (fields ++ fields') (bs₁ ++ bs₂) bs')
    (hfields : FieldsIn position (position + bs₁.length) fields)
    (hfields' : FieldsIn (position + bs₁.length) high fields') :
    ∃ bs₁' bs₂', bs' = bs₁' ++ bs₂' ∧ Patched ctx position fields bs₁ bs₁' ∧
      Patched ctx (position + bs₁.length) fields' bs₂ bs₂' := by
  have hlength := h.length_eq
  rw [List.length_append] at hlength
  have hfirst : (bs'.take bs₁.length).length = bs₁.length := by
    rw [List.length_take]
    omega
  refine ⟨bs'.take bs₁.length, bs'.drop bs₁.length, (List.take_append_drop _ _).symm,
    ⟨hfirst, fun i hi => ?_, fun i low hig hmem hlow hhigh => ?_⟩,
    ⟨by rw [List.length_drop]; omega, fun i hi => ?_, fun i low hig hmem hlow hhigh => ?_⟩⟩
  · by_cases hlt : i < bs₁.length
    · have houtside := h.outside i fun r hr => by
        rcases List.mem_append.mp hr with hr | hr
        · exact hi r hr
        · have := hfields'.inside r hr
          omega
      rw [List.getElem?_take_of_lt hlt, houtside, List.getElem?_append_left hlt]
    · rw [List.getElem?_eq_none (by omega), List.getElem?_eq_none (by omega)]
  · have hinside := hfields.inside _ hmem
    rw [List.getElem?_take_of_lt (by omega)] at hlow hhigh
    exact h.resolves i low hig (List.mem_append_left _ hmem) hlow hhigh
  · have houtside := h.outside (bs₁.length + i) fun r hr => by
      rcases List.mem_append.mp hr with hr | hr
      · have := hfields.inside r hr
        omega
      · have := hi r hr
        omega
    rw [List.getElem?_drop, houtside, List.getElem?_append_right (by omega),
      Nat.add_sub_cancel_left]
  · rw [List.getElem?_drop] at hlow hhigh
    refine h.resolves (bs₁.length + i) low hig (List.mem_append_right _ ?_) hlow hhigh
    have hplace : position + ((bs₁.length + i : Nat) : Int) = position + bs₁.length + i := by omega
    rw [hplace]
    exact hmem

/-- A byte before all fields stays. -/
theorem cons {b : UInt8} {high : Int} (h : Patched ctx position fields (b :: bs) bs')
    (hfields : FieldsIn (position + 1) high fields) :
    ∃ bs'', bs' = b :: bs'' ∧ Patched ctx (position + 1) fields bs bs'' := by
  obtain ⟨first, rest, rfl, hfirst, hrest⟩ :=
    @split _ ctx position [] bs' fields [b] bs high h .nil hfields
  rw [hfirst.eq_of_nil]
  exact ⟨rest, rfl, hrest⟩

end Patched

/-! ## layouts of patched code -/

section Laid

variable [Codecs] {ctx ctx' : Context} {base position : Int}

open Recast

theorem ArgumentLaid.patched {name : String} {kind : ArgumentKind} {o : Operand} {bs bs' : Bytes}
    (h : ArgumentLaid ctx base position name kind o bs)
    (hpatched : Patched ctx' position o.fields bs bs') :
    ∃ o', ArgumentLaid ctx' base position name kind o' bs' ∧
      o'.recast forgetTexts = o.recast forgetTexts := by
  cases h with
  | word low high => exact ⟨_, hpatched.eq_of_nil ▸ .word low high, rfl⟩
  | expression htokens =>
      obtain rfl := hpatched.eq_of_nil
      exact ⟨_, .expression htokens, rfl⟩
  | string low high htext =>
      match bs', hpatched.length_eq with
      | [low', high'], _ =>
          obtain ⟨text, htext'⟩ :=
            hpatched.resolves 0 low' high' (by simp) rfl rfl (base + position)
          exact ⟨_, .string low' high' htext', rfl⟩

/-- What holds of each operand holds of a run of them. -/
theorem OperandsLaid.patched {κ : Type} {one one' : Int → String → κ → Operand → Bytes → Prop}
    {spec : Spec κ} {index : Nat} {kinds : List κ} {os : List Operand} {bs bs' : Bytes}
    (h : OperandsLaid one spec position index kinds os bs)
    (hfields : ∀ {p name kind o bs}, one p name kind o bs → FieldsIn p (p + bs.length) o.fields)
    (hone : ∀ p name kind o bs bs', one p name kind o bs → Patched ctx' p o.fields bs bs' →
      ∃ o', one' p name kind o' bs' ∧ o'.recast forgetTexts = o.recast forgetTexts)
    (hpatched : Patched ctx' position (Operand.allFields os) bs bs') :
    ∃ os', OperandsLaid one' spec position index kinds os' bs' ∧
      Operand.recastAll forgetTexts os' = Operand.recastAll forgetTexts os := by
  induction h generalizing bs' with
  | nil => exact ⟨[], hpatched.eq_of_nil ▸ .nil, rfl⟩
  | cons first rest ih =>
      rw [Operand.allFields_cons] at hpatched
      obtain ⟨bs₁, bs₂, rfl, hfirst, hrest⟩ :=
        hpatched.split (hfields first) (rest.fieldsIn hfields)
      obtain ⟨o', ho', hsame⟩ := hone _ _ _ _ _ _ first hfirst
      obtain ⟨os', hos', hsames⟩ := ih hrest
      rw [← hfirst.length_eq] at hos'
      exact ⟨o' :: os', .cons ho' hos', by rw [Operand.recastAll, Operand.recastAll, hsame, hsames]⟩

theorem OperandLaid.patched {name : String} {kind : OperandKind} {o : Operand} {bs bs' : Bytes}
    (h : OperandLaid ctx base position name kind o bs)
    (hpatched : Patched ctx' position o.fields bs bs') (hdialect : ctx'.dialect = ctx.dialect) :
    ∃ o', OperandLaid ctx' base position name kind o' bs' ∧
      o'.recast forgetTexts = o.recast forgetTexts := by
  cases h with
  | byte b => exact ⟨_, hpatched.eq_of_nil ▸ .byte b, rfl⟩
  | argument h =>
      obtain ⟨o', ho', hsame⟩ := h.patched hpatched
      exact ⟨o', .argument ho', hsame⟩
  | function code hspec hos =>
      obtain ⟨bs'', rfl, hrest⟩ := hpatched.cons (hos.fieldsIn ArgumentLaid.fieldsIn)
      obtain ⟨os', hos', hsame⟩ := hos.patched ArgumentLaid.fieldsIn
        (fun _ _ _ _ _ _ => ArgumentLaid.patched) hrest
      exact ⟨_, .function code (hdialect ▸ hspec) hos', by simp only [Operand.recast, hsame]⟩
  | switch low high count hcount hcases =>
      exact ⟨_, hpatched.eq_of_nil ▸ .switch low high count hcount hcases, rfl⟩

theorem InstructionLaid.patched {i : Instruction} {bs bs' : Bytes}
    (h : InstructionLaid ctx base position i bs)
    (hpatched : Patched ctx' position i.fields bs bs') (hdialect : ctx'.dialect = ctx.dialect) :
    ∃ i', InstructionLaid ctx' base position i' bs' ∧
      i'.recast forgetTexts = i.recast forgetTexts := by
  cases h with
  | mk opcode hspec hos =>
      obtain ⟨bs'', rfl, hrest⟩ := hpatched.cons (hos.fieldsIn OperandLaid.fieldsIn)
      obtain ⟨os', hos', hsame⟩ :=
        hos.patched OperandLaid.fieldsIn (fun _ _ _ _ _ _ h hp => h.patched hp hdialect) hrest
      exact ⟨_, .mk opcode hspec hos', by simp only [Instruction.recast, hsame]⟩

/-- Patched code is padding only if it was. -/
theorem CodeLaid.isPadding_patched {is : List Instruction} {bs bs' tail : Bytes}
    (h : CodeLaid ctx base position is bs tail)
    (hpatched : Patched ctx' position (Instruction.allFields is) bs bs')
    (hpad : Code.isPadding (bs ++ tail) = false) : Code.isPadding (bs' ++ tail) = false := by
  cases hfields : Instruction.allFields is with
  | nil =>
      rw [hfields] at hpatched
      rw [hpatched.eq_of_nil]
      exact hpad
  | cons r rest =>
      -- two bytes lie before the field, and two in it
      have hr : r ∈ Instruction.allFields is := by simp [hfields]
      have hlow := h.two_le_of_mem_fields hr
      have hhigh := (h.fieldsIn.inside r hr).2
      refine Code.isPadding_eq_false_of_length ?_
      rw [List.length_append, hpatched.length_eq, Code.paddingWindow]
      omega

/-- **Patched code** has the same layout, but for the texts of references. -/
theorem CodeLaid.patched {is : List Instruction} {bs bs' tail : Bytes}
    (h : CodeLaid ctx base position is bs tail)
    (hpatched : Patched ctx' position (Instruction.allFields is) bs bs')
    (hdialect : ctx'.dialect = ctx.dialect) :
    ∃ is', CodeLaid ctx' base position is' bs' tail ∧
      is'.map (Instruction.recast forgetTexts) = is.map (Instruction.recast forgetTexts) := by
  induction h generalizing bs' with
  | done hpad => exact ⟨[], hpatched.eq_of_nil ▸ .done hpad, rfl⟩
  | step hpad first rest ih =>
      have hpad' := (CodeLaid.step hpad first rest).isPadding_patched hpatched (by simpa using hpad)
      rw [Instruction.allFields_cons] at hpatched
      obtain ⟨bs₁, bs₂, rfl, hfirst, hrest⟩ := hpatched.split first.fieldsIn rest.fieldsIn
      obtain ⟨i', hi', hsame⟩ := first.patched hfirst hdialect
      obtain ⟨is', his', hsames⟩ := ih hrest
      rw [← hfirst.length_eq] at his'
      exact ⟨i' :: is', .step (by simpa using hpad') hi' his',
        by rw [List.map_cons, List.map_cons, hsame, hsames]⟩

end Laid

/-- An image whose string fields were changed is decoded as before, but for the
offsets and texts of its references. -/
theorem Image.exists_decode_of_patched [Codecs] {image image' : Image} {dialect : Dialect}
    {encoding encoding' : String} {d : Decoded} (hd : image.decode dialect encoding = .ok d)
    (hbase : image'.codeBase = image.codeBase) (hlength : image'.code.length = image.code.length)
    (houtside : ∀ i : Nat, (∀ r ∈ d.stringRefs, (i : Int) < r ∨ r + 2 ≤ i) →
      image'.code[i]? = image.code[i]?)
    (hreferences : ∀ r ∈ d.stringRefs, ∃ offset, image'.code.readUInt? r 2 = some offset ∧
      offset < image'.pool.length)
    (hdecodes : Encoding.Decodes encoding') :
    ∃ d', image'.decode dialect encoding' = .ok d' ∧
      d'.instructions.map (Instruction.recast .forgetTexts) =
        d.instructions.map (Instruction.recast .forgetTexts) ∧
      d'.stringRefs = d.stringRefs ∧ d'.consumed = d.consumed := by
  obtain ⟨is, bs, tail, hlaid, hcode, rfl⟩ := Code.decode_eq_ok_iff.mp hd
  have hpatched : Patched ⟨dialect, .ofPool image'.pool, encoding'⟩ 0
      (Instruction.allFields is ++ []) (bs ++ tail) image'.code := by
    rw [List.append_nil, ← hcode]
    refine ⟨hlength, fun i hi => houtside i (by simpa using hi),
      fun i low high hmem hlow hhigh => ?_⟩
    rw [Int.zero_add] at hmem
    obtain ⟨offset, hread, hlt⟩ := hreferences i hmem
    have hword := (Bytes.readUInt?_word_iff _ _ _).mpr ⟨low, high, hlow, hhigh, rfl⟩
    rw [hword, Option.some.injEq] at hread
    rw [hread]
    exact Context.resolves_of_lt hdecodes (by rwa [Pool.Index.size_ofPool])
  obtain ⟨bs', tail', hcode', hfirst, hrest⟩ :=
    hpatched.split hlaid.fieldsIn (@FieldsIn.nil _ (0 + bs.length))
  obtain rfl := hrest.eq_of_nil
  obtain ⟨is', hlaid', hsame⟩ := hlaid.patched hfirst rfl
  rw [← hbase] at hlaid'
  refine ⟨_, Code.decode_eq_ok_iff.mpr ⟨is', bs', tail', hlaid', hcode', rfl⟩, hsame, ?_, ?_⟩
  · exact Instruction.allFields_eq_of_forgetTexts hsame
  · exact congrArg Int.ofNat hfirst.length_eq

end Scenario
