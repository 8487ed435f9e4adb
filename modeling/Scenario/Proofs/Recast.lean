import Scenario.Proofs.Layout

/-!
# Scenario.Proofs.Recast

Decoded code up to some of its parts.

A decoded value holds more than the bytes it is written as: where it lies,
what its table calls it, and which text its references found.  A `Recast`
changes these parts and keeps the rest, so that "the same code but for its
places" is an equation between recast values.  Two recasts forget what a
comparison leaves open:

* `Recast.forgetPlaces` leaves opcodes and operand values, which are all that
  the writer looks at (`Instruction.encodeAll_eq_of_forgetPlaces`);
* `Recast.forgetTexts` leaves all but the offsets and texts of string
  references.
-/

namespace Scenario

/-- What becomes of the parts of decoded code that are not values. -/
structure Recast where
  /-- File offsets of instructions, calls, expressions and tokens. -/
  address : Int → Int := id
  /-- Sizes of expressions. -/
  size : Int → Int := id
  /-- Mnemonics, and names of fields and operators. -/
  label : String → String := id
  string : StringRef → StringRef := id

variable (f : Recast)

/-- A token with its parts changed. -/
def Token.recast : Token → Token
  | .load register mask address => .load register mask (f.address address)
  | .operator code name flag address => .operator code (f.label name) flag (f.address address)

/-- An expression with its parts changed. -/
def Expression.recast (e : Expression) : Expression :=
  ⟨f.address e.address, e.tokens.map (Token.recast f), f.size e.size⟩

namespace Operand

mutual
/-- An operand with its parts changed, those of nested calls included. -/
def recast : Operand → Operand
  | .expression e => .expression (e.recast f)
  | .string r => .string (f.string r)
  | .raw name width value => .raw (f.label name) width value
  | .switch default cases => .switch default cases
  | .function address code mnemonic operands =>
    .function (f.address address) code (f.label mnemonic) (recastAll operands)
  | .missing => .missing

/-- A run of operands with their parts changed. -/
def recastAll : List Operand → List Operand
  | [] => []
  | o :: os => recast o :: recastAll os
end

end Operand

/-- An instruction with its parts changed. -/
def Instruction.recast (i : Instruction) : Instruction :=
  ⟨f.address i.address, i.opcode, f.label i.mnemonic, Operand.recastAll f i.operands⟩

namespace Recast

/-- Leaves opcodes and operand values only. -/
def forgetPlaces : Recast :=
  { address := fun _ => 0
    size := fun _ => 0
    label := fun _ => ""
    string := fun r => ⟨0, r.offset, ""⟩ }

/-- Leaves all but the offsets and texts of string references. -/
def forgetTexts : Recast := { string := fun r => ⟨r.codeAddress, 0, ""⟩ }

end Recast

/-! ## references of recast code -/

mutual
theorem Operand.references_recast : (o : Operand) →
    (o.recast f).references = o.references.map f.string
  | .expression e => by simp only [recast, references, List.map_nil]
  | .string r => by simp only [recast, references, List.map_cons, List.map_nil]
  | .raw name width value => by simp only [recast, references, List.map_nil]
  | .switch default cases => by simp only [recast, references, List.map_nil]
  | .function address code mnemonic operands => by
      simp only [recast, references, allReferences_recastAll operands]
  | .missing => by simp only [recast, references, List.map_nil]

theorem Operand.allReferences_recastAll : (os : List Operand) →
    Operand.allReferences (Operand.recastAll f os) = (Operand.allReferences os).map f.string
  | [] => by simp only [recastAll, allReferences, List.map_nil]
  | o :: os => by
      simp only [recastAll, allReferences, List.map_append, references_recast o,
        allReferences_recastAll os]
end

/-- Code that is the same but for texts has its string fields at the same
places. -/
theorem Instruction.allFields_eq_of_forgetTexts {is is' : List Instruction}
    (h : is.map (Instruction.recast .forgetTexts) = is'.map (Instruction.recast .forgetTexts)) :
    Instruction.allFields is = Instruction.allFields is' := by
  have hplaces : StringRef.codeAddress ∘ Recast.forgetTexts.string = StringRef.codeAddress := rfl
  have hfields : ∀ i : Instruction, (i.recast .forgetTexts).fields = i.fields := by
    intro i
    rw [Instruction.fields, Instruction.references, Instruction.recast,
      Operand.allReferences_recastAll, List.map_map, hplaces]
    rfl
  have hall : ∀ is : List Instruction,
      Instruction.allFields (is.map (Instruction.recast .forgetTexts)) =
        Instruction.allFields is := by
    intro is
    simp only [Instruction.allFields, List.flatMap_map, hfields]
  rw [← hall is, h, hall is']

/-! ## recast code is written alike -/

theorem Expression.encodeToken_recast (t : Token) :
    encodeToken (t.recast f) = encodeToken t := by
  cases t <;> rfl

theorem Expression.encodeTokens_recast (ts : List Token) :
    encodeTokens (ts.map (Token.recast f)) = encodeTokens ts := by
  have htoken : encodeToken ∘ Token.recast f = encodeToken := funext (encodeToken_recast f)
  rw [encodeTokens, encodeTokens, List.mapM_map, htoken]

mutual
/-- An operand is written as before when its references keep their offsets. -/
theorem Operand.encode_recast (hoffset : ∀ r, (f.string r).offset = r.offset) :
    (o : Operand) → (o.recast f).encode = o.encode
  | .expression e => by
      simp only [recast, encode, Expression.recast, Expression.encodeTokens_recast]
  | .string r => by simp only [recast, encode, hoffset]
  | .raw name width value => by simp only [recast, encode]
  | .switch default cases => by simp only [recast, encode]
  | .function address code mnemonic operands => by
      simp only [recast, encode, encodeAll_recastAll hoffset operands]
  | .missing => by simp only [recast]

theorem Operand.encodeAll_recastAll (hoffset : ∀ r, (f.string r).offset = r.offset) :
    (os : List Operand) → Operand.encodeAll (Operand.recastAll f os) = Operand.encodeAll os
  | [] => by simp only [recastAll]
  | o :: os => by
      simp only [recastAll, encodeAll, encode_recast hoffset o, encodeAll_recastAll hoffset os]
end

/-- An instruction is written as before when its references keep their
offsets. -/
theorem Instruction.encode_recast (hoffset : ∀ r, (f.string r).offset = r.offset)
    (i : Instruction) : (i.recast f).encode = i.encode := by
  simp only [Instruction.encode, Instruction.recast, Operand.encodeAll_recastAll f hoffset]

/-- Runs of the same opcodes and operand values are written alike. -/
theorem Instruction.encodeAll_eq_of_forgetPlaces {is is' : List Instruction}
    (h : is.map (Instruction.recast .forgetPlaces) = is'.map (Instruction.recast .forgetPlaces)) :
    Instruction.encodeAll is = Instruction.encodeAll is' := by
  have hencode : Instruction.encode ∘ Instruction.recast .forgetPlaces = Instruction.encode :=
    funext (Instruction.encode_recast _ fun _ => rfl)
  have hparts : ∀ is : List Instruction,
      (is.map (Instruction.recast .forgetPlaces)).mapM Instruction.encode =
        is.mapM Instruction.encode := by
    intro is
    rw [List.mapM_map, hencode]
  rw [Instruction.encodeAll, Instruction.encodeAll, ← hparts is, h, hparts is']

end Scenario
