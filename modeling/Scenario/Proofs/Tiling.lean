import Mathlib.Algebra.Ring.Int.Defs
import Mathlib.Data.List.Chain
import Scenario.Proofs.Writing

/-!
# Scenario.Proofs.Tiling

Where decoded code lies.  Sizes are told by the kind of an operand, added up
over a call or measured while reading, and addresses come from the reader
alone; they agree at every level.

1. `Bytes.Stretch` — a value is written as the bytes between two positions of
   the code, and its size is how far they are apart.
2. `Token.Tiled`, `Operand.Placed`, `Operand.AllPlaced`,
   `Instruction.Placed` — the parts of a value take stretches one behind the
   other, with the addresses that belong there.
3. `Image.tiled_of_decode` — the instructions of an image take the code from
   its first byte to the last that was decoded.
-/

namespace Scenario

/-! ## stretches -/

/-- A value of a known size is written as the bytes from `start` up to `stop`
of the code. -/
structure Bytes.Stretch (code : Bytes) (start stop : Int) (size? : Option Int)
    (written : Except Error Bytes) : Prop where
  low : 0 ≤ start
  lt : start < stop
  high : stop ≤ code.length
  size : size? = some (stop - start)
  bytes : written = .ok (code.slice start stop)

/-- Where a token says that it lies. -/
def Token.address : Token → Int
  | load _ _ address => address
  | operator _ _ _ address => address

/-- The byte behind the selector of a token: a register or an operator. -/
def Token.subject : Token → Int
  | load register _ _ => register
  | operator code _ _ _ => code

/-- Tokens lie one behind the other from `start` on, each with its address at
the byte behind its selector, and the end selector takes the last byte before
`stop`. -/
def Token.Tiled (code : Bytes) (base : Int) : (start stop : Int) → List Token → Prop
  | start, stop, [] => stop = start + 1
  | start, stop, t :: ts =>
    t.address = base + start + 1 ∧
      (∃ b : UInt8, t.subject = b.toNat ∧ code.readUInt? (t.address - base) 1 = some b.toNat) ∧
      Tiled code base (start + t.size) stop ts

mutual

/-- An operand from `start` up to `stop` has the addresses that belong there,
and so do its parts. -/
def Operand.Placed (code : Bytes) (base start stop : Int) : Operand → Prop
  | .expression e => e.address = base + start ∧ Token.Tiled code base start stop e.tokens
  | .string r => r.codeAddress = start
  | .raw .. => True
  | .switch .. => True
  | .function address _ _ operands =>
    address = base + start ∧ Operand.AllPlaced code base (start + 1) stop operands
  | .missing => False

/-- Operands take stretches of the code one behind the other, the first from
`start` on and the last up to `stop`. -/
def Operand.AllPlaced (code : Bytes) (base start stop : Int) : List Operand → Prop
  | [] => stop = start
  | o :: os =>
    ∃ middle, Bytes.Stretch code start middle o.size? o.encode ∧
      Operand.Placed code base start middle o ∧ Operand.AllPlaced code base middle stop os

end

/-- An instruction takes a stretch from its address on, of which its operands
take all that is behind the opcode. -/
def Instruction.Placed (code : Bytes) (base : Int) (i : Instruction) : Prop :=
  ∃ stop, Bytes.Stretch code (i.address - base) stop i.size? i.encode ∧
    Operand.AllPlaced code base (i.address - base + 1) stop i.operands

/-! ## bytes at a position -/

theorem Bytes.add_length_cons (position : Int) (b : UInt8) (bs : Bytes) :
    position + ((b :: bs).length : Nat) = position + 1 + (bs.length : Nat) := by
  rw [List.length_cons]
  omega

/-- The bytes lie at `position` of the code. -/
def Bytes.LieAt (code : Bytes) (position : Int) (bs : Bytes) : Prop :=
  ∃ before behind : Bytes, code = before ++ (bs ++ behind) ∧ position = before.length

namespace Bytes.LieAt

variable {code bs bs' : Bytes} {position : Int}

theorem left (h : code.LieAt position (bs ++ bs')) : code.LieAt position bs := by
  obtain ⟨before, behind, hcode, hposition⟩ := h
  exact ⟨before, bs' ++ behind, by rw [hcode, List.append_assoc], hposition⟩

theorem right (h : code.LieAt position (bs ++ bs')) :
    code.LieAt (position + bs.length) bs' := by
  obtain ⟨before, behind, hcode, hposition⟩ := h
  exact ⟨before ++ bs, behind, by simp [hcode], by simp [hposition]⟩

theorem tail {b : UInt8} (h : code.LieAt position (b :: bs)) : code.LieAt (position + 1) bs :=
  right (show code.LieAt position ([b] ++ bs) from h)

/-- What is written as bytes of the code takes their stretch. -/
theorem stretch (h : code.LieAt position bs) {size? : Option Int} {written : Except Error Bytes}
    (hpos : 0 < bs.length) (hsize : size? = some (bs.length : Int)) (hwritten : written = .ok bs) :
    code.Stretch position (position + bs.length) size? written := by
  obtain ⟨before, behind, rfl, rfl⟩ := h
  refine ⟨by omega, by omega, ?_, ?_, ?_⟩
  · simp only [List.length_append]
    omega
  · rw [hsize, add_sub_cancel_left]
  · rw [hwritten, ← Int.natCast_add, slice_natCast, Nat.add_sub_cancel_left, List.drop_left,
      List.take_left]

/-- The first of the bytes is read at their position. -/
theorem readUInt?_one {b : UInt8} (h : code.LieAt position (b :: bs)) :
    code.readUInt? position 1 = some b.toNat := by
  obtain ⟨before, behind, rfl, rfl⟩ := h
  have hinside : before.length + 1 ≤ (before ++ (b :: bs ++ behind)).length := by simp
  simpa [field, toNat] using readUInt?_eq_field _ hinside

end Bytes.LieAt

/-! ## sizes -/

theorem TokensLaid.length_pos {address : Int} {ts : List Token} {bs : Bytes}
    (h : TokensLaid address ts bs) : 0 < bs.length := by
  cases h <;> simp

theorem CasesLaid.length_eq {entries : List (Int × Int)} {bs : Bytes} (h : CasesLaid entries bs) :
    bs.length = 3 * entries.length := by
  induction h with
  | nil => rfl
  | cons number low high rest ih =>
      simp only [List.length_cons, ih]
      omega

section Laid

variable [Codecs] {ctx : Context} {base position : Int}

theorem ArgumentLaid.size? {name : String} {kind : ArgumentKind} {o : Operand} {bs : Bytes}
    (h : ArgumentLaid ctx base position name kind o bs) :
    0 < bs.length ∧ o.size? = some (bs.length : Int) := by
  cases h with
  | word low high => exact ⟨by simp, rfl⟩
  | expression htokens => exact ⟨htokens.length_pos, rfl⟩
  | string low high htext => exact ⟨by simp, rfl⟩

omit [Codecs] in
/-- The sizes of operands add up to the bytes in which they lie. -/
theorem OperandsLaid.totalSize? {κ : Type} {one : Int → String → κ → Operand → Bytes → Prop}
    (hone : ∀ {p name kind o bs}, one p name kind o bs →
      0 < bs.length ∧ o.size? = some (bs.length : Int))
    {spec : Spec κ} {index : Nat} {kinds : List κ} {os : List Operand} {bs : Bytes}
    (h : OperandsLaid one spec position index kinds os bs) :
    Operand.totalSize? os = some (bs.length : Int) := by
  induction h with
  | nil => rfl
  | cons first rest ih => simp [Operand.totalSize?, (hone first).2, ih]

theorem OperandLaid.size? {name : String} {kind : OperandKind} {o : Operand} {bs : Bytes}
    (h : OperandLaid ctx base position name kind o bs) :
    0 < bs.length ∧ o.size? = some (bs.length : Int) := by
  cases h with
  | byte b => exact ⟨by simp, rfl⟩
  | argument h => exact h.size?
  | function code hspec hos =>
      refine ⟨by simp, ?_⟩
      rw [Operand.size?, hos.totalSize? ArgumentLaid.size?, Option.map_some, List.length_cons]
      congr 1
      omega
  | switch low high count hcount hcases =>
      refine ⟨by simp, ?_⟩
      rw [Operand.size?, List.length_cons, List.length_cons, List.length_cons, hcases.length_eq]
      congr 1
      omega

theorem InstructionLaid.size? {i : Instruction} {bs : Bytes}
    (h : InstructionLaid ctx base position i bs) :
    0 < bs.length ∧ i.size? = some (bs.length : Int) := by
  cases h with
  | mk opcode hspec hos =>
      refine ⟨by simp, ?_⟩
      rw [Instruction.size?, hos.totalSize? OperandLaid.size?, Option.map_some, List.length_cons]
      congr 1
      omega

theorem InstructionLaid.address_eq {i : Instruction} {bs : Bytes}
    (h : InstructionLaid ctx base position i bs) : i.address = base + position := by
  cases h
  rfl

/-! ## places -/

variable {code : Bytes}

omit [Codecs] in
theorem TokensLaid.tiled {ts : List Token} {bs : Bytes} (h : TokensLaid (base + position) ts bs)
    (hlie : code.LieAt position bs) :
    Token.Tiled code base position (position + bs.length) ts := by
  generalize haddress : base + position = address at h
  induction h generalizing position with
  | done => rfl
  | load register low high rest ih =>
      have hread := hlie.tail.readUInt?_one
      have hrest := ih hlie.tail.tail.tail.tail (by omega)
      refine ⟨by simp only [Token.address]; omega, ⟨register, rfl, ?_⟩, ?_⟩
      · rwa [Token.address, ← haddress, add_assoc, add_sub_cancel_left]
      · convert hrest using 1 <;> simp only [Token.size, List.length_cons] <;> omega
  | operator flag operator hload hend hname rest ih =>
      have hread := hlie.tail.readUInt?_one
      have hrest := ih hlie.tail.tail (by omega)
      refine ⟨by simp only [Token.address]; omega, ⟨operator, rfl, ?_⟩, ?_⟩
      · rwa [Token.address, ← haddress, add_assoc, add_sub_cancel_left]
      · convert hrest using 1 <;> simp only [Token.size, List.length_cons] <;> omega

theorem ArgumentLaid.placed {name : String} {kind : ArgumentKind} {o : Operand} {bs : Bytes}
    (h : ArgumentLaid ctx base position name kind o bs) (hlie : code.LieAt position bs) :
    Operand.Placed code base position (position + bs.length) o := by
  cases h with
  | word low high => trivial
  | expression htokens => exact ⟨rfl, htokens.tiled hlie⟩
  | string low high htext => rfl

omit [Codecs] in
/-- Operands lie one behind the other, if each is in its place wherever it
lies. -/
theorem OperandsLaid.allPlaced {κ : Type} {one : Int → String → κ → Operand → Bytes → Prop}
    (hsize : ∀ {p name kind o bs}, one p name kind o bs →
      0 < bs.length ∧ o.size? = some (bs.length : Int))
    (hwritten : ∀ {p name kind o bs}, one p name kind o bs → o.encode = .ok bs)
    (hplaced : ∀ {p name kind o bs}, one p name kind o bs → code.LieAt p bs →
      Operand.Placed code base p (p + bs.length) o)
    {spec : Spec κ} {index : Nat} {kinds : List κ} {os : List Operand} {bs : Bytes}
    (h : OperandsLaid one spec position index kinds os bs) (hlie : code.LieAt position bs) :
    Operand.AllPlaced code base position (position + bs.length) os := by
  induction h with
  | nil => simp [Operand.AllPlaced]
  | cons first rest ih =>
      obtain ⟨hpos, hfirst⟩ := hsize first
      refine ⟨_, hlie.left.stretch hpos hfirst (hwritten first), hplaced first hlie.left, ?_⟩
      rw [List.length_append, Int.natCast_add, ← add_assoc]
      exact ih hlie.right

theorem OperandLaid.placed {name : String} {kind : OperandKind} {o : Operand} {bs : Bytes}
    (h : OperandLaid ctx base position name kind o bs) (hlie : code.LieAt position bs) :
    Operand.Placed code base position (position + bs.length) o := by
  cases h with
  | byte b => trivial
  | argument h => exact h.placed hlie
  | function code hspec hos =>
      refine ⟨rfl, ?_⟩
      rw [Bytes.add_length_cons]
      exact hos.allPlaced ArgumentLaid.size? ArgumentLaid.encode ArgumentLaid.placed hlie.tail
  | switch low high count hcount hcases => trivial

theorem InstructionLaid.placed {i : Instruction} {bs : Bytes}
    (h : InstructionLaid ctx base position i bs) (hlie : code.LieAt position bs) :
    i.Placed code base := by
  obtain ⟨hpos, hsize⟩ := h.size?
  have hstart : i.address - base = position := by
    rw [h.address_eq, add_sub_cancel_left]
  refine ⟨_, hstart ▸ hlie.stretch hpos hsize h.encode, ?_⟩
  rw [hstart]
  cases h with
  | mk opcode hspec hos =>
      rw [Bytes.add_length_cons]
      exact hos.allPlaced OperandLaid.size? OperandLaid.encode OperandLaid.placed hlie.tail

/-! ## whole code -/

theorem CodeLaid.address_of_head? {is : List Instruction} {bs tail : Bytes}
    (h : CodeLaid ctx base position is bs tail) :
    ∀ i ∈ is.head?, i.address = base + position := by
  cases h with
  | done hpad => simp
  | step hpad first rest => simpa using first.address_eq

/-- Each instruction begins where the one before ends. -/
theorem CodeLaid.isChain {is : List Instruction} {bs tail : Bytes}
    (h : CodeLaid ctx base position is bs tail) :
    is.IsChain fun i j => i.size? = some (j.address - i.address) := by
  induction h with
  | done hpad => exact .nil
  | step hpad first rest ih =>
      refine List.isChain_cons.mpr ⟨fun j hj => ?_, ih⟩
      rw [first.size?.2, rest.address_of_head? j hj, first.address_eq]
      congr 1
      omega

/-- The sizes of instructions add up to the bytes in which they lie. -/
theorem CodeLaid.sizes {is : List Instruction} {bs tail : Bytes}
    (h : CodeLaid ctx base position is bs tail) :
    ∃ sizes : List Int, is.map Instruction.size? = sizes.map some ∧ (∀ n ∈ sizes, 1 ≤ n) ∧
      sizes.sum = bs.length := by
  induction h with
  | done hpad => exact ⟨[], rfl, by simp, rfl⟩
  | @step _ i is bs bs' tail hpad first rest ih =>
      obtain ⟨sizes, hsizes, hpos, hsum⟩ := ih
      obtain ⟨hfirst, hsize⟩ := first.size?
      refine ⟨bs.length :: sizes, by simp [hsize, hsizes], ?_, by simp [hsum]⟩
      exact List.forall_mem_cons.mpr ⟨by omega, hpos⟩

theorem CodeLaid.placed {is : List Instruction} {bs tail : Bytes}
    (h : CodeLaid ctx base position is bs tail) (hlie : code.LieAt position bs) :
    ∀ i ∈ is, i.Placed code base := by
  induction h with
  | done hpad => simp
  | step hpad first rest ih =>
      exact List.forall_mem_cons.mpr ⟨first.placed hlie.left, ih hlie.right⟩

end Laid

/-- **Decoded code is tiled**: the instructions lie one behind the other from
the first byte of the code on, each of at least one byte, up to where decoding
ended.  Inside each, the operands lie one behind the other, those of calls
included, and addresses are the places where parts begin. -/
theorem Image.tiled_of_decode [Codecs] {image : Image} {dialect : Dialect} {encoding : String}
    {d : Decoded} (h : image.decode dialect encoding = .ok d) :
    (∀ i ∈ d.instructions.head?, i.address = image.codeBase) ∧
      d.instructions.IsChain (fun i j => i.size? = some (j.address - i.address)) ∧
      (∃ sizes : List Int, d.instructions.map Instruction.size? = sizes.map some ∧
        (∀ n ∈ sizes, 1 ≤ n) ∧ sizes.sum = d.consumed) ∧
      ∀ i ∈ d.instructions, i.Placed image.code image.codeBase := by
  obtain ⟨is, bs, tail, hlaid, hcode, rfl⟩ := Code.decode_eq_ok_iff.mp h
  have hhead := hlaid.address_of_head?
  rw [add_zero] at hhead
  exact ⟨hhead, hlaid.isChain, hlaid.sizes, hlaid.placed ⟨[], tail, hcode, rfl⟩⟩

theorem Image.tiled_sample :
    ∃ d : Decoded, Image.sample.decode Dialect.sample "ascii" = .ok d ∧
      d.instructions.map Instruction.address = [12, 16, 27, 37] ∧
      (∃ sizes : List Int, d.instructions.map Instruction.size? = sizes.map some ∧
        sizes.sum = 26) ∧
      ∀ i ∈ d.instructions, i.Placed Image.sample.code 12 := by
  have hparts : (Image.sample.decode Dialect.sample "ascii").toOption.map
      (fun d => (d.consumed, d.instructions.map Instruction.address)) =
        some (26, [12, 16, 27, 37]) := by
    decide +kernel
  obtain ⟨d, hd, hparts⟩ := exists_ok_of_map_toOption hparts
  obtain ⟨hconsumed, haddresses⟩ := Prod.mk.inj hparts
  obtain ⟨-, -, ⟨sizes, hsizes, -, hsum⟩, hplaced⟩ := Image.tiled_of_decode hd
  exact ⟨d, hd, haddresses, ⟨sizes, hsizes, hsum.trans hconsumed⟩, hplaced⟩

end Scenario
