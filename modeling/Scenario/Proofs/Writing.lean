import Scenario.Proofs.Reading
import Scenario.Proofs.Traverse

/-!
# Scenario.Proofs.Writing

The writer of `Scenario.Code.Operand` against the layout of code
(`Scenario.Proofs.Layout`): a value that lies in some bytes is written as
these bytes.  The atoms are the fields of a layout, one lemma for each; the
walkers thread them through runs of tokens, cases, operands and instructions.

Together with `Code.decode_eq_ok_iff` this makes writing undo decoding, for
every table of functions.
-/

namespace Scenario

/-! ## fields -/

namespace Operand

/-- A value that fits a field of one or two bytes is written into it. -/
theorem encodeRaw_of_lt {width : Nat} {value : Int} (hwidth : width ≤ 2) (h0 : 0 ≤ value)
    (h : value < Nat.pow 256 width) :
    encodeRaw width value = .ok (Bytes.ofNat width value.toNat) := by
  have hcountable : Bytes.isCountable width = true := by
    simp only [Bytes.isCountable, Bool.and_eq_true, decide_eq_true_eq]
    omega
  have hheld : Bytes.isHeld width = true := by
    simp only [Bytes.isHeld, decide_eq_true_eq]
    omega
  have hmax : ¬ Bytes.maxLength < (width : Int) := by
    rw [Bytes.maxLength]
    omega
  rw [encodeRaw, hcountable, hheld, Int.toNat_natCast, if_neg (by simp), if_neg (by omega),
    if_neg hmax, if_neg (by simp), if_neg (by omega), if_neg (Int.not_le.mpr h)]

/-- A raw byte is written as it was read. -/
theorem encodeRaw_byte (b : UInt8) : encodeRaw 1 b.toNat = .ok [b] := by
  have hlt := b.toNat_lt
  have hraw := @encodeRaw_of_lt 1 b.toNat (by omega) (by omega) (Int.ofNat_lt.mpr hlt)
  rwa [Int.toNat_natCast, Bytes.ofNat, Bytes.ofNat, UInt8.ofNat_toNat] at hraw

/-- A raw word is written as it was read. -/
theorem encodeRaw_word (low high : UInt8) :
    encodeRaw 2 (Bytes.word low high) = .ok [low, high] := by
  have hlt := Bytes.word_lt low high
  have hraw := @encodeRaw_of_lt 2 (Bytes.word low high) (by omega) (by omega) (Int.ofNat_lt.mpr hlt)
  rwa [Int.toNat_natCast, Bytes.ofNat_word] at hraw

end Operand

/-! ## tokens -/

namespace Expression

theorem encodeToken_load (register low high : UInt8) (address : Int) :
    encodeToken (.load register.toNat (Bytes.word low high) address) =
      .ok [loadFlag, register, low, high] := by
  have hregister : ((register.toNat : Int) % 256).toNat = register.toNat := by
    have := register.toNat_lt
    omega
  have hmask : ((Bytes.word low high : Int) % 65536).toNat = Bytes.word low high := by
    have := Bytes.word_lt low high
    omega
  rw [encodeToken, hregister, hmask, UInt8.ofNat_toNat, Bytes.ofNat_word]

theorem encodeToken_operator {flag code : UInt8} {name known : String} (address : Int)
    (hload : flag ≠ loadFlag) (hend : flag ≠ endFlag)
    (hname : operator? code.toNat = some known) :
    encodeToken (.operator code.toNat name flag.toNat address) = .ok [flag, code] := by
  have hne : ∀ other : UInt8, flag ≠ other → (flag.toNat : Int) ≠ other.toNat :=
    fun other hother h => hother (UInt8.toNat_inj.mp (by omega))
  rw [encodeToken, if_neg (not_or.mpr ⟨hne _ hload, hne _ hend⟩), hname,
    if_neg (by simp), Bytes.byte_toNat, Bytes.byte_toNat]
  rfl

theorem encodeTokens_cons {t : Token} {ts : List Token} {first bs : Bytes}
    (ht : encodeToken t = .ok first) (hts : encodeTokens ts = .ok bs) :
    encodeTokens (t :: ts) = .ok (first ++ bs) := by
  cases hparts : ts.mapM encodeToken with
  | error e => simp [encodeTokens, hparts, bind, Except.bind] at hts
  | ok parts =>
      simp only [encodeTokens, hparts, bind, Except.bind, pure, Except.pure,
        Except.ok.injEq] at hts
      simp [encodeTokens, List.mapM_cons, ht, hparts, ← hts, bind, Except.bind, pure, Except.pure]

end Expression

theorem TokensLaid.encode {address : Int} {ts : List Token} {bs : Bytes}
    (h : TokensLaid address ts bs) : Expression.encodeTokens ts = .ok bs := by
  induction h with
  | done => rfl
  | load register low high rest ih =>
      exact Expression.encodeTokens_cons (Expression.encodeToken_load register low high _) ih
  | operator flag code hload hend hname rest ih =>
      exact Expression.encodeTokens_cons
        (Expression.encodeToken_operator _ hload hend hname) ih

/-! ## operands -/

namespace Operand

theorem encodeCase_word (number low high : UInt8) :
    encodeCase (number.toNat, Bytes.word low high) = .ok [number, low, high] := by
  rw [encodeCase, Bytes.byte_toNat, Bytes.pack_word]
  rfl

end Operand

theorem CasesLaid.encode {entries : List (Int × Int)} {bs : Bytes} (h : CasesLaid entries bs) :
    ∃ parts, entries.mapM Operand.encodeCase = .ok parts ∧ parts.flatten = bs := by
  induction h with
  | nil => exact ⟨[], rfl, rfl⟩
  | cons number low high rest ih =>
      obtain ⟨parts, hparts, rfl⟩ := ih
      refine ⟨[number, low, high] :: parts, ?_, rfl⟩
      rw [List.mapM_cons, Operand.encodeCase_word, hparts]
      rfl

section Laid

variable [Codecs] {ctx : Context} {base position : Int}

theorem ArgumentLaid.encode {name : String} {kind : ArgumentKind} {o : Operand} {bs : Bytes}
    (h : ArgumentLaid ctx base position name kind o bs) : o.encode = .ok bs := by
  cases h with
  | word low high => rw [Operand.encode, Operand.encodeRaw_word]
  | expression htokens => rw [Operand.encode, htokens.encode]
  | string low high htext => rw [Operand.encode, Bytes.pack_word]

omit [Codecs] in
/-- A run of operands is written as it lies when each operand is. -/
theorem OperandsLaid.encode {κ : Type} {one : Int → String → κ → Operand → Bytes → Prop}
    (hone : ∀ {p name kind o bs}, one p name kind o bs → o.encode = .ok bs)
    {spec : Spec κ} {index : Nat} {kinds : List κ} {os : List Operand} {bs : Bytes}
    (h : OperandsLaid one spec position index kinds os bs) : Operand.encodeAll os = .ok bs := by
  induction h with
  | nil => rfl
  | cons first rest ih =>
      rw [Operand.encodeAll, hone first, ih]
      rfl

theorem OperandLaid.encode {name : String} {kind : OperandKind} {o : Operand} {bs : Bytes}
    (h : OperandLaid ctx base position name kind o bs) : o.encode = .ok bs := by
  cases h with
  | byte b => rw [Operand.encode, Operand.encodeRaw_byte]
  | argument h => exact h.encode
  | function code hspec hos =>
      rw [Operand.encode, Operand.codeByte_toNat, hos.encode ArgumentLaid.encode]
      rfl
  | switch low high count hcount hcases =>
      obtain ⟨parts, hparts, rfl⟩ := hcases.encode
      rw [Operand.encode, Operand.encodeSwitch, Bytes.pack_word, hcount, Bytes.byte_toNat, hparts]
      rfl

/-! ## instructions -/

theorem InstructionLaid.encode {i : Instruction} {bs : Bytes}
    (h : InstructionLaid ctx base position i bs) : i.encode = .ok bs := by
  cases h with
  | mk opcode hspec hos =>
      rw [Instruction.encode, Operand.codeByte_toNat, hos.encode OperandLaid.encode]
      rfl

/-- Code is written as it lies, without the padding. -/
theorem CodeLaid.encodeAll {is : List Instruction} {bs tail : Bytes}
    (h : CodeLaid ctx base position is bs tail) : Instruction.encodeAll is = .ok bs := by
  suffices hparts : ∃ parts, is.mapM Instruction.encode = .ok parts ∧ parts.flatten = bs by
    obtain ⟨parts, hparts, rfl⟩ := hparts
    rw [Instruction.encodeAll, hparts]
    rfl
  induction h with
  | done hpad => exact ⟨[], rfl, rfl⟩
  | step hpad first rest ih =>
      obtain ⟨parts, hparts, rfl⟩ := ih
      refine ⟨_ :: parts, ?_, rfl⟩
      rw [List.mapM_cons, first.encode, hparts]
      rfl

/-- What follows the last instruction is padding. -/
theorem CodeLaid.isPadding_tail {is : List Instruction} {bs tail : Bytes}
    (h : CodeLaid ctx base position is bs tail) : Code.isPadding tail = true := by
  induction h with
  | done hpad => exact hpad
  | step hpad first rest ih => exact ih

end Laid

/-- **Writing undoes decoding**: decoded instructions are written as the code
they were read from, up to the padding that decoding leaves. -/
theorem Image.encodeAll_of_decode [Codecs] {image : Image} {dialect : Dialect} {encoding : String}
    {d : Decoded} (h : image.decode dialect encoding = .ok d) :
    Instruction.encodeAll d.instructions = .ok (image.code.take d.consumed.toNat) ∧
      0 ≤ d.consumed ∧ d.consumed ≤ image.code.length ∧
      (image.code.drop d.consumed.toNat).length < 4 ∧
      ∀ b ∈ image.code.drop d.consumed.toNat, b = 0 := by
  obtain ⟨is, bs, tail, hlaid, hcode, rfl⟩ := Code.decode_eq_ok_iff.mp h
  obtain ⟨hlength, hzero⟩ := (Code.isPadding_iff tail).mp hlaid.isPadding_tail
  have htake : image.code.take (bs.length : Int).toNat = bs := by simp [hcode]
  have hdrop : image.code.drop (bs.length : Int).toNat = tail := by simp [hcode]
  refine ⟨by rw [htake]; exact hlaid.encodeAll, Int.natCast_nonneg _, ?_, ?_, ?_⟩
  · rw [hcode, List.length_append]
    exact Int.ofNat_le.mpr (Nat.le_add_right _ _)
  · rw [hdrop]
    exact hlength
  · rw [hdrop]
    exact hzero

/-- A call with a string, an assignment, a switch of one case and a return,
with two bytes of padding behind them. -/
def Image.sample : Image :=
  { header := []
    labels := []
    code := [
      0x00, 0x00, 0x01, 0x00,
      0x04, 0x01, 0x02, 0x00, 0x00, 0x03, 0x04, 0x00, 0x01, 0x14, 0xFF,
      0x09, 0x01, 0x02, 0x00, 0x10, 0x00, 0x01, 0x05, 0x20, 0x00,
      0x0D,
      0x00, 0x00]
    codeBase := 12
    pool := [0x41, 0x42, 0x00, 0x00] }

/-- A dialect of one function, which takes a string. -/
def Dialect.sample : Dialect := ⟨"sample", [(0x00, ⟨"show", [.string], []⟩)]⟩

theorem Image.encodeAll_sample :
    ∃ d : Decoded, Image.sample.decode Dialect.sample "ascii" = .ok d ∧ d.consumed = 26 ∧
      Instruction.encodeAll d.instructions = .ok (Image.sample.code.take 26) := by
  have hconsumed : (Image.sample.decode Dialect.sample "ascii").toOption.map Decoded.consumed =
      some 26 := by
    decide +kernel
  obtain ⟨d, hd, hd'⟩ := exists_ok_of_map_toOption hconsumed
  refine ⟨d, hd, hd', ?_⟩
  have hwritten := (Image.encodeAll_of_decode hd).1
  rwa [hd'] at hwritten

end Scenario
