import Scenario.Proofs.Layout

/-!
# Scenario.Proofs.Reading

The readers of `Scenario.Code.Cursor` and `Scenario.Code.Reader` against the
layout of code (`Scenario.Proofs.Layout`).

A reader is `Exact` for a relation when it succeeds on precisely the bytes
that the relation allows at the cursor's place, returns the value they hold,
and leaves the cursor behind them with the string fields of the value noted.
The proofs are layered as the readers are: the primitive readers, the tokens
of an expression, the operands, an instruction, and the loop over a code.

`decode_eq_ok_iff` is the sum of it: decoding succeeds exactly on the layouts
of code, and tells all that a layout says.
-/

namespace Scenario

/-! ## cursors -/

namespace Cursor

/-- The cursor behind `bs`, in which string fields lie at `fields`; `rest`
is what follows. -/
def past (c : Cursor) (bs : Bytes) (fields : List Int) (rest : Bytes) : Cursor :=
  { c with position := c.position + bs.length, rest, fields := fields.reverse ++ c.fields }

section Past

variable (c : Cursor) (bs bs' rest rest' : Bytes) (fields fields' : List Int)

@[simp] theorem past_base : (c.past bs fields rest).base = c.base := rfl

@[simp] theorem past_position :
    (c.past bs fields rest).position = c.position + bs.length := rfl

@[simp] theorem past_rest : (c.past bs fields rest).rest = rest := rfl

@[simp] theorem past_fields :
    (c.past bs fields rest).fields = fields.reverse ++ c.fields := rfl

@[simp] theorem past_address : (c.past bs fields rest).address = c.address + bs.length := by
  simp only [address, past_base, past_position]
  omega

/-- Moving past nothing stays. -/
theorem past_nil : c.past [] [] c.rest = c := by simp [past]

/-- Moving twice moves past both. -/
@[simp] theorem past_past :
    (c.past bs fields rest).past bs' fields' rest' =
      c.past (bs ++ bs') (fields ++ fields') rest' := by
  simp only [past, List.length_append, List.reverse_append, List.append_assoc]
  congr 1
  omega

end Past

theorem advance_one (c : Cursor) (b : UInt8) (rest : Bytes) :
    c.advance 1 rest = c.past [b] [] rest := rfl

theorem advance_two (c : Cursor) (low high : UInt8) (rest : Bytes) :
    c.advance 2 rest = c.past [low, high] [] rest := rfl

end Cursor

namespace Read

/-! ## sequences and primitive readers -/

variable {α β : Type}

/-- A sequence succeeds as its parts do. -/
theorem bind_eq_ok_iff {r : Read α} {f : α → Read β} {c c' : Cursor} {b : β} :
    (r >>= f) c = .ok b c' ↔ ∃ a c₁, r c = .ok a c₁ ∧ f a c₁ = .ok b c' := by
  constructor
  · exact bind_eq_ok
  · rintro ⟨a, c₁, hr, hf⟩
    change EStateM.bind r f c = _
    rw [EStateM.bind, hr]
    exact hf

theorem pure_eq_ok_iff {a b : α} {c c' : Cursor} :
    (pure a : Read α) c = .ok b c' ↔ b = a ∧ c' = c := by
  change EStateM.Result.ok a c = .ok b c' ↔ _
  rw [EStateM.Result.ok.injEq, eq_comm, @eq_comm _ c]

theorem address_eq_ok_iff {a : Int} {c c' : Cursor} :
    address c = .ok a c' ↔ a = c.base + c.position ∧ c' = c := by
  rw [address, Cursor.address, EStateM.Result.ok.injEq, eq_comm, @eq_comm _ c]

theorem position_eq_ok_iff {p : Int} {c c' : Cursor} :
    position c = .ok p c' ↔ p = c.position ∧ c' = c := by
  rw [position, EStateM.Result.ok.injEq, eq_comm, @eq_comm _ c]

theorem noteField_eq_ok_iff {p : Int} {u : Unit} {c c' : Cursor} :
    noteField p c = .ok u c' ↔ c' = c.past [] [p] c.rest := by
  rw [noteField, EStateM.Result.ok.injEq, eq_comm (a := c.note p)]
  simp [Cursor.note, Cursor.past]

theorem stop_ne_ok {cause : DecodeError} {a : α} {c c' : Cursor} :
    (stop cause : Read α) c ≠ .ok a c' := by simp [stop]

theorem u8_eq_ok_iff {b : UInt8} {c c' : Cursor} :
    u8 c = .ok b c' ↔ ∃ rest, c.rest = b :: rest ∧ c' = c.past [b] [] rest := by
  unfold u8
  split
  · next b' rest hrest =>
    rw [hrest, EStateM.Result.ok.injEq, Cursor.advance_one c b' rest]
    constructor
    · rintro ⟨rfl, rfl⟩
      exact ⟨rest, rfl, rfl⟩
    · rintro ⟨rest', hcons, rfl⟩
      injection hcons with hb hrest'
      subst hb hrest'
      exact ⟨rfl, rfl⟩
  · next hrest => simp [hrest, fallShort]

theorem u16_eq_ok_iff {n : Nat} {c c' : Cursor} :
    u16 c = .ok n c' ↔ ∃ low high rest, c.rest = low :: high :: rest ∧ n = Bytes.word low high ∧
      c' = c.past [low, high] [] rest := by
  unfold u16
  split
  · next low high rest hrest =>
    rw [hrest, EStateM.Result.ok.injEq, Cursor.advance_two c low high rest]
    constructor
    · rintro ⟨rfl, rfl⟩
      exact ⟨low, high, rest, rfl, rfl, rfl⟩
    · rintro ⟨low', high', rest', hcons, rfl, rfl⟩
      injection hcons with hlow hcons
      injection hcons with hhigh hrest'
      subst hlow hhigh hrest'
      exact ⟨rfl, rfl⟩
  · next hshort =>
    constructor
    · simp [fallShort]
    · rintro ⟨low, high, rest, hrest, -⟩
      exact absurd hrest (hshort low high rest)

theorem resolve_eq_ok_iff [Codecs] {ctx : Context} {offset : Nat} {address : Int} {text : String}
    {c c' : Cursor} :
    resolve ctx offset address c = .ok text c' ↔
      ctx.pool.resolve offset ctx.encoding (some address) = .ok text ∧ c' = c := by
  unfold resolve
  split
  · next text' htext =>
    rw [htext, EStateM.Result.ok.injEq, Except.ok.injEq, @eq_comm _ c]
  · next e he => simp [he]

/-! ## exact readers -/

/-- `r` succeeds on precisely the bytes that `laid` allows at the place of
the cursor; `fields` tells the string fields that it notes. -/
def Exact (r : Read α) (fields : α → List Int) (laid : (base position : Int) → α → Bytes → Prop) :
    Prop :=
  ∀ c v c', r c = .ok v c' ↔ ∃ bs rest, laid c.base c.position v bs ∧ c.rest = bs ++ rest ∧
    c' = c.past bs (fields v) rest

/-! ### expressions -/

theorem ofSelector_loadFlag :
    Expression.Phase.ofSelector Expression.loadFlag.toNat = .accumulatingLoads := by decide

/-- A selector that is neither that of a load nor the end announces an
operator. -/
theorem ofSelector_of_ne {flag : UInt8} (hload : flag ≠ Expression.loadFlag)
    (hend : flag ≠ Expression.endFlag) :
    Expression.Phase.ofSelector flag.toNat = .postOperator := by
  have hne : ∀ other : UInt8, flag ≠ other → (flag.toNat : Int) ≠ other.toNat :=
    fun other hother h => hother (UInt8.toNat_inj.mp (by omega))
  rw [Expression.Phase.ofSelector, if_neg (hne _ hload), if_neg (hne _ hend)]

/-- What the reader of tokens can do: end, read a load, or read an operator. -/
theorem token_eq_ok_iff {t : Option Token} {c c' : Cursor} :
    token c = .ok t c' ↔
      (∃ rest, c.rest = Expression.endFlag :: rest ∧ t = none ∧
        c' = c.past [Expression.endFlag] [] rest) ∨
      (∃ register low high rest, c.rest = Expression.loadFlag :: register :: low :: high :: rest ∧
        t = some (.load register.toNat (Bytes.word low high) (c.base + c.position + 1)) ∧
        c' = c.past [Expression.loadFlag, register, low, high] [] rest) ∨
      ∃ flag code name rest, c.rest = flag :: code :: rest ∧ flag ≠ Expression.loadFlag ∧
        flag ≠ Expression.endFlag ∧ Expression.operator? code.toNat = some name ∧
        t = some (.operator code.toNat name flag.toNat (c.base + c.position + 1)) ∧
        c' = c.past [flag, code] [] rest := by
  have haddress : ∀ flag rest, (c.past [flag] [] rest).base + (c.past [flag] [] rest).position =
      c.base + c.position + 1 := fun flag rest => by simp; omega
  rw [token, bind_eq_ok_iff]
  constructor
  · rintro ⟨flag, c₁, hflag, h⟩
    obtain ⟨rest, hrest, rfl⟩ := u8_eq_ok_iff.mp hflag
    by_cases hload : flag = Expression.loadFlag
    · subst hload
      simp only [ofSelector_loadFlag, bind_eq_ok_iff, address_eq_ok_iff, u8_eq_ok_iff,
        u16_eq_ok_iff, pure_eq_ok_iff] at h
      obtain ⟨a, c₁, ⟨rfl, rfl⟩, register, c₂, ⟨rest₁, hrest₁, rfl⟩, mask, c₃,
        ⟨low, high, rest₂, hrest₂, rfl, rfl⟩, rfl, rfl⟩ := h
      simp only [Cursor.past_rest] at hrest₁ hrest₂
      exact .inr (.inl ⟨register, low, high, rest₂, by rw [hrest, hrest₁, hrest₂],
        by rw [haddress], by simp⟩)
    · by_cases hend : flag = Expression.endFlag
      · subst hend
        obtain ⟨rfl, rfl⟩ := pure_eq_ok_iff.mp h
        exact .inl ⟨rest, hrest, rfl, rfl⟩
      · simp only [ofSelector_of_ne hload hend, bind_eq_ok_iff, address_eq_ok_iff,
          u8_eq_ok_iff] at h
        obtain ⟨a, c₁, ⟨rfl, rfl⟩, code, c₂, ⟨rest₁, hrest₁, rfl⟩, h⟩ := h
        cases hname : Expression.operator? code.toNat with
        | none => rw [hname] at h; exact absurd h stop_ne_ok
        | some name =>
            simp only [hname] at h
            obtain ⟨rfl, rfl⟩ := pure_eq_ok_iff.mp h
            simp only [Cursor.past_rest] at hrest₁
            exact .inr (.inr ⟨flag, code, name, rest₁, by rw [hrest, hrest₁], hload, hend, hname,
              by rw [haddress], by simp⟩)
  · rintro (⟨rest, hrest, rfl, rfl⟩ | ⟨register, low, high, rest, hrest, rfl, rfl⟩ |
      ⟨flag, code, name, rest, hrest, hload, hend, hname, rfl, rfl⟩)
    · exact ⟨_, _, u8_eq_ok_iff.mpr ⟨rest, hrest, rfl⟩, pure_eq_ok_iff.mpr ⟨rfl, rfl⟩⟩
    · refine ⟨_, _, u8_eq_ok_iff.mpr ⟨_, hrest, rfl⟩, ?_⟩
      simp only [ofSelector_loadFlag, bind_eq_ok_iff, address_eq_ok_iff, u8_eq_ok_iff,
        u16_eq_ok_iff, pure_eq_ok_iff]
      exact ⟨_, _, ⟨rfl, rfl⟩, register, _, ⟨_, rfl, rfl⟩, _, _, ⟨low, high, rest, rfl, rfl, rfl⟩,
        by rw [haddress], by simp⟩
    · refine ⟨_, _, u8_eq_ok_iff.mpr ⟨_, hrest, rfl⟩, ?_⟩
      simp only [ofSelector_of_ne hload hend, bind_eq_ok_iff, address_eq_ok_iff, u8_eq_ok_iff]
      refine ⟨_, _, ⟨rfl, rfl⟩, code, _, ⟨rest, rfl, rfl⟩, ?_⟩
      simp only [hname, pure_eq_ok_iff]
      exact ⟨by rw [haddress], by simp⟩

theorem tokens_of_none {read : List Token} {c c' : Cursor} (h : token c = .ok none c') :
    tokens read c = .ok read.reverse c' := by
  unfold tokens
  split <;> simp_all

theorem tokens_of_some {read : List Token} {t : Token} {c c' : Cursor}
    (h : token c = .ok (some t) c') : tokens read c = tokens (t :: read) c' := by
  conv => lhs; unfold tokens
  split <;> simp_all

/-- Tokens are read as they lie, behind those read before. -/
theorem tokens_eq_ok_iff {read ts : List Token} {c c' : Cursor} :
    tokens read c = .ok ts c' ↔ ∃ ts' bs rest, TokensLaid (c.base + c.position) ts' bs ∧
      c.rest = bs ++ rest ∧ ts = read.reverse ++ ts' ∧ c' = c.past bs [] rest := by
  constructor
  · intro h
    fun_induction tokens read c with
    | case1 => cases h
    | case2 read c c₁ htoken =>
        cases h
        rcases token_eq_ok_iff.mp htoken with ⟨rest, hrest, -, rfl⟩ |
          ⟨_, _, _, _, _, ht, _⟩ | ⟨_, _, _, _, _, _, _, _, ht, _⟩
        · exact ⟨[], _, rest, .done, hrest, by simp, rfl⟩
        · cases ht
        · cases ht
    | case3 read c t c₁ htoken ih =>
        obtain ⟨ts', bs, rest, hlaid, hrest₁, rfl, rfl⟩ := ih h
        rcases token_eq_ok_iff.mp htoken with ⟨_, _, ht, _⟩ |
          ⟨register, low, high, _, hrest, ht, rfl⟩ |
          ⟨flag, code, name, _, hrest, hload, hend, hname, ht, rfl⟩
        · cases ht
        · cases ht
          rw [Cursor.past_rest] at hrest₁
          refine ⟨_ :: ts', _, rest, .load register low high ?_, by rw [hrest, hrest₁]; rfl,
            by simp, by simp⟩
          simpa [Int.add_assoc] using hlaid
        · cases ht
          rw [Cursor.past_rest] at hrest₁
          refine ⟨_ :: ts', _, rest, .operator flag code hload hend hname ?_,
            by rw [hrest, hrest₁]; rfl, by simp, by simp⟩
          simpa [Int.add_assoc] using hlaid
  · rintro ⟨ts', bs, rest, hlaid, hrest, rfl, rfl⟩
    generalize haddress : c.base + c.position = address at hlaid
    induction hlaid generalizing read c with
    | done =>
        rw [tokens_of_none (token_eq_ok_iff.mpr (.inl ⟨rest, hrest, rfl, rfl⟩)), List.append_nil]
    | load register low high _ ih =>
        subst haddress
        rw [tokens_of_some
          (token_eq_ok_iff.mpr (.inr (.inl ⟨register, low, high, _, hrest, rfl, rfl⟩))), ih]
        · simp
        · rfl
        · simp only [Cursor.past_base, Cursor.past_position, List.length_cons, List.length_nil]
          omega
    | operator flag code hload hend hname _ ih =>
        subst haddress
        rw [tokens_of_some (token_eq_ok_iff.mpr
          (.inr (.inr ⟨flag, code, _, _, hrest, hload, hend, hname, rfl, rfl⟩))), ih]
        · simp
        · rfl
        · simp only [Cursor.past_base, Cursor.past_position, List.length_cons, List.length_nil]
          omega

/-- `bind_eq_ok_iff` for a run of tokens, which is a reader only by its
unfolded type. -/
theorem tokens_bind_eq_ok_iff {read : List Token} {f : List Token → Read β} {b : β}
    {c c' : Cursor} :
    ((tokens read : Read (List Token)) >>= f) c = .ok b c' ↔
      ∃ ts c₁, tokens read c = .ok ts c₁ ∧ f ts c₁ = .ok b c' :=
  bind_eq_ok_iff

theorem exact_expression :
    Exact expression (fun _ => []) fun base position e bs =>
      ∃ ts, TokensLaid (base + position) ts bs ∧ e = ⟨base + position, ts, bs.length⟩ := by
  intro c e c'
  simp only [expression, bind_eq_ok_iff, tokens_bind_eq_ok_iff, address_eq_ok_iff,
    tokens_eq_ok_iff, pure_eq_ok_iff]
  constructor
  · rintro ⟨_, _, ⟨rfl, rfl⟩, ts, _, ⟨ts', bs, rest, hlaid, hrest, hts, rfl⟩, _, _, ⟨rfl, rfl⟩, rfl,
      rfl⟩
    rw [List.reverse_nil, List.nil_append] at hts
    subst hts
    refine ⟨bs, rest, ⟨ts, hlaid, ?_⟩, hrest, rfl⟩
    simp only [Cursor.past_base, Cursor.past_position]
    congr 1
    omega
  · rintro ⟨bs, rest, ⟨ts, hlaid, rfl⟩, hrest, rfl⟩
    refine ⟨_, _, ⟨rfl, rfl⟩, ts, _, ⟨ts, bs, rest, hlaid, hrest, rfl, rfl⟩, _, _, ⟨rfl, rfl⟩, ?_,
      rfl⟩
    simp only [Cursor.past_base, Cursor.past_position]
    congr 1
    omega

/-! ### operands -/

variable [Codecs] {ctx : Context}

theorem exact_stringRef :
    Exact (stringRef ctx) (fun r => [r.codeAddress]) fun base position r bs =>
      ∃ low high text, bs = [low, high] ∧ r = ⟨position, Bytes.word low high, text⟩ ∧
        ctx.pool.resolve (Bytes.word low high) ctx.encoding (some (base + position)) =
          .ok text := by
  intro c r c'
  simp only [stringRef, bind_eq_ok_iff, address_eq_ok_iff, position_eq_ok_iff, u16_eq_ok_iff,
    resolve_eq_ok_iff, noteField_eq_ok_iff, pure_eq_ok_iff]
  constructor
  · rintro ⟨_, _, ⟨rfl, rfl⟩, _, _, ⟨rfl, rfl⟩, _, _, ⟨low, high, rest, hrest, rfl, rfl⟩, text, _,
      ⟨htext, rfl⟩, _, _, rfl, rfl, rfl⟩
    exact ⟨_, rest, ⟨low, high, text, rfl, rfl, htext⟩, hrest, by simp⟩
  · rintro ⟨_, rest, ⟨low, high, text, rfl, rfl, htext⟩, hrest, rfl⟩
    exact ⟨_, _, ⟨rfl, rfl⟩, _, _, ⟨rfl, rfl⟩, _, _, ⟨low, high, rest, hrest, rfl, rfl⟩, text, _,
      ⟨htext, rfl⟩, (), _, rfl, rfl, by simp⟩

theorem exact_argument (name : String) (kind : ArgumentKind) :
    Exact (argument ctx name kind) Operand.fields fun base position =>
      ArgumentLaid ctx base position name kind := by
  intro c o c'
  cases kind with
  | word =>
      simp only [argument, bind_eq_ok_iff, u16_eq_ok_iff, pure_eq_ok_iff]
      constructor
      · rintro ⟨_, _, ⟨low, high, rest, hrest, rfl, rfl⟩, rfl, rfl⟩
        exact ⟨_, rest, .word low high, hrest, by simp⟩
      · rintro ⟨_, rest, ⟨low, high⟩, hrest, rfl⟩
        exact ⟨_, _, ⟨low, high, rest, hrest, rfl, rfl⟩, rfl, by simp⟩
  | expression =>
      simp only [argument, bind_eq_ok_iff, exact_expression _ _ _, pure_eq_ok_iff]
      constructor
      · rintro ⟨_, _, ⟨bs, rest, ⟨ts, hlaid, rfl⟩, hrest, rfl⟩, rfl, rfl⟩
        exact ⟨bs, rest, .expression hlaid, hrest, by simp⟩
      · rintro ⟨bs, rest, hlaid, hrest, rfl⟩
        cases hlaid with
        | expression htokens =>
            exact ⟨_, _, ⟨bs, rest, ⟨_, htokens, rfl⟩, hrest, rfl⟩, rfl, by simp⟩
  | string =>
      simp only [argument, bind_eq_ok_iff, exact_stringRef _ _ _, pure_eq_ok_iff]
      constructor
      · rintro ⟨_, _, ⟨_, rest, ⟨low, high, text, rfl, rfl, htext⟩, hrest, rfl⟩, rfl, rfl⟩
        exact ⟨_, rest, .string low high htext, hrest, by simp⟩
      · rintro ⟨_, rest, hlaid, hrest, rfl⟩
        cases hlaid with
        | string low high htext =>
            exact ⟨_, _, ⟨_, rest, ⟨low, high, _, rfl, rfl, htext⟩, hrest, rfl⟩, rfl, by simp⟩

omit [Codecs] in
/-- A run of operands is read as it lies when each operand is. -/
theorem exact_operands {κ : Type} {read : String → κ → Read Operand}
    {one : (base position : Int) → String → κ → Operand → Bytes → Prop}
    (hone : ∀ name kind, Exact (read name kind) Operand.fields fun base position =>
      one base position name kind) (spec : Spec κ) (index : Nat) (kinds : List κ) :
    Exact (operands read spec index kinds) Operand.allFields fun base position =>
      OperandsLaid (one base) spec position index kinds := by
  intro c os c'
  induction kinds generalizing index c os c' with
  | nil =>
      rw [operands, pure_eq_ok_iff]
      constructor
      · rintro ⟨rfl, rfl⟩
        exact ⟨[], _, .nil, rfl, (Cursor.past_nil _).symm⟩
      · rintro ⟨_, rest, hlaid, hrest, rfl⟩
        cases hlaid with
        | nil => exact ⟨rfl, by rw [List.nil_append] at hrest; rw [← hrest]; exact c.past_nil⟩
  | cons kind kinds ih =>
      simp only [operands, bind_eq_ok_iff, hone _ _ _ _ _, ih, pure_eq_ok_iff]
      constructor
      · rintro ⟨o, _, ⟨bs, rest, hfirst, hrest, rfl⟩, os, _, ⟨bs', rest', hlaid, hrest', rfl⟩, rfl,
          rfl⟩
        rw [Cursor.past_rest] at hrest'
        exact ⟨bs ++ bs', rest', .cons hfirst hlaid, by rw [hrest, hrest', List.append_assoc],
          by simp⟩
      · rintro ⟨_, rest, hlaid, hrest, rfl⟩
        cases hlaid with
        | cons hfirst hlaid =>
            rw [List.append_assoc] at hrest
            exact ⟨_, _, ⟨_, _, hfirst, hrest, rfl⟩, _, _, ⟨_, rest, hlaid, rfl, rfl⟩, rfl, by simp⟩

theorem exact_call (name : String) :
    Exact (call ctx) Operand.fields fun base position =>
      OperandLaid ctx base position name .function := by
  intro c o c'
  simp only [call, bind_eq_ok_iff, address_eq_ok_iff, u8_eq_ok_iff]
  constructor
  · rintro ⟨_, _, ⟨rfl, rfl⟩, code, _, ⟨rest, hrest, rfl⟩, h⟩
    cases hspec : ctx.dialect.functions.lookup code with
    | none => rw [hspec] at h; exact absurd h stop_ne_ok
    | some spec =>
        simp only [hspec, bind_eq_ok_iff, exact_operands exact_argument _ _ _ _ _ _,
          pure_eq_ok_iff] at h
        obtain ⟨os, _, ⟨bs, rest', hlaid, hrest', rfl⟩, rfl, rfl⟩ := h
        rw [Cursor.past_rest] at hrest'
        exact ⟨code :: bs, rest', .function code hspec hlaid, by rw [hrest, hrest']; rfl, by simp⟩
  · rintro ⟨_, rest, hlaid, hrest, rfl⟩
    cases hlaid with
    | function code hspec hos =>
        refine ⟨_, _, ⟨rfl, rfl⟩, code, _, ⟨_, hrest, rfl⟩, ?_⟩
        simp only [hspec, bind_eq_ok_iff, exact_operands exact_argument _ _ _ _ _ _,
          pure_eq_ok_iff]
        exact ⟨_, _, ⟨_, rest, hos, rfl, rfl⟩, rfl, by simp⟩

omit [Codecs] in
theorem exact_cases (count : Nat) :
    Exact (cases count) (fun _ => []) fun _ _ entries bs =>
      entries.length = count ∧ CasesLaid entries bs := by
  intro c entries c'
  induction count generalizing c entries c' with
  | zero =>
      rw [cases, pure_eq_ok_iff]
      constructor
      · rintro ⟨rfl, rfl⟩
        exact ⟨[], _, ⟨rfl, .nil⟩, rfl, (Cursor.past_nil _).symm⟩
      · rintro ⟨_, rest, ⟨hlength, hlaid⟩, hrest, rfl⟩
        cases hlaid with
        | nil => exact ⟨rfl, by rw [List.nil_append] at hrest; rw [← hrest]; exact c.past_nil⟩
        | cons number low high hlaid => simp at hlength
  | succ count ih =>
      simp only [cases, bind_eq_ok_iff, u8_eq_ok_iff, u16_eq_ok_iff, ih, pure_eq_ok_iff]
      constructor
      · rintro ⟨number, _, ⟨rest₁, hrest₁, rfl⟩, _, _, ⟨low, high, rest₂, hrest₂, rfl, rfl⟩, entries,
          _, ⟨bs, rest, ⟨hlength, hlaid⟩, hrest, rfl⟩, rfl, rfl⟩
        simp only [Cursor.past_rest] at hrest₂ hrest
        exact ⟨_, rest, ⟨by simp [hlength], .cons number low high hlaid⟩,
          by rw [hrest₁, hrest₂, hrest]; rfl, by simp⟩
      · rintro ⟨_, rest, ⟨hlength, hlaid⟩, hrest, rfl⟩
        cases hlaid with
        | nil => simp at hlength
        | cons number low high hlaid =>
            exact ⟨number, _, ⟨_, hrest, rfl⟩, _, _, ⟨low, high, _, rfl, rfl, rfl⟩, _, _,
              ⟨_, rest, ⟨by simpa using hlength, hlaid⟩, rfl, rfl⟩, rfl, by simp⟩

theorem exact_switch (name : String) :
    Exact switch Operand.fields fun base position =>
      OperandLaid ctx base position name .switch := by
  intro c o c'
  simp only [switch, bind_eq_ok_iff, u8_eq_ok_iff, u16_eq_ok_iff, exact_cases _ _ _ _,
    pure_eq_ok_iff]
  constructor
  · rintro ⟨_, _, ⟨low, high, rest₁, hrest₁, rfl, rfl⟩, count, _, ⟨rest₂, hrest₂, rfl⟩, entries, _,
      ⟨bs, rest, ⟨hlength, hlaid⟩, hrest, rfl⟩, rfl, rfl⟩
    simp only [Cursor.past_rest] at hrest₂ hrest
    exact ⟨_, rest, .switch low high count hlength hlaid, by rw [hrest₁, hrest₂, hrest]; rfl,
      by simp⟩
  · rintro ⟨_, rest, hlaid, hrest, rfl⟩
    cases hlaid with
    | switch low high count hcount hcases =>
        exact ⟨_, _, ⟨low, high, _, hrest, rfl, rfl⟩, count, _, ⟨_, rfl, rfl⟩, _, _,
          ⟨_, rest, ⟨hcount, hcases⟩, rfl, rfl⟩, rfl, by simp⟩

theorem exact_operand (name : String) (kind : OperandKind) :
    Exact (operand ctx name kind) Operand.fields fun base position =>
      OperandLaid ctx base position name kind := by
  intro c o c'
  cases kind with
  | byte =>
      simp only [operand, bind_eq_ok_iff, u8_eq_ok_iff, pure_eq_ok_iff]
      constructor
      · rintro ⟨b, _, ⟨rest, hrest, rfl⟩, rfl, rfl⟩
        exact ⟨_, rest, .byte b, hrest, by simp⟩
      · rintro ⟨_, rest, hlaid, hrest, rfl⟩
        cases hlaid with
        | byte b => exact ⟨b, _, ⟨rest, hrest, rfl⟩, rfl, by simp⟩
  | argument kind =>
      rw [operand, exact_argument name kind c o c']
      constructor
      · rintro ⟨bs, rest, hlaid, hrest, rfl⟩
        exact ⟨bs, rest, .argument hlaid, hrest, rfl⟩
      · rintro ⟨bs, rest, hlaid, hrest, rfl⟩
        cases hlaid with
        | argument hlaid => exact ⟨bs, rest, hlaid, hrest, rfl⟩
  | function => exact exact_call name c o c'
  | switch => exact exact_switch name c o c'

/-! ### instructions -/

theorem exact_instruction :
    Exact (instruction ctx) Instruction.fields fun base position =>
      InstructionLaid ctx base position := by
  intro c i c'
  simp only [instruction, bind_eq_ok_iff, address_eq_ok_iff, u8_eq_ok_iff]
  constructor
  · rintro ⟨_, _, ⟨rfl, rfl⟩, opcode, _, ⟨rest, hrest, rfl⟩, h⟩
    cases hspec : opcodes.lookup opcode with
    | none => rw [hspec] at h; exact absurd h stop_ne_ok
    | some spec =>
        simp only [hspec, bind_eq_ok_iff, exact_operands exact_operand _ _ _ _ _ _,
          pure_eq_ok_iff] at h
        obtain ⟨os, _, ⟨bs, rest', hlaid, hrest', rfl⟩, rfl, rfl⟩ := h
        rw [Cursor.past_rest] at hrest'
        exact ⟨opcode :: bs, rest', .mk opcode hspec hlaid, by rw [hrest, hrest']; rfl, by simp⟩
  · rintro ⟨_, rest, hlaid, hrest, rfl⟩
    cases hlaid with
    | mk opcode hspec hos =>
        refine ⟨_, _, ⟨rfl, rfl⟩, opcode, _, ⟨_, hrest, rfl⟩, ?_⟩
        simp only [hspec, bind_eq_ok_iff, exact_operands exact_operand _ _ _ _ _ _,
          pure_eq_ok_iff]
        exact ⟨_, _, ⟨_, rest, hos, rfl, rfl⟩, rfl, by simp⟩

end Read

/-! ## whole code -/

namespace Code

variable [Codecs] {ctx : Context}

theorem instructions_of_padding {read : List Instruction} {c : Cursor}
    (h : isPadding c.rest = true) : instructions ctx read c = .ok (read.reverse, c) := by
  rw [instructions, if_pos h]

theorem instructions_of_ok {read : List Instruction} {i : Instruction} {c c' : Cursor}
    (hpad : isPadding c.rest = false) (h : Read.instruction ctx c = .ok i c') :
    instructions ctx read c = instructions ctx (i :: read) c' := by
  conv => lhs; unfold instructions
  rw [if_neg (by simp [hpad])]
  split <;> simp_all

/-- Instructions are read as they lie, behind those read before. -/
theorem instructions_eq_ok_iff {read is : List Instruction} {c c' : Cursor} :
    instructions ctx read c = .ok (is, c') ↔
      ∃ is' bs tail, CodeLaid ctx c.base c.position is' bs tail ∧ c.rest = bs ++ tail ∧
        is = read.reverse ++ is' ∧ c' = c.past bs (Instruction.allFields is') tail := by
  constructor
  · intro h
    fun_induction instructions ctx read c with
    | case1 read c hpad =>
        cases h
        exact ⟨[], [], _, .done hpad, rfl, by simp, (Cursor.past_nil _).symm⟩
    | case2 => cases h
    | case3 read c hpad i c₁ hi ih =>
        obtain ⟨is', bs', tail, hlaid, hrest', rfl, rfl⟩ := ih h
        obtain ⟨bs, rest, hfirst, hrest, rfl⟩ := (Read.exact_instruction _ _ _).mp hi
        rw [Cursor.past_rest] at hrest'
        subst hrest'
        refine ⟨i :: is', bs ++ bs', tail, .step ?_ hfirst hlaid, ?_, by simp, by simp⟩
        · rw [← hrest]
          simpa using hpad
        · rw [hrest, List.append_assoc]
  · rintro ⟨is', bs, tail, hlaid, hrest, rfl, rfl⟩
    generalize hbase : c.base = base at hlaid
    generalize hposition : c.position = position at hlaid
    induction hlaid generalizing read c with
    | done hpad =>
        rw [List.nil_append] at hrest
        subst hrest
        rw [instructions_of_padding hpad, List.append_nil]
        exact congrArg (fun x => Except.ok (read.reverse, x)) c.past_nil.symm
    | step hpad hfirst _ ih =>
        subst hbase hposition
        rw [List.append_assoc] at hrest
        have hi := (Read.exact_instruction c _ _).mpr ⟨_, _, hfirst, hrest, rfl⟩
        rw [instructions_of_ok (by rwa [hrest]) hi, ih (Cursor.past_rest ..) rfl rfl]
        simp

/-- **Decoding** succeeds exactly on the layouts of code, and tells their
instructions, string fields and length. -/
theorem decode_eq_ok_iff {base : Int} {code : Bytes} {d : Decoded} :
    decode ctx base code = .ok d ↔
      ∃ is bs tail, CodeLaid ctx base 0 is bs tail ∧ code = bs ++ tail ∧
        d = ⟨is, Instruction.allFields is, ctx.dialect.name, bs.length⟩ := by
  have hfields : ∀ (bs tail : Bytes) (fields : List Int),
      ((Cursor.start code base 0).past bs fields tail).fields.reverse = fields := by
    intro bs tail fields
    simp [Cursor.start]
  have hposition : ∀ (bs tail : Bytes) (fields : List Int),
      ((Cursor.start code base 0).past bs fields tail).position = bs.length := by
    intro bs tail fields
    simp [Cursor.start]
  constructor
  · intro h
    cases hrun : instructions ctx [] (Cursor.start code base 0) with
    | error e => simp [decode, hrun, bind, Except.bind] at h
    | ok p =>
        obtain ⟨is, c⟩ := p
        obtain ⟨is', bs, tail, hlaid, hrest, his, rfl⟩ := instructions_eq_ok_iff.mp hrun
        rw [List.reverse_nil, List.nil_append] at his
        subst his
        simp only [decode, hrun, bind, Except.bind, pure, Except.pure, Except.ok.injEq, hfields,
          hposition] at h
        exact ⟨is, bs, tail, hlaid, hrest, h.symm⟩
  · rintro ⟨is, bs, tail, hlaid, hcode, rfl⟩
    have hrun : instructions ctx [] (Cursor.start code base 0) =
        .ok (is, (Cursor.start code base 0).past bs (Instruction.allFields is) tail) :=
      instructions_eq_ok_iff.mpr ⟨is, bs, tail, hlaid, hcode, rfl, rfl⟩
    simp only [decode, hrun, bind, Except.bind, pure, Except.pure, hfields, hposition]

end Code

/-- The string fields of a decoded image lie in the code that was decoded and
do not overlap. -/
theorem Image.fieldsIn_of_decode [Codecs] {image : Image} {dialect : Dialect} {encoding : String}
    {d : Decoded} (h : image.decode dialect encoding = .ok d) :
    FieldsIn 0 d.consumed d.stringRefs := by
  obtain ⟨is, bs, tail, hlaid, -, rfl⟩ := Code.decode_eq_ok_iff.mp h
  simpa using hlaid.fieldsIn

end Scenario
