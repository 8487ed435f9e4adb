import Scenario.Proofs.Writing

/-!
# Scenario.Proofs.Extending

Code with more code behind it.

1. A reader that succeeds does not look at what lies behind the bytes it
   consumes, so it does the same when there is more (`Read.SteadyAt.ok`).
2. A reader that the end of the code stops tells how many bytes it misses:
   with fewer bytes more it is stopped at the same place, and with that many
   it gets past it (`Read.SteadyAt.short`, `Read.SteadyAt.enough`).
3. `Code.Reads` is a run of instructions that were read one after the other,
   up to a failure (`Code.instructions_eq_error_iff`) or to the padding.  Such a
   run is the same with more code behind it (`Code.Reads.extend`), and writing
   its instructions gives the bytes it consumed (`Code.Reads.encodeAll`).

The readers are gone through in the order of their definitions, as in
`Scenario.Proofs.Reading`.
-/

namespace Scenario

/-! ## cursors -/

namespace Cursor

/-- The same place in a code that goes on with `more`. -/
def extend (c : Cursor) (more : Bytes) : Cursor :=
  { c with length := c.length + more.length, rest := c.rest ++ more }

section Extend

variable (c : Cursor) (more : Bytes)

@[simp] theorem extend_rest : (c.extend more).rest = c.rest ++ more := rfl

@[simp] theorem extend_address : (c.extend more).address = c.address := rfl

@[simp] theorem extend_past (bs rest : Bytes) (fields : List Int) :
    (c.past bs fields rest).extend more = (c.extend more).past bs fields (rest ++ more) := rfl

theorem extend_start (code : Bytes) (base : Int) :
    (start code base 0).extend more = start (code ++ more) base 0 := by
  simp [start, extend]

/-- Moving past bytes goes on in the file. -/
theorem address_le_past (bs rest : Bytes) (fields : List Int) :
    c.address ≤ (c.past bs fields rest).address := by
  rw [past_address]
  omega

theorem address_lt_past (b : UInt8) (bs rest : Bytes) (fields : List Int) :
    c.address < (c.past (b :: bs) fields rest).address := by
  rw [past_address, List.length_cons]
  omega

end Extend

/-- What lies ahead reaches up to the end of the code. -/
def Aligned (c : Cursor) : Prop := c.remaining = c.rest.length

theorem aligned_start (code : Bytes) (base : Int) : (start code base 0).Aligned := by
  simp [Aligned, start, remaining]

theorem Aligned.past {c : Cursor} {bs rest : Bytes} (h : c.Aligned) (hrest : c.rest = bs ++ rest)
    (fields : List Int) : (c.past bs fields rest).Aligned := by
  rw [Aligned, remaining, hrest, List.length_append] at h
  simp only [Aligned, remaining, Cursor.past]
  omega

end Cursor

namespace Read

variable {α β : Type} {c c' : Cursor} {e : Error}

/-! ## failures -/

/-- A sequence fails where its first reader does, or where the next does. -/
theorem bind_eq_error_iff {r : Read α} {f : α → Read β} :
    (r >>= f) c = .error e c' ↔
      r c = .error e c' ∨ ∃ a c₁, r c = .ok a c₁ ∧ f a c₁ = .error e c' :=
  runThen_eq_error_iff

theorem u8_eq_error_iff :
    u8 c = .error e c' ↔ c.rest = [] ∧ e = .decode (.unexpectedEnd c.address 1) ∧ c' = c := by
  unfold u8
  split
  · next b rest hrest => simp [hrest]
  · next hrest =>
    rw [fallShort, EStateM.Result.error.injEq, eq_comm, @eq_comm _ c]
    simp [hrest]

theorem u16_eq_error_iff :
    u16 c = .error e c' ↔ c.rest.length < 2 ∧
      e = .decode (.unexpectedEnd c.address (2 - max c.remaining 0)) ∧ c' = c := by
  unfold u16
  split
  · next low high rest hrest =>
    have hlength : ¬ c.rest.length < 2 := by simp [hrest]
    simp [hlength]
  · next hshort =>
    have hlength : c.rest.length < 2 := by
      match hrest : c.rest with
      | [] => simp
      | [_] => simp
      | low :: high :: rest => exact absurd hrest (hshort low high rest)
    rw [fallShort, EStateM.Result.error.injEq, eq_comm, @eq_comm _ c]
    simp [hlength]

theorem stop_eq_error_iff {cause : DecodeError} :
    (stop cause : Read α) c = .error e c' ↔ e = .decode cause ∧ c' = c := by
  rw [stop, EStateM.Result.error.injEq, eq_comm, @eq_comm _ c]

theorem resolve_eq_error_iff [Codecs] {ctx : Context} {offset : Nat} {address : Int} :
    resolve ctx offset address c = .error e c' ↔
      ctx.pool.resolve offset ctx.encoding (some address) = .error e ∧ c' = c := by
  unfold resolve
  split
  · next text htext => simp [htext]
  · next e₁ he =>
    rw [he, EStateM.Result.error.injEq, Except.error.injEq, @eq_comm _ c]

end Read

section Decoding

variable [Codecs]

/-- Looking up a codec never fails for a cause in the code. -/
theorem Encoding.ofName_ne_decode (way : Conversion) (name : String) (cause : DecodeError) :
    ofName way name ≠ .error (.decode cause) := by
  intro h
  rw [ofName, canonicalName] at h
  split at h
  · cases h
  · split at h
    · next r _ =>
      simp only [bind, Except.bind] at h
      split at h <;> try cases h
      split at h
      · cases h
      · split at h <;> cases h
    · cases h

/-- Why bytes have no text: the encoding has no codec, or its codec refuses
them. -/
theorem Pool.decodeText_eq_error {encoding : String} {raw : Bytes} {e : Error}
    (h : decodeText encoding raw = .error e) :
    Encoding.ofName .decoding encoding = .error e ∨
      ∃ codec message, Encoding.ofName .decoding encoding = .ok codec ∧
        codec.decode raw = .error message ∧ e = .refusingEncoding .decoding message := by
  rw [decodeText] at h
  split at h
  · cases h
  · cases hcodec : Encoding.ofName .decoding encoding with
    | error e₁ => rw [hcodec] at h; exact .inl (congrArg _ (Except.error.inj h))
    | ok codec =>
      rw [hcodec] at h
      simp only [bind, Except.bind] at h
      split at h
      · cases h
      · next message hmessage =>
        exact .inr ⟨codec, message, rfl, hmessage, (Except.error.inj h).symm⟩

/-- Bytes are never without a text for a cause in the code. -/
theorem Pool.decodeText_ne_decode (encoding : String) (raw : Bytes) (cause : DecodeError) :
    decodeText encoding raw ≠ .error (.decode cause) := by
  intro h
  rcases decodeText_eq_error h with hcodec | ⟨_, _, _, _, hcause⟩
  · exact Encoding.ofName_ne_decode _ _ _ hcodec
  · cases hcause

/-- Why a reference cannot be resolved: its offset lies outside the pool, or
the string there has no text in the encoding. -/
theorem Pool.Index.resolve_eq_error {index : Index} {offset : Nat} {encoding : String}
    {address : Option Int} {e : Error} (h : index.resolve offset encoding address = .error e) :
    (e = .decode (.stringOffset offset index.suffixes.size address) ∧
        index.suffixes.size ≤ offset) ∨
      decodeText encoding (index.stringAt offset) = .error e := by
  rw [resolve] at h
  split at h
  · next houtside =>
    exact .inl ⟨(Except.error.inj h).symm, by omega⟩
  · exact .inr h

end Decoding

namespace Read

variable {α β : Type}

/-! ## steady readers -/

/-- A reader that moves on, and that the end of the code stops at a place
ahead. -/
structure Late (r : Read α) : Prop where
  address_le : ∀ {c v c'}, r c = .ok v c' → c.address ≤ c'.address
  le_address : ∀ {c a w c'}, r c = .error (.decode (.unexpectedEnd a w)) c' → c.address ≤ a

/-- What a reader does at a place, compared with what it does there when there
is more code. -/
structure SteadyAt (r : Read α) (c : Cursor) : Prop where
  ok : ∀ {v c'} more, r c = .ok v c' → r (c.extend more) = .ok v (c'.extend more)
  aligned : ∀ {v c'}, r c = .ok v c' → c.Aligned → c'.Aligned
  /-- With fewer bytes than are missing it is stopped at the same place. -/
  short : ∀ {a w c'} more, c.Aligned → r c = .error (.decode (.unexpectedEnd a w)) c' →
    (more.length : Int) < w →
      r (c.extend more) = .error (.decode (.unexpectedEnd a (w - more.length))) (c'.extend more)
  /-- With as many bytes as are missing it gets past that place. -/
  enough : ∀ {a w c'} more, c.Aligned → r c = .error (.decode (.unexpectedEnd a w)) c' →
    w ≤ (more.length : Int) →
      (∀ w' c₁, r (c.extend more) ≠ .error (.decode (.unexpectedEnd a w')) c₁) ∧
      ∀ v c₁, r (c.extend more) = .ok v c₁ → a < c₁.address

/-- A reader that does not look behind what it consumes. -/
structure Steady (r : Read α) : Prop where
  late : Late r
  everywhere : ∀ c, SteadyAt r c

theorem Late.bind {r : Read α} {f : α → Read β} (hr : Late r) (hf : ∀ a, Late (f a)) :
    Late (r >>= f) where
  address_le h := by
    obtain ⟨a, c₁, h₁, h₂⟩ := bind_eq_ok h
    exact Int.le_trans (hr.address_le h₁) ((hf a).address_le h₂)
  le_address h := by
    rcases bind_eq_error_iff.mp h with h₁ | ⟨a, c₁, h₁, h₂⟩
    · exact hr.le_address h₁
    · exact Int.le_trans (hr.address_le h₁) ((hf a).le_address h₂)

theorem SteadyAt.bind {r : Read α} {f : α → Read β} {c : Cursor} (hr : SteadyAt r c)
    (hlate : ∀ a, Late (f a)) (hf : ∀ a c₁, r c = .ok a c₁ → SteadyAt (f a) c₁) :
    SteadyAt (r >>= f) c where
  ok more h := by
    obtain ⟨a, c₁, h₁, h₂⟩ := bind_eq_ok h
    exact bind_eq_ok_iff.mpr ⟨a, _, hr.ok more h₁, (hf a c₁ h₁).ok more h₂⟩
  aligned h hc := by
    obtain ⟨a, c₁, h₁, h₂⟩ := bind_eq_ok h
    exact (hf a c₁ h₁).aligned h₂ (hr.aligned h₁ hc)
  short more hc h hlt := by
    rcases bind_eq_error_iff.mp h with h₁ | ⟨a, c₁, h₁, h₂⟩
    · exact bind_eq_error_iff.mpr (.inl (hr.short more hc h₁ hlt))
    · exact bind_eq_error_iff.mpr (.inr ⟨a, _, hr.ok more h₁,
        (hf a c₁ h₁).short more (hr.aligned h₁ hc) h₂ hlt⟩)
  enough more hc h hle := by
    rcases bind_eq_error_iff.mp h with h₁ | ⟨a, c₁, h₁, h₂⟩
    · -- the first reader gets past the place, and the next only goes further
      obtain ⟨herror, hok⟩ := hr.enough more hc h₁ hle
      constructor
      · intro w' c₂ h'
        rcases bind_eq_error_iff.mp h' with h' | ⟨b, c₃, h', h''⟩
        · exact herror w' c₂ h'
        · exact Int.not_le.mpr (hok b c₃ h') ((hlate b).le_address h'')
      · intro v c₂ h'
        obtain ⟨b, c₃, h', h''⟩ := bind_eq_ok h'
        exact Int.lt_of_lt_of_le (hok b c₃ h') ((hlate b).address_le h'')
    · obtain ⟨herror, hok⟩ := (hf a c₁ h₁).enough more (hr.aligned h₁ hc) h₂ hle
      have hnext : (r >>= f) (c.extend more) = f a (c₁.extend more) := by
        change EStateM.bind r f _ = _
        rw [EStateM.bind, hr.ok more h₁]
      rw [hnext]
      exact ⟨herror, hok⟩

theorem Steady.bind {r : Read α} {f : α → Read β} (hr : Steady r) (hf : ∀ a, Steady (f a)) :
    Steady (r >>= f) where
  late := hr.late.bind fun a => (hf a).late
  everywhere c := (hr.everywhere c).bind (fun a => (hf a).late) fun a c₁ _ => (hf a).everywhere c₁

/-! ### primitive readers -/

/-- A reader that consumes nothing. -/
structure Quiet (r : Read α) : Prop where
  ok : ∀ {c v c'}, r c = .ok v c' →
    c'.address = c.address ∧ (c.Aligned → c'.Aligned) ∧
      ∀ more, r (c.extend more) = .ok v (c'.extend more)
  ne_error : ∀ {c a w c'}, r c ≠ .error (.decode (.unexpectedEnd a w)) c'

theorem Quiet.steady {r : Read α} (h : Quiet r) : Steady r where
  late :=
    { address_le := fun hr => Int.le_of_eq (h.ok hr).1.symm
      le_address := fun hr => absurd hr h.ne_error }
  everywhere _ :=
    { ok := fun more hr => (h.ok hr).2.2 more
      aligned := fun hr => (h.ok hr).2.1
      short := fun _ _ hr => absurd hr h.ne_error
      enough := fun _ _ hr => absurd hr h.ne_error }

theorem steady_pure (a : α) : Steady (pure a : Read α) := by
  refine Quiet.steady ⟨fun h => ?_, fun h => by cases h⟩
  cases h
  exact ⟨rfl, id, fun _ => rfl⟩

theorem steady_address : Steady address := by
  refine Quiet.steady ⟨fun h => ?_, fun h => by cases h⟩
  cases h
  exact ⟨rfl, id, fun _ => rfl⟩

theorem steady_position : Steady position := by
  refine Quiet.steady ⟨fun h => ?_, fun h => by cases h⟩
  cases h
  exact ⟨rfl, id, fun _ => rfl⟩

theorem steady_noteField (p : Int) : Steady (noteField p) := by
  refine Quiet.steady ⟨fun h => ?_, fun h => by cases h⟩
  cases h
  exact ⟨rfl, id, fun _ => rfl⟩

theorem steady_stop {cause : DecodeError} (h : ∀ a w, cause ≠ .unexpectedEnd a w) :
    Steady (stop cause : Read α) := by
  refine Quiet.steady ⟨fun hr => absurd hr stop_ne_ok, fun hr => ?_⟩
  have hcause := (stop_eq_error_iff.mp hr).1
  exact h _ _ (Error.decode.inj hcause).symm

theorem steady_u8 : Steady u8 where
  late :=
    { address_le := fun h => by
        obtain ⟨rest, -, rfl⟩ := u8_eq_ok_iff.mp h
        exact Cursor.address_le_past ..
      le_address := fun h => by
        obtain ⟨-, hcause, -⟩ := u8_eq_error_iff.mp h
        cases hcause
        exact Int.le_refl _ }
  everywhere c :=
    { ok := fun more h => by
        obtain ⟨rest, hrest, rfl⟩ := u8_eq_ok_iff.mp h
        exact u8_eq_ok_iff.mpr ⟨rest ++ more, by simp [hrest], by simp⟩
      aligned := fun h hc => by
        obtain ⟨rest, hrest, rfl⟩ := u8_eq_ok_iff.mp h
        exact hc.past hrest []
      short := fun more hc h hlt => by
        obtain ⟨hrest, hcause, hsame⟩ := u8_eq_error_iff.mp h
        cases hcause
        obtain rfl : more = [] := List.eq_nil_of_length_eq_zero (by omega)
        exact u8_eq_error_iff.mpr ⟨by simp [hrest], by simp, by rw [hsame]⟩
      enough := fun more hc h hle => by
        obtain ⟨hrest, hcause, hsame⟩ := u8_eq_error_iff.mp h
        cases hcause
        constructor
        · intro w' c₁ h'
          obtain ⟨hnil, -⟩ := u8_eq_error_iff.mp h'
          rw [Cursor.extend_rest, hrest, List.nil_append] at hnil
          rw [hnil] at hle
          simp at hle
        · intro v c₁ h'
          obtain ⟨rest, -, rfl⟩ := u8_eq_ok_iff.mp h'
          exact Cursor.address_lt_past (c.extend more) .. }

theorem steady_u16 : Steady u16 where
  late :=
    { address_le := fun h => by
        obtain ⟨low, high, rest, -, -, rfl⟩ := u16_eq_ok_iff.mp h
        exact Cursor.address_le_past ..
      le_address := fun h => by
        obtain ⟨-, hcause, -⟩ := u16_eq_error_iff.mp h
        cases hcause
        exact Int.le_refl _ }
  everywhere c :=
    { ok := fun more h => by
        obtain ⟨low, high, rest, hrest, rfl, rfl⟩ := u16_eq_ok_iff.mp h
        exact u16_eq_ok_iff.mpr ⟨low, high, rest ++ more, by simp [hrest], rfl, by simp⟩
      aligned := fun h hc => by
        obtain ⟨low, high, rest, hrest, rfl, rfl⟩ := u16_eq_ok_iff.mp h
        exact hc.past hrest []
      short := fun more hc h hlt => by
        obtain ⟨hrest, hcause, hsame⟩ := u16_eq_error_iff.mp h
        cases hcause
        have hremaining : (c.extend more).remaining = c.remaining + more.length := by
          simp only [Cursor.remaining, Cursor.extend]
          omega
        rw [Cursor.Aligned] at hc
        refine u16_eq_error_iff.mpr ⟨?_, ?_, by rw [hsame]⟩
        · rw [Cursor.extend_rest, List.length_append]
          omega
        · rw [hremaining, Cursor.extend_address]
          congr 2
          omega
      enough := fun more hc h hle => by
        obtain ⟨hrest, hcause, hsame⟩ := u16_eq_error_iff.mp h
        cases hcause
        rw [Cursor.Aligned] at hc
        constructor
        · intro w' c₁ h'
          obtain ⟨hlength, -⟩ := u16_eq_error_iff.mp h'
          rw [Cursor.extend_rest, List.length_append] at hlength
          omega
        · intro v c₁ h'
          obtain ⟨low, high, rest, -, -, rfl⟩ := u16_eq_ok_iff.mp h'
          exact Cursor.address_lt_past (c.extend more) .. }

/-! ### expressions -/

theorem steady_token : Steady token := by
  refine .bind steady_u8 fun flag => ?_
  split
  · exact steady_pure _
  · refine .bind steady_address fun _ => .bind steady_u8 fun _ => ?_
    exact .bind steady_u16 fun _ => steady_pure _
  · refine .bind steady_address fun _ => .bind steady_u8 fun _ => ?_
    split
    · exact steady_stop (by simp)
    · exact steady_pure _

/-- Reading tokens is reading one, and then the others. -/
theorem tokens_eq_bind (read : List Token) :
    (tokens read : Read (List Token)) =
      token >>= fun t => t.elim (pure read.reverse) fun t => tokens (t :: read) := by
  funext c
  change _ = EStateM.bind _ _ c
  rw [tokens, EStateM.bind]
  split <;> simp_all <;> rfl

theorem late_tokens (read : List Token) : Late (tokens read) where
  address_le h := by
    obtain ⟨_, bs, rest, -, -, -, rfl⟩ := tokens_eq_ok_iff.mp h
    exact Cursor.address_le_past ..
  le_address {c _ _ _} h := by
    fun_induction tokens read c with
    | case1 read c e c₁ htoken =>
        cases h
        exact steady_token.late.le_address htoken
    | case2 => cases h
    | case3 read c t c₁ htoken ih =>
        exact Int.le_trans (steady_token.late.address_le htoken) (ih h)

theorem steadyAt_tokens (read : List Token) (c : Cursor) : SteadyAt (tokens read) c := by
  induction hlength : c.rest.length using Nat.strongRecOn generalizing read c with
  | _ length ih =>
      rw [tokens_eq_bind]
      refine (steady_token.everywhere c).bind (fun t => ?_) fun t c₁ htoken => ?_
      · cases t with
        | none => exact (steady_pure _).late
        | some t => exact late_tokens _
      · cases t with
        | none => exact (steady_pure _).everywhere c₁
        | some t => exact ih _ (hlength ▸ progress_token htoken) _ c₁ rfl

theorem steady_tokens (read : List Token) : Steady (tokens read) :=
  ⟨late_tokens read, steadyAt_tokens read⟩

theorem steady_expression : Steady expression := by
  refine .bind steady_address fun _ => (steady_tokens []).bind fun _ => ?_
  exact .bind steady_address fun _ => steady_pure _

/-! ### operands and instructions -/

section Operands

variable [Codecs] (ctx : Context)

theorem steady_resolve (offset : Nat) (address : Int) : Steady (resolve ctx offset address) := by
  refine Quiet.steady ⟨fun h => ?_, fun h => ?_⟩
  · obtain ⟨htext, rfl⟩ := resolve_eq_ok_iff.mp h
    exact ⟨rfl, id, fun _ => resolve_eq_ok_iff.mpr ⟨htext, rfl⟩⟩
  · obtain ⟨herror, -⟩ := resolve_eq_error_iff.mp h
    rcases Pool.Index.resolve_eq_error herror with ⟨hcause, -⟩ | htext
    · cases hcause
    · exact Pool.decodeText_ne_decode _ _ _ htext

theorem steady_stringRef : Steady (stringRef ctx) := by
  refine .bind steady_address fun _ => .bind steady_position fun _ => ?_
  refine .bind steady_u16 fun _ => (steady_resolve ctx ..).bind fun _ => ?_
  exact (steady_noteField _).bind fun _ => steady_pure _

theorem steady_argument (name : String) (kind : ArgumentKind) :
    Steady (argument ctx name kind) := by
  cases kind with
  | word => exact .bind steady_u16 fun _ => steady_pure _
  | expression => exact .bind steady_expression fun _ => steady_pure _
  | string => exact (steady_stringRef ctx).bind fun _ => steady_pure _

omit [Codecs] in
theorem steady_operands {κ : Type} {read : String → κ → Read Operand}
    (h : ∀ name kind, Steady (read name kind)) (spec : Spec κ) (index : Nat) (kinds : List κ) :
    Steady (operands read spec index kinds) := by
  induction kinds generalizing index with
  | nil => exact steady_pure _
  | cons kind kinds ih => exact (h ..).bind fun _ => (ih _).bind fun _ => steady_pure _

theorem steady_call : Steady (call ctx) := by
  refine .bind steady_address fun _ => .bind steady_u8 fun _ => ?_
  split
  · exact steady_stop (by simp)
  · exact (steady_operands (steady_argument ctx) ..).bind fun _ => steady_pure _

omit [Codecs] in
theorem steady_cases (count : Nat) : Steady (cases count) := by
  induction count with
  | zero => exact steady_pure _
  | succ count ih =>
      refine .bind steady_u8 fun _ => .bind steady_u16 fun _ => ?_
      exact ih.bind fun _ => steady_pure _

omit [Codecs] in
theorem steady_switch : Steady switch := by
  refine .bind steady_u16 fun _ => .bind steady_u8 fun _ => ?_
  exact (steady_cases _).bind fun _ => steady_pure _

theorem steady_operand (name : String) (kind : OperandKind) : Steady (operand ctx name kind) := by
  cases kind with
  | byte => exact .bind steady_u8 fun _ => steady_pure _
  | argument kind => exact steady_argument ctx name kind
  | function => exact steady_call ctx
  | switch => exact steady_switch

theorem steady_instruction : Steady (instruction ctx) := by
  refine .bind steady_address fun _ => .bind steady_u8 fun _ => ?_
  split
  · exact steady_stop (by simp)
  · exact (steady_operands (steady_operand ctx) ..).bind fun _ => steady_pure _

end Operands

end Read

/-! ## runs of instructions -/

namespace Code

variable [Codecs] {ctx : Context}

omit [Codecs] in
/-- Code that is not padding is none with more behind it. -/
theorem isPadding_append {rest : Bytes} (h : isPadding rest = false) (more : Bytes) :
    isPadding (rest ++ more) = false := by
  rw [← Bool.not_eq_true, isPadding_iff] at h ⊢
  intro ⟨hlength, hzero⟩
  rw [List.length_append] at hlength
  exact h ⟨by omega, fun b hb => hzero b (List.mem_append_left more hb)⟩

/-- Reading the instructions `is`, one after the other, leads from a cursor to
another. -/
inductive Reads (ctx : Context) : Cursor → List Instruction → Cursor → Prop where
  | nil {c : Cursor} : Reads ctx c [] c
  | cons {c c₁ c₂ : Cursor} {i : Instruction} {is : List Instruction}
      (hpad : isPadding c.rest = false) (first : Read.instruction ctx c = .ok i c₁)
      (rest : Reads ctx c₁ is c₂) : Reads ctx c (i :: is) c₂

namespace Reads

variable {c c' : Cursor} {is : List Instruction}

/-- The loop over a code goes through a run. -/
theorem instructions (h : Reads ctx c is c') (read : List Instruction) :
    Code.instructions ctx read c = Code.instructions ctx (is.reverse ++ read) c' := by
  induction h generalizing read with
  | nil => rfl
  | cons hpad first _ ih => rw [instructions_of_ok hpad first, ih]; simp

/-- A run is the same with more code behind it. -/
theorem extend (h : Reads ctx c is c') (more : Bytes) :
    Reads ctx (c.extend more) is (c'.extend more) := by
  induction h with
  | nil => exact .nil
  | cons hpad first _ ih =>
      exact .cons (isPadding_append hpad more)
        (((Read.steady_instruction ctx).everywhere _).ok more first) ih

theorem aligned (h : Reads ctx c is c') (hc : c.Aligned) : c'.Aligned := by
  induction h with
  | nil => exact hc
  | cons _ first _ ih => exact ih (((Read.steady_instruction ctx).everywhere _).aligned first hc)

theorem address_le (h : Reads ctx c is c') : c.address ≤ c'.address := by
  induction h with
  | nil => exact Int.le_refl _
  | cons _ first _ ih =>
      exact Int.le_trans ((Read.steady_instruction ctx).late.address_le first) ih

/-- Every run goes on to the place where reading fails. -/
theorem exists_of_error {is' : List Instruction} {c₁ c₂ : Cursor} {e : Error}
    (h : Reads ctx c is c') (h' : Reads ctx c is' c₁)
    (hfails : Read.instruction ctx c₁ = .error e c₂) : ∃ is'', Reads ctx c' is'' c₁ := by
  induction h generalizing is' with
  | nil => exact ⟨is', h'⟩
  | cons hpad first _ ih =>
      cases h' with
      | nil =>
          rw [first] at hfails
          cases hfails
      | cons hpad' first' rest' =>
          rw [first] at first'
          cases first'
          exact ih rest'

/-- A run consumes the bytes that its instructions are written as, and notes
their string fields. -/
theorem encodeAll (h : Reads ctx c is c') :
    ∃ bs, Instruction.encodeAll is = .ok bs ∧ c.rest = bs ++ c'.rest ∧
      c' = c.past bs (Instruction.allFields is) c'.rest := by
  induction h with
  | nil => exact ⟨[], rfl, rfl, (Cursor.past_nil _).symm⟩
  | cons _ first _ ih =>
      obtain ⟨bs', hbs', hrest', hpast'⟩ := ih
      obtain ⟨bs, rest, hlaid, hrest, rfl⟩ := (Read.exact_instruction _ _ _).mp first
      rw [Cursor.past_rest] at hrest'
      refine ⟨bs ++ bs', ?_, by rw [hrest, hrest', List.append_assoc], ?_⟩
      · rw [Instruction.encodeAll] at hbs' ⊢
        obtain ⟨parts, hparts, hflatten⟩ := andThen_eq_ok_iff.mp hbs'
        rw [List.mapM_cons, hlaid.encode, hparts]
        exact congrArg (fun x => Except.ok (bs ++ x)) (Except.ok.inj hflatten)
      · rw [Cursor.past_past] at hpast'
        exact hpast'

end Reads

/-- The loop over a code fails at the first instruction that cannot be read. -/
theorem instructions_eq_error_iff {read is : List Instruction} {e : Error} {c : Cursor} :
    instructions ctx read c = .error ⟨e, is⟩ ↔
      ∃ is' c₁ c₂, Reads ctx c is' c₁ ∧ isPadding c₁.rest = false ∧
        Read.instruction ctx c₁ = .error e c₂ ∧ is = read.reverse ++ is' := by
  constructor
  · intro h
    fun_induction instructions ctx read c with
    | case1 => cases h
    | case2 read c hpad e₁ c₁ hfails =>
        cases h
        exact ⟨[], c, c₁, .nil, by simpa using hpad, hfails, by simp⟩
    | case3 read c hpad i c₁ hi ih =>
        obtain ⟨is', c₂, c₃, hreads, hpad', hfails, rfl⟩ := ih h
        exact ⟨i :: is', c₂, c₃, .cons (by simpa using hpad) hi hreads, hpad', hfails, by simp⟩
  · rintro ⟨is', c₁, c₂, hreads, hpad, hfails, rfl⟩
    rw [hreads.instructions, Code.instructions, if_neg (by simp [hpad])]
    split <;> simp_all

/-- The loop over a code succeeds where it meets the padding. -/
theorem exists_reads_of_instructions {read is : List Instruction} {c c' : Cursor}
    (h : instructions ctx read c = .ok (is, c')) :
    ∃ is', Reads ctx c is' c' ∧ is = read.reverse ++ is' := by
  fun_induction instructions ctx read c with
  | case1 read c hpad =>
      cases h
      exact ⟨[], .nil, by simp⟩
  | case2 => cases h
  | case3 read c hpad i c₁ hi ih =>
      obtain ⟨is', hreads, rfl⟩ := ih h
      exact ⟨i :: is', .cons (by simpa using hpad) hi hreads, by simp⟩

/-- Decoding fails at the first instruction that cannot be read. -/
theorem decode_eq_error_iff {base : Int} {code : Bytes} {is : List Instruction} {e : Error} :
    decode ctx base code = .error ⟨e, is⟩ ↔
      ∃ c₁ c₂, Reads ctx (Cursor.start code base 0) is c₁ ∧ isPadding c₁.rest = false ∧
        Read.instruction ctx c₁ = .error e c₂ := by
  have hdecode : decode ctx base code = .error ⟨e, is⟩ ↔
      instructions ctx [] (Cursor.start code base 0) = .error ⟨e, is⟩ := by
    rw [decode]
    cases instructions ctx [] (Cursor.start code base 0) <;>
      simp [bind, Except.bind, pure, Except.pure]
  rw [hdecode, instructions_eq_error_iff]
  simp

/-- Decoding succeeds behind a run of instructions. -/
theorem exists_reads_of_decode {base : Int} {code : Bytes} {d : Decoded}
    (h : decode ctx base code = .ok d) :
    ∃ c, Reads ctx (Cursor.start code base 0) d.instructions c ∧ d.stringRefs = c.fields.reverse ∧
      d.version = ctx.dialect.name ∧ d.consumed = c.position := by
  obtain ⟨⟨is, c⟩, hrun, hd⟩ := andThen_eq_ok_iff.mp h
  obtain ⟨is', hreads, his⟩ := exists_reads_of_instructions hrun
  obtain rfl : is = is' := by simpa using his
  obtain rfl := Except.ok.inj hd
  exact ⟨c, hreads, rfl, rfl, rfl⟩

end Code

end Scenario
