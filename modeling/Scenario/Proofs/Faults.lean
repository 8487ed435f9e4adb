import Scenario.Proofs.Relocation

/-!
# Scenario.Proofs.Faults

Failures of decoding point at their cause.

1. `DecodeError.Fits` — what a failure says of the code from its address on: a
   byte that is missing from its table, an offset outside the pool, or a field
   that the end of the code cuts off.
2. `Read.Accounts` — a reader whose failures fit the code at their address.  All
   readers account for theirs (`Read.accounts_instruction`); the only other
   failure is that of looking up the codec of strings.
3. `Code.decode_eq_error` — the instructions read before a failure are what the
   code in front of it is written from, and decoding that begins behind them
   fails alike.
4. `Code.decode_extend_short`, `Code.decode_extend_enough` — the bytes that a
   field misses are exactly those that the code has to be longer.
-/

namespace Scenario

/-! ## what failures say -/

/-- What a failure says is so: `ahead` is the code from the address of the
failure on, and `size` the length of the pool. -/
def DecodeError.Fits (dialect : Dialect) (size : Nat) (ahead : Bytes) : DecodeError → Prop
  | .unexpectedEnd _ wanted =>
    1 ≤ wanted ∧ ∃ width : Int, (width = 1 ∨ width = 2) ∧ width = ahead.length + wanted
  | .unknownCode .opcode byte _ => ahead.head? = some byte ∧ byte ∉ opcodes.map Prod.fst
  | .unknownCode .function byte _ =>
    ahead.head? = some byte ∧ byte ∉ dialect.functions.map Prod.fst
  | .unknownOperator byte _ =>
    ahead.head? = some byte ∧ (byte.toNat : Int) ∉ Expression.operators.map Prod.fst
  | .stringOffset offset poolLength address =>
    (∃ low high, [low, high] <+: ahead ∧ offset = Bytes.word low high) ∧
      poolLength = size ∧ (size : Int) ≤ offset ∧ address.isSome

theorem Error.moved_zero (e : Error) : e.moved 0 = e := by
  cases e with
  | decode cause => cases cause <;> simp [Error.moved, DecodeError.moved]
  | _ => rfl

/-- A key without an entry is none of the keys of a table. -/
theorem notMem_keys_of_lookup {α β : Type} [BEq α] [LawfulBEq α] {table : List (α × β)} {key : α}
    (h : table.lookup key = none) : key ∉ table.map Prod.fst := by
  simp only [List.mem_map, not_exists, not_and]
  rintro entry hentry rfl
  simpa using List.lookup_eq_none_iff.mp h entry hentry

namespace Read

variable [Codecs] {α β : Type} {ctx : Context}

/-! ## readers -/

/-- A failure has its cause in the bytes ahead of a cursor, or is that of
decoding a string of the pool. -/
def Caused (ctx : Context) (c : Cursor) (e : Error) : Prop :=
  (∃ offset, Pool.decodeText ctx.encoding (ctx.pool.stringAt offset) = .error e) ∨
  ∃ cause bs ahead, e = .decode cause ∧ c.rest = bs ++ ahead ∧
    cause.address = c.address + bs.length ∧ cause.Fits ctx.dialect ctx.pool.suffixes.size ahead

/-- A cause that lies ahead of a place lies ahead of every place before. -/
theorem Caused.before {c c₁ : Cursor} {e : Error} {bs : Bytes} {fields : List Int}
    (h : Caused ctx c₁ e) (hrest : c.rest = bs ++ c₁.rest) (hpast : c₁ = c.past bs fields c₁.rest) :
    Caused ctx c e := by
  rcases h with htext | ⟨cause, bs', ahead, rfl, hahead, haddress, hfits⟩
  · exact .inl htext
  · refine .inr ⟨cause, bs ++ bs', ahead, rfl, ?_, ?_, hfits⟩
    · rw [hrest, hahead, List.append_assoc]
    · rw [haddress, hpast, Cursor.past_address, List.length_append]
      omega

/-- A reader consumes bytes, or accounts for its failure. -/
structure Accounts (ctx : Context) (r : Read α) : Prop where
  ok : ∀ {c v c'}, r c = .ok v c' →
    ∃ bs fields, c.rest = bs ++ c'.rest ∧ c' = c.past bs fields c'.rest
  error : ∀ {c e c'}, c.Aligned → r c = .error e c' → Caused ctx c e

theorem Accounts.bind {r : Read α} {f : α → Read β} (hr : Accounts ctx r)
    (hf : ∀ a, Accounts ctx (f a)) : Accounts ctx (r >>= f) where
  ok h := by
    obtain ⟨a, c₁, h₁, h₂⟩ := bind_eq_ok h
    obtain ⟨bs, fields, hrest, hpast⟩ := hr.ok h₁
    obtain ⟨bs', fields', hrest', hpast'⟩ := (hf a).ok h₂
    refine ⟨bs ++ bs', fields ++ fields', ?_, ?_⟩
    · rw [hrest, hrest', List.append_assoc]
    · rw [hpast, Cursor.past_past] at hpast'
      exact hpast'
  error hc h := by
    rcases bind_eq_error_iff.mp h with h₁ | ⟨a, c₁, h₁, h₂⟩
    · exact hr.error hc h₁
    · obtain ⟨bs, fields, hrest, hpast⟩ := hr.ok h₁
      have hc₁ : c₁.Aligned := hpast ▸ hc.past hrest fields
      exact ((hf a).error hc₁ h₂).before hrest hpast

/-! ### primitive readers -/

/-- A reader that succeeds without consuming anything. -/
theorem accounts_of_ok {r : Read α}
    (h : ∀ c, ∃ v fields, r c = .ok v (c.past [] fields c.rest)) : Accounts ctx r where
  ok {c v c'} hr := by
    obtain ⟨v', fields, hok⟩ := h c
    rw [hok] at hr
    cases hr
    exact ⟨[], fields, rfl, rfl⟩
  error {c e c'} _ hr := by
    obtain ⟨v', fields, hok⟩ := h c
    rw [hok] at hr
    cases hr

theorem accounts_pure (a : α) : Accounts ctx (pure a : Read α) :=
  accounts_of_ok fun _ => ⟨a, [], by rw [Cursor.past_nil]; rfl⟩

theorem accounts_address : Accounts ctx address :=
  accounts_of_ok fun _ => ⟨_, [], by rw [Cursor.past_nil]; rfl⟩

theorem accounts_u8 : Accounts ctx u8 where
  ok h := by
    obtain ⟨rest, hrest, rfl⟩ := u8_eq_ok_iff.mp h
    exact ⟨_, [], hrest, rfl⟩
  error {c _ _} _ h := by
    obtain ⟨hrest, rfl, -⟩ := u8_eq_error_iff.mp h
    exact .inr ⟨_, [], c.rest, rfl, rfl, by simp [DecodeError.address],
      by decide, 1, .inl rfl, by simp [hrest]⟩

theorem accounts_u16 : Accounts ctx u16 where
  ok h := by
    obtain ⟨low, high, rest, hrest, -, rfl⟩ := u16_eq_ok_iff.mp h
    exact ⟨_, [], hrest, rfl⟩
  error {c _ _} hc h := by
    obtain ⟨hlength, rfl, -⟩ := u16_eq_error_iff.mp h
    rw [Cursor.Aligned] at hc
    exact .inr ⟨_, [], c.rest, rfl, rfl, by simp [DecodeError.address],
      by omega, 2, .inr rfl, by omega⟩

/-- A reader that looks a byte up, and stops at its address if that fails. -/
theorem accounts_coded {next : Int → UInt8 → Read α}
    (h : ∀ a b, Accounts ctx (next a b) ∨ ∃ cause, next a b = stop cause ∧ cause.address = a ∧
      ∀ rest, cause.Fits ctx.dialect ctx.pool.suffixes.size (b :: rest)) :
    Accounts ctx (address >>= fun a => u8 >>= fun b => next a b) where
  ok {c v c'} hr := by
    obtain ⟨a, c₁, ha, hr⟩ := bind_eq_ok hr
    obtain ⟨b, c₂, hb, hr⟩ := bind_eq_ok hr
    rcases h a b with hnext | ⟨cause, hstop, -⟩
    · exact (Accounts.bind accounts_address fun _ => .bind accounts_u8 fun _ => hnext).ok
        (bind_eq_ok_iff.mpr ⟨a, c₁, ha, bind_eq_ok_iff.mpr ⟨b, c₂, hb, hr⟩⟩)
    · rw [hstop] at hr
      exact absurd hr stop_ne_ok
  error {c e c'} hc hr := by
    rcases bind_eq_error_iff.mp hr with ha | ⟨a, c₁, ha, hr⟩
    · cases ha
    cases ha
    rcases bind_eq_error_iff.mp hr with hb | ⟨b, c₂, hb, hr⟩
    · exact accounts_u8.error hc hb
    rcases h _ b with hnext | ⟨cause, hstop, haddress, hfits⟩
    · exact (Accounts.bind accounts_u8 fun _ => hnext).error hc
        (bind_eq_error_iff.mpr (.inr ⟨b, c₂, hb, hr⟩))
    · rw [hstop] at hr
      obtain ⟨rfl, -⟩ := stop_eq_error_iff.mp hr
      obtain ⟨rest, hrest, -⟩ := u8_eq_ok_iff.mp hb
      exact .inr ⟨cause, [], b :: rest, rfl, hrest, by simpa using haddress,
        hfits rest⟩

/-! ### expressions -/

theorem accounts_token : Accounts ctx token := by
  refine .bind accounts_u8 fun flag => ?_
  split
  · exact accounts_pure _
  · refine .bind accounts_address fun _ => .bind accounts_u8 fun _ => ?_
    exact .bind accounts_u16 fun _ => accounts_pure _
  · refine accounts_coded fun a b => ?_
    split
    · next hnone => exact .inr ⟨_, rfl, rfl, fun _ => ⟨rfl, notMem_keys_of_lookup hnone⟩⟩
    · exact .inl (accounts_pure _)

theorem accounts_tokens (read : List Token) : Accounts ctx (tokens read) where
  ok h := by
    obtain ⟨_, bs, rest, -, hrest, -, rfl⟩ := tokens_eq_ok_iff.mp h
    exact ⟨bs, _, hrest, rfl⟩
  error {c e c'} hc h := by
    fun_induction tokens read c with
    | case1 read c e c₁ htoken =>
        cases h
        exact accounts_token.error hc htoken
    | case2 => cases h
    | case3 read c t c₁ htoken ih =>
        have htokens : Accounts ctx token := accounts_token
        obtain ⟨bs, fields, hrest, hpast⟩ := htokens.ok htoken
        have hc₁ : c₁.Aligned := hpast ▸ hc.past hrest fields
        exact (ih hc₁ h).before hrest hpast

theorem accounts_expression : Accounts ctx expression := by
  refine .bind accounts_address fun _ => (accounts_tokens []).bind fun _ => ?_
  exact .bind accounts_address fun _ => accounts_pure _

/-! ### operands and instructions -/

theorem accounts_stringRef : Accounts ctx (stringRef ctx) where
  ok h := by
    obtain ⟨bs, rest, -, hrest, rfl⟩ := (exact_stringRef _ _ _).mp h
    exact ⟨bs, _, hrest, rfl⟩
  error {c e c'} hc h := by
    rcases bind_eq_error_iff.mp h with h₁ | ⟨a, c₁, ha, h⟩
    · cases h₁
    cases ha
    rcases bind_eq_error_iff.mp h with h₁ | ⟨p, c₁, hp, h⟩
    · cases h₁
    cases hp
    rcases bind_eq_error_iff.mp h with h₁ | ⟨offset, c₁, hoffset, h⟩
    · exact accounts_u16.error hc h₁
    rcases bind_eq_error_iff.mp h with h₁ | ⟨text, c₂, htext, h⟩
    · -- the offset was read, and the pool has no string there
      obtain ⟨low, high, rest, hrest, rfl, -⟩ := u16_eq_ok_iff.mp hoffset
      obtain ⟨hresolve, -⟩ := resolve_eq_error_iff.mp h₁
      rcases Pool.Index.resolve_eq_error hresolve with ⟨rfl, houtside⟩ | htext
      · refine .inr ⟨_, [], c.rest, rfl, rfl, by simp [DecodeError.address, Cursor.address], ?_⟩
        exact ⟨⟨low, high, ⟨rest, hrest.symm⟩, rfl⟩, rfl, by omega, rfl⟩
      · exact .inl ⟨_, htext⟩
    · rcases bind_eq_error_iff.mp h with h₁ | ⟨u, c₃, hu, h⟩
      · cases h₁
      · cases h

theorem accounts_argument (name : String) (kind : ArgumentKind) :
    Accounts ctx (argument ctx name kind) := by
  cases kind with
  | word => exact .bind accounts_u16 fun _ => accounts_pure _
  | expression => exact .bind accounts_expression fun _ => accounts_pure _
  | string => exact .bind accounts_stringRef fun _ => accounts_pure _

theorem accounts_operands {κ : Type} {read : String → κ → Read Operand}
    (h : ∀ name kind, Accounts ctx (read name kind)) (spec : Spec κ) (index : Nat)
    (kinds : List κ) : Accounts ctx (operands read spec index kinds) := by
  induction kinds generalizing index with
  | nil => exact accounts_pure _
  | cons kind kinds ih => exact (h ..).bind fun _ => (ih _).bind fun _ => accounts_pure _

theorem accounts_call : Accounts ctx (call ctx) := by
  refine accounts_coded fun a b => ?_
  split
  · next hnone => exact .inr ⟨_, rfl, rfl, fun _ => ⟨rfl, notMem_keys_of_lookup hnone⟩⟩
  · exact .inl ((accounts_operands accounts_argument ..).bind fun _ => accounts_pure _)

theorem accounts_cases (count : Nat) : Accounts ctx (cases count) := by
  induction count with
  | zero => exact accounts_pure _
  | succ count ih =>
      refine .bind accounts_u8 fun _ => .bind accounts_u16 fun _ => ?_
      exact ih.bind fun _ => accounts_pure _

theorem accounts_switch : Accounts ctx switch := by
  refine .bind accounts_u16 fun _ => .bind accounts_u8 fun _ => ?_
  exact (accounts_cases _).bind fun _ => accounts_pure _

theorem accounts_operand (name : String) (kind : OperandKind) :
    Accounts ctx (operand ctx name kind) := by
  cases kind with
  | byte => exact .bind accounts_u8 fun _ => accounts_pure _
  | argument kind => exact accounts_argument name kind
  | function => exact accounts_call
  | switch => exact accounts_switch

theorem accounts_instruction : Accounts ctx (instruction ctx) := by
  refine accounts_coded fun a b => ?_
  split
  · next hnone => exact .inr ⟨_, rfl, rfl, fun _ => ⟨rfl, notMem_keys_of_lookup hnone⟩⟩
  · exact .inl ((accounts_operands accounts_operand ..).bind fun _ => accounts_pure _)

/-- An instruction that cannot be read in the middle of a code cannot be read
at the front of the rest. -/
theorem instruction_restart {c c' : Cursor} {e : Error} (hc : c.Aligned) (hpos : 0 ≤ c.position)
    (h : instruction ctx c = .error e c') :
    ∃ c₁, instruction ctx (Cursor.start c.rest c.address 0) = .error e c₁ := by
  let m : Relocation := ⟨-c.position, c.position.toNat, c.fields⟩
  have hshift : m.shift = 0 := by simp only [m, Relocation.shift]; omega
  have hcursor : c = m.cursor (Cursor.start c.rest c.address 0) := by
    have hlength : c.length = c.rest.length + c.position.toNat := by
      rw [Cursor.Aligned, Cursor.remaining] at hc
      omega
    cases c
    dsimp only at hpos
    simp only [m, Relocation.cursor, Cursor.start, Cursor.address, Cursor.mk.injEq]
    exact ⟨by omega, by omega, hlength, by simp, by simp⟩
  have hmoved := relocates_instruction (m := m) ctx (Cursor.start c.rest c.address 0)
  rw [← hcursor, h] at hmoved
  cases hfront : instruction ctx (Cursor.start c.rest c.address 0) with
  | ok v c₁ =>
      rw [hfront] at hmoved
      cases hmoved
  | error e₁ c₁ =>
      rw [hfront, Relocation.result, hshift, Error.moved_zero] at hmoved
      cases hmoved
      exact ⟨c₁, rfl⟩

end Read

namespace Code

variable [Codecs] {ctx : Context} {base : Int} {code : Bytes} {is : List Instruction}

/-! ## whole code -/

/-- **Where decoding fails**: behind the bytes that the instructions so far are
written as, and for a cause that lies in what follows them. -/
theorem decode_eq_error {e : Error} (h : decode ctx base code = .error ⟨e, is⟩) :
    ∃ start : Nat, start ≤ code.length ∧ Instruction.encodeAll is = .ok (code.take start) ∧
      decode ctx (base + start) (code.drop start) = .error ⟨e, []⟩ ∧
      Read.Caused ctx (Cursor.start (code.drop start) (base + start) 0) e := by
  obtain ⟨c₁, c₂, hreads, hpad, hfails⟩ := decode_eq_error_iff.mp h
  obtain ⟨bs, hbs, hrest, hpast⟩ := hreads.encodeAll
  have hcode : code = bs ++ c₁.rest := hrest
  have htake : code.take bs.length = bs := by simp [hcode]
  have hdrop : code.drop bs.length = c₁.rest := by simp [hcode]
  have haligned : c₁.Aligned := hreads.aligned (Cursor.aligned_start code base)
  have hposition : c₁.position = bs.length := by
    rw [hpast]
    simp [Cursor.start]
  have haddress : c₁.address = base + bs.length := by
    rw [hpast]
    simp [Cursor.start, Cursor.address]
  obtain ⟨c₃, hfront⟩ := Read.instruction_restart haligned (by omega) hfails
  rw [haddress] at hfront
  refine ⟨bs.length, by simp [hcode], by rw [htake]; exact hbs, ?_, ?_⟩
  · rw [hdrop]
    exact decode_eq_error_iff.mpr ⟨_, c₃, .nil, by simpa [Cursor.start] using hpad, hfront⟩
  · rw [hdrop]
    exact Read.accounts_instruction.error (Cursor.aligned_start _ _) hfront

variable {a w : Int} (h : decode ctx base code = .error ⟨.decode (.unexpectedEnd a w), is⟩)
  {more : Bytes}
include h

/-- With fewer bytes than are missing, decoding is stopped at the same field. -/
theorem decode_extend_short (hlt : (more.length : Int) < w) :
    decode ctx base (code ++ more) =
      .error ⟨.decode (.unexpectedEnd a (w - more.length)), is⟩ := by
  obtain ⟨c₁, c₂, hreads, hpad, hfails⟩ := decode_eq_error_iff.mp h
  have haligned : c₁.Aligned := hreads.aligned (Cursor.aligned_start code base)
  have hrun := hreads.extend more
  rw [Cursor.extend_start] at hrun
  exact decode_eq_error_iff.mpr ⟨_, _, hrun, isPadding_append hpad more,
    ((Read.steady_instruction ctx).everywhere c₁).short more haligned hfails hlt⟩

/-- With as many bytes as are missing, decoding gets past the field. -/
theorem decode_extend_enough (hle : w ≤ more.length) (w' : Int) (is' : List Instruction) :
    decode ctx base (code ++ more) ≠ .error ⟨.decode (.unexpectedEnd a w'), is'⟩ := by
  obtain ⟨c₁, c₂, hreads, hpad, hfails⟩ := decode_eq_error_iff.mp h
  have haligned : c₁.Aligned := hreads.aligned (Cursor.aligned_start code base)
  have hrun := hreads.extend more
  rw [Cursor.extend_start] at hrun
  obtain ⟨hpassed, hfurther⟩ :=
    ((Read.steady_instruction ctx).everywhere c₁).enough more haligned hfails hle
  intro hagain
  obtain ⟨c₃, c₄, hreads', -, hfails'⟩ := decode_eq_error_iff.mp hagain
  obtain ⟨is'', hrest⟩ := hrun.exists_of_error hreads' hfails'
  cases hrest with
  | nil => exact hpassed w' c₄ hfails'
  | cons _ first rest =>
      -- what is read behind the field lies further on
      have hlt := hfurther _ _ first
      have hle' := rest.address_le
      have hlate := (Read.steady_instruction ctx).late.le_address hfails'
      omega

end Code

namespace Image

/-- The image with another code, at another place of the file. -/
def recoded (image : Image) (base : Int) (code : Bytes) : Image :=
  { image with codeBase := base, code }

/-- **Failures point at their cause.**  Unless a string of the pool has no text
in the encoding, decoding only fails for a cause in the code.  Its address lies
in the code or at its end, in the instruction behind those that were read, which
the code in front of it is written from; and there is what the failure tells.  A
field that is cut off is complete with exactly the bytes that are said to be
missing. -/
theorem decode_fails [Codecs] {image : Image} {dialect : Dialect} {encoding : String} {e : Error}
    {is : List Instruction} (h : image.decode dialect encoding = .error ⟨e, is⟩) :
    ((∃ cause, e = .decode cause) ∨
      ∃ offset : Nat, Pool.decodeText encoding (Pool.stringAt image.pool offset) = .error e) ∧
    ∀ cause, e = .decode cause → ∃ start p : Nat, start ≤ p ∧ p ≤ image.code.length ∧
      cause.address = image.codeBase + p ∧
      Instruction.encodeAll is = .ok (image.code.take start) ∧
      (image.recoded (image.codeBase + start) (image.code.drop start)).decode dialect encoding =
        .error ⟨e, []⟩ ∧
      cause.Fits dialect image.pool.length (image.code.drop p) ∧
      ∀ wanted, cause = .unexpectedEnd cause.address wanted → ∀ more : Bytes,
        ((more.length : Int) < wanted →
          (image.recoded image.codeBase (image.code ++ more)).decode dialect encoding =
            .error ⟨.decode (.unexpectedEnd cause.address (wanted - more.length)), is⟩) ∧
        (wanted ≤ more.length → ∀ wanted' is',
          (image.recoded image.codeBase (image.code ++ more)).decode dialect encoding ≠
            .error ⟨.decode (.unexpectedEnd cause.address wanted'), is'⟩) := by
  obtain ⟨start, hstart, hwritten, hfront, hcaused⟩ := Code.decode_eq_error h
  constructor
  · rcases hcaused with ⟨offset, htext⟩ | ⟨cause, -, -, hcause, -⟩
    · exact .inr ⟨offset, by rwa [Pool.Index.stringAt_ofPool] at htext⟩
    · exact .inl ⟨cause, hcause⟩
  · rintro cause rfl
    rcases hcaused with ⟨_, htext⟩ | ⟨cause', bs, ahead, hcause, hahead, haddress, hfits⟩
    · exact absurd htext (Pool.decodeText_ne_decode _ _ _)
    cases hcause
    have hdrop : image.code.drop start = bs ++ ahead := by simpa [Cursor.start] using hahead
    have hlength : image.code.length - start = bs.length + ahead.length := by
      rw [← List.length_drop, hdrop, List.length_append]
    have hplace : image.code.drop (start + bs.length) = ahead := by
      rw [← List.drop_drop, hdrop, List.drop_left]
    refine ⟨start, start + bs.length, by omega, by omega, ?_, hwritten, hfront, ?_, ?_⟩
    · rw [haddress]
      simp only [Cursor.address, Cursor.start]
      omega
    · rw [hplace, ← Pool.Index.size_ofPool image.pool]
      exact hfits
    · intro wanted hend more
      rw [hend] at h
      exact ⟨fun hlt => Code.decode_extend_short h hlt, fun hle => Code.decode_extend_enough h hle⟩

/-- A dialect of one function, which takes a string. -/
def speaking : Dialect := ⟨"speaking", [(0x07, ⟨"say", [.string], []⟩)]⟩

/-- An image whose code ends within the string field of its second
instruction. -/
def cutOff : Image :=
  { header := []
    labels := []
    code := [0x0D, 0x00, 0x07, 0x00]
    codeBase := 12
    pool := [0x41, 0x00] }

/-- The field begins with the last byte and misses one. -/
theorem decode_fails_cutOff :
    cutOff.decode speaking "ascii" =
        .error ⟨.decode (.unexpectedEnd 15 1), [⟨12, 0x0D, "ret", []⟩]⟩ ∧
      (∃ start p : Nat, start ≤ p ∧ p ≤ 4 ∧ (15 : Int) = 12 + p ∧
        Instruction.encodeAll [⟨12, 0x0D, "ret", []⟩] = .ok (cutOff.code.take start)) ∧
      ∀ b wanted is, (cutOff.recoded 12 [0x0D, 0x00, 0x07, 0x00, b]).decode speaking "ascii" ≠
        .error ⟨.decode (.unexpectedEnd 15 wanted), is⟩ := by
  have hcut : cutOff.decode speaking "ascii" =
      .error ⟨.decode (.unexpectedEnd 15 1), [⟨12, 0x0D, "ret", []⟩]⟩ :=
    Code.decode_eq_error_iff.mpr ⟨_, _, .cons rfl rfl .nil, rfl, rfl⟩
  obtain ⟨-, hcause⟩ := decode_fails hcut
  obtain ⟨start, p, hstart, hp, haddress, hwritten, -, -, hmore⟩ := hcause _ rfl
  exact ⟨hcut, ⟨start, p, hstart, hp, haddress, hwritten⟩,
    fun b => (hmore 1 rfl [b]).2 (by simp)⟩

end Image

end Scenario
