import Scenario.Proofs.Extending
import Scenario.Proofs.Recast

/-!
# Scenario.Proofs.Relocation

Code at another place: further on in the file, or behind other code.

Nothing that a reader does depends on where it stands, except the addresses
and positions that it tells.  A `Relocation` moves a cursor, and `Relocates`
says of a reader that it does at the moved cursor what it does at the cursor,
with the addresses of its value or of its failure moved.

1. `Read.relocates_instruction` — every reader relocates.
2. `Code.instructions_relocate` — hence the loop over a code does.
3. `Code.decode_append` — a code that is consumed as a whole can be followed by
   another, which is decoded as it is alone.
4. `Code.decode_rebase` — the file offset of a code moves addresses only.
-/

namespace Scenario

/-! ## moved addresses -/

/-- A failure whose address is moved. -/
def DecodeError.moved (shift : Int) : DecodeError → DecodeError
  | .unexpectedEnd address wanted => .unexpectedEnd (address + shift) wanted
  | .unknownCode table byte address => .unknownCode table byte (address + shift)
  | .unknownOperator byte address => .unknownOperator byte (address + shift)
  | .stringOffset offset poolLength address =>
    .stringOffset offset poolLength (address.map (· + shift))

/-- A failure whose address, if it has one, is moved. -/
def Error.moved (shift : Int) : Error → Error
  | .decode cause => .decode (cause.moved shift)
  | e => e

/-- A failure of decoding text has no address. -/
theorem Error.moved_of_decodeText [Codecs] {encoding : String} {raw : Bytes} {e : Error}
    (h : Pool.decodeText encoding raw = .error e) (shift : Int) : e.moved shift = e := by
  cases e with
  | decode cause => exact absurd h (Pool.decodeText_ne_decode encoding raw cause)
  | _ => rfl

/-- References are resolved alike from every address. -/
theorem Pool.Index.resolve_moved [Codecs] (index : Index) (offset : Nat) (encoding : String)
    (address shift : Int) :
    index.resolve offset encoding (some (address + shift)) =
      (index.resolve offset encoding (some address)).mapError (Error.moved shift) := by
  rw [resolve, resolve]
  split
  · rfl
  · cases htext : decodeText encoding (index.stringAt (offset : Int).toNat) with
    | error e => exact congrArg Except.error (Error.moved_of_decodeText htext shift).symm
    | ok text => rfl

/-- How a place in code moves: the code lies `base` bytes further on in the
file, and in front of it come `before` bytes, with string fields at `fields`,
the newest first. -/
structure Relocation where
  base : Int
  before : Nat
  fields : List Int

namespace Relocation

variable {α β : Type} (m : Relocation)

/-- How far file offsets move. -/
def shift : Int := m.base + m.before

/-- The cursor at the moved place. -/
def cursor (c : Cursor) : Cursor :=
  { base := c.base + m.base
    position := c.position + m.before
    length := c.length + m.before
    rest := c.rest
    fields := c.fields.map (· + (m.before : Int)) ++ m.fields }

/-- What becomes of decoded values. -/
def recast : Recast :=
  { address := (· + m.shift)
    string := fun r => { r with codeAddress := r.codeAddress + m.before } }

/-- What becomes of the outcome of a reader whose value becomes another by
`f`. -/
def result (f : α → β) :
    EStateM.Result Error Cursor α → EStateM.Result Error Cursor β
  | .ok v c => .ok (f v) (m.cursor c)
  | .error e c => .error (e.moved m.shift) (m.cursor c)

@[simp] theorem cursor_rest (c : Cursor) : (m.cursor c).rest = c.rest := rfl

@[simp] theorem cursor_address (c : Cursor) : (m.cursor c).address = c.address + m.shift := by
  simp only [Cursor.address, cursor, shift]
  omega

@[simp] theorem cursor_remaining (c : Cursor) : (m.cursor c).remaining = c.remaining := by
  simp only [Cursor.remaining, cursor]
  omega

theorem cursor_advance (c : Cursor) (count : Nat) (rest : Bytes) :
    (m.cursor c).advance count rest = m.cursor (c.advance count rest) := by
  simp only [cursor, Cursor.advance]
  congr 1
  omega

end Relocation

/-! ## readers -/

namespace Read

variable {α β γ δ : Type} (m : Relocation)

/-- `r'` does at the moved place what `r` does; `f` is what becomes of the
value. -/
def Relocates (f : α → β) (r : Read α) (r' : Read β) : Prop :=
  ∀ c, r' (m.cursor c) = m.result f (r c)

variable {m}

theorem Relocates.bind {f : α → β} {g : γ → δ} {r : Read α} {r' : Read β} {next : α → Read γ}
    {next' : β → Read δ} (hr : Relocates m f r r')
    (hnext : ∀ a, Relocates m g (next a) (next' (f a))) :
    Relocates m g (r >>= next) (r' >>= next') := by
  intro c
  change EStateM.bind r' next' _ = m.result g (EStateM.bind r next c)
  rw [EStateM.bind, EStateM.bind, hr c]
  cases r c with
  | error e c₁ => rfl
  | ok a c₁ => exact hnext a c₁

theorem relocates_pure {f : α → β} (a : α) : Relocates m f (pure a) (pure (f a)) :=
  fun _ => rfl

theorem relocates_address : Relocates m (· + m.shift) address address := by
  intro c
  rw [address, address, Relocation.result, Relocation.cursor_address]

theorem relocates_position : Relocates m (· + (m.before : Int)) position position :=
  fun _ => rfl

theorem relocates_noteField (p : Int) : Relocates m id (noteField p) (noteField (p + m.before)) :=
  fun _ => rfl

theorem relocates_stop {f : α → β} (cause : DecodeError) :
    Relocates m f (stop cause) (stop (cause.moved m.shift)) :=
  fun _ => rfl

theorem relocates_u8 : Relocates m id u8 u8 := by
  intro c
  rw [u8, u8, Relocation.cursor_rest]
  split
  · rw [Relocation.cursor_advance]
    rfl
  · simp [fallShort, Relocation.result, Error.moved, DecodeError.moved]

theorem relocates_u16 : Relocates m id u16 u16 := by
  intro c
  rw [u16, u16, Relocation.cursor_rest]
  split
  · rw [Relocation.cursor_advance]
    rfl
  · simp [fallShort, Relocation.result, Error.moved, DecodeError.moved]

/-! ### expressions -/

theorem relocates_token : Relocates m (Option.map (Token.recast m.recast)) token token := by
  refine .bind relocates_u8 fun flag => ?_
  dsimp only [id]
  split
  · exact relocates_pure none
  · refine .bind relocates_address fun address => .bind relocates_u8 fun register => ?_
    refine .bind relocates_u16 fun mask => ?_
    exact relocates_pure (some (Token.load register.toNat mask address))
  · refine .bind relocates_address fun address => .bind relocates_u8 fun code => ?_
    dsimp only [id]
    split
    · exact relocates_stop (.unknownOperator code address)
    · next name _ =>
      exact relocates_pure (some (Token.operator code.toNat name flag.toNat address))

theorem tokens_of_error {read : List Token} {e : Error} {c c' : Cursor}
    (h : token c = .error e c') : tokens read c = .error e c' := by
  unfold tokens
  split <;> simp_all

theorem relocates_tokens (read : List Token) :
    Relocates m (List.map (Token.recast m.recast)) (tokens read)
      (tokens (read.map (Token.recast m.recast))) := by
  intro c
  fun_induction tokens read c with
  | case1 read c e c₁ htoken =>
      have hmoved := relocates_token (m := m) c
      rw [htoken] at hmoved
      exact tokens_of_error hmoved
  | case2 read c c₁ htoken =>
      have hmoved := relocates_token (m := m) c
      rw [htoken] at hmoved
      rw [tokens_of_none hmoved, Relocation.result, List.map_reverse]
  | case3 read c t c₁ htoken ih =>
      have hmoved := relocates_token (m := m) c
      rw [htoken] at hmoved
      rw [tokens_of_some hmoved, ← ih, List.map_cons]

theorem relocates_expression :
    Relocates m (Expression.recast m.recast) expression expression := by
  refine .bind relocates_address fun start => (relocates_tokens []).bind fun ts => ?_
  refine .bind relocates_address fun stop => ?_
  -- both ends are moved alike, so the size stays
  have hsize : stop + m.shift - (start + m.shift) = stop - start := by omega
  rw [hsize]
  exact relocates_pure (Expression.mk start ts (stop - start))

/-! ### operands and instructions -/

section Operands

variable [Codecs] (ctx : Context)

theorem relocates_resolve (offset : Nat) (address : Int) :
    Relocates m id (resolve ctx offset address) (resolve ctx offset (address + m.shift)) := by
  intro c
  rw [resolve, resolve, Pool.Index.resolve_moved]
  cases ctx.pool.resolve offset ctx.encoding (some address) <;> rfl

theorem relocates_stringRef : Relocates m m.recast.string (stringRef ctx) (stringRef ctx) := by
  refine .bind relocates_address fun address => .bind relocates_position fun position => ?_
  refine .bind relocates_u16 fun offset => ?_
  refine .bind (relocates_resolve ctx offset address) fun text => ?_
  exact (relocates_noteField position).bind fun _ =>
    relocates_pure (StringRef.mk position offset text)

theorem relocates_argument (name : String) (kind : ArgumentKind) :
    Relocates m (Operand.recast m.recast) (argument ctx name kind) (argument ctx name kind) := by
  cases kind with
  | word => exact .bind relocates_u16 fun value => relocates_pure (Operand.raw name 2 value)
  | expression => exact .bind relocates_expression fun e => relocates_pure (Operand.expression e)
  | string => exact (relocates_stringRef ctx).bind fun r => relocates_pure (Operand.string r)

omit [Codecs] in
theorem relocates_operands {κ : Type} {read : String → κ → Read Operand}
    (h : ∀ name kind, Relocates m (Operand.recast m.recast) (read name kind) (read name kind))
    (spec : Spec κ) (index : Nat) (kinds : List κ) :
    Relocates m (Operand.recastAll m.recast) (operands read spec index kinds)
      (operands read spec index kinds) := by
  induction kinds generalizing index with
  | nil => exact relocates_pure []
  | cons kind kinds ih =>
      exact (h _ _).bind fun o => (ih _).bind fun os => relocates_pure (o :: os)

theorem relocates_call : Relocates m (Operand.recast m.recast) (call ctx) (call ctx) := by
  refine .bind relocates_address fun address => .bind relocates_u8 fun code => ?_
  dsimp only [id]
  split
  · exact relocates_stop (.unknownCode .function code address)
  · next spec _ =>
    exact (relocates_operands (relocates_argument ctx) _ _ _).bind fun os =>
      relocates_pure (Operand.function address code.toNat spec.mnemonic os)

omit [Codecs] in
theorem relocates_cases (count : Nat) : Relocates m id (cases count) (cases count) := by
  induction count with
  | zero => exact relocates_pure []
  | succ count ih =>
      refine .bind relocates_u8 fun number => .bind relocates_u16 fun target => ?_
      exact ih.bind fun rest => relocates_pure (((number.toNat : Int), (target : Int)) :: rest)

omit [Codecs] in
theorem relocates_switch : Relocates m (Operand.recast m.recast) switch switch := by
  refine .bind relocates_u16 fun default => .bind relocates_u8 fun count => ?_
  exact (relocates_cases _).bind fun cases => relocates_pure (Operand.switch default cases)

theorem relocates_operand (name : String) (kind : OperandKind) :
    Relocates m (Operand.recast m.recast) (operand ctx name kind) (operand ctx name kind) := by
  cases kind with
  | byte => exact .bind relocates_u8 fun value => relocates_pure (Operand.raw name 1 value.toNat)
  | argument kind => exact relocates_argument ctx name kind
  | function => exact relocates_call ctx
  | switch => exact relocates_switch

/-- **Readers** do the same at every place. -/
theorem relocates_instruction :
    Relocates m (Instruction.recast m.recast) (instruction ctx) (instruction ctx) := by
  refine .bind relocates_address fun address => .bind relocates_u8 fun opcode => ?_
  dsimp only [id]
  split
  · exact relocates_stop (.unknownCode .opcode opcode address)
  · next spec _ =>
    exact (relocates_operands (relocates_operand ctx) _ _ _).bind fun os =>
      relocates_pure (Instruction.mk address opcode.toNat spec.mnemonic os)

end Operands

end Read

/-! ## whole code -/

/-- What decoding tells of code behind the instructions `before`. -/
def Relocation.decoded (m : Relocation) (before : List Instruction) (d : Decoded) : Decoded :=
  { instructions := before ++ d.instructions.map (Instruction.recast m.recast)
    stringRefs := m.fields.reverse ++ d.stringRefs.map (· + (m.before : Int))
    version := d.version
    consumed := m.before + d.consumed }

/-- How decoding fails in code behind the instructions `before`. -/
def Relocation.interrupted (m : Relocation) (before : List Instruction) (i : Interrupted) :
    Interrupted :=
  ⟨i.error.moved m.shift, before ++ i.instructions.map (Instruction.recast m.recast)⟩

namespace Code

variable [Codecs] {ctx : Context}

theorem instructions_of_error {read : List Instruction} {e : Error} {c c' : Cursor}
    (hpad : isPadding c.rest = false) (h : Read.instruction ctx c = .error e c') :
    instructions ctx read c = .error ⟨e, read.reverse⟩ :=
  instructions_eq_error_iff.mpr ⟨[], c, c', .nil, hpad, h, by simp⟩

/-- **The loop over a code** does the same at every place; the instructions
`before` were read in front of it. -/
theorem instructions_relocate (m : Relocation) (before read : List Instruction) (c : Cursor) :
    instructions ctx (read.map (Instruction.recast m.recast) ++ before.reverse) (m.cursor c) =
      ((instructions ctx read c).map fun p =>
        (before ++ p.1.map (Instruction.recast m.recast), m.cursor p.2)).mapError
          (m.interrupted before) := by
  fun_induction instructions ctx read c with
  | case1 read c hpad =>
      rw [instructions_of_padding (c := m.cursor c) hpad]
      simp [Except.map, Except.mapError]
  | case2 read c hpad e c₁ hfails =>
      have hmoved := Read.relocates_instruction (m := m) ctx c
      rw [hfails] at hmoved
      rw [instructions_of_error (by simpa using hpad) hmoved]
      simp [Except.map, Except.mapError, Relocation.interrupted]
  | case3 read c hpad i c₁ hi ih =>
      have hmoved := Read.relocates_instruction (m := m) ctx c
      rw [hi] at hmoved
      rw [instructions_of_ok (by simpa using hpad) hmoved, ← ih]
      rfl

/-- Decoding goes on behind a run of instructions as it begins. -/
theorem decode_of_reads {base : Int} {code rest : Bytes} {is : List Instruction} {m : Relocation}
    (h : Reads ctx (Cursor.start code (base + m.base) 0) is (m.cursor (Cursor.start rest base 0))) :
    decode ctx (base + m.base) code =
      ((decode ctx base rest).map (m.decoded is)).mapError (m.interrupted is) := by
  have hrelocate := @instructions_relocate _ ctx m is [] (Cursor.start rest base 0)
  rw [List.map_nil, List.nil_append, ← List.append_nil is.reverse, ← h.instructions] at hrelocate
  rw [decode, decode, hrelocate]
  cases instructions ctx [] (Cursor.start rest base 0) with
  | error i => rfl
  | ok p =>
      simp [Except.map, Except.mapError, bind, Except.bind, pure, Except.pure, Relocation.decoded,
        Relocation.cursor, Int.add_comm]

end Code

/-! ## code behind code, and code further on -/

/-- Values behind `count` bytes of code: file offsets move, and positions in
the code as well. -/
def Recast.behind (count : Int) : Recast :=
  { address := (· + count)
    string := fun r => { r with codeAddress := r.codeAddress + count } }

/-- Values in a code that lies further on in the file: only file offsets
move. -/
def Recast.further (distance : Int) : Recast := { address := (· + distance) }

theorem Relocation.recast_behind (before : Nat) (fields : List Int) :
    Relocation.recast ⟨0, before, fields⟩ = .behind before := by
  simp [Relocation.recast, Relocation.shift, Recast.behind]

theorem Relocation.recast_further (distance : Int) :
    Relocation.recast ⟨distance, 0, []⟩ = .further distance := by
  simp [Relocation.recast, Relocation.shift, Recast.further]
  rfl

/-- What is decoded of a code and of another behind it. -/
def Decoded.followedBy (d d' : Decoded) : Decoded :=
  { instructions := d.instructions ++ d'.instructions.map (Instruction.recast (.behind d.consumed))
    stringRefs := d.stringRefs ++ d'.stringRefs.map (· + d.consumed)
    version := d'.version
    consumed := d.consumed + d'.consumed }

/-- How decoding fails in another code behind one that was decoded. -/
def Decoded.stoppedBy (d : Decoded) (i : Interrupted) : Interrupted :=
  { error := i.error.moved d.consumed
    instructions :=
      d.instructions ++ i.instructions.map (Instruction.recast (.behind d.consumed)) }

/-- What is decoded of a code that lies further on in the file. -/
def Decoded.further (distance : Int) (d : Decoded) : Decoded :=
  { d with instructions := d.instructions.map (Instruction.recast (.further distance)) }

/-- How decoding fails in a code that lies further on in the file. -/
def Interrupted.further (distance : Int) (i : Interrupted) : Interrupted :=
  { error := i.error.moved distance
    instructions := i.instructions.map (Instruction.recast (.further distance)) }

namespace Code

section Placing

variable [Codecs] {ctx : Context}

/-- **Codes in a row**: behind a code that is consumed as a whole, another is
decoded as it is alone. -/
theorem decode_append {base : Int} {code : Bytes} {d : Decoded} (h : decode ctx base code = .ok d)
    (hall : d.consumed = code.length) (more : Bytes) :
    decode ctx base (code ++ more) =
      ((decode ctx base more).map d.followedBy).mapError d.stoppedBy := by
  obtain ⟨c, hreads, hfields, -, hposition⟩ := exists_reads_of_decode h
  obtain ⟨bs, -, hrest, hpast⟩ := hreads.encodeAll
  have hcode : code = bs ++ c.rest := hrest
  have hlength : c.position = bs.length := by
    rw [hpast]
    simp [Cursor.past, Cursor.start]
  have hnil : c.rest = [] := by
    rw [hall, hlength, hcode, List.length_append] at hposition
    exact List.eq_nil_of_length_eq_zero (by omega)
  obtain rfl : code = bs := by rw [hcode, hnil, List.append_nil]
  -- the cursor behind the first code is the first one of the second, relocated
  let m : Relocation := ⟨0, code.length, c.fields⟩
  have hmoved : c.extend more = m.cursor (Cursor.start more base 0) := by
    have hbase : c.base = base := by rw [hpast]; rfl
    have hsize : c.length = code.length := by rw [hpast]; simp [Cursor.past, Cursor.start]
    simp [m, Cursor.extend, Cursor.start, Relocation.cursor, hbase, hsize, hlength, hnil,
      Nat.add_comm]
  have hrun := hreads.extend more
  rw [Cursor.extend_start, hmoved] at hrun
  have hdecode : decode ctx (base + m.base) (code ++ more) =
      ((decode ctx base more).map (m.decoded d.instructions)).mapError
        (m.interrupted d.instructions) :=
    decode_of_reads (by simpa [m] using hrun)
  have hok : m.decoded d.instructions = d.followedBy := by
    funext d'
    simp [m, Relocation.decoded, Decoded.followedBy, Relocation.recast_behind, hall, hfields]
  have herror : m.interrupted d.instructions = d.stoppedBy := by
    funext i
    simp [m, Relocation.interrupted, Decoded.stoppedBy, Relocation.recast_behind, hall,
      Relocation.shift]
  rw [hok, herror] at hdecode
  simpa [m] using hdecode

/-- **Code further on** in the file differs in its addresses. -/
theorem decode_rebase (base distance : Int) (code : Bytes) :
    decode ctx (base + distance) code =
      ((decode ctx base code).map (.further distance)).mapError (.further distance) := by
  let m : Relocation := ⟨distance, 0, []⟩
  have hmoved : Cursor.start code (base + distance) 0 = m.cursor (Cursor.start code base 0) := by
    simp [m, Cursor.start, Relocation.cursor]
  have hdecode : decode ctx (base + m.base) code =
      ((decode ctx base code).map (m.decoded [])).mapError (m.interrupted []) :=
    decode_of_reads (by rw [← hmoved]; exact Reads.nil)
  have hok : m.decoded [] = Decoded.further distance := by
    funext d
    simp [m, Relocation.decoded, Decoded.further, Relocation.recast_further]
  have herror : m.interrupted [] = Interrupted.further distance := by
    funext i
    simp [m, Relocation.interrupted, Interrupted.further, Relocation.recast_further,
      Relocation.shift]
  rwa [hok, herror] at hdecode

/-- **Decoding does not depend on the place.**  Behind a code that is consumed
as a whole another one is decoded, or fails, as it does alone, with all its
addresses moved by the length of the first; and code further on in the file
only differs in the file offsets. -/
theorem decode_placed (ctx : Context) (base : Int) :
    (∀ (code : Bytes) (d : Decoded), decode ctx base code = .ok d → d.consumed = code.length →
      ∀ more, decode ctx base (code ++ more) =
        ((decode ctx base more).map d.followedBy).mapError d.stoppedBy) ∧
    ∀ (distance : Int) (code : Bytes), decode ctx (base + distance) code =
      ((decode ctx base code).map (Decoded.further distance)).mapError
        (Interrupted.further distance) :=
  ⟨fun _ _ h hall => decode_append h hall, decode_rebase base⟩

end Placing

/-- A dialect of one function, which takes a string, and a pool of one. -/
def oneString : Context :=
  ⟨⟨"say", [(0x07, ⟨"say", [.string], []⟩)]⟩, .ofPool [0x41, 0x00], "ascii"⟩

/-- Behind a call comes a code whose second instruction takes a string from
outside the pool. -/
theorem decode_placed_call :
    let call (address : Int) (position : Int) : Instruction :=
      ⟨address, 0, "exec_func", [.function (address + 1) 7 "say" [.string ⟨position, 0, "A"⟩]]⟩
    decode oneString 12 [0x00, 0x07, 0x00, 0x00] = .ok ⟨[call 12 2], [2], "say", 4⟩ ∧
      decode oneString 12 [0x00, 0x07, 0x00, 0x00, 0x0D, 0x00, 0x07, 0x05, 0x00] =
        .error ⟨.decode (.stringOffset 5 2 (some 19)), [call 12 2, ⟨16, 0x0D, "ret", []⟩]⟩ ∧
      decode oneString 20 [0x00, 0x07, 0x00, 0x00, 0x00, 0x07, 0x00, 0x00] =
        .ok ⟨[call 20 2, call 24 6], [2, 6], "say", 8⟩ := by
  intro call
  have hcall : decode oneString 12 [0x00, 0x07, 0x00, 0x00] = .ok ⟨[call 12 2], [2], "say", 4⟩ :=
    decode_eq_ok_iff.mpr ⟨_, _, _,
      .step rfl (.mk 0x00 rfl (.cons (.function 0x07 rfl (.cons (.string 0 0 rfl) .nil)) .nil))
        (.done rfl), rfl, rfl⟩
  have hstop : decode oneString 12 [0x0D, 0x00, 0x07, 0x05, 0x00] =
      .error ⟨.decode (.stringOffset 5 2 (some 15)), [⟨12, 0x0D, "ret", []⟩]⟩ :=
    decode_eq_error_iff.mpr ⟨_, _, .cons rfl rfl .nil, rfl, rfl⟩
  obtain ⟨happend, hrebase⟩ := decode_placed oneString 12
  have htwice := happend _ _ hcall rfl [0x00, 0x07, 0x00, 0x00]
  have hfails := happend _ _ hcall rfl [0x0D, 0x00, 0x07, 0x05, 0x00]
  have hfurther := hrebase 8 ([0x00, 0x07, 0x00, 0x00] ++ [0x00, 0x07, 0x00, 0x00])
  rw [hcall] at htwice
  rw [hstop] at hfails
  rw [htwice] at hfurther
  exact ⟨hcall, hfails, hfurther⟩

end Code

end Scenario
