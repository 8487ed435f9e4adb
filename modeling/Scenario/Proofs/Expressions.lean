import Scenario.Proofs.Writing

/-!
# Scenario.Proofs.Expressions

Expressions are a prefix code.  Registers, masks and operators are data that
may hold any byte, those of the load and end selectors included, and nothing
says how long an expression is.  Still its bytes tell where it ends, because
every selector fixes how many bytes of data follow it.

1. `Token.Writable` says which tokens have bytes: registers and masks are cut
   to their fields, but an operator needs a selector of its own and a code of
   the table.
2. `Token.readBack` and `Token.readBackAll` say what is left of tokens when
   they are read from their bytes.
3. `Expression.encodeTokens_of_writable` — the bytes of tokens that can be
   written are a layout of what is left of them, at every address.
4. `Expression.reads_encodeTokens` — so an expression is read from its bytes
   whatever lies behind them, and no expression begins with another.
-/

namespace Scenario

/-! ## what is written and what is left of it -/

/-- A token has bytes: an operator is announced by a selector that means
neither a load nor the end, and its code has a name. -/
def Token.Writable : Token → Prop
  | .load .. => True
  | .operator code _ flag _ => 1 ≤ flag ∧ flag ≤ 254 ∧ (Expression.operator? code).isSome

/-- What is read from the bytes of a token at file offset `address`: fields
are cut to their widths, and an operator has its name from the table. -/
def Token.readBack (address : Int) : Token → Token
  | .load register mask _ => .load (register % 256) (mask % 65536) (address + 1)
  | .operator code name flag _ =>
    .operator code ((Expression.operator? code).getD name) flag (address + 1)

/-- What is read from the bytes of tokens, each behind the one before. -/
def Token.readBackAll (address : Int) : List Token → List Token
  | [] => []
  | t :: ts => t.readBack address :: readBackAll (address + t.size) ts

theorem Token.not_writable_iff {t : Token} :
    ¬ t.Writable ↔ ∃ code name flag address, t = .operator code name flag address ∧
      (flag < 1 ∨ 254 < flag ∨ Expression.operator? code = none) := by
  cases t with
  | load register mask address => simp [Writable]
  | operator code name flag address =>
      simp only [Writable, not_and_or, Int.not_le, Option.not_isSome_iff_eq_none]
      constructor
      · exact fun h => ⟨code, name, flag, address, rfl, h⟩
      · rintro ⟨_, _, _, _, heq, h⟩
        cases heq
        exact h

namespace Expression

/-! ## one token -/

/-- Operator codes are bytes. -/
theorem exists_byte_of_operator? {code : Int} {name : String}
    (h : operator? code = some name) : ∃ b : UInt8, code = b.toNat := by
  obtain ⟨before, behind, hsplit, -⟩ := List.lookup_eq_some_iff.mp h
  have hall : ∀ entry ∈ operators, 0 ≤ entry.1 ∧ entry.1 < 256 := by decide
  obtain ⟨h0, hlt⟩ := hall (code, name) (by rw [hsplit]; simp)
  exact Bytes.exists_byte_of_lt h0 hlt

/-- Only a token that is writable has bytes. -/
theorem writable_of_encodeToken {t : Token} {bs : Bytes} (h : encodeToken t = .ok bs) :
    t.Writable := by
  cases t with
  | load register mask address => trivial
  | operator code name flag address =>
      rw [encodeToken] at h
      split at h
      · cases h
      · next hselector =>
        split at h
        · cases h
        · next hcode =>
          obtain ⟨selector, hbyte, -⟩ := andThen_eq_ok_iff.mp h
          rw [Bytes.byte] at hbyte
          split at hbyte
          · next hrange =>
            have hload : (loadFlag.toNat : Int) = 0 := rfl
            have hend : (endFlag.toNat : Int) = 255 := rfl
            rw [hload, hend] at hselector
            exact ⟨by omega, by omega, Option.isSome_iff_ne_none.mpr (by simpa using hcode)⟩
          · cases hbyte

/-- A writable token has bytes, and before those of an expression they make
it longer by what is left of the token. -/
theorem encodeToken_of_writable {t : Token} (h : t.Writable) :
    ∃ first, encodeToken t = .ok first ∧ ∀ {address : Int} {ts : List Token} {bs : Bytes},
      TokensLaid (address + t.size) ts bs →
        TokensLaid address (t.readBack address :: ts) (first ++ bs) := by
  cases t with
  | load register mask place =>
      -- the cut fields are those of a token that a layout can hold
      obtain ⟨b, hregister⟩ :=
        @Bytes.exists_byte_of_lt (register % 256) (by omega) (by omega)
      obtain ⟨low, high, hmask⟩ :=
        @Bytes.exists_word_of_lt (mask % 65536) (by omega) (by omega)
      refine ⟨[loadFlag, b, low, high], ?_, fun hrest => ?_⟩
      · rw [encodeToken, hregister, hmask, Int.toNat_natCast, Int.toNat_natCast,
          UInt8.ofNat_toNat, Bytes.ofNat_word]
      · rw [Token.readBack, hregister, hmask]
        exact .load b low high hrest
  | operator code name flag place =>
      obtain ⟨hlow, hhigh, hcode⟩ := h
      obtain ⟨known, hknown⟩ := Option.isSome_iff_exists.mp hcode
      obtain ⟨c, rfl⟩ := exists_byte_of_operator? hknown
      obtain ⟨selector, rfl⟩ := @Bytes.exists_byte_of_lt flag (by omega) (by omega)
      have hload : selector ≠ loadFlag := by
        rintro rfl
        simp [loadFlag] at hlow
      have hend : selector ≠ endFlag := by
        rintro rfl
        simp [endFlag] at hhigh
      refine ⟨[selector, c], encodeToken_operator place hload hend hknown, fun hrest => ?_⟩
      rw [Token.readBack, hknown]
      exact .operator selector c hload hend hknown hrest

/-! ## runs of tokens -/

/-- Writable tokens have bytes, which lie as what is left of the tokens. -/
theorem encodeTokens_of_writable {ts : List Token} (h : ∀ t ∈ ts, t.Writable) :
    ∃ bs, encodeTokens ts = .ok bs ∧
      ∀ address, TokensLaid address (Token.readBackAll address ts) bs := by
  induction ts with
  | nil => exact ⟨[endFlag], rfl, fun _ => .done⟩
  | cons t ts ih =>
      rw [List.forall_mem_cons] at h
      obtain ⟨first, hfirst, hstep⟩ := encodeToken_of_writable h.1
      obtain ⟨bs, hbs, hlaid⟩ := ih h.2
      exact ⟨first ++ bs, encodeTokens_cons hfirst hbs, fun address => hstep (hlaid _)⟩

/-- Tokens have bytes exactly if each of them is writable. -/
theorem exists_encodeTokens_iff {ts : List Token} :
    (∃ bs, encodeTokens ts = .ok bs) ↔ ∀ t ∈ ts, t.Writable := by
  constructor
  · rintro ⟨bs, hbs⟩ t ht
    obtain ⟨parts, hparts, -⟩ := andThen_eq_ok_iff.mp hbs
    obtain ⟨first, -, hfirst⟩ := exists_mem_of_mapM hparts ht
    exact writable_of_encodeToken hfirst
  · intro h
    obtain ⟨bs, hbs, -⟩ := encodeTokens_of_writable h
    exact ⟨bs, hbs⟩

/-- Writing fails exactly if an operator has no selector of its own or no
name. -/
theorem encodeTokens_fails_iff {ts : List Token} :
    (∃ e, encodeTokens ts = .error e) ↔
      ∃ code name flag address, Token.operator code name flag address ∈ ts ∧
        (flag < 1 ∨ 254 < flag ∨ operator? code = none) := by
  have hwritable := @exists_encodeTokens_iff ts
  have hfails : (∃ e, encodeTokens ts = .error e) ↔ ∃ t ∈ ts, ¬ t.Writable := by
    cases hwritten : encodeTokens ts with
    | error e => simpa [hwritten] using hwritable
    | ok bs => simpa [hwritten] using hwritable
  rw [hfails]
  constructor
  · rintro ⟨t, hmem, ht⟩
    obtain ⟨code, name, flag, address, rfl, h⟩ := Token.not_writable_iff.mp ht
    exact ⟨code, name, flag, address, hmem, h⟩
  · rintro ⟨code, name, flag, address, hmem, h⟩
    exact ⟨_, hmem, Token.not_writable_iff.mpr ⟨code, name, flag, address, rfl, h⟩⟩

/-- What was written lies as what is left of the tokens. -/
theorem laid_of_encodeTokens {ts : List Token} {bs : Bytes} (h : encodeTokens ts = .ok bs)
    (address : Int) : TokensLaid address (Token.readBackAll address ts) bs := by
  obtain ⟨bs', hbs', hlaid⟩ := encodeTokens_of_writable (exists_encodeTokens_iff.mp ⟨bs, h⟩)
  rw [h, Except.ok.injEq] at hbs'
  exact hbs' ▸ hlaid address

end Expression

/-! ## reading -/

theorem Cursor.start_natCast (code : Bytes) (base : Int) (position : Nat) :
    start code base position = ⟨base, position, code.length, code.drop position, []⟩ := by
  rw [start, if_neg (Int.not_lt.mpr (Int.natCast_nonneg _)), Int.toNat_natCast]

/-- Behind the bytes that lie ahead a cursor stands where they end. -/
theorem Cursor.past_start (before bs rest : Bytes) (base : Int) :
    (start (before ++ bs ++ rest) base before.length).past bs [] rest =
      start (before ++ bs ++ rest) base (before.length + bs.length : Nat) := by
  have hdrop : (before ++ bs ++ rest).drop (before.length + bs.length) = rest := by
    rw [← List.length_append, List.drop_left]
  rw [start_natCast, start_natCast, hdrop, Int.natCast_add]
  rfl

/-- Tokens that were written are read back from where their bytes lie. -/
theorem Read.expression_of_encodeTokens {ts : List Token} {bs : Bytes}
    (h : Expression.encodeTokens ts = .ok bs) (before rest : Bytes) (base : Int) :
    Read.expression (.start (before ++ bs ++ rest) base before.length) =
      .ok ⟨base + before.length, Token.readBackAll (base + before.length) ts, bs.length⟩
        (.start (before ++ bs ++ rest) base (before.length + bs.length : Nat)) := by
  have hahead : (Cursor.start (before ++ bs ++ rest) base before.length).rest = bs ++ rest := by
    rw [Cursor.start_natCast, List.append_assoc, List.drop_left]
  rw [← Cursor.past_start]
  refine (Read.exact_expression _ _ _).mpr ⟨bs, rest, ?_, hahead, rfl⟩
  exact ⟨_, Expression.laid_of_encodeTokens h _, rfl⟩

/-- Nothing follows the bytes of an expression in those of another, and what
is left of both is the same. -/
theorem Expression.eq_nil_of_encodeTokens_append {ts ts' : List Token} {bs rest : Bytes}
    (h : encodeTokens ts = .ok bs) (h' : encodeTokens ts' = .ok (bs ++ rest)) :
    rest = [] ∧ ∀ address, Token.readBackAll address ts' = Token.readBackAll address ts := by
  -- one cursor reads both expressions, so it stops at the end of both
  have hsame : ∀ address : Int, bs.length = (bs ++ rest).length ∧
      Token.readBackAll address ts' = Token.readBackAll address ts := by
    intro address
    have hread := Read.expression_of_encodeTokens h [] rest address
    have hread' := Read.expression_of_encodeTokens h' [] [] address
    rw [List.append_nil, List.nil_append] at hread'
    rw [List.nil_append, hread'] at hread
    injection hread with hvalue _
    injection hvalue with _ htokens hsize
    simp only [List.length_nil, Int.natCast_zero, Int.add_zero] at htokens
    exact ⟨by omega, htokens⟩
  refine ⟨?_, fun address => (hsame address).2⟩
  simpa using (hsame 0).1

/-- **Expressions are a prefix code**: tokens have no bytes exactly if an
operator among them has a selector outside 1 to 254 or a code without a name.
If they have, an expression is read from the bytes wherever they lie and
whatever follows; it has the tokens up to the widths of their fields, its size
is the number of the bytes, and reading ends behind the last of them.  So an
expression that begins with these bytes is the same one. -/
theorem Expression.reads_encodeTokens (ts : List Token) :
    ((∃ e, encodeTokens ts = .error e) ↔
      ∃ code name flag address, Token.operator code name flag address ∈ ts ∧
        (flag < 1 ∨ 254 < flag ∨ operator? code = none)) ∧
    ∀ bs, encodeTokens ts = .ok bs →
      (∀ (before rest : Bytes) (base : Int),
        Read.expression (.start (before ++ bs ++ rest) base before.length) =
          .ok ⟨base + before.length, Token.readBackAll (base + before.length) ts, bs.length⟩
            (.start (before ++ bs ++ rest) base (before.length + bs.length : Nat))) ∧
      ∀ ts' bs', encodeTokens ts' = .ok bs' → bs <+: bs' →
        bs' = bs ∧ ∀ address, Token.readBackAll address ts' = Token.readBackAll address ts := by
  refine ⟨encodeTokens_fails_iff, fun bs hbs => ?_⟩
  refine ⟨Read.expression_of_encodeTokens hbs, ?_⟩
  rintro ts' _ hbs' ⟨rest, rfl⟩
  obtain ⟨hrest, hsame⟩ := eq_nil_of_encodeTokens_append hbs hbs'
  exact ⟨by rw [hrest, List.append_nil], hsame⟩

/-- Data bytes that look like selectors, a register and a mask that are too
large for their fields, and an operator of another name. -/
def Expression.sampleTokens : List Token :=
  [.load 511 (-1) 0, .load 0 0xFF00 0, .operator 0x00 "" 254 0]

/-- The sample is read back from between bytes that look like its own. -/
theorem Expression.reads_sampleTokens :
    encodeTokens sampleTokens =
      .ok [0x00, 0xFF, 0xFF, 0xFF, 0x00, 0x00, 0x00, 0xFF, 0xFE, 0x00, 0xFF] ∧
    Read.expression (.start
        ([0x00] ++ [0x00, 0xFF, 0xFF, 0xFF, 0x00, 0x00, 0x00, 0xFF, 0xFE, 0x00, 0xFF] ++ [0xFF])
        100 1) =
      .ok ⟨101, [.load 255 65535 102, .load 0 0xFF00 106, .operator 0x00 "greater" 254 110], 11⟩
        (.start
          ([0x00] ++ [0x00, 0xFF, 0xFF, 0xFF, 0x00, 0x00, 0x00, 0xFF, 0xFE, 0x00, 0xFF] ++ [0xFF])
          100 12) :=
  have hbs : encodeTokens sampleTokens =
      .ok [0x00, 0xFF, 0xFF, 0xFF, 0x00, 0x00, 0x00, 0xFF, 0xFE, 0x00, 0xFF] := rfl
  ⟨hbs, ((reads_encodeTokens sampleTokens).2 _ hbs).1 [0x00] [0xFF] 100⟩

end Scenario
