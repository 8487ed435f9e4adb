import Scenario.Proofs.Lookback
import Scenario.Proofs.Parsing

/-!
# Scenario.Proofs.Groups

The shape of a compressed stream, byte by byte.  A stream is a row of groups,
each a control byte and one to eight tokens, and the bits of the control byte
tell which of the tokens are copies; a bit without a token is zero.

1. `Group` — a group that is well formed in itself; `Regular` — groups that
   make up a stream, and copies that take only bytes which were put out before
   them.
2. `Piece.exists_groups` — pieces are written as groups, whatever they are.
3. `Piece.readFrom_groups` — groups are read as their tokens, one after the
   other, whatever wrote them.
4. `regular_compress` — what compressing gives is regular, expands alike in
   every window, and is no more than an eighth longer than the data.
-/

namespace Scenario.Compression

/-! ## tokens -/

/-- A token as it lies in a stream: a byte that stands for itself, or the two
bytes of a copy. -/
inductive Token where
  | literal (b : UInt8)
  | copy (low high : UInt8)
  deriving DecidableEq, Repr

namespace Token

/-- The bytes of a token. -/
def bytes : Token → Bytes
  | literal b => [b]
  | copy low high => [low, high]

/-- Whether a token is a copy. -/
def isCopy : Token → Bool
  | literal _ => false
  | copy .. => true

/-- The piece that a token stands for. -/
def piece : Token → Piece
  | literal b => .literal b
  | copy low high => .copy (Expander.slotOf low high) (Expander.lengthOf high)

end Token

namespace Piece

/-- The token that a piece is written as. -/
def token : Piece → Token
  | literal b => .literal b
  | copy slot length =>
    .copy (UInt8.ofNat (slot % 256)) (UInt8.ofNat (slot / 256 * 16 + (length - minCopy)))

@[simp] theorem bytes_token (p : Piece) : p.token.bytes = p.bytes := by cases p <;> rfl

@[simp] theorem isCopy_token (p : Piece) : p.token.isCopy = decide (p.flag = 1) := by
  cases p <;> rfl

/-- A piece that can be written is read back. -/
theorem piece_token {p : Piece} (h : p.Fits) : p.token.piece = p := by
  cases p with
  | literal b => rfl
  | copy slot length =>
      rw [token, Token.piece, Expander.slotOf_ofNat h, Expander.lengthOf_ofNat h]

theorem map_piece_token {pieces : List Piece} (h : ∀ p ∈ pieces, p.Fits) :
    (pieces.map token).map Token.piece = pieces := by
  rw [List.map_map]
  exact (List.map_congr_left fun p hp => piece_token (h p hp)).trans (List.map_id pieces)

end Piece

/-! ## groups -/

/-- A control byte and the tokens behind it. -/
structure Group where
  control : UInt8
  tokens : List Token
  ne_nil : tokens ≠ []
  length_le : tokens.length ≤ groupSize
  /-- A bit is one exactly if its token is a copy; without a token it is zero. -/
  testBit_control : ∀ i, control.toNat.testBit i = (tokens[i]?.any Token.isCopy)

/-- The bytes of a group. -/
def Group.bytes (g : Group) : Bytes := g.control :: g.tokens.flatMap Token.bytes

namespace Piece

/-- The control bits of pieces are their flags in order. -/
theorem testBit_control (pieces : List Piece) (i : Nat) :
    (control pieces).testBit i = ((pieces.map token)[i]?.any Token.isCopy) := by
  induction pieces generalizing i with
  | nil => simp [control]
  | cons p rest ih =>
      have hflag : p.flag < 2 := by cases p <;> simp [flag]
      cases i with
      | zero =>
          rw [control, Nat.testBit_zero, List.map_cons, List.getElem?_cons_zero, Option.any_some,
            isCopy_token, Nat.add_mul_mod_self_left, Nat.mod_eq_of_lt hflag]
      | succ i =>
          have hrest : (p.flag + 2 * control rest) / 2 = control rest := by omega
          rw [control, Nat.testBit_succ, hrest, List.map_cons, List.getElem?_cons_succ, ih]

/-- The group of no more than eight pieces. -/
def group (pieces : List Piece) (hne : pieces ≠ []) (hle : pieces.length ≤ groupSize) : Group where
  control := UInt8.ofNat (control pieces)
  tokens := pieces.map token
  ne_nil := by simpa using hne
  length_le := by simpa using hle
  testBit_control i := by rw [toNat_control hle, testBit_control]

theorem bytes_group {pieces : List Piece} (hne : pieces ≠ []) (hle : pieces.length ≤ groupSize) :
    (group pieces hne hle).bytes = groupBytes pieces := by
  simp [Group.bytes, group, groupBytes, List.flatMap_map]

/-- **Writing**: pieces are written as groups, of which only the last may be
short. -/
theorem exists_groups (pieces : List Piece) :
    ∃ groups : List Group, encode pieces = groups.flatMap Group.bytes ∧
      groups.flatMap Group.tokens = pieces.map token ∧
      ∀ g ∈ groups.dropLast, g.tokens.length = groupSize := by
  fun_induction encode pieces with
  | case1 => exact ⟨[], rfl, rfl, by simp⟩
  | case2 p rest ih =>
      obtain ⟨groups, hbytes, htokens, hfull⟩ := ih
      have hsize : (p :: rest.take (groupSize - 1)).length ≤ groupSize := by
        simp only [groupSize, List.length_cons, List.length_take]
        omega
      let first := group (p :: rest.take (groupSize - 1)) (by simp) hsize
      refine ⟨first :: groups, ?_, ?_, ?_⟩
      · rw [List.flatMap_cons, bytes_group, hbytes]
      · rw [List.flatMap_cons, htokens]
        simp only [first, group]
        rw [← List.map_append, List.cons_append, List.take_append_drop]
      · intro g hg
        cases groups with
        | nil => simp at hg
        | cons second groups =>
            rw [List.dropLast_cons_of_ne_nil (by simp), List.mem_cons] at hg
            rcases hg with rfl | hg
            · -- there is a second group, so there are pieces left over for it
              have hmore : rest.drop (groupSize - 1) ≠ [] := by
                intro hnil
                rw [hnil, List.flatMap_cons, List.map_nil, List.append_eq_nil_iff] at htokens
                exact second.ne_nil htokens.1
              rw [Ne, List.drop_eq_nil_iff] at hmore
              simp only [first, group, List.length_map, List.length_cons, List.length_take]
              simp only [groupSize] at hmore ⊢
              omega
            · exact hfull g hg

/-- Under a control bit of one stands a copy. -/
theorem readFrom_copy {flags : Nat} (hbit : flags % 2 = 1) (left : Nat) (low high : UInt8)
    (rest : Bytes) :
    readFrom flags (left + 1) (low :: high :: rest) =
      (Token.copy low high).piece :: readFrom (flags / 2) left rest := by
  conv => lhs; unfold readFrom
  simp [hbit, Token.piece, Expander.val_slotOf, Expander.lengthOf]

/-- The pieces of a group are read one after the other; `unused` control bits
are left behind them. -/
theorem readFrom_tokens {tokens : List Token} {flags : Nat}
    (h : ∀ i, flags.testBit i = (tokens[i]?.any Token.isCopy)) (unused : Nat) (rest : Bytes) :
    readFrom flags (tokens.length + unused) (tokens.flatMap Token.bytes ++ rest) =
      tokens.map Token.piece ++ readFrom 0 unused rest := by
  induction tokens generalizing flags with
  | nil =>
      have hzero : flags = 0 := Nat.eq_of_testBit_eq fun i => by simpa using h i
      simp [hzero]
  | cons t tokens ih =>
      have hbit := h 0
      have hbits : ∀ i, (flags / 2).testBit i = (tokens[i]?.any Token.isCopy) := by
        intro i
        rw [← Nat.testBit_succ, h (i + 1), List.getElem?_cons_succ]
      have hleft : (t :: tokens).length + unused = tokens.length + unused + 1 := by
        rw [List.length_cons]
        omega
      rw [List.getElem?_cons_zero, Option.any_some, Nat.testBit_zero] at hbit
      rw [hleft, List.flatMap_cons, List.append_assoc, List.map_cons, List.cons_append,
        ← ih hbits]
      cases t with
      | literal b =>
          have hliteral : flags % 2 = 0 := by
            simpa [Token.isCopy] using hbit
          exact readFrom_literal hliteral _ b _
      | copy low high =>
          have hcopy : flags % 2 = 1 := by
            simpa [Token.isCopy] using hbit
          exact readFrom_copy hcopy _ low high _

/-- **Reading**: groups, of which only the last may be short, are read as their
tokens. -/
theorem readFrom_groups {groups : List Group}
    (h : ∀ g ∈ groups.dropLast, g.tokens.length = groupSize) :
    readFrom 0 0 (groups.flatMap Group.bytes) = (groups.flatMap Group.tokens).map Token.piece := by
  induction groups with
  | nil => simp [readFrom]
  | cons g groups ih =>
      have hleft : groupSize = g.tokens.length + (groupSize - g.tokens.length) := by
        have := g.length_le
        omega
      have hgroup := readFrom_tokens g.testBit_control (groupSize - g.tokens.length)
        (groups.flatMap Group.bytes)
      rw [← hleft] at hgroup
      rw [List.flatMap_cons, Group.bytes, List.cons_append, readFrom, hgroup, List.flatMap_cons,
        List.map_append]
      congr 1
      cases groups with
      | nil => simp [readFrom]
      | cons second groups =>
          -- a group with another behind it is full
          rw [List.dropLast_cons_of_ne_nil (by simp), List.forall_mem_cons] at h
          rw [h.1, Nat.sub_self]
          exact ih h.2

end Piece

/-! ## regular streams -/

/-- A copy at `position`, of `size` bytes of output, that takes only bytes
which were put out before it. -/
structure ReachesBack (size position : Nat) (low high : UInt8) : Prop where
  exists_index : ∃ j, 1 ≤ position - j ∧ position - j ≤ maxDistance ∧
    (Expander.slotOf low high : Nat) = (windowStart + j) % windowSize
  minCopy_le : minCopy ≤ Expander.lengthOf high
  length_le : Expander.lengthOf high ≤ min maxCopy (size - position)

/-- Groups that make up a stream for `size` bytes of output. -/
structure Regular (size : Nat) (groups : List Group) : Prop where
  full : ∀ g ∈ groups.dropLast, g.tokens.length = groupSize
  extent_eq : Piece.extent ((groups.flatMap Group.tokens).map Token.piece) = size
  reachesBack : ∀ {k low high}, (groups.flatMap Group.tokens)[k]? = some (.copy low high) →
    ReachesBack size
      (Piece.extent (((groups.flatMap Group.tokens).take k).map Token.piece)) low high

section Spells

variable {data : Bytes} {position : Nat} {pieces : List Piece}

/-- Pieces that spell the data stand for all that is left of it. -/
theorem Spells.extent_eq (h : Spells data position pieces) :
    position + Piece.extent pieces = data.length := by
  induction h with
  | done => simp [Piece.extent]
  | literal _ _ ih => simp only [Piece.extent, Piece.span]; omega
  | copy _ _ ih => simp only [Piece.extent, Piece.span]; omega

/-- A copy that spells the data where it stands takes only bytes which were put
out before it. -/
theorem Spells.reachesBack {slot length : Nat} {rest : List Piece}
    (h : Spells data position (.copy slot length :: rest)) {low high : UInt8}
    (htoken : (Piece.copy slot length).token = .copy low high) :
    ReachesBack data.length position low high := by
  have hfits : (Piece.copy slot length).Fits := h.fits _ List.mem_cons_self
  have hslot := Expander.slotOf_ofNat hfits
  have hlength := Expander.lengthOf_ofNat hfits
  obtain ⟨rfl, rfl⟩ := Token.copy.inj htoken
  cases h with
  | @copy _ m _ hm _ =>
      have hinside := hm.inside
      have hpos := hm.one_le_distance
      have hle := hm.distance_le
      have hmax := hm.distance_le_max
      refine ⟨⟨position - m.distance, by omega, by omega, ?_⟩, ?_, ?_⟩
      · rw [hslot]
        rfl
      · rw [hlength]
        exact hm.minCopy_le
      · rw [hlength]
        exact Nat.le_min.mpr ⟨hm.le_maxCopy, by omega⟩

end Spells

/-! ## sizes -/

/-- The length of a stream: the bytes of its pieces, and a control byte for
each eight of them. -/
theorem Piece.length_encode (pieces : List Piece) :
    (encode pieces).length = (pieces.flatMap bytes).length + (pieces.length + 7) / 8 := by
  fun_induction encode pieces with
  | case1 => rfl
  | case2 p rest ih =>
      have hsplit : (rest.flatMap bytes).length =
          ((rest.take (groupSize - 1)).flatMap bytes).length +
            ((rest.drop (groupSize - 1)).flatMap bytes).length := by
        rw [← List.length_append, ← List.flatMap_append, List.take_append_drop]
      have hgroup : groupSize = 8 := rfl
      rw [List.length_drop] at ih
      simp only [groupBytes, List.length_append, List.length_cons, List.flatMap_cons, ih, hsplit]
      omega

/-- Pieces that spell data are no more than its bytes, and neither are
theirs. -/
theorem Spells.length_le {data : Bytes} {position : Nat} {pieces : List Piece}
    (h : Spells data position pieces) :
    position + pieces.length ≤ data.length ∧
      position + (pieces.flatMap Piece.bytes).length ≤ data.length := by
  induction h with
  | done => simp
  | literal hb _ ih =>
      simp only [List.length_cons, List.flatMap_cons, List.length_append, Piece.bytes,
        List.length_nil]
      omega
  | copy hm _ ih =>
      have hmin : 3 ≤ _ := hm.minCopy_le
      simp only [List.length_cons, List.flatMap_cons, List.length_append, Piece.bytes,
        List.length_nil]
      omega

/-- Compressing adds no more than one byte to each eight. -/
theorem length_compress_le (data : Bytes) :
    (compress data).length ≤ data.length + (data.length + 7) / 8 := by
  have hlength := (spells_parse data).length_le
  rw [compress, Piece.length_encode]
  omega

/-! ## compressed data -/

/-- Compressed data is read as the pieces of the parse. -/
theorem readFrom_compress (data : Bytes) : Piece.readFrom 0 0 (compress data) = parse data := by
  obtain ⟨groups, hbytes, htokens, hfull⟩ := Piece.exists_groups (parse data)
  rw [compress, hbytes, Piece.readFrom_groups hfull, htokens,
    Piece.map_piece_token (spells_parse data).fits]

/-- The groups that compressed data is written as. -/
theorem exists_regular_compress (data : Bytes) :
    ∃ groups : List Group, compress data = groups.flatMap Group.bytes ∧
      Regular data.length groups := by
  obtain ⟨groups, hbytes, htokens, hfull⟩ := Piece.exists_groups (parse data)
  have hgreedy := greedy_parse data
  have hpieces := Piece.map_piece_token hgreedy.spells.fits
  refine ⟨groups, hbytes, hfull, ?_, ?_⟩
  · rw [htokens, hpieces, ← hgreedy.spells.extent_eq, Nat.zero_add]
  · intro k low high hk
    rw [htokens] at hk ⊢
    rw [List.map_take, hpieces]
    obtain ⟨p, hp, htoken⟩ : ∃ p, (parse data)[k]? = some p ∧ p.token = .copy low high := by
      simpa using hk
    -- what is left of the parse starts with this piece, at the position it stands at
    have hrest := (hgreedy.drop k).spells
    rw [Nat.zero_add, List.drop_eq_getElem?_toList_append, hp] at hrest
    cases p with
    | literal b => cases htoken
    | copy slot length => exact hrest.reachesBack htoken

/-- **Compressed streams**: they are rows of groups in which every copy takes
bytes that were put out before it, they expand alike in every window, and they
are no more than an eighth longer than the data. -/
theorem regular_compress (data : Bytes) :
    (∃ groups : List Group, compress data = groups.flatMap Group.bytes ∧
      Regular data.length groups) ∧
    (∀ ring : Vector UInt8 windowSize,
      (Expander.run none 0 0 (.start ring) (compress data)).output.toList = data) ∧
    (compress data).length ≤ data.length + (data.length + 7) / 8 :=
  ⟨exists_regular_compress data, fun ring => output_run_compress ring data,
    length_compress_le data⟩

end Scenario.Compression
