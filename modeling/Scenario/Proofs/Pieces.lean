import Scenario.Compression.Expand

/-!
# Scenario.Proofs.Pieces

Streams and the pieces they are written from.  A stream is read as the pieces
it was written from, one after the other (`Expander.run_encode`).  It rests on
three things:

* two bytes give back the slot and the length of a copy;
* the control bits of a group, read lowest first, are those of its pieces in
  their order, and none is left over when the group is full;
* a group that is not full is the last, so its unused bits meet the end of the
  stream and not a piece.
-/

namespace Scenario.Compression

namespace Piece

/-- Whether a piece can be written: a copy starts from a slot of the window and
has a length between 3 and 18. -/
def Fits : Piece → Prop
  | literal _ => True
  | copy slot length => slot < windowSize ∧ minCopy ≤ length ∧ length ≤ maxCopy

/-! ## control bytes -/

theorem control_lt (group : List Piece) : control group < Nat.pow 2 group.length := by
  induction group with
  | nil => simp [control]
  | cons p rest ih =>
      have hflag : p.flag ≤ 1 := by cases p <;> simp [flag]
      have hpow : Nat.pow 2 (p :: rest).length = Nat.pow 2 rest.length * 2 := rfl
      rw [control, hpow]
      omega

/-- The control bits of a group fit a byte. -/
theorem toNat_control {group : List Piece} (h : group.length ≤ groupSize) :
    (UInt8.ofNat (control group)).toNat = control group := by
  have hlt : control group < 256 :=
    Nat.lt_of_lt_of_le (control_lt group) (Nat.pow_le_pow_right (by decide) h)
  rw [UInt8.toNat_ofNat', Nat.mod_eq_of_lt hlt]

end Piece

namespace Expander

/-! ## copies -/

/-- The bits of a slot lie in both bytes of a copy, and are no more than a slot
has. -/
theorem val_slotOf (low high : UInt8) :
    (slotOf low high : Nat) = low.toNat + 256 * (high.toNat / 16) := by
  have hlow := low.toNat_lt
  have hhigh := high.toNat_lt
  exact Nat.mod_eq_of_lt (by rw [windowSize]; omega)

/-- The second byte of a copy gives back its length. -/
theorem lengthOf_ofNat {slot length : Nat} (h : (Piece.copy slot length).Fits) :
    lengthOf (UInt8.ofNat (slot / 256 * 16 + (length - minCopy))) = length := by
  obtain ⟨hslot, hmin, hmax⟩ := h
  simp only [windowSize, minCopy, maxCopy] at hslot hmin hmax
  simp only [lengthOf, minCopy, UInt8.toNat_ofNat']
  omega

/-- Both bytes of a copy give back its slot. -/
theorem slotOf_ofNat {slot length : Nat} (h : (Piece.copy slot length).Fits) :
    slotOf (UInt8.ofNat (slot % 256)) (UInt8.ofNat (slot / 256 * 16 + (length - minCopy))) =
      ⟨slot, h.1⟩ := by
  obtain ⟨hslot, hmin, hmax⟩ := h
  apply Fin.ext
  simp only [windowSize, minCopy, maxCopy] at hslot hmin hmax
  simp only [slotOf, windowSize, minCopy, UInt8.toNat_ofNat']
  omega

/-! ## steps of a run -/

section Steps

variable {limit : Option Int} {s : Expander} {flags left : Nat}

@[simp] theorem isFull_none (s : Expander) : s.isFull none = false := rfl

@[simp] theorem run_nil (limit : Option Int) (flags left : Nat) (s : Expander) :
    run limit flags left s [] = s := by
  unfold run
  rfl

/-- A run ends when the output is full. -/
theorem run_of_isFull (hfull : s.isFull limit = true) (stream : Bytes) :
    run limit flags left s stream = s := by
  unfold run
  split <;> simp [hfull]

/-- Without control bits the next byte is a control byte. -/
theorem run_control (hfull : s.isFull limit = false) (control : UInt8) (rest : Bytes) :
    run limit flags 0 s (control :: rest) = run limit control.toNat groupSize s rest := by
  conv => lhs; unfold run
  simp [hfull]

/-- Under a control bit of zero stands a literal byte. -/
theorem run_emit (hfull : s.isFull limit = false) (hbit : flags % 2 = 0) (b : UInt8)
    (rest : Bytes) :
    run limit flags (left + 1) s (b :: rest) = run limit (flags / 2) left (s.emit b) rest := by
  conv => lhs; unfold run
  simp [hfull, hbit]

/-- Under a control bit of one stands a copy. -/
theorem run_copy (hfull : s.isFull limit = false) (hbit : flags % 2 = 1) (low high : UInt8)
    (rest : Bytes) :
    run limit flags (left + 1) s (low :: high :: rest) =
      run limit (flags / 2) left (s.copy limit (lengthOf high) (slotOf low high)) rest := by
  conv => lhs; unfold run
  simp [hfull, hbit]

end Steps

/-! ## streams -/

/-- Does what a piece says. -/
def play (s : Expander) : Piece → Expander
  | .literal b => s.emit b
  | .copy slot length => s.copy none length ⟨slot % windowSize, Nat.mod_lt _ (by decide)⟩

/-- A piece is read as such under its control bit. -/
theorem run_piece (s : Expander) {p : Piece} (h : p.Fits) (flags left : Nat) (rest : Bytes) :
    run none (p.flag + 2 * flags) (left + 1) s (p.bytes ++ rest) =
      run none flags left (s.play p) rest := by
  cases p with
  | literal b =>
      have hbit : (0 + 2 * flags) % 2 = 0 := by omega
      have hbits : (0 + 2 * flags) / 2 = flags := by omega
      rw [Piece.flag, Piece.bytes, List.cons_append, List.nil_append,
        run_emit (isFull_none s) hbit, hbits, play]
  | copy slot length =>
      have hbit : (1 + 2 * flags) % 2 = 1 := by omega
      have hbits : (1 + 2 * flags) / 2 = flags := by omega
      have hslot : slot % windowSize = slot := Nat.mod_eq_of_lt h.1
      rw [Piece.flag, Piece.bytes, List.cons_append, List.cons_append, List.nil_append,
        run_copy (isFull_none s) hbit, hbits, play, slotOf_ofNat h, lengthOf_ofNat h]
      simp only [hslot]

/-- The pieces of a group are read one after the other; `unused` control bits
are left behind them. -/
theorem run_group (s : Expander) {group : List Piece} (h : ∀ p ∈ group, p.Fits) (unused : Nat)
    (rest : Bytes) :
    run none (Piece.control group) (group.length + unused) s (group.flatMap Piece.bytes ++ rest) =
      run none 0 unused (group.foldl play s) rest := by
  induction group generalizing s with
  | nil => simp [Piece.control]
  | cons p group ih =>
      have hgroup := ih (s.play p) fun q hq => h q (List.mem_cons_of_mem _ hq)
      have hleft : (p :: group).length + unused = group.length + unused + 1 := by
        rw [List.length_cons]
        omega
      rw [hleft, List.flatMap_cons, List.append_assoc, Piece.control, List.foldl_cons, ← hgroup]
      exact run_piece s (h p List.mem_cons_self) _ _ _

/-- A control byte starts a group. -/
theorem run_groupBytes (s : Expander) {group : List Piece} (h : ∀ p ∈ group, p.Fits)
    (hsize : group.length ≤ groupSize) (rest : Bytes) :
    run none 0 0 s (Piece.groupBytes group ++ rest) =
      run none 0 (groupSize - group.length) (group.foldl play s) rest := by
  have hleft : groupSize = group.length + (groupSize - group.length) := by omega
  rw [Piece.groupBytes, List.cons_append, run_control (isFull_none s), Piece.toNat_control hsize]
  conv => lhs; rw [hleft]
  exact run_group s h _ rest

/-- **Streams**: the stream of pieces is read as these pieces. -/
theorem run_encode (s : Expander) {pieces : List Piece} (h : ∀ p ∈ pieces, p.Fits) :
    run none 0 0 s (Piece.encode pieces) = pieces.foldl play s := by
  induction hn : pieces.length using Nat.strongRecOn generalizing s pieces with
  | ind n ih =>
      cases pieces with
      | nil => simp [Piece.encode]
      | cons p rest =>
          let group := p :: rest.take (groupSize - 1)
          have hsplit : p :: rest = group ++ rest.drop (groupSize - 1) := by simp [group]
          have hgroup : ∀ q ∈ group, q.Fits := fun q hq =>
            h q (hsplit ▸ List.mem_append_left _ hq)
          have hrest : ∀ q ∈ rest.drop (groupSize - 1), q.Fits := fun q hq =>
            h q (hsplit ▸ List.mem_append_right _ hq)
          have hsize : group.length ≤ groupSize := by
            simp only [group, groupSize, List.length_cons, List.length_take]
            omega
          rw [Piece.encode, run_groupBytes s hgroup hsize, hsplit, List.foldl_append]
          by_cases hmore : groupSize - 1 ≤ rest.length
          · -- a full group uses all its control bits
            have hfull : groupSize - group.length = 0 := by
              simp only [group, groupSize, List.length_cons, List.length_take] at hmore ⊢
              omega
            rw [hfull]
            refine ih _ ?_ _ hrest rfl
            simp only [← hn, List.length_drop, List.length_cons]
            omega
          · -- behind any other the stream ends
            have hend : rest.drop (groupSize - 1) = [] := List.drop_eq_nil_of_le (by omega)
            simp [hend, Piece.encode]

end Expander

end Scenario.Compression
