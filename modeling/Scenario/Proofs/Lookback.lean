import Scenario.Proofs.Pieces
import Scenario.Proofs.Window

/-!
# Scenario.Proofs.Lookback

Expanding without a window.  An expander that remembers nothing but its output
takes the bytes of a copy from there: a slot of the window stands for a
distance of 1 to 4096 bytes back, and what would lie before the output is a
space.

1. `Piece.readFrom` — the pieces of a stream, whatever their bytes mean.
2. `Lookback.expand` — the output of these pieces by distances.
3. `Lookback.byteAt_output` — a window that holds the output so far has in each
   slot the byte at its distance, the slot that is written next included.
4. `expandRange_lookback` — so both give the same output for every part of
   every stream, also up to a limit.
-/

namespace Scenario.Compression

/-! ## the pieces of a stream -/

/-- The pieces of a stream; of the control byte in use, `left` bits are left,
in the low bits of `flags`.  A piece that is cut off by the end is none. -/
def Piece.readFrom : (flags left : Nat) → Bytes → List Piece
  | _, _, [] => []
  | _, 0, control :: rest => readFrom control.toNat groupSize rest
  | flags, left + 1, b :: rest =>
    if flags % 2 = 0 then .literal b :: readFrom (flags / 2) left rest
    else
      match rest with
      | [] => []
      | high :: rest =>
        .copy (b.toNat + 256 * (high.toNat / 16)) (high.toNat % 16 + minCopy) ::
          readFrom (flags / 2) left rest

theorem Piece.readFrom_literal {flags : Nat} (hbit : flags % 2 = 0) (left : Nat) (b : UInt8)
    (rest : Bytes) :
    readFrom flags (left + 1) (b :: rest) = .literal b :: readFrom (flags / 2) left rest := by
  conv => lhs; unfold readFrom
  simp [hbit]

namespace Lookback

/-! ## output by distances -/

/-- How far back the byte lies that a copy takes from `slot`, behind `size`
bytes of output. -/
def distance (size slot : Nat) : Nat :=
  (((windowStart : Int) + size - slot - 1) % windowSize).toNat + 1

/-- The byte that a copy takes from `slot`.  Before the output lie spaces. -/
def byteAt (output : Bytes) (slot : Nat) : UInt8 :=
  if output.length < distance output.length slot then fill
  else output.getD (output.length - distance output.length slot) fill

/-- Whether the output has the size asked for. -/
def isFull (limit : Option Int) (output : Bytes) : Bool :=
  match limit with
  | some size => size ≤ output.length
  | none => false

/-- Copies bytes from `slot` on, until the output is full. -/
def copy (limit : Option Int) : (length slot : Nat) → (output : Bytes) → Bytes
  | 0, _, output => output
  | length + 1, slot, output =>
    if isFull limit output then output
    else copy limit length ((slot + 1) % windowSize) (output ++ [byteAt output slot])

/-- Does what a piece says, until the output is full. -/
def play (limit : Option Int) (output : Bytes) : Piece → Bytes
  | .literal b => if isFull limit output then output else output ++ [b]
  | .copy slot length => copy limit length slot output

/-- Expands a stream, up to `limit` bytes if one is given. -/
def expand (limit : Option Int) (stream : Bytes) : Bytes :=
  (Piece.readFrom 0 0 stream).foldl (play limit) []

/-! ## distances and slots -/

/-- The distance of a slot is the one between 1 and 4096 that leads from the
slot that is written next back to it. -/
theorem eq_distance_iff {size slot d : Nat} :
    d = distance size slot ↔ 1 ≤ d ∧ d ≤ windowSize ∧
      (d : Int) % windowSize = ((windowStart : Int) + size - slot) % windowSize := by
  simp only [distance, windowSize, windowStart]
  omega

/-- The slot that is written next lies a whole turn back. -/
example : distance 5 0xFF3 = 4096 := by decide

/-- A slot whose distance reaches into the output is that of the byte there. -/
theorem slotAt_of_distance_le {size : Nat} {slot : Fin windowSize}
    (h : distance size slot ≤ size) : Expander.slotAt (size - distance size slot) = slot := by
  obtain ⟨-, -, hd⟩ := eq_distance_iff.mp (Eq.refl (distance size slot))
  have hslot := slot.isLt
  apply Fin.ext
  simp only [Expander.slotAt, windowSize, windowStart] at hd hslot ⊢
  omega

/-- A slot is also the one that comes that far before the next turn ends. -/
theorem slotAt_add_sub_distance (size : Nat) (slot : Fin windowSize) :
    Expander.slotAt (size + windowSize - distance size slot) = slot := by
  obtain ⟨-, hle, hd⟩ := eq_distance_iff.mp (Eq.refl (distance size slot))
  have hslot := slot.isLt
  apply Fin.ext
  simp only [Expander.slotAt, windowSize, windowStart] at hd hle hslot ⊢
  omega

section Window

open Expander

variable {s : Expander}

/-- The window has in each slot the byte at its distance.  The slot that is
written next has distance 4096: it still holds the oldest byte. -/
theorem byteAt_output (h : s.Holds blankWindow) (slot : Fin windowSize) :
    byteAt s.output.toList slot = s.ring.get slot := by
  obtain ⟨hpos, hle, -⟩ := eq_distance_iff.mp (Eq.refl (distance s.output.size slot))
  rw [byteAt, Array.length_toList]
  by_cases hback : s.output.size < distance s.output.size slot
  · have hblank := h.blank (s.output.size + windowSize - distance s.output.size slot) (by omega)
      (by omega)
    rw [slotAt_add_sub_distance] at hblank
    rw [if_pos hback, hblank]
    simp [blankWindow, Vector.get]
  · have hwritten := h.written (s.output.size - distance s.output.size slot) (by omega) (by omega)
    rw [slotAt_of_distance_le (Nat.not_lt.mp hback)] at hwritten
    rw [if_neg hback, List.getD_eq_getElem?_getD, Array.getElem?_toList, hwritten]
    rfl

theorem isFull_output (limit : Option Int) (s : Expander) :
    isFull limit s.output.toList = s.isFull limit := by
  cases limit <;> simp [isFull, Expander.isFull]

theorem toList_output_emit (s : Expander) (b : UInt8) :
    (s.emit b).output.toList = s.output.toList ++ [b] := by
  simp [emit]

/-! ## both expanders put out the same -/

/-- A copy keeps the window, and takes its bytes from the output. -/
theorem output_copy (h : s.Holds blankWindow) (limit : Option Int) (length : Nat)
    (slot : Fin windowSize) :
    (s.copy limit length slot).Holds blankWindow ∧
      (s.copy limit length slot).output.toList = copy limit length slot s.output.toList := by
  fun_induction Expander.copy limit length slot s with
  | case1 slot s => exact ⟨h, rfl⟩
  | case2 length slot s hfull => exact ⟨h, by simp [copy, isFull_output, hfull]⟩
  | case3 length slot s hfull ih =>
      obtain ⟨hholds, houtput⟩ := ih (h.emit _)
      refine ⟨hholds, ?_⟩
      rw [houtput, toList_output_emit, copy, isFull_output, if_neg hfull, byteAt_output h]
      rfl

/-- Output that is full stays as it is. -/
theorem foldl_play_of_isFull {limit : Option Int} {output : Bytes}
    (hfull : isFull limit output = true) (pieces : List Piece) :
    pieces.foldl (play limit) output = output := by
  induction pieces with
  | nil => rfl
  | cons p pieces ih =>
      have hstay : play limit output p = output := by
        cases p with
        | literal b => simp [play, hfull]
        | copy slot length => cases length <;> simp [play, copy, hfull]
      rw [List.foldl_cons, hstay, ih]

/-- **Runs**: behind any output that its window holds, an expander puts out
what the pieces of the stream put out by distances. -/
theorem output_run (h : s.Holds blankWindow) (limit : Option Int) (flags left : Nat)
    (stream : Bytes) :
    (run limit flags left s stream).output.toList =
      (Piece.readFrom flags left stream).foldl (play limit) s.output.toList := by
  -- where the output is full both stop, however the stream goes on
  have hstop : ∀ {s : Expander}, s.isFull limit = true → ∀ pieces,
      s.output.toList = List.foldl (play limit) s.output.toList pieces :=
    fun hfull pieces => (foldl_play_of_isFull ((isFull_output limit _).trans hfull) pieces).symm
  fun_induction run limit flags left s stream with
  | case1 flags left s => simp [Piece.readFrom]
  | case2 flags s control rest hfull => exact hstop hfull _
  | case3 flags s control rest hfull ih => rw [ih h, Piece.readFrom]
  | case4 flags left s b rest hfull => exact hstop hfull _
  | case5 flags left s b rest hfull hbit ih =>
      rw [ih (h.emit b), Piece.readFrom_literal hbit, List.foldl_cons, play, isFull_output,
        if_neg hfull, toList_output_emit]
  | case6 flags left s b hfull hbit => simp [Piece.readFrom, hbit]
  | case7 flags left s b hfull hbit high rest ih =>
      obtain ⟨hholds, houtput⟩ := output_copy h limit (lengthOf high) (slotOf b high)
      rw [ih hholds, Piece.readFrom, if_neg hbit, List.foldl_cons, play, houtput, val_slotOf]
      rfl

end Window

end Lookback

/-- **Looking back**: expanding a part of the data through a window is
expanding it by distances, whatever the bytes are. -/
theorem expandRange_lookback (data : Bytes) (start : Nat) (length : Option Nat)
    (limit : Option Int) :
    expandRange data start (length.map Int.ofNat) limit =
      .ok (Lookback.expand limit ((data.drop start).take (length.getD data.length))) := by
  have hpart : wrapped data start (stop data start (length.map Int.ofNat)) =
      (data.drop start).take (length.getD data.length) := by
    have hlow : ¬ (start : Int) < 0 := by omega
    rw [wrapped, if_neg hlow, Int.toNat_natCast]
    cases length with
    | none => simp [stop, List.take_of_length_le]
    | some length =>
        have hstop : (stop data start (some (length : Int))).toNat =
            min (start + length) data.length := by
          simp only [stop]
          omega
        rw [Option.map_some, Option.getD_some, Int.ofNat_eq_natCast, hstop,
          ← List.take_eq_take_min, List.drop_take, Nat.add_sub_cancel_left]
  rw [expandRange, if_neg (by omega), hpart, expand]
  rw [Lookback.output_run (Expander.holds_start blankWindow)]
  rfl

end Scenario.Compression
