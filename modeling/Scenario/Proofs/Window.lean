import Scenario.Compression.Expand

/-!
# Scenario.Proofs.Window

The window of an expander.  Output goes into the slots in turn, so the byte
with index `i` of the output goes into slot `slotAt i`, and stays there until
4096 more bytes have been put out:

* a slot that was written within the last 4096 bytes holds that byte;
* a slot that was never written holds what it held at first.

`Expander.Holds` says this of an expander.  Writing a byte keeps it
(`Expander.Holds.emit`), and everything an expander does is writing bytes.

From the window comes the one fact about copies that the rest needs
(`Expander.Wrote.copy`): if the data goes on as it did some way back, then a
copy from there puts out how it goes on, also where the copy runs into the
bytes it has just put out.
-/

namespace Scenario.Compression.Expander

/-! ## slots -/

/-- The slot of the byte with index `i` of the output. -/
def slotAt (i : Nat) : Fin windowSize :=
  ⟨(windowStart + i) % windowSize, Nat.mod_lt _ (by decide)⟩

/-- Slots come in turn. -/
@[simp] theorem next_slotAt (i : Nat) : next (slotAt i) = slotAt (i + 1) := by
  apply Fin.ext
  simp only [next, slotAt, windowSize, windowStart]
  omega

/-- Within one turn of the window no slot comes twice. -/
theorem slotAt_ne {i j : Nat} (hij : i < j) (hturn : j < i + windowSize) :
    slotAt i ≠ slotAt j := by
  intro h
  have hval := congrArg Fin.val h
  simp only [slotAt, windowSize, windowStart] at hval hturn
  omega

/-! ## what the window holds -/

/-- The window holds the last 4096 bytes of output, and in the slots that were
not yet written what `ring₀` has there. -/
structure Holds (ring₀ : Vector UInt8 windowSize) (s : Expander) : Prop where
  head : s.head = slotAt s.output.size
  written : ∀ i < s.output.size, s.output.size ≤ i + windowSize →
    s.output[i]? = some (s.ring.get (slotAt i))
  blank : ∀ i, s.output.size ≤ i → i < windowSize →
    s.ring.get (slotAt i) = ring₀.get (slotAt i)

theorem holds_start (ring₀ : Vector UInt8 windowSize) : (start ring₀).Holds ring₀ where
  head := rfl
  written := by simp [start]
  blank := fun _ _ _ => rfl

/-- The slot that is written holds the byte; every other holds what it held. -/
theorem get_ring_emit (s : Expander) (b : UInt8) (slot : Fin windowSize) :
    (s.emit b).ring.get slot = if s.head = slot then b else s.ring.get slot := by
  show (s.ring.set s.head b s.head.isLt)[slot.val] = if s.head = slot then b else s.ring[slot.val]
  rw [Vector.getElem_set]
  simp [Fin.ext_iff]

@[simp] theorem size_output_emit (s : Expander) (b : UInt8) :
    (s.emit b).output.size = s.output.size + 1 := by
  simp [emit]

/-- Writing a byte keeps the window. -/
theorem Holds.emit {ring₀ : Vector UInt8 windowSize} {s : Expander} (h : s.Holds ring₀)
    (b : UInt8) : (s.emit b).Holds ring₀ where
  head := by
    rw [size_output_emit, ← next_slotAt, ← h.head]
    rfl
  written := by
    intro i hi hturn
    rw [size_output_emit] at hi hturn
    rw [get_ring_emit, h.head]
    by_cases hlast : i = s.output.size
    · subst hlast
      simp [Expander.emit]
    · have hslot : slotAt s.output.size ≠ slotAt i := (slotAt_ne (by omega) (by omega)).symm
      have hpush : (s.emit b).output[i]? = s.output[i]? := by
        simp [Expander.emit, Array.getElem?_push, hlast]
      rw [if_neg hslot, hpush, h.written i (by omega) (by omega)]
  blank := by
    intro i hi hfirst
    rw [size_output_emit] at hi
    have hslot : slotAt s.output.size ≠ slotAt i := slotAt_ne (by omega) (by omega)
    rw [get_ring_emit, h.head, if_neg hslot, h.blank i (by omega) hfirst]

/-! ## putting data out -/

/-- An expander that has put out the first `position` bytes of the data. -/
structure Wrote (ring₀ : Vector UInt8 windowSize) (data : Bytes) (position : Nat) (s : Expander) :
    Prop where
  holds : s.Holds ring₀
  output : s.output.toList = data.take position
  position_le : position ≤ data.length

section Wrote

variable {ring₀ : Vector UInt8 windowSize} {data : Bytes} {position : Nat} {s : Expander}

theorem wrote_start (ring₀ : Vector UInt8 windowSize) (data : Bytes) :
    (start ring₀).Wrote ring₀ data 0 :=
  ⟨holds_start ring₀, by simp [start], Nat.zero_le _⟩

theorem Wrote.size_output (h : s.Wrote ring₀ data position) : s.output.size = position := by
  have hlength := congrArg List.length h.output
  rw [Array.length_toList, List.length_take] at hlength
  have hle := h.position_le
  omega

/-- The next byte of the data can be put out. -/
theorem Wrote.emit (h : s.Wrote ring₀ data position) {b : UInt8}
    (hb : data[position]? = some b) : (s.emit b).Wrote ring₀ data (position + 1) where
  holds := h.holds.emit b
  output := by
    have hpush : (s.emit b).output.toList = s.output.toList ++ [b] := by simp [Expander.emit]
    rw [hpush, h.output, List.take_add_one, hb]
    rfl
  position_le := by
    have hlt := (List.getElem?_eq_some_iff.mp hb).1
    omega

/-- A byte that was put out within one turn is found in its slot. -/
theorem Wrote.getElem?_eq (h : s.Wrote ring₀ data position) {i : Nat} (hi : i < position)
    (hturn : position ≤ i + windowSize) : data[i]? = some (s.ring.get (slotAt i)) := by
  have hsize := h.size_output
  have hwritten := h.holds.written i (by omega) (by omega)
  rw [← Array.getElem?_toList, h.output, List.getElem?_take_of_lt hi] at hwritten
  exact hwritten

/-- **Copies**: where the data goes on as it did from `origin` on, a copy from
there puts out how it goes on. -/
theorem Wrote.copy {length origin : Nat} (h : s.Wrote ring₀ data position)
    (hbehind : origin < position) (hturn : position ≤ origin + windowSize)
    (hlength : position + length ≤ data.length)
    (hrepeats : ∀ i < length, data[origin + i]? = data[position + i]?) :
    (s.copy none length (slotAt origin)).Wrote ring₀ data (position + length) := by
  -- the copied byte becomes the newest one, so both places move on together
  induction length generalizing s position origin with
  | zero => exact h
  | succ length ih =>
      have hnext : data[position]? = some (s.ring.get (slotAt origin)) := by
        have hfirst := hrepeats 0 (by omega)
        rw [← h.getElem?_eq hbehind hturn]
        exact hfirst.symm
      have hlater : ∀ i < length, data[origin + 1 + i]? = data[position + 1 + i]? := by
        intro i hi
        have hi' := hrepeats (i + 1) (by omega)
        rw [show origin + 1 + i = origin + (i + 1) by omega,
          show position + 1 + i = position + (i + 1) by omega]
        exact hi'
      have hrest := ih (h.emit hnext) (by omega) (by omega) (by omega) hlater
      rw [show position + (length + 1) = position + 1 + length by omega]
      rw [Expander.copy, next_slotAt]
      simpa [isFull] using hrest

end Wrote

end Scenario.Compression.Expander
