import Scenario.Proofs.Pieces

/-!
# Scenario.Proofs.Expanding

Expanding up to a size, and expanding a part of the data.

Output only grows, so a run that is stopped has put out a prefix of what it
would have put out.  A limit stops a run at exactly that many bytes, also in
the middle of a copy: `expand_some` says so for every stream, whether it was
written from pieces or not.  A stream that is cut off stops a run behind the
last piece that is complete: `expand_append` says so wherever the cut lies.
`expandRange_cut` is both for whole data.
-/

namespace Scenario.Compression

namespace Expander

/-! ## output grows -/

theorem output_prefix_emit (s : Expander) (b : UInt8) :
    s.output.toList <+: (s.emit b).output.toList := by
  simp [emit]

theorem output_prefix_copy (limit : Option Int) (length : Nat) (slot : Fin windowSize)
    (s : Expander) : s.output.toList <+: (s.copy limit length slot).output.toList := by
  fun_induction copy limit length slot s with
  | case1 => exact List.prefix_refl _
  | case2 => exact List.prefix_refl _
  | case3 length slot s hfull ih => exact (output_prefix_emit s _).trans ih

/-- A run keeps what was put out before it. -/
theorem output_prefix_run (limit : Option Int) (flags left : Nat) (s : Expander)
    (stream : Bytes) : s.output.toList <+: (run limit flags left s stream).output.toList := by
  fun_induction run limit flags left s stream with
  | case1 => exact List.prefix_refl _
  | case2 => exact List.prefix_refl _
  | case3 flags s control rest hfull ih => exact ih
  | case4 => exact List.prefix_refl _
  | case5 flags left s b rest hfull hbit ih => exact (output_prefix_emit s b).trans ih
  | case6 => exact List.prefix_refl _
  | case7 flags left s b hfull hbit high rest ih =>
      exact (output_prefix_copy limit _ _ s).trans ih

/-- A run over the first part of a stream puts out a prefix of what a run over
the whole puts out. -/
theorem output_prefix_run_append (limit : Option Int) (flags left : Nat) (s : Expander)
    (stream behind : Bytes) :
    (run limit flags left s stream).output.toList <+:
      (run limit flags left s (stream ++ behind)).output.toList := by
  fun_induction run limit flags left s stream with
  | case1 flags left s => exact output_prefix_run limit flags left s behind
  | case2 flags s control rest hfull => exact output_prefix_run ..
  | case3 flags s control rest hfull ih =>
      rw [List.cons_append, run_control (Bool.eq_false_iff.mpr hfull)]
      exact ih
  | case4 flags left s b rest hfull => exact output_prefix_run ..
  | case5 flags left s b rest hfull hbit ih =>
      rw [List.cons_append, run_emit (Bool.eq_false_iff.mpr hfull) hbit]
      exact ih
  | case6 flags left s b hfull hbit =>
      -- of the copy only its first byte is there, and nothing is put out for it
      exact output_prefix_run ..
  | case7 flags left s b hfull hbit high rest ih =>
      rw [List.cons_append, List.cons_append,
        run_copy (Bool.eq_false_iff.mpr hfull) (Nat.mod_two_ne_zero.mp hbit)]
      exact ih

/-! ## limits -/

/-- An expander with a limit beside one without: they are the same, or the one
with the limit is full and has put out a prefix. -/
def Cut (n : Nat) (s t : Expander) : Prop :=
  (s = t ∧ s.output.size < n) ∨ (s.output.size = n ∧ s.output.toList <+: t.output.toList)

section Cut

variable {n : Nat} {s t : Expander}

theorem isFull_some (n : Nat) (s : Expander) : s.isFull (some n) = decide (n ≤ s.output.size) := by
  simp [isFull]

theorem cut_self (h : s.output.size ≤ n) : Cut n s s := by
  by_cases hfull : s.output.size = n
  · exact .inr ⟨hfull, List.prefix_refl _⟩
  · exact .inl ⟨rfl, by omega⟩

/-- What was cut has put out the first `n` bytes. -/
theorem Cut.output_eq (h : Cut n s t) : s.output.toList = t.output.toList.take n := by
  rcases h with ⟨rfl, hlt⟩ | ⟨hsize, hfirst⟩
  · rw [List.take_of_length_le (by rw [Array.length_toList]; omega)]
  · have htake := List.prefix_iff_eq_take.mp hfirst
    rw [Array.length_toList, hsize] at htake
    exact htake

/-- A copy goes on until the output is full. -/
theorem cut_copy (length : Nat) (slot : Fin windowSize) (h : s.output.size ≤ n) :
    Cut n (s.copy (some n) length slot) (s.copy none length slot) := by
  induction length generalizing s slot with
  | zero => simpa [copy] using cut_self h
  | succ length ih =>
      by_cases hfull : n ≤ s.output.size
      · have hstop : s.copy (some n) (length + 1) slot = s := by
          simp [copy, isFull_some, hfull]
        rw [hstop]
        exact .inr ⟨by omega, output_prefix_copy none _ _ s⟩
      · have hnext := ih (s := s.emit (s.ring.get slot)) (next slot) (by simp [emit]; omega)
        simpa [copy, isFull_some, hfull] using hnext

theorem isFull_of_lt (h : s.output.size < n) : s.isFull (some n) = false := by
  simp [isFull_some, h]

/-- A run that is full stays at a prefix, however the other goes on. -/
theorem cut_run_of_full (hsize : s.output.size = n) (hfirst : s.output.toList <+: t.output.toList)
    (flags left : Nat) (stream : Bytes) : Cut n (run (some n) flags left s stream) t := by
  have hfull : s.isFull (some n) = true := by simp [isFull_some, hsize]
  rw [run_of_isFull hfull]
  exact .inr ⟨hsize, hfirst⟩

/-- A run goes on until the output is full. -/
theorem cut_run (flags left : Nat) (s : Expander) (stream : Bytes) (h : s.output.size ≤ n) :
    Cut n (run (some n) flags left s stream) (run none flags left s stream) := by
  fun_induction run none flags left s stream with
  | case1 flags left s => simpa using cut_self h
  | case2 flags s control rest hfull => simp at hfull
  | case3 flags s control rest hfull ih =>
      by_cases hopen : s.output.size < n
      · rw [run_control (isFull_of_lt hopen)]
        exact ih h
      · exact cut_run_of_full (by omega) (output_prefix_run ..) _ _ _
  | case4 flags left s b rest hfull => simp at hfull
  | case5 flags left s b rest hfull hbit ih =>
      by_cases hopen : s.output.size < n
      · rw [run_emit (isFull_of_lt hopen) hbit]
        exact ih (by simp [emit]; omega)
      · have hfirst := (output_prefix_emit s b).trans (output_prefix_run none (flags / 2) left _ rest)
        exact cut_run_of_full (by omega) hfirst _ _ _
  | case6 flags left s b hfull hbit =>
      have hcut : run (some n) flags (left + 1) s [b] = s := by
        unfold run
        simp [hbit]
      rw [hcut]
      exact cut_self h
  | case7 flags left s b hfull hbit high rest ih =>
      have hbit' : flags % 2 = 1 := by omega
      by_cases hopen : s.output.size < n
      · rw [run_copy (isFull_of_lt hopen) hbit']
        rcases cut_copy (lengthOf high) (slotOf b high) h with ⟨hsame, hlt⟩ | ⟨hsize, hfirst⟩
        · -- the copy was not stopped
          rw [hsame] at hlt ⊢
          exact ih (by omega)
        · exact cut_run_of_full hsize (hfirst.trans (output_prefix_run ..)) _ _ _
      · have hfirst := (output_prefix_copy none (lengthOf high) (slotOf b high) s).trans
          (output_prefix_run none (flags / 2) left _ rest)
        exact cut_run_of_full (by omega) hfirst _ _ _

end Cut

end Expander

/-- **Limits**: expanding up to `n` bytes gives the first `n` bytes of the
expansion. -/
theorem expand_some (n : Nat) (stream : Bytes) :
    expand (some n) stream = (expand none stream).take n := by
  have hcut := Expander.cut_run (n := n) 0 0 (.start blankWindow) stream (by simp [Expander.start])
  exact hcut.output_eq

/-- **Cuts**: expanding the first part of a stream gives a prefix of its
expansion. -/
theorem expand_append (limit : Option Int) (stream behind : Bytes) :
    expand limit stream <+: expand limit (stream ++ behind) :=
  Expander.output_prefix_run_append limit 0 0 _ stream behind

/-! ## parts of the data -/

/-- Expanding a part that lies inside the data expands that part. -/
theorem expandRange_append (before stream behind : Bytes) (limit : Option Int) :
    expandRange (before ++ stream ++ behind) before.length (some stream.length) limit =
      .ok (expand limit stream) := by
  have hstop : stop (before ++ stream ++ behind) before.length (some stream.length) =
      (before.length + stream.length : Nat) := by
    simp only [stop, List.length_append]
    omega
  have hpart : wrapped (before ++ stream ++ behind) before.length
      (before.length + stream.length : Nat) = stream := by
    rw [wrapped, if_neg (by omega), Int.toNat_natCast, Int.toNat_natCast, ← List.length_append,
      List.take_left, List.drop_left]
  rw [expandRange, hstop, hpart, if_neg (by omega)]

/-- Whole data is expanded whatever it holds. -/
theorem expandRange_whole (data : Bytes) (limit : Option Int) :
    expandRange data 0 none limit = .ok (expand limit data) := by
  have hpart : wrapped data 0 (stop data 0 none) = data := by
    simp [wrapped, stop]
  rw [expandRange, hpart, if_neg (by omega)]

/-- **Stopping early**: data that is cut off anywhere is expanded to a prefix,
without a failure, and up to `n` bytes the first `n` of them are put out. -/
theorem expandRange_cut (data : Bytes) (k n : Nat) :
    ∃ whole part, expandRange data 0 none none = .ok whole ∧
      expandRange (data.take k) 0 none none = .ok part ∧ part <+: whole ∧
      expandRange data 0 none (some n) = .ok (whole.take n) := by
  have hprefix := expand_append none (data.take k) (data.drop k)
  rw [List.take_append_drop] at hprefix
  refine ⟨expand none data, expand none (data.take k), expandRange_whole .., expandRange_whole ..,
    hprefix, ?_⟩
  rw [expandRange_whole, expand_some]

end Scenario.Compression
