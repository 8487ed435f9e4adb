import Mathlib.Algebra.Order.Group.Nat
import Mathlib.Data.List.MinMax
import Mathlib.Data.Nat.Find
import Mathlib.Order.Bounds.Basic
import Scenario.Proofs.Groups

/-!
# Scenario.Proofs.Greedy

Which copies compressing takes.

`recent` are the places that a search at a position may copy from: of the 64
most recent ones where the same three bytes lie, those within 4095 bytes.
`Best` says which of them is taken, and for how many bytes: over the longest
common run there is, from the most recent place that has it.

1. The candidates of a search are the recent places (`candidates_eq_recent`),
   so a search gives the first of them with the longest run (`search_eq_argmax`).
2. A recent place exists if the three bytes lie anywhere within 4095 bytes
   (`recent_ne_nil_iff`): the limit of 64 places hides no place, only longer
   runs further back.
3. `copy_compress_iff` — hence, at each position that the pieces of compressed
   data lead to, what comes next.
-/

namespace Scenario.Compression

/-! ## recent places -/

/-- The places before `position` where the same three bytes lie, the most
recent first. -/
def occurrences (data : Bytes) (position : Nat) : List Nat :=
  (List.range position).reverse.filter fun j =>
    (data.drop j).take minCopy = (data.drop position).take minCopy

/-- Of the most recent places where the same three bytes lie, those that are not
too far away. -/
def recent (data : Bytes) (position : Nat) : List Nat :=
  ((occurrences data position).take maxCandidates).filter fun j => position - j ≤ maxDistance

/-- For how many bytes the data goes on from `position` as it does from `j`, as
far as a copy can go. -/
def runFrom (data : Bytes) (position j : Nat) : Nat :=
  Nat.findGreatest (fun n => ∀ i < n, data[j + i]? = data[position + i]?)
    (min maxCopy (data.length - position))

/-- The place and the length of the copy that is taken at `position`. -/
structure Best (data : Bytes) (position j length : Nat) : Prop where
  longest : IsGreatest {n | ∃ i ∈ recent data position, runFrom data position i = n} length
  nearest : IsGreatest {i | i ∈ recent data position ∧ runFrom data position i = length} j

section Recent

variable {data : Bytes} {position j : Nat}

theorem mem_occurrences :
    j ∈ occurrences data position ↔
      j < position ∧ (data.drop j).take minCopy = (data.drop position).take minCopy := by
  simp [occurrences]

theorem pairwise_occurrences (data : Bytes) (position : Nat) :
    (occurrences data position).Pairwise (· > ·) := by
  apply List.Pairwise.filter
  rw [List.pairwise_reverse]
  exact List.pairwise_lt_range

theorem pairwise_recent (data : Bytes) (position : Nat) :
    (recent data position).Pairwise (· > ·) :=
  ((pairwise_occurrences data position).sublist (List.take_sublist _ _)).filter _

theorem lt_of_mem_recent (h : j ∈ recent data position) : j < position :=
  (mem_occurrences.mp (List.mem_of_mem_take (List.mem_of_mem_filter h))).1

/-- The same bytes lie further on only where three bytes are left. -/
theorem inside_of_mem_occurrences (hle : position ≤ data.length)
    (h : j ∈ occurrences data position) : position + minCopy ≤ data.length := by
  obtain ⟨hj, hsame⟩ := mem_occurrences.mp h
  have hlength := congrArg List.length hsame
  simp only [List.length_take, List.length_drop, minCopy] at hlength ⊢
  omega

/-- A place that is near enough is recent, or there is a more recent one. -/
theorem recent_ne_nil_iff :
    recent data position ≠ [] ↔ ∃ j ∈ occurrences data position, position - j ≤ maxDistance := by
  constructor
  · intro h
    obtain ⟨j, hj⟩ := List.exists_mem_of_ne_nil _ h
    rw [recent, List.mem_filter, decide_eq_true_iff] at hj
    exact ⟨j, List.mem_of_mem_take hj.1, hj.2⟩
  · rintro ⟨j, hj, hnear⟩
    have hsorted := pairwise_occurrences data position
    cases hfirst : occurrences data position with
    | nil => simp [hfirst] at hj
    | cons first others =>
        rw [hfirst, List.pairwise_cons] at hsorted
        have hle : j ≤ first := by
          rw [hfirst, List.mem_cons] at hj
          rcases hj with rfl | hj
          · exact Nat.le_refl _
          · exact Nat.le_of_lt (hsorted.1 j hj)
        have hmem : first ∈ recent data position := by
          rw [recent, hfirst, List.mem_filter, decide_eq_true_iff]
          exact ⟨by simp [maxCandidates], by omega⟩
        exact List.ne_nil_of_mem hmem

end Recent

/-! ## candidates -/

/-- What holds up to a place in a list is found by looking as far as it holds. -/
theorem takeWhile_eq_filter {α : Type} {p : α → Bool} {l : List α}
    (h : l.Pairwise fun x y => p y = true → p x = true) : l.takeWhile p = l.filter p := by
  induction l with
  | nil => rfl
  | cons x l ih =>
      rw [List.pairwise_cons] at h
      by_cases hx : p x = true
      · simp [hx, ih h.2]
      · have hnone : ∀ y ∈ l, ¬ p y = true := fun y hy hpy => hx (h.1 y hy hpy)
        simpa [hx] using hnone

/-- Byte strings start alike if they have three bytes and these are the same. -/
theorem sameStart_iff {s t : Bytes} :
    sameStart s t = true ↔ minCopy ≤ t.length ∧ s.take minCopy = t.take minCopy := by
  match s, t with
  | a :: b :: c :: s, a' :: b' :: c' :: t => simp [sameStart, minCopy, and_assoc]
  | [], _ | [_], _ | [_, _], _ =>
      simp only [sameStart, minCopy, Bool.false_eq_true, false_iff, not_and]
      intro hlength hsame
      simpa [hlength] using congrArg List.length hsame
  | _ :: _ :: _ :: _, [] | _ :: _ :: _ :: _, [_] | _ :: _ :: _ :: _, [_, _] =>
      simp [sameStart, minCopy]

section Behind

variable {data : Bytes} {behind : List Bytes}

theorem Behind.of_cons {suffix : Bytes} (h : Behind data (suffix :: behind)) :
    suffix = data.drop behind.length ∧ Behind data behind := by
  have hle := h.length_le
  rw [List.length_cons] at hle
  refine ⟨by simpa using @Behind.eq_drop _ _ h 0 suffix rfl, by omega, ?_⟩
  intro i earlier hi
  have hdrop := @Behind.eq_drop _ _ h (i + 1) earlier (by simpa using hi)
  rw [hdrop, List.length_cons]
  congr 1
  omega

/-- A walk over the suffixes behind finds the places that start alike, the most
recent first. -/
theorem walk_eq (h : Behind data behind) (ahead : Bytes) :
    Chains.walk ahead behind =
      ((List.range behind.length).reverse.filter fun j => sameStart (data.drop j) ahead).map
        fun j => (j, data.drop j) := by
  induction behind with
  | nil => rfl
  | cons suffix behind ih =>
      obtain ⟨rfl, hbehind⟩ := h.of_cons
      rw [Chains.walk, ih hbehind, List.length_cons, List.range_succ, List.reverse_concat,
        List.filter_cons]
      split <;> simp

/-- In front of the data ahead, these are its occurrences. -/
theorem walk_eq_occurrences (h : Behind data behind) :
    Chains.walk (data.drop behind.length) behind =
      (occurrences data behind.length).map fun j => (j, data.drop j) := by
  rw [walk_eq h, occurrences]
  congr 1
  apply List.filter_congr
  intro j hj
  rw [List.mem_reverse, List.mem_range] at hj
  rw [Bool.eq_iff_iff, sameStart_iff, decide_eq_true_iff, List.length_drop]
  refine and_iff_right_of_imp fun hsame => ?_
  have hinside := inside_of_mem_occurrences h.length_le (mem_occurrences.mpr ⟨hj, hsame⟩)
  omega

/-- **Candidates**: a search examines the recent places. -/
theorem candidates_eq_recent (h : Behind data behind) :
    candidates (data.drop behind.length) maxCandidates 1 behind =
      (recent data behind.length).map fun j => (behind.length - j, data.drop j) := by
  have hsorted := (pairwise_occurrences data behind.length).sublist
    (List.take_sublist maxCandidates _)
  rw [Chains.candidates_eq_walk, walk_eq_occurrences h, ← List.map_take, List.map_map,
    List.takeWhile_map, recent, ← takeWhile_eq_filter]
  · simp [Function.comp_def]
  · refine hsorted.imp ?_
    simp only [decide_eq_true_eq]
    omega

end Behind

/-! ## longest runs -/

/-- Where a common run ends before its limit and the data, the bytes differ. -/
theorem getElem?_commonRun_ne {limit : Nat} {s t : Bytes} (hlimit : commonRun limit s t < limit)
    (hlength : commonRun limit s t < t.length) :
    s[commonRun limit s t]? ≠ t[commonRun limit s t]? := by
  fun_induction commonRun limit s t with
  | case1 limit a s b t hab ih => simpa using ih (by omega) (by simpa using hlength)
  | case2 limit a s b t hab => simpa using hab
  | case3 limit s t hend =>
      -- neither the limit nor the data ahead has come to an end, so the suffix has
      cases limit with
      | zero => omega
      | succ limit =>
          cases t with
          | nil => simp at hlength
          | cons b t =>
              cases s with
              | nil => simp
              | cons a s => exact absurd rfl (hend limit a s b t rfl rfl)

/-- The run that a search measures. -/
theorem commonRun_eq_runFrom (data : Bytes) (position j : Nat) :
    commonRun maxCopy (data.drop j) (data.drop position) = runFrom data position j := by
  have hlimit := commonRun_le_limit maxCopy (data.drop j) (data.drop position)
  have hlength := commonRun_le_length maxCopy (data.drop j) (data.drop position)
  rw [List.length_drop] at hlength
  symm
  rw [runFrom, Nat.findGreatest_eq_iff]
  refine ⟨Nat.le_min.mpr ⟨hlimit, hlength⟩, fun _ i hi => ?_, fun n hlt hle hsame => ?_⟩
  · simpa using getElem?_of_lt_commonRun hi
  · have hdiffer := @getElem?_commonRun_ne maxCopy (data.drop j) (data.drop position) (by omega)
      (by rw [List.length_drop]; omega)
    apply hdiffer
    simpa using hsame _ hlt

/-- The longest match is the first candidate with the longest run. -/
theorem longest_map (ahead : Bytes) (place : Nat → Nat × Bytes) (js : List Nat) :
    longest ahead (js.map place) =
      (js.argmax fun j => commonRun maxCopy (place j).2 ahead).map
        fun j => ⟨(place j).1, commonRun maxCopy (place j).2 ahead⟩ := by
  induction js using List.reverseRecOn with
  | nil => rfl
  | append_singleton js j ih =>
      rw [longest] at ih
      rw [longest, List.map_append, List.foldl_append, ih, List.argmax_concat]
      cases js.argmax fun j => commonRun maxCopy (place j).2 ahead with
      | none => rfl
      | some best =>
          simp only [List.map_cons, List.map_nil, List.foldl_cons, List.foldl_nil, better,
            Option.map_some]
          split <;> rfl

/-- **Searches**: the first of the recent places with the longest run is
found. -/
theorem search_eq_argmax {data : Bytes} {behind : List Bytes} (h : Behind data behind) :
    search behind (data.drop behind.length) =
      ((recent data behind.length).argmax (runFrom data behind.length)).map
        fun j => ⟨behind.length - j, runFrom data behind.length j⟩ := by
  rw [search, candidates_eq_recent h, longest_map]
  simp only [commonRun_eq_runFrom]

/-! ## the best copy -/

/-- Of places in descending order, the first with the longest run is the
nearest with that run. -/
theorem le_of_mem_argmax_of_pairwise {f : Nat → Nat} {js : List Nat} (h : js.Pairwise (· > ·))
    {i j : Nat} (hj : j ∈ js.argmax f) (hi : i ∈ js) (hf : f i = f j) : i ≤ j := by
  induction js with
  | nil => simp at hi
  | cons first js ih =>
      rw [List.pairwise_cons] at h
      have hfirst : i ≤ first := by
        rcases List.mem_cons.mp hi with rfl | hi
        · exact Nat.le_refl _
        · exact Nat.le_of_lt (h.1 i hi)
      rw [List.argmax_cons] at hj
      cases hmax : js.argmax f with
      | none =>
          obtain rfl : first = j := by simpa [hmax] using hj
          exact hfirst
      | some c =>
          by_cases hc : f first < f c
          · -- a later place wins only with a longer run
            obtain rfl : c = j := by simpa [hmax, hc] using hj
            rcases List.mem_cons.mp hi with rfl | hi
            · omega
            · exact ih h.2 hmax hi
          · obtain rfl : first = j := by simpa [hmax, hc] using hj
            exact hfirst

section Best

variable {data : Bytes} {position j length : Nat}

theorem best_of_mem_argmax (h : j ∈ (recent data position).argmax (runFrom data position)) :
    Best data position j (runFrom data position j) where
  longest := by
    refine ⟨⟨j, List.argmax_mem h, rfl⟩, ?_⟩
    rintro n ⟨i, hi, rfl⟩
    exact List.le_of_mem_argmax hi h
  nearest := by
    refine ⟨⟨List.argmax_mem h, rfl⟩, ?_⟩
    rintro i ⟨hi, hrun⟩
    exact le_of_mem_argmax_of_pairwise (pairwise_recent data position) h hi hrun

/-- There is one best copy at most. -/
theorem Best.unique {j' length' : Nat} (h : Best data position j length)
    (h' : Best data position j' length') : j = j' ∧ length = length' := by
  obtain rfl := h.longest.unique h'.longest
  exact ⟨h.nearest.unique h'.nearest, rfl⟩

/-- There is a best copy where there is a recent place. -/
theorem exists_best_iff :
    (∃ j length, Best data position j length) ↔ recent data position ≠ [] := by
  constructor
  · rintro ⟨j, length, h⟩
    exact List.ne_nil_of_mem h.nearest.1.1
  · intro h
    cases hmax : (recent data position).argmax (runFrom data position) with
    | none => exact absurd (List.argmax_eq_none.mp hmax) h
    | some j => exact ⟨j, _, best_of_mem_argmax hmax⟩

end Best

/-! ## the pieces of compressed data -/

/-- What searches give starts with a copy exactly if there is a best one, and
then with that. -/
theorem Greedy.head?_eq_copy_iff {data : Bytes} {position : Nat} {pieces : List Piece}
    (h : Greedy data position pieces) (slot length : Nat) :
    pieces.head? = some (.copy slot length) ↔
      ∃ j, Best data position j length ∧ slot = (windowStart + j) % windowSize := by
  -- where nothing is recent there is no best copy
  have hnone : recent data position = [] →
      ¬ ∃ j, Best data position j length ∧ slot = (windowStart + j) % windowSize := by
    rintro hnil ⟨j, hbest, -⟩
    exact exists_best_iff.mp ⟨j, length, hbest⟩ hnil
  cases h with
  | done =>
      simp only [List.head?_nil, reduceCtorEq, false_iff]
      apply hnone
      by_contra hne
      obtain ⟨j, hj, -⟩ := recent_ne_nil_iff.mp hne
      have hinside := inside_of_mem_occurrences (Nat.le_refl _) hj
      simp [minCopy] at hinside
  | literal hbehind hb hm hrest =>
      rw [search_eq_argmax hbehind, Option.map_eq_none_iff, List.argmax_eq_none] at hm
      simpa using hnone hm
  | @copy behind m rest hbehind hm hrest =>
      rw [search_eq_argmax hbehind, Option.map_eq_some_iff] at hm
      obtain ⟨j, hj, rfl⟩ := hm
      have hbest := best_of_mem_argmax hj
      have hplace : behind.length - (behind.length - j) = j := by
        have hlt := lt_of_mem_recent (List.argmax_mem hj)
        omega
      simp only [List.head?_cons, Option.some.injEq, Piece.copy.injEq, hplace]
      constructor
      · rintro ⟨rfl, rfl⟩
        exact ⟨j, hbest, rfl⟩
      · rintro ⟨j', hbest', rfl⟩
        obtain ⟨rfl, rfl⟩ := hbest.unique hbest'
        exact ⟨rfl, rfl⟩

theorem Greedy.position_le {data : Bytes} {position : Nat} {pieces : List Piece}
    (h : Greedy data position pieces) : position ≤ data.length := by
  cases h with
  | done => exact Nat.le_refl _
  | literal hbehind => exact hbehind.length_le
  | copy hbehind => exact hbehind.length_le

/-- Every other piece is the byte at its position. -/
theorem Greedy.head?_eq_literal_iff {data : Bytes} {position : Nat} {pieces : List Piece}
    (h : Greedy data position pieces) (b : UInt8) :
    pieces.head? = some (.literal b) ↔
      (¬∃ slot length, pieces.head? = some (.copy slot length)) ∧ data[position]? = some b := by
  cases h with
  | done => simp
  | literal hbehind hb => simp [hb]
  | copy => simp

/-- There is no other end than that of the data. -/
theorem Greedy.head?_eq_none_iff {data : Bytes} {position : Nat} {pieces : List Piece}
    (h : Greedy data position pieces) : pieces.head? = none ↔ position = data.length := by
  cases h with
  | done => simp
  | literal hbehind hb =>
      have hlt := (List.getElem?_eq_some_iff.mp hb).1
      simp [Nat.ne_of_lt hlt]
  | @copy behind m rest hbehind hm hrest =>
      have hlt : behind.length < data.length := by
        have hfound := found_of_search hbehind hm
        have hmin := hfound.minCopy_le
        have hinside := hfound.inside
        simp only [minCopy] at hmin
        omega
      simp [Nat.ne_of_lt hlt]

/-- **Greedy copies**: at each position that the pieces of compressed data lead
to, a copy comes next exactly if the three bytes there also lie at most 4095
bytes back; and it is the copy from the most recent of the places with the
longest run.  Otherwise the byte at the position comes next, up to the end of
the data. -/
theorem copy_compress_iff (data : Bytes) (k : Nat) :
    let pieces := Piece.readFrom 0 0 (compress data)
    let position := Piece.extent (pieces.take k)
    ((∃ slot length, pieces[k]? = some (.copy slot length)) ↔
      position + minCopy ≤ data.length ∧ ∃ j < position, position - j ≤ maxDistance ∧
        (data.drop j).take minCopy = (data.drop position).take minCopy) ∧
    (∀ slot length, pieces[k]? = some (.copy slot length) ↔
      ∃ j, Best data position j length ∧ slot = (windowStart + j) % windowSize) ∧
    (∀ b, pieces[k]? = some (.literal b) ↔
      (¬∃ slot length, pieces[k]? = some (.copy slot length)) ∧ data[position]? = some b) ∧
    (pieces[k]? = none ↔ position = data.length) := by
  intro pieces position
  have hgreedy : Greedy data position (pieces.drop k) := by
    have hdrop := (greedy_parse data).drop k
    rw [← readFrom_compress, Nat.zero_add] at hdrop
    exact hdrop
  have hcopy : ∀ slot length, pieces[k]? = some (.copy slot length) ↔
      ∃ j, Best data position j length ∧ slot = (windowStart + j) % windowSize := by
    intro slot length
    rw [← hgreedy.head?_eq_copy_iff, List.head?_drop]
  have hliteral := hgreedy.head?_eq_literal_iff
  have hend := hgreedy.head?_eq_none_iff
  simp only [List.head?_drop] at hliteral hend
  refine ⟨?_, hcopy, hliteral, hend⟩
  calc (∃ slot length, pieces[k]? = some (.copy slot length))
      ↔ ∃ j length, Best data position j length := by
        simp only [hcopy]
        constructor
        · rintro ⟨_, length, j, hbest, -⟩
          exact ⟨j, length, hbest⟩
        · rintro ⟨j, length, hbest⟩
          exact ⟨_, length, j, hbest, rfl⟩
    _ ↔ ∃ j ∈ occurrences data position, position - j ≤ maxDistance := by
        rw [exists_best_iff, recent_ne_nil_iff]
    _ ↔ _ := by
        simp only [mem_occurrences]
        constructor
        · rintro ⟨j, ⟨hlt, hsame⟩, hnear⟩
          exact ⟨inside_of_mem_occurrences hgreedy.position_le (mem_occurrences.mpr ⟨hlt, hsame⟩),
            j, hlt, hnear, hsame⟩
        · rintro ⟨-, j, hlt, hnear, hsame⟩
          exact ⟨j, ⟨hlt, hsame⟩, hnear⟩

end Scenario.Compression
