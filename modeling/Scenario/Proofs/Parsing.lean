import Scenario.Compression.Compress
import Scenario.Proofs.Expanding
import Scenario.Proofs.Window

/-!
# Scenario.Proofs.Parsing

What the greedy parse gives, and that expanding undoes compressing.

`Greedy` says that pieces are what searches give, each at the position that
the pieces before it lead to, and `Spells`, without the search, that pieces
stand for the data from a position on: a literal is the byte that lies there,
and a copy starts where the data went on in the same way, at most 4095 bytes
back (`Match.Found`).

1. The parse is greedy (`greedy_parse`), and so is what is left of it behind
   any number of its pieces (`Greedy.drop`).
2. Whatever a search finds is borne out by the data (`found_of_search`), so
   the parse spells the data (`spells_parse`).
3. Pieces that spell the data can be written and, played in any window, put
   the data out (`Spells.fits`, `Spells.play`).
-/

namespace Scenario.Compression

/-! ## matches -/

/-- A match that the data bears out at a position: the data goes on as it did
`distance` bytes back, over a length that a copy can have. -/
structure Match.Found (data : Bytes) (position : Nat) (m : Match) : Prop where
  one_le_distance : 1 ≤ m.distance
  distance_le : m.distance ≤ position
  distance_le_max : m.distance ≤ maxDistance
  minCopy_le : minCopy ≤ m.length
  le_maxCopy : m.length ≤ maxCopy
  inside : position + m.length ≤ data.length
  repeats : ∀ i < m.length, data[position - m.distance + i]? = data[position + i]?

theorem commonRun_le_limit (limit : Nat) (s t : Bytes) : commonRun limit s t ≤ limit := by
  fun_induction commonRun limit s t with
  | case1 limit a s b t h ih => omega
  | case2 => omega
  | case3 => omega

/-- In a common run the bytes are the same. -/
theorem getElem?_of_lt_commonRun {limit i : Nat} {s t : Bytes} (h : i < commonRun limit s t) :
    s[i]? = t[i]? := by
  fun_induction commonRun limit s t generalizing i with
  | case1 limit a s b t hab ih =>
      cases i with
      | zero => simp [beq_iff_eq.mp hab]
      | succ i => simpa using ih (by omega)
  | case2 => omega
  | case3 => omega

/-- Byte strings that start alike have a common run that is worth a copy. -/
theorem minCopy_le_commonRun {s t : Bytes} (h : sameStart s t = true) :
    minCopy ≤ commonRun maxCopy s t := by
  match s, t with
  | a :: b :: c :: s, a' :: b' :: c' :: t =>
      simp only [sameStart, Bool.and_eq_true] at h
      simp [commonRun, maxCopy, minCopy, h.1.1, h.1.2, h.2]
  | [], _ | [_], _ | [_, _], _ => simp [sameStart] at h
  | _ :: _ :: _ :: _, [] | _ :: _ :: _ :: _, [_] | _ :: _ :: _ :: _, [_, _] =>
      simp [sameStart] at h

/-- A candidate is one of the suffixes behind, not too far away, and starts
like the data ahead. -/
theorem of_mem_candidates {ahead suffix : Bytes} {room distance d : Nat} {behind : List Bytes}
    (h : (d, suffix) ∈ candidates ahead room distance behind) :
    ∃ i, behind[i]? = some suffix ∧ d = distance + i ∧ d ≤ maxDistance ∧
      sameStart suffix ahead = true := by
  fun_induction candidates ahead room distance behind with
  | case1 => simp at h
  | case2 => simp at h
  | case3 => simp at h
  | case4 room distance first behind hnear hsame ih =>
      rcases List.mem_cons.mp h with heq | hmem
      · obtain ⟨rfl, rfl⟩ := Prod.mk.inj heq
        exact ⟨0, by simp, by simp, by omega, hsame⟩
      · obtain ⟨i, hi, hd, hmax, hstart⟩ := ih hmem
        exact ⟨i + 1, by simpa using hi, by omega, hmax, hstart⟩
  | case5 room distance first behind hnear hsame ih =>
      obtain ⟨i, hi, hd, hmax, hstart⟩ := ih h
      exact ⟨i + 1, by simpa using hi, by omega, hmax, hstart⟩

/-- The longest match is one of the candidates with its common run. -/
theorem exists_of_foldl_better {ahead : Bytes} {found : List (Nat × Bytes)}
    {best : Option Match} {m : Match} (h : found.foldl (better ahead) best = some m) :
    best = some m ∨ ∃ c ∈ found, m = ⟨c.1, commonRun maxCopy c.2 ahead⟩ := by
  induction found generalizing best with
  | nil => exact .inl h
  | cons c found ih =>
      rcases ih h with hstep | ⟨c', hc', hm⟩
      · have hcases : best = some m ∨ m = ⟨c.1, commonRun maxCopy c.2 ahead⟩ := by
          cases best with
          | none => exact .inr (Option.some.inj hstep).symm
          | some shorter =>
              simp only [better] at hstep
              split at hstep
              · exact .inr (Option.some.inj hstep).symm
              · exact .inl hstep
        rcases hcases with hbest | hm
        · exact .inl hbest
        · exact .inr ⟨c, List.mem_cons_self, hm⟩
      · exact .inr ⟨c', List.mem_cons_of_mem _ hc', hm⟩

/-! ## suffixes behind -/

/-- The suffixes behind a position of the data, nearest first; there are as
many as the position says. -/
structure Behind (data : Bytes) (behind : List Bytes) : Prop where
  length_le : behind.length ≤ data.length
  eq_drop : ∀ {i suffix}, behind[i]? = some suffix →
    suffix = data.drop (behind.length - 1 - i)

section Behind

variable {data : Bytes} {behind : List Bytes}

theorem behind_nil (data : Bytes) : Behind data [] := ⟨by simp, by simp⟩

/-- One position further on, the data ahead has become the nearest suffix. -/
theorem Behind.cons (h : Behind data behind) (hlt : behind.length < data.length) :
    Behind data (data.drop behind.length :: behind) where
  length_le := by rw [List.length_cons]; exact hlt
  eq_drop := by
    intro i suffix hi
    cases i with
    | zero => simpa using hi.symm
    | succ i =>
        have hsuffix := h.eq_drop (by simpa using hi)
        rw [hsuffix, List.length_cons]
        congr 1
        omega

theorem Behind.extend (h : Behind data behind) {count : Nat}
    (hcount : behind.length + count ≤ data.length) :
    Behind data (Compression.extend count behind (data.drop behind.length)) := by
  induction count generalizing behind with
  | zero => simpa [Compression.extend] using h
  | succ count ih =>
      have hlt : behind.length < data.length := by omega
      have hrest := ih (h.cons hlt) (by rw [List.length_cons]; omega)
      rw [List.length_cons] at hrest
      rw [List.drop_eq_getElem_cons hlt] at hrest ⊢
      exact hrest

/-- **Searches**: what a search finds is borne out by the data. -/
theorem found_of_search (h : Behind data behind) {m : Match}
    (hm : search behind (data.drop behind.length) = some m) : m.Found data behind.length := by
  have hinside := length_le_of_search hm
  rcases exists_of_foldl_better hm with hnone | ⟨⟨d, suffix⟩, hc, rfl⟩
  · cases hnone
  obtain ⟨i, hi, hd, hmax, hsame⟩ := of_mem_candidates hc
  have hi' : i < behind.length := (List.getElem?_eq_some_iff.mp hi).1
  have hle := h.length_le
  rw [List.length_drop] at hinside
  dsimp only at hinside
  refine ⟨by dsimp only; omega, by dsimp only; omega, hmax, minCopy_le_commonRun hsame,
    commonRun_le_limit _ _ _, by dsimp only; omega, fun j hj => ?_⟩
  have hplace : behind.length - d + j = behind.length - 1 - i + j := by omega
  have hbytes := getElem?_of_lt_commonRun hj
  rw [h.eq_drop hi, List.getElem?_drop, List.getElem?_drop] at hbytes
  rw [hplace]
  exact hbytes

end Behind

/-! ## the parse -/

/-- Pieces that stand for the data from a position on. -/
inductive Spells (data : Bytes) : (position : Nat) → List Piece → Prop where
  | done : Spells data data.length []
  | literal {position : Nat} {b : UInt8} {rest : List Piece} (hb : data[position]? = some b)
      (h : Spells data (position + 1) rest) : Spells data position (.literal b :: rest)
  | copy {position : Nat} {m : Match} {rest : List Piece} (hm : m.Found data position)
      (h : Spells data (position + m.length) rest) :
      Spells data position (.copy (Expander.slotAt (position - m.distance)) m.length :: rest)

/-- Pieces that searches give for the data from a position on: a literal where
nothing is found, and else a copy of what is found. -/
inductive Greedy (data : Bytes) : (position : Nat) → List Piece → Prop where
  | done : Greedy data data.length []
  | literal {behind : List Bytes} {b : UInt8} {rest : List Piece} (hbehind : Behind data behind)
      (hb : data[behind.length]? = some b)
      (hm : search behind (data.drop behind.length) = none)
      (h : Greedy data (behind.length + 1) rest) : Greedy data behind.length (.literal b :: rest)
  | copy {behind : List Bytes} {m : Match} {rest : List Piece} (hbehind : Behind data behind)
      (hm : search behind (data.drop behind.length) = some m)
      (h : Greedy data (behind.length + m.length) rest) :
      Greedy data behind.length
        (.copy (Expander.slotAt (behind.length - m.distance)) m.length :: rest)

/-- How many bytes of output a piece stands for. -/
def Piece.span : Piece → Nat
  | literal _ => 1
  | copy _ length => length

/-- How many bytes of output pieces stand for. -/
def Piece.extent : List Piece → Nat
  | [] => 0
  | p :: rest => p.span + extent rest

section Steps

variable {done : List Piece} {position : Nat} {behind : List Bytes} {b : UInt8} {rest : Bytes}

/-- Where nothing is found, the next byte stands for itself. -/
theorem parseFrom_of_none (h : search behind (b :: rest) = none) :
    parseFrom done position behind (b :: rest) =
      parseFrom (.literal b :: done) (position + 1) ((b :: rest) :: behind) rest := by
  rw [parseFrom, h]

/-- Where something is found, it is copied. -/
theorem parseFrom_of_some {m : Match} (h : search behind (b :: rest) = some m) :
    parseFrom done position behind (b :: rest) =
      parseFrom (.copy (Expander.slotAt (position - m.distance)) m.length :: done)
        (position + m.length) (extend m.length behind (b :: rest)) (rest.drop (m.length - 1)) := by
  rw [parseFrom, h]
  rfl

end Steps

/-- Parsing goes on with pieces that searches give. -/
theorem exists_greedy_of_parseFrom {data : Bytes} {behind : List Bytes} (h : Behind data behind)
    (done : List Piece) :
    ∃ rest, parseFrom done behind.length behind (data.drop behind.length) =
      done.reverse ++ rest ∧ Greedy data behind.length rest := by
  induction hn : data.length - behind.length using Nat.strongRecOn generalizing behind done with
  | ind n ih =>
      have hle := h.length_le
      by_cases hend : behind.length = data.length
      · rw [hend, List.drop_length, parseFrom]
        exact ⟨[], by simp, .done⟩
      · have hlt : behind.length < data.length := by omega
        have hahead := List.drop_eq_getElem_cons hlt
        cases hm : search behind (data.drop behind.length) with
        | none =>
            obtain ⟨rest, hrest, hgreedy⟩ :=
              ih _ (by rw [List.length_cons]; omega) (h.cons hlt)
                (.literal data[behind.length] :: done) rfl
            refine ⟨.literal data[behind.length] :: rest, ?_,
              .literal h (List.getElem?_eq_getElem hlt) hm hgreedy⟩
            rw [hahead] at hm hrest ⊢
            rw [parseFrom_of_none hm]
            simpa using hrest
        | some m =>
            have hfound := found_of_search h hm
            have hmin : 3 ≤ m.length := hfound.minCopy_le
            have hlength := length_extend (length_le_of_search hm) behind
            have hskip : (data.drop (behind.length + 1)).drop (m.length - 1) =
                data.drop (behind.length + m.length) := by
              rw [List.drop_drop]
              congr 1
              omega
            obtain ⟨rest, hrest, hgreedy⟩ := ih _ (by rw [hlength]; omega)
              (h.extend hfound.inside)
              (.copy (Expander.slotAt (behind.length - m.distance)) m.length :: done) rfl
            rw [hlength] at hrest hgreedy
            refine ⟨.copy (Expander.slotAt (behind.length - m.distance)) m.length :: rest, ?_,
              .copy h hm hgreedy⟩
            rw [hahead] at hm hrest ⊢
            rw [parseFrom_of_some hm, hskip]
            simpa using hrest

/-- The parse is greedy. -/
theorem greedy_parse (data : Bytes) : Greedy data 0 (parse data) := by
  obtain ⟨rest, hrest, hgreedy⟩ := exists_greedy_of_parseFrom (behind_nil data) []
  rw [parse_eq_parseFrom]
  simp only [List.length_nil, List.drop_zero, List.reverse_nil, List.nil_append] at hrest hgreedy
  rw [hrest]
  exact hgreedy

section Greedy

variable {data : Bytes} {position : Nat} {pieces : List Piece}

/-- Behind any number of pieces the parse goes on at the position they lead
to. -/
theorem Greedy.drop (h : Greedy data position pieces) (k : Nat) :
    Greedy data (position + Piece.extent (pieces.take k)) (pieces.drop k) := by
  induction h generalizing k with
  | done => simpa [Piece.extent] using Greedy.done
  | literal hbehind hb hm hrest ih =>
      cases k with
      | zero => exact .literal hbehind hb hm hrest
      | succ k =>
          rw [List.take_succ_cons, List.drop_succ_cons, Piece.extent, Piece.span, ← Nat.add_assoc]
          exact ih k
  | copy hbehind hm hrest ih =>
      cases k with
      | zero => exact .copy hbehind hm hrest
      | succ k =>
          rw [List.take_succ_cons, List.drop_succ_cons, Piece.extent, Piece.span, ← Nat.add_assoc]
          exact ih k

/-- What searches give spells the data. -/
theorem Greedy.spells (h : Greedy data position pieces) : Spells data position pieces := by
  induction h with
  | done => exact .done
  | literal _ hb _ _ ih => exact .literal hb ih
  | copy hbehind hm _ ih => exact .copy (found_of_search hbehind hm) ih

end Greedy

/-- The parse spells the data. -/
theorem spells_parse (data : Bytes) : Spells data 0 (parse data) := (greedy_parse data).spells

/-! ## expanding -/

namespace Spells

variable {data : Bytes} {position : Nat} {pieces : List Piece}

/-- Pieces that spell data can be written. -/
theorem fits (h : Spells data position pieces) : ∀ p ∈ pieces, p.Fits := by
  induction h with
  | done => simp
  | literal hb _ ih => simpa [Piece.Fits] using ih
  | @copy position m rest hm _ ih =>
      have hslot := (Expander.slotAt (position - m.distance)).isLt
      simpa [Piece.Fits, hslot, hm.minCopy_le, hm.le_maxCopy] using ih

/-- Pieces that spell the data put it out, whatever the window holds at
first. -/
theorem play (h : Spells data position pieces) {ring₀ : Vector UInt8 windowSize} {s : Expander}
    (hs : s.Wrote ring₀ data position) :
    (pieces.foldl Expander.play s).Wrote ring₀ data data.length := by
  induction h generalizing s with
  | done => exact hs
  | literal hb _ ih => exact ih (hs.emit hb)
  | @copy position m rest hm _ ih =>
      have hmax : m.distance ≤ 4095 := hm.distance_le_max
      have hbehind : position - m.distance < position := by
        have := hm.one_le_distance
        have := hm.distance_le
        omega
      have hturn : position ≤ position - m.distance + windowSize := by
        rw [windowSize]
        omega
      have hcopy := hs.copy hbehind hturn hm.inside hm.repeats
      have hslot : (Expander.slotAt (position - m.distance)).val % windowSize =
          (Expander.slotAt (position - m.distance)).val :=
        Nat.mod_eq_of_lt (Expander.slotAt _).isLt
      apply ih
      simpa [Expander.play, hslot] using hcopy

end Spells

/-- Expanding compressed data, in whatever window, puts the data out. -/
theorem output_run_compress (ring : Vector UInt8 windowSize) (data : Bytes) :
    (Expander.run none 0 0 (.start ring) (compress data)).output.toList = data := by
  have hspells := spells_parse data
  have hwrote := hspells.play (Expander.wrote_start ring data)
  rw [compress, Expander.run_encode _ hspells.fits, hwrote.output, List.take_length]

/-- **The round trip**: compressed data, wherever it lies in other data, expands
to what was compressed, and up to a size to as much of it. -/
theorem expandRange_compress (before data behind : Bytes) (n : Nat) :
    expandRange (before ++ compress data ++ behind) before.length (some (compress data).length)
        none = .ok data ∧
      expandRange (before ++ compress data ++ behind) before.length (some (compress data).length)
        (some n) = .ok (data.take n) := by
  have hexpand : expand none (compress data) = data := output_run_compress blankWindow data
  rw [expandRange_append, expandRange_append, expand_some, hexpand]
  exact ⟨rfl, rfl⟩

end Scenario.Compression
