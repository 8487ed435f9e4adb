import Scenario.Compression.Piece

/-!
# Scenario.Compression.Parse

Greedy parsing of data into pieces.  At each place the longest copy is taken that
the search finds, or else one literal byte.

1. The search looks for earlier places that start with the same three bytes,
   the nearest first, at most 4095 bytes back and at most 64 of them.
2. Of the places found, the one with the longest common run wins, and of
   equally long ones the nearest.
3. Copies start at bytes that were really written before, never in the
   window's first contents, so a stream expands alike whatever these are.

Earlier places are kept as the data from there on, nearest first; such a list
of suffixes shares all its bytes with the data.
-/

namespace Scenario.Compression

/-- The farthest place that a copy may start from. -/
def maxDistance : Nat := windowSize - 1

/-- How many places a search examines. -/
def maxCandidates : Nat := 64

/-- Whether two byte strings have the same three first bytes. -/
def sameStart : Bytes → Bytes → Bool
  | a :: b :: c :: _, a' :: b' :: c' :: _ => a == a' && b == b' && c == c'
  | _, _ => false

/-- The nearest suffixes that start like `ahead`, with their distances;
`room` of them at most, the first suffix being `distance` bytes back. -/
def candidates (ahead : Bytes) : (room distance : Nat) → List Bytes → List (Nat × Bytes)
  | 0, _, _ => []
  | _ + 1, _, [] => []
  | room + 1, distance, suffix :: behind =>
    if maxDistance < distance then []
    else if sameStart suffix ahead then
      (distance, suffix) :: candidates ahead room (distance + 1) behind
    else candidates ahead (room + 1) (distance + 1) behind

/-- Length of the common start of two byte strings, `limit` at most. -/
def commonRun : (limit : Nat) → Bytes → Bytes → Nat
  | limit + 1, a :: as, b :: bs => if a == b then commonRun limit as bs + 1 else 0
  | _, _, _ => 0

/-- A place found by a search. -/
structure Match where
  distance : Nat
  length : Nat
  deriving DecidableEq, Repr

/-- The longest match so far, after one more candidate. -/
def better (ahead : Bytes) (best : Option Match) (candidate : Nat × Bytes) : Option Match :=
  let length := commonRun maxCopy candidate.2 ahead
  match best with
  | some m => if m.length < length then some ⟨candidate.1, length⟩ else best
  | none => some ⟨candidate.1, length⟩

/-- The longest match among candidates, the first of equally long ones. -/
def longest (ahead : Bytes) (found : List (Nat × Bytes)) : Option Match :=
  found.foldl (better ahead) none

/-- The match that is taken in front of `ahead`. -/
def search (behind : List Bytes) (ahead : Bytes) : Option Match :=
  longest ahead (candidates ahead maxCandidates 1 behind)

theorem commonRun_le_length (limit : Nat) (s t : Bytes) : commonRun limit s t ≤ t.length := by
  fun_induction commonRun limit s t with
  | case1 limit a s b t h ih => simpa using ih
  | case2 => exact Nat.zero_le _
  | case3 => exact Nat.zero_le _

theorem length_le_of_better {ahead : Bytes} {best : Option Match} {candidate : Nat × Bytes}
    (hbest : ∀ m, best = some m → m.length ≤ ahead.length) {m : Match}
    (h : better ahead best candidate = some m) : m.length ≤ ahead.length := by
  have hrun := commonRun_le_length maxCopy candidate.2 ahead
  cases best with
  | none =>
    rw [← Option.some.inj h]
    exact hrun
  | some shorter =>
    simp only [better] at h
    split at h
    · rw [← Option.some.inj h]
      exact hrun
    · exact hbest m h

theorem length_le_of_foldl_better {ahead : Bytes} {found : List (Nat × Bytes)}
    {best : Option Match} (hbest : ∀ m, best = some m → m.length ≤ ahead.length) {m : Match}
    (h : found.foldl (better ahead) best = some m) : m.length ≤ ahead.length := by
  induction found generalizing best with
  | nil => exact hbest m h
  | cons candidate found ih => exact ih (fun _ => length_le_of_better hbest) h

/-- A match is not longer than the data it stands for. -/
theorem length_le_of_search {behind : List Bytes} {ahead : Bytes} {m : Match}
    (h : search behind ahead = some m) : m.length ≤ ahead.length := by
  refine length_le_of_foldl_better ?_ h
  simp

/-- The suffixes behind after `count` more bytes of `ahead`. -/
def extend : (count : Nat) → List Bytes → Bytes → List Bytes
  | count + 1, behind, ahead@(_ :: rest) => extend count (ahead :: behind) rest
  | _, behind, _ => behind

theorem length_extend {count : Nat} {ahead : Bytes} (h : count ≤ ahead.length)
    (behind : List Bytes) : (extend count behind ahead).length = behind.length + count := by
  induction count generalizing behind ahead with
  | zero => simp [extend]
  | succ count ih =>
    cases ahead with
    | nil => simp at h
    | cons b rest =>
      rw [extend, ih (Nat.le_of_succ_le_succ h), List.length_cons]
      omega

/-- The pieces of the data `ahead`, of which the first byte has the index
`position`; `done` holds the pieces before, newest first. -/
def parseFrom (done : List Piece) (position : Nat) (behind : List Bytes) (ahead : Bytes) :
    List Piece :=
  match ahead with
  | [] => done.reverse
  | b :: rest =>
    match search behind (b :: rest) with
    | none => parseFrom (.literal b :: done) (position + 1) ((b :: rest) :: behind) rest
    | some m =>
      let slot := (windowStart + (position - m.distance)) % windowSize
      parseFrom (.copy slot m.length :: done) (position + m.length)
        (extend m.length behind (b :: rest)) (rest.drop (m.length - 1))
termination_by ahead.length
decreasing_by
  · simp
  · simp only [List.length_drop, List.length_cons]; omega

end Scenario.Compression
