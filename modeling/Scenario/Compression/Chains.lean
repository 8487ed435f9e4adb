import Scenario.Compression.Parse
import Std.Data.HashMap

/-!
# Scenario.Compression.Chains

Earlier places by the three bytes they start with, so that a search need not
walk over all of them.

1. A chain holds the places that start alike, each with its position and the
   data from there on, the nearest first.
2. Chains that follow the data hold what a walk over all earlier places
   finds: `Chains.Follow` says so, and `Chains.search_eq` concludes that a
   search gives the same match.
-/

namespace Scenario.Compression

/-- The first three bytes as a number, if there are so many. -/
def startKey? : Bytes → Option Nat
  | a :: b :: c :: _ => some (a.toNat + 256 * (b.toNat + 256 * c.toNat))
  | _ => none

/-- Earlier places by what they start with. -/
structure Chains where
  places : Std.HashMap Nat (List (Nat × Bytes))

namespace Chains

/-- No places. -/
def empty : Chains := ⟨∅⟩

/-- The places that start like `ahead`. -/
def startingLike (c : Chains) (ahead : Bytes) : List (Nat × Bytes) :=
  match startKey? ahead with
  | some key => c.places.getD key []
  | none => []

/-- Adds the place at `position`, from where on the data is `suffix`. -/
def add (c : Chains) (position : Nat) (suffix : Bytes) : Chains :=
  match startKey? suffix with
  | some key => ⟨c.places.insert key ((position, suffix) :: c.places.getD key [])⟩
  | none => c

/-- Adds the places of `count` more bytes of `ahead`, the first of which is at
`position`. -/
def extend : (count : Nat) → (position : Nat) → Chains → Bytes → Chains
  | count + 1, position, c, ahead@(_ :: rest) =>
    extend count (position + 1) (c.add position ahead) rest
  | _, _, c, _ => c

/-- The places of a chain that a search at `position` examines, with their
distances. -/
def nearest (position : Nat) (chain : List (Nat × Bytes)) : List (Nat × Bytes) :=
  ((chain.take maxCandidates).map fun (place, suffix) => (position - place, suffix)).takeWhile
    fun (distance, _) => distance ≤ maxDistance

/-- The match that is taken in front of `ahead`, which is at `position`. -/
def search (c : Chains) (position : Nat) (ahead : Bytes) : Option Match :=
  longest ahead (nearest position (c.startingLike ahead))

/-! ## What chains hold -/

/-- The places that start like `ahead`, found by walking over all of them. -/
def walk (ahead : Bytes) : (behind : List Bytes) → List (Nat × Bytes)
  | [] => []
  | suffix :: behind =>
    if sameStart suffix ahead then (behind.length, suffix) :: walk ahead behind
    else walk ahead behind

/-- Chains follow the suffixes behind if they hold what a walk over these
finds. -/
def Follow (c : Chains) (behind : List Bytes) : Prop :=
  ∀ ahead, c.startingLike ahead = walk ahead behind

theorem follow_empty : Follow empty [] := by
  intro ahead
  unfold startingLike empty walk
  cases startKey? ahead <;> simp

/-- Two byte strings start alike if they have the same key. -/
theorem sameStart_eq (s t : Bytes) :
    sameStart s t = (match startKey? s, startKey? t with
      | some k, some l => k == l
      | _, _ => false) := by
  match s, t with
  | [], _ | [_], _ | [_, _], _ => simp [sameStart, startKey?]
  | _ :: _ :: _ :: _, [] | _ :: _ :: _ :: _, [_] | _ :: _ :: _ :: _, [_, _] =>
    simp [sameStart, startKey?]
  | a :: b :: c :: _, a' :: b' :: c' :: _ =>
    have ha := a.toNat_lt
    have hb := b.toNat_lt
    have ha' := a'.toNat_lt
    have hb' := b'.toNat_lt
    rw [Bool.eq_iff_iff]
    simp only [sameStart, startKey?, Bool.and_eq_true, beq_iff_eq, ← UInt8.toNat_inj]
    omega

/-- Adding the next place keeps up with the data. -/
theorem Follow.add {c : Chains} {behind : List Bytes} (h : Follow c behind) (suffix : Bytes) :
    Follow (c.add behind.length suffix) (suffix :: behind) := by
  intro ahead
  rw [walk, sameStart_eq, ← h ahead]
  unfold Chains.add startingLike
  cases hs : startKey? suffix with
  | none => cases startKey? ahead <;> simp
  | some key =>
    cases ha : startKey? ahead with
    | none => simp
    | some other =>
      by_cases hk : key = other
      · subst hk
        simp
      · simp [Std.HashMap.getD_insert, hk]

theorem Follow.extend {c : Chains} {behind : List Bytes} (h : Follow c behind) (count : Nat)
    (ahead : Bytes) :
    Follow (c.extend count behind.length ahead) (Compression.extend count behind ahead) := by
  induction count generalizing c behind ahead with
  | zero => simpa [Chains.extend, Compression.extend] using h
  | succ count ih =>
    cases ahead with
    | nil => simpa [Chains.extend, Compression.extend] using h
    | cons b rest => exact ih (h.add (b :: rest)) rest

/-! ## Searching -/

theorem lt_of_mem_walk {ahead suffix : Bytes} {behind : List Bytes} {place : Nat}
    (h : (place, suffix) ∈ walk ahead behind) : place < behind.length := by
  induction behind with
  | nil => simp [walk] at h
  | cons s behind ih =>
    rw [walk] at h
    split at h
    · rcases List.mem_cons.1 h with heq | hmem
      · simp [(Prod.mk.inj heq).1]
      · exact Nat.lt_succ_of_lt (ih hmem)
    · exact Nat.lt_succ_of_lt (ih h)

/-- Looking for candidates is walking over the suffixes behind, and then
leaving out what is too much or too far away. -/
theorem candidates_eq_walk (ahead : Bytes) (room distance : Nat) (behind : List Bytes) :
    candidates ahead room distance behind =
      (((walk ahead behind).take room).map fun (place, suffix) =>
        (distance + behind.length - 1 - place, suffix)).takeWhile
          fun (distance, _) => distance ≤ maxDistance := by
  induction behind generalizing room distance with
  | nil => cases room <;> simp [candidates, walk]
  | cons s behind ih =>
    cases room with
    | zero => simp [candidates]
    | succ room =>
      rw [candidates]
      by_cases hfar : maxDistance < distance
      · rw [if_pos hfar]
        cases hw : (walk ahead (s :: behind)).take (room + 1) with
        | nil => rfl
        | cons found others =>
          have hmem : found ∈ (walk ahead (s :: behind)).take (room + 1) := by simp [hw]
          have hplace := lt_of_mem_walk (List.mem_of_mem_take hmem)
          rw [List.map_cons, List.takeWhile_cons, if_neg]
          simp only [decide_eq_true_eq]
          omega
      · have hshift : distance + (s :: behind).length - 1 = distance + 1 + behind.length - 1 := by
          simp only [List.length_cons]
          omega
        rw [if_neg hfar, walk, hshift]
        by_cases hs : sameStart s ahead
        · rw [if_pos hs, if_pos hs, List.take_succ_cons, List.map_cons, List.takeWhile_cons, ih]
          simp [Nat.not_lt.1 hfar]
        · rw [if_neg hs, if_neg hs, ih]

/-- A search in chains finds what a search over all earlier places finds. -/
theorem search_eq {c : Chains} {behind : List Bytes} (h : Follow c behind) (ahead : Bytes) :
    c.search behind.length ahead = Compression.search behind ahead := by
  unfold Chains.search Compression.search nearest
  rw [h ahead, candidates_eq_walk]
  congr 4
  funext p
  simp

end Chains

end Scenario.Compression
