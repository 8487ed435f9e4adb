import Scenario.Encoding

/-!
# Scenario.Pool

The string pool of a script: byte strings that end at a zero byte, addressed
by their offset.

1. A string runs from its offset up to the next zero byte or to the end of
   the pool.
2. An offset at or behind the end of the pool is an error.
3. An empty string is the empty text in every encoding, known or not.  Any
   other is decoded, and the codec may refuse it.
4. Looking strings up in an index of a pool finds what the pool holds.
-/

namespace Scenario.Pool

/-- The stored bytes of the string at `offset`; below zero it counts from the
end. -/
def stringAt (pool : Bytes) (offset : Int) : Bytes :=
  (pool.drop (pool.bound offset)).takeWhile (· != 0)

/-- Text of stored bytes in the encoding of that name. -/
def decodeText [Codecs] (encoding : String) (raw : Bytes) : Except Error String :=
  if raw.isEmpty then .ok ""
  else do
    let codec ← Encoding.ofName .decoding encoding
    match codec.decode raw with
    | .ok text => .ok text
    | .error message => .error (.refusingEncoding .decoding message)

/-- Text of the string at `offset`; `address` is where the reference to it
lies in the file. -/
def resolve [Codecs] (pool : Bytes) (offset : Int) (encoding : String)
    (address : Option Int) : Except Error String :=
  if offset < 0 ∨ (pool.length : Int) ≤ offset then
    .error (.decode (.stringOffset offset pool.length address))
  else decodeText encoding (stringAt pool offset)

/-! ## Many look-ups -/

/-- Adds the bytes from each offset on to those collected so far. -/
def collectSuffixes (found : Array Bytes) : Bytes → Array Bytes
  | [] => found
  | b :: rest => collectSuffixes (found.push (b :: rest)) rest

/-- A pool prepared for looking up many strings. -/
structure Index where
  /-- The bytes from each offset on. -/
  suffixes : Array Bytes

namespace Index

/-- The index of a pool. -/
def ofPool (pool : Bytes) : Index := ⟨collectSuffixes #[] pool⟩

/-- The stored bytes of the string at `offset`, none behind the end. -/
def stringAt (index : Index) (offset : Nat) : Bytes :=
  (index.suffixes[offset]?.getD []).takeWhile (· != 0)

/-- Text of the string at `offset`; `address` is where the reference to it
lies in the file. -/
def resolve [Codecs] (index : Index) (offset : Int) (encoding : String)
    (address : Option Int) : Except Error String :=
  if offset < 0 ∨ (index.suffixes.size : Int) ≤ offset then
    .error (.decode (.stringOffset offset index.suffixes.size address))
  else decodeText encoding (index.stringAt offset.toNat)

end Index

theorem size_collectSuffixes (found : Array Bytes) (pool : Bytes) :
    (collectSuffixes found pool).size = found.size + pool.length := by
  induction pool generalizing found with
  | nil => simp [collectSuffixes]
  | cons b rest ih =>
    rw [collectSuffixes, ih, Array.size_push, List.length_cons]
    omega

theorem getElem?_collectSuffixes (found : Array Bytes) (pool : Bytes) (i : Nat) :
    (collectSuffixes found pool)[i]? =
      if i < found.size then found[i]?
      else if i < found.size + pool.length then some (pool.drop (i - found.size)) else none := by
  induction pool generalizing found with
  | nil => by_cases h : i < found.size <;> simp [collectSuffixes, h]
  | cons b rest ih =>
    rw [collectSuffixes, ih, Array.size_push, Array.getElem?_push, List.length_cons]
    by_cases h : i < found.size
    · rw [if_pos (by omega), if_neg (by omega), if_pos h]
    · by_cases heq : i = found.size
      · simp [heq]
      · rw [if_neg (by omega), if_neg h]
        have hdrop : i - found.size = i - (found.size + 1) + 1 := by omega
        rw [hdrop, List.drop_succ_cons, Nat.add_assoc, Nat.add_comm 1]

/-- The index of a pool has an entry for each byte. -/
@[simp]
theorem Index.size_ofPool (pool : Bytes) : (ofPool pool).suffixes.size = pool.length := by
  simp [ofPool, size_collectSuffixes]

/-- The index finds the stored bytes that the pool holds. -/
@[simp]
theorem Index.stringAt_ofPool (pool : Bytes) (offset : Nat) :
    (ofPool pool).stringAt offset = Pool.stringAt pool offset := by
  have hbound : pool.bound (offset : Int) = offset := by
    rw [Bytes.bound, if_neg (by omega), Int.toNat_natCast]
  rw [Index.stringAt, Pool.stringAt, hbound, ofPool, getElem?_collectSuffixes]
  by_cases h : offset < pool.length
  · simp [h]
  · simp [h, List.drop_eq_nil_of_le (Nat.not_lt.1 h)]

/-- The index resolves references as the pool does. -/
@[simp]
theorem Index.resolve_ofPool [Codecs] (pool : Bytes) (offset : Int) (encoding : String)
    (address : Option Int) :
    (ofPool pool).resolve offset encoding address = Pool.resolve pool offset encoding address := by
  by_cases h : offset < 0
  · simp [Index.resolve, Pool.resolve, h]
  · obtain ⟨n, rfl⟩ := Int.eq_ofNat_of_zero_le (Int.not_lt.1 h)
    simp [Index.resolve, Pool.resolve]

end Scenario.Pool
