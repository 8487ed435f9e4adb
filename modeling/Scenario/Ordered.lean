import Std.Data.TreeMap

/-!
# Scenario.Ordered

Dictionaries that remember the order in which keys first came.

1. Setting a key that is present replaces its value and leaves it in its
   place; a new key goes behind all others.
2. No key comes twice.
3. The list of pairs says all about a dictionary: looking a key up finds what
   the list holds.
-/

namespace Scenario

/-- A dictionary in the order in which its keys came. -/
structure Ordered (κ ν : Type) [Ord κ] where
  /-- The pairs in their order. -/
  entries : Array (κ × ν)
  /-- Where the pair of a key is. -/
  places : Std.TreeMap κ Nat
  places_iff : ∀ (key : κ) (i : Nat),
    places[key]? = some i ↔ ∃ value, entries[i]? = some (key, value)

namespace Ordered

/-! ## Lists of pairs -/

section Pairs

variable {κ ν : Type} [DecidableEq κ]

/-- Sets the value of a key in a list of pairs. -/
def assign : List (κ × ν) → κ → ν → List (κ × ν)
  | [], key, value => [(key, value)]
  | (k, v) :: rest, key, value =>
    if k = key then (k, value) :: rest else (k, v) :: assign rest key value

/-- A key that is in no pair goes behind all pairs. -/
theorem assign_of_forall_ne {pairs : List (κ × ν)} {key : κ} (value : ν)
    (h : ∀ pair ∈ pairs, pair.1 ≠ key) : assign pairs key value = pairs ++ [(key, value)] := by
  induction pairs with
  | nil => rfl
  | cons pair rest ih =>
    rw [assign, if_neg (h pair (by simp)), ih fun p hp => h p (by simp [hp]), List.cons_append]

/-- A key that comes once has its value replaced there. -/
theorem assign_of_getElem? {pairs : List (κ × ν)} {key : κ} {old : ν} {i : Nat} (value : ν)
    (hnodup : (pairs.map (·.1)).Nodup) (h : pairs[i]? = some (key, old)) :
    assign pairs key value = pairs.set i (key, value) := by
  induction pairs generalizing i with
  | nil => simp at h
  | cons pair rest ih =>
    rw [List.map_cons, List.nodup_cons] at hnodup
    match i with
    | 0 =>
      simp only [List.getElem?_cons_zero, Option.some.injEq] at h
      rw [h, assign, if_pos rfl, List.set_cons_zero]
    | i + 1 =>
      rw [List.getElem?_cons_succ] at h
      have hne : pair.1 ≠ key := fun heq =>
        hnodup.1 (heq ▸ List.mem_map_of_mem (List.mem_of_getElem? h))
      rw [assign, if_neg hne, ih hnodup.2 h, List.set_cons_succ]

/-- The value of a key that comes once is the one beside it. -/
theorem lookup_of_getElem? {pairs : List (κ × ν)} {key : κ} {value : ν} {i : Nat}
    (hnodup : (pairs.map (·.1)).Nodup) (h : pairs[i]? = some (key, value)) :
    pairs.lookup key = some value := by
  induction pairs generalizing i with
  | nil => simp at h
  | cons pair rest ih =>
    rw [List.map_cons, List.nodup_cons] at hnodup
    match i with
    | 0 =>
      simp only [List.getElem?_cons_zero, Option.some.injEq] at h
      rw [h, List.lookup_cons_self]
    | i + 1 =>
      rw [List.getElem?_cons_succ] at h
      have hne : key ≠ pair.1 := fun heq =>
        hnodup.1 (heq ▸ List.mem_map_of_mem (List.mem_of_getElem? h))
      rw [List.lookup_cons, beq_false_of_ne hne]
      exact ih hnodup.2 h

/-- Setting a key changes what is found under that key alone. -/
theorem lookup_assign (pairs : List (κ × ν)) (key : κ) (value : ν) (k : κ) :
    (assign pairs key value).lookup k = if key = k then some value else pairs.lookup k := by
  induction pairs with
  | nil => grind [assign]
  | cons pair rest ih => by_cases h : pair.1 = key <;> by_cases hk : key = k <;> grind [assign]

end Pairs

/-! ## Dictionaries -/

section Views

variable {κ ν : Type} [Ord κ]

/-- The pairs in their order. -/
def toList (d : Ordered κ ν) : List (κ × ν) := d.entries.toList

/-- The number of keys. -/
def size (d : Ordered κ ν) : Nat := d.entries.size

/-- The value of a key. -/
def get? (d : Ordered κ ν) (key : κ) : Option ν :=
  match d.places[key]? with
  | some i => d.entries[i]?.map (·.2)
  | none => none

@[simp]
theorem length_toList (d : Ordered κ ν) : d.toList.length = d.size := rfl

/-- A key has the place where its pair is in the list. -/
theorem places_iff_toList (d : Ordered κ ν) (key : κ) (i : Nat) :
    d.places[key]? = some i ↔ ∃ value, d.toList[i]? = some (key, value) := by
  rw [d.places_iff, toList]
  simp only [Array.getElem?_toList]

/-- A key without a place is in no pair. -/
theorem places_eq_none_iff (d : Ordered κ ν) (key : κ) :
    d.places[key]? = none ↔ ∀ pair ∈ d.toList, pair.1 ≠ key := by
  rw [Option.eq_none_iff_forall_ne_some]
  constructor
  · rintro h ⟨k, v⟩ hmem rfl
    obtain ⟨i, hi⟩ := List.mem_iff_getElem?.1 hmem
    exact h i ((d.places_iff_toList _ i).2 ⟨v, hi⟩)
  · intro h i hi
    obtain ⟨v, hv⟩ := (d.places_iff_toList key i).1 hi
    exact h _ (List.mem_of_getElem? hv) rfl

/-- No key comes twice. -/
theorem nodup_keys (d : Ordered κ ν) : (d.toList.map (·.1)).Nodup := by
  rw [List.nodup_iff_pairwise_ne, List.pairwise_iff_getElem]
  intro i j hi hj hlt heq
  simp only [List.getElem_map] at heq
  rw [List.length_map] at hi hj
  have hplace : ∀ n (h : n < d.toList.length), d.places[(d.toList[n]).1]? = some n :=
    fun n h => (d.places_iff_toList _ n).2 ⟨(d.toList[n]).2, List.getElem?_eq_getElem h⟩
  have hsame := (hplace i hi).symm.trans ((congrArg (d.places[·]?) heq).trans (hplace j hj))
  simp only [Option.some.injEq] at hsame
  omega

/-- Looking a key up finds what the list holds. -/
theorem get?_eq_lookup [DecidableEq κ] (d : Ordered κ ν) (key : κ) :
    d.get? key = d.toList.lookup key := by
  rw [get?]
  split
  · next i h =>
    obtain ⟨value, hvalue⟩ := (d.places_iff key i).1 h
    rw [hvalue, Option.map_some]
    rw [← Array.getElem?_toList] at hvalue
    exact (lookup_of_getElem? d.nodup_keys hvalue).symm
  · next h =>
    refine (List.lookup_eq_none_iff.2 fun pair hmem => ?_).symm
    exact bne_iff_ne.2 fun heq => (d.places_eq_none_iff key).1 h pair hmem heq.symm

end Views

/-! ## Setting keys -/

section Setting

variable {κ ν : Type} [Ord κ] [Std.TransOrd κ]

/-- The dictionary without keys. -/
def empty : Ordered κ ν :=
  { entries := #[]
    places := ∅
    places_iff := by simp }

@[simp]
theorem toList_empty : (empty : Ordered κ ν).toList = [] := rfl

@[simp]
theorem get?_empty (key : κ) : (empty : Ordered κ ν).get? key = none := by
  simp [get?, empty]

variable [Std.LawfulEqOrd κ]

/-- A new key has its place behind all others. -/
theorem places_iff_push (d : Ordered κ ν) {key : κ} (value : ν) (h : d.places[key]? = none)
    (k : κ) (i : Nat) :
    (d.places.insert key d.entries.size)[k]? = some i ↔
      ∃ v, (d.entries.push (key, value))[i]? = some (k, v) := by
  rw [Std.TreeMap.getElem?_insert, Array.getElem?_push]
  by_cases hi : i = d.entries.size
  · have hnone : d.places[k]? ≠ some d.entries.size := by
      intro hk
      obtain ⟨v, hv⟩ := (d.places_iff k _).1 hk
      simp at hv
    by_cases hk : key = k <;> simp [hi, hk, hnone]
  · rw [if_neg hi, ← d.places_iff k i]
    by_cases hk : key = k
    · subst hk
      simp [h, Ne.symm hi]
    · simp [hk]

omit [Std.TransOrd κ] [Std.LawfulEqOrd κ] in
/-- A key keeps its place with another value. -/
theorem places_iff_set (d : Ordered κ ν) {key : κ} (value : ν) {place : Nat}
    (h : d.places[key]? = some place) (k : κ) (i : Nat) :
    d.places[k]? = some i ↔
      ∃ v, (d.entries.setIfInBounds place (key, value))[i]? = some (k, v) := by
  obtain ⟨old, hold⟩ := (d.places_iff key place).1 h
  rw [d.places_iff k i, Array.getElem?_setIfInBounds]
  by_cases hi : place = i
  · subst hi
    rw [if_pos rfl, if_pos (Array.getElem?_eq_some_iff.1 hold).1, hold]
    simp
  · rw [if_neg hi]

/-- Sets the value of a key. -/
def set (d : Ordered κ ν) (key : κ) (value : ν) : Ordered κ ν :=
  match h : d.places[key]? with
  | some place =>
    { entries := d.entries.setIfInBounds place (key, value)
      places := d.places
      places_iff := d.places_iff_set value h }
  | none =>
    let places := d.places.insert key d.entries.size
    { entries := d.entries.push (key, value)
      places
      places_iff := d.places_iff_push value h }

/-- The dictionary of a list of pairs; of two pairs with one key the later
gives the value and the earlier the place. -/
def ofList (pairs : List (κ × ν)) : Ordered κ ν :=
  pairs.foldl (fun d pair => d.set pair.1 pair.2) empty

/-- Setting a key sets it in the list. -/
@[simp]
theorem toList_set [DecidableEq κ] (d : Ordered κ ν) (key : κ) (value : ν) :
    (d.set key value).toList = assign d.toList key value := by
  rw [set]
  split
  · next place h =>
    obtain ⟨old, hold⟩ := (d.places_iff_toList key place).1 h
    rw [assign_of_getElem? value d.nodup_keys hold]
    simp [toList]
  · next h =>
    rw [assign_of_forall_ne value ((d.places_eq_none_iff key).1 h)]
    simp [toList]

/-- Setting a key changes what is found under that key alone. -/
theorem get?_set [DecidableEq κ] (d : Ordered κ ν) (key : κ) (value : ν) (k : κ) :
    (d.set key value).get? k = if key = k then some value else d.get? k := by
  simp only [get?_eq_lookup, toList_set, lookup_assign]

/-- The dictionary of a list of pairs comes of setting one after the other. -/
theorem toList_ofList [DecidableEq κ] (pairs : List (κ × ν)) :
    (ofList pairs).toList = pairs.foldl (fun list pair => assign list pair.1 pair.2) [] := by
  have hfold : ∀ d : Ordered κ ν, (pairs.foldl (fun d pair => d.set pair.1 pair.2) d).toList =
      pairs.foldl (fun list pair => assign list pair.1 pair.2) d.toList := by
    induction pairs with
    | nil => exact fun _ => rfl
    | cons pair rest ih => exact fun d => by simp [ih]
  exact hfold empty

end Setting

end Ordered

end Scenario
