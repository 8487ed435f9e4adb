import Mathlib.Data.List.Forall2

/-!
# Scenario.Proofs.Traverse

Steps that can fail.  Two steps in a row succeed exactly when both do.  A
traversal of a list succeeds exactly when every step does, and its results
stand in the order of the list; this is the form in which labels, references
and tables are reasoned about.
-/

namespace Scenario

variable {ε α β : Type}

/-- Two steps succeed exactly when the first does and the second does with its
result. -/
theorem andThen_eq_ok_iff {x : Except ε α} {next : α → Except ε β} {b : β} :
    (x >>= next) = .ok b ↔ ∃ a, x = .ok a ∧ next a = .ok b := by
  cases x with
  | error e => simp [bind, Except.bind]
  | ok a => simp [bind, Except.bind]

/-- Two steps fail where the first does, or where the second does. -/
theorem andThen_eq_error_iff {x : Except ε α} {next : α → Except ε β} {e : ε} :
    (x >>= next) = .error e ↔ x = .error e ∨ ∃ a, x = .ok a ∧ next a = .error e := by
  cases x with
  | error e => simp [bind, Except.bind]
  | ok a => simp [bind, Except.bind]

section Stateful

variable {σ : Type} {x : EStateM ε σ α} {next : α → EStateM ε σ β} {s s' : σ}

/-- Two steps on a state succeed exactly when the first does and the second
does where the first left off. -/
theorem runThen_eq_ok_iff {b : β} :
    (x >>= next) s = .ok b s' ↔ ∃ a s₁, x s = .ok a s₁ ∧ next a s₁ = .ok b s' := by
  change EStateM.bind x next s = _ ↔ _
  unfold EStateM.bind
  split
  · next a s₁ h => simp [h]
  · next e s₁ h => simp [h]

/-- Two steps on a state fail where the first does, or where the second
does. -/
theorem runThen_eq_error_iff {e : ε} :
    (x >>= next) s = .error e s' ↔
      x s = .error e s' ∨ ∃ a s₁, x s = .ok a s₁ ∧ next a s₁ = .error e s' := by
  change EStateM.bind x next s = _ ↔ _
  unfold EStateM.bind
  split
  · next a s₁ h => simp [h]
  · next e₁ s₁ h => simp [h]

end Stateful

/-- A part of a result that was computed belongs to one. -/
theorem exists_ok_of_map_toOption {x : Except ε α} {part : α → β} {b : β}
    (h : x.toOption.map part = some b) : ∃ a, x = .ok a ∧ part a = b := by
  cases x with
  | error e => cases h
  | ok a => exact ⟨a, rfl, Option.some.inj h⟩

variable {f : α → Except ε β}

/-- A traversal succeeds exactly when each of its steps does. -/
theorem mapM_eq_ok_iff {xs : List α} {ys : List β} :
    xs.mapM f = .ok ys ↔ List.Forall₂ (fun x y => f x = .ok y) xs ys := by
  induction xs generalizing ys with
  | nil =>
      rw [List.mapM_nil, List.forall₂_nil_left_iff]
      exact ⟨fun h => (Except.ok.inj h).symm, fun h => h ▸ rfl⟩
  | cons x xs ih =>
      rw [List.mapM_cons, List.forall₂_cons_left_iff]
      constructor
      · intro h
        obtain ⟨y, hx, hrest⟩ := andThen_eq_ok_iff.mp h
        obtain ⟨ys', hxs, hys⟩ := andThen_eq_ok_iff.mp hrest
        exact ⟨y, ys', hx, ih.mp hxs, (Except.ok.inj hys).symm⟩
      · rintro ⟨y, ys', hx, hxs, rfl⟩
        rw [hx, ih.mpr hxs]
        rfl

/-- A traversal with a step whose result is known whenever it succeeds. -/
theorem mapM_eq_ok_iff_map {P : α → Prop} {g : α → β} (hf : ∀ x y, f x = .ok y ↔ P x ∧ y = g x)
    {xs : List α} {ys : List β} :
    xs.mapM f = .ok ys ↔ (∀ x ∈ xs, P x) ∧ ys = xs.map g := by
  rw [mapM_eq_ok_iff]
  simp only [hf]
  constructor
  · intro h
    induction h with
    | nil => simp
    | cons hone _ ih => exact ⟨List.forall_mem_cons.mpr ⟨hone.1, ih.1⟩, by rw [hone.2, ih.2]; rfl⟩
  · rintro ⟨hP, rfl⟩
    rw [List.forall₂_map_right_iff, List.forall₂_same]
    exact fun x hx => ⟨hP x hx, rfl⟩

/-- A traversal that keeps the entries beside the results. -/
theorem mapM_pair_eq_ok {xs : List α} {ys : List β}
    (h : List.Forall₂ (fun x y => f x = .ok y) xs ys) :
    xs.mapM (fun x => do return (x, ← f x)) = Except.ok (xs.zip ys) := by
  induction h with
  | nil => rfl
  | cons hone _ ih =>
      rw [List.mapM_cons, hone, ih]
      rfl

/-- Every result of a traversal comes from an entry of the list. -/
theorem exists_of_mem_mapM {xs : List α} {ys : List β} (h : xs.mapM f = .ok ys) {y : β}
    (hy : y ∈ ys) : ∃ x ∈ xs, f x = .ok y := by
  induction mapM_eq_ok_iff.mp h with
  | nil => simp at hy
  | cons hxy hrest ih =>
      rcases List.mem_cons.mp hy with rfl | hy
      · exact ⟨_, List.mem_cons_self, hxy⟩
      · obtain ⟨x, hx, hfx⟩ := ih (mapM_eq_ok_iff.mpr hrest) hy
        exact ⟨x, List.mem_cons_of_mem _ hx, hfx⟩

/-- Every entry of the list of a traversal has a result. -/
theorem exists_mem_of_mapM {xs : List α} {ys : List β} (h : xs.mapM f = .ok ys) {x : α}
    (hx : x ∈ xs) : ∃ y ∈ ys, f x = .ok y := by
  induction mapM_eq_ok_iff.mp h with
  | nil => simp at hx
  | cons hxy hrest ih =>
      rcases List.mem_cons.mp hx with rfl | hx
      · exact ⟨_, List.mem_cons_self, hxy⟩
      · obtain ⟨y, hy, hfx⟩ := ih (mapM_eq_ok_iff.mpr hrest) hx
        exact ⟨y, List.mem_cons_of_mem _ hy, hfx⟩

/-- A check that all entries of a list pass leaves the list as it is. -/
theorem filterM_eq_ok {check : α → Except ε Bool} {xs : List α} (h : ∀ x ∈ xs, check x = .ok true) :
    xs.filterM check = .ok xs := by
  have hkept : ∀ kept, xs.filterAuxM check kept = .ok (xs.reverse ++ kept) := by
    induction xs with
    | nil => exact fun _ => rfl
    | cons x xs ih =>
        intro kept
        rw [List.forall_mem_cons] at h
        rw [List.filterAuxM, h.1]
        refine (ih h.2 (x :: kept)).trans ?_
        rw [List.reverse_cons, List.append_assoc]
        rfl
  rw [List.filterM, hkept]
  simp [pure, Except.pure, bind, Except.bind]

/-- What a check leaves of a list has passed it. -/
theorem of_mem_filterM {check : α → Except ε Bool} {xs ys : List α}
    (h : xs.filterM check = .ok ys) {y : α} (hy : y ∈ ys) : check y = .ok true := by
  have hkept : ∀ kept ys, (∀ y ∈ kept, check y = .ok true) → xs.filterAuxM check kept = .ok ys →
      ∀ y ∈ ys, check y = .ok true := by
    clear h hy
    induction xs with
    | nil =>
        intro kept ys hkept h
        rwa [← Except.ok.inj h]
    | cons x xs ih =>
        intro kept ys hkept h
        obtain ⟨passed, hpassed, h⟩ := andThen_eq_ok_iff.mp h
        refine ih _ ys ?_ h
        cases passed with
        | true => exact List.forall_mem_cons.mpr ⟨hpassed, hkept⟩
        | false => exact hkept
  obtain ⟨zs, hzs, hys⟩ := andThen_eq_ok_iff.mp h
  rw [← Except.ok.inj hys, List.mem_reverse] at hy
  exact hkept [] zs (by simp) hzs y hy

/-- A check of a list that fails does so at an entry. -/
theorem exists_of_filterM_eq_error {check : α → Except ε Bool} {xs : List α} {e : ε}
    (h : xs.filterM check = .error e) : ∃ x ∈ xs, check x = .error e := by
  have hkept : ∀ kept, xs.filterAuxM check kept = .error e → ∃ x ∈ xs, check x = .error e := by
    clear h
    induction xs with
    | nil =>
        intro kept h
        cases h
    | cons x xs ih =>
        intro kept h
        rcases andThen_eq_error_iff.mp h with hx | ⟨passed, -, h⟩
        · exact ⟨x, List.mem_cons_self, hx⟩
        · obtain ⟨x', hmem, hx'⟩ := ih _ h
          exact ⟨x', List.mem_cons_of_mem _ hmem, hx'⟩
  rcases andThen_eq_error_iff.mp h with h | ⟨_, -, h⟩
  · exact hkept [] h
  · cases h

/-- A traversal that fails does so at the first entry that fails. -/
theorem exists_split_of_mapM_eq_error {xs : List α} {e : ε} (h : xs.mapM f = .error e) :
    ∃ front x behind, xs = front ++ x :: behind ∧ (∀ y ∈ front, ∃ z, f y = .ok z) ∧
      f x = .error e := by
  induction xs with
  | nil => cases h
  | cons x xs ih =>
      rw [List.mapM_cons] at h
      rcases andThen_eq_error_iff.mp h with hx | ⟨z, hz, h⟩
      · exact ⟨[], x, xs, rfl, by simp, hx⟩
      · rcases andThen_eq_error_iff.mp h with h | ⟨_, -, h⟩
        · obtain ⟨front, y, behind, rfl, hfront, hy⟩ := ih h
          exact ⟨x :: front, y, behind, rfl, List.forall_mem_cons.mpr ⟨⟨z, hz⟩, hfront⟩, hy⟩
        · cases h

theorem exists_of_mapM_eq_error {xs : List α} {e : ε} (h : xs.mapM f = .error e) :
    ∃ x ∈ xs, f x = .error e := by
  obtain ⟨front, x, behind, rfl, -, hx⟩ := exists_split_of_mapM_eq_error h
  exact ⟨x, by simp, hx⟩

/-- A traversal succeeds if each of its steps can. -/
theorem exists_mapM_eq_ok {xs : List α} (h : ∀ x ∈ xs, ∃ y, f x = .ok y) :
    ∃ ys, xs.mapM f = .ok ys := by
  induction xs with
  | nil => exact ⟨[], rfl⟩
  | cons x xs ih =>
      obtain ⟨y, hy⟩ := h x List.mem_cons_self
      obtain ⟨ys, hys⟩ := ih fun x hx => h x (List.mem_cons_of_mem _ hx)
      exact ⟨y :: ys, mapM_eq_ok_iff.mpr (.cons hy (mapM_eq_ok_iff.mp hys))⟩

end Scenario
