import Scenario.Proofs.Readback
import Scenario.Session

/-!
# Scenario.Proofs.Atomicity

Failures change nothing.  A revision resolves all references, adds all
strings, and then patches the code in place.  The first two stages work on
copies and may fail at any reference; the third works on the image itself, so
everything hangs on its never failing halfway.

1. `Revision.prepare` is what happens before the image is changed.
2. Patches that come out of it can all be made
   (`Revision.exists_patchAll_of_prepare`): a reference that was resolved lies
   inside the code, and an offset is stored in 16 bits.  The references need
   not be apart, or in any order, or come from decoding.
3. Hence a revision fails exactly if its preparation does
   (`Revision.result_eq_error_iff`).
-/

namespace Scenario

namespace Revision

/-- Everything that a revision does before it changes the image. -/
def prepare [Codecs] (r : Revision) (image : Image) : Except Error Draft := do
  let stored ← image.storedTexts r.refs r.inputEncoding
  let (draft, finished) := r.addAll image (.ofPool image.pool) (r.start image) stored
  finished
  return draft

variable [Codecs] {r : Revision} {image : Image}

theorem prepare_eq_ok_iff {draft : Draft} :
    r.prepare image = .ok draft ↔
      ∃ stored, image.storedTexts r.refs r.inputEncoding = .ok stored ∧
        r.addAll image (.ofPool image.pool) (r.start image) stored = (draft, .ok ()) := by
  unfold prepare
  rw [andThen_eq_ok_iff]
  constructor
  · rintro ⟨stored, hstored, h⟩
    obtain ⟨⟨⟩, hfinished, hdraft⟩ := andThen_eq_ok_iff.mp h
    exact ⟨stored, hstored, Prod.ext (Except.ok.inj hdraft) hfinished⟩
  · rintro ⟨stored, hstored, h⟩
    exact ⟨stored, hstored, andThen_eq_ok_iff.mpr ⟨(), by rw [h], by rw [h]; rfl⟩⟩

/-- Patches that were prepared can all be made. -/
theorem exists_patchAll_of_prepare {draft : Draft} (h : r.prepare image = .ok draft) :
    ∃ code, patchAll image.code.toArray draft.patches.toList = (code, .ok ()) := by
  obtain ⟨stored, hstored, hdraft⟩ := prepare_eq_ok_iff.mp h
  have hinside := patches_inside hstored hdraft
  apply exists_patchAll_eq_ok
  intro p hp
  rw [List.size_toArray]
  exact (hinside p hp).2

/-- A revision fails exactly if its preparation does. -/
theorem result_eq_error_iff {e : Error} :
    (r.run image).result = .error e ↔ r.prepare image = .error e := by
  cases hstored : image.storedTexts r.refs r.inputEncoding with
  | error e' => simp [run, prepare, hstored, bind, Except.bind]
  | ok stored =>
      cases hdraft : r.addAll image (.ofPool image.pool) (r.start image) stored with
      | mk draft finished =>
          cases finished with
          | error e' => simp [run, prepare, hstored, hdraft, bind, Except.bind]
          | ok =>
              have hprepare : r.prepare image = .ok draft :=
                prepare_eq_ok_iff.mpr ⟨stored, hstored, hdraft⟩
              obtain ⟨code, hcode⟩ := exists_patchAll_of_prepare hprepare
              simp [run, hstored, hdraft, commit, hcode, hprepare]

end Revision

namespace Session

section Apply

variable [Codecs] (s : Session) (mode : Mode) (texts : Ordered Int String)

@[simp] theorem result_apply :
    (s.apply mode texts).result = ((s.revision mode texts).run s.image).result := by
  rw [apply]
  split <;> simp [*]

@[simp] theorem placements_apply :
    (s.apply mode texts).placements = ((s.revision mode texts).run s.image).placements := by
  rw [apply]
  split <;> rfl

@[simp] theorem image_session_apply :
    (s.apply mode texts).session.image = ((s.revision mode texts).run s.image).image := by
  rw [apply]
  split <;> rfl

end Apply

variable {s : Session} {mode : Mode} {texts : Ordered Int String}

/-- A session that was changed reads in the encoding of the new texts. -/
theorem encoding_apply_of_ok [Codecs] {report : Report}
    (h : (s.apply mode texts).result = .ok report) :
    (s.apply mode texts).session.options.encoding = s.options.newEncoding := by
  rw [result_apply] at h
  simp [apply, h]

/-- A session that could not be changed is as it was. -/
theorem session_apply_of_error [Codecs] {e : Error} (h : (s.apply mode texts).result = .error e) :
    (s.apply mode texts).session = s := by
  rw [result_apply] at h
  simp [apply, h, Revision.run_image_of_error h]

end Session

/-- **Failures change nothing**: a revision that fails, for whatever list of
references, leaves the image as it was, and a session that it was to change
keeps its image and its options.  It fails before the first patch, and no
patch fails once all is prepared. -/
theorem Session.unchanged_of_error [Codecs] :
    (∀ (r : Revision) (image : Image) (e : Error), (r.run image).result = .error e →
      (r.run image).image = image ∧ r.prepare image = .error e) ∧
    (∀ (r : Revision) (image : Image) (draft : Revision.Draft), r.prepare image = .ok draft →
      ∃ code, Revision.patchAll image.code.toArray draft.patches.toList = (code, .ok ())) ∧
    ∀ (s : Session) (mode : Mode) (texts : Ordered Int String) (e : Error),
      (s.apply mode texts).result = .error e → (s.apply mode texts).session = s := by
  refine ⟨fun r image e h => ?_, fun r image draft h => ?_, fun s mode texts e h => ?_⟩
  · exact ⟨Revision.run_image_of_error h, Revision.result_eq_error_iff.mp h⟩
  · exact Revision.exists_patchAll_of_prepare h
  · exact Session.session_apply_of_error h

/-- References out of order, of which two overlap. -/
def Revision.overlapping : Revision :=
  { mode := .rebuild
    refs := [10, 3, 2, 6]
    texts := .ofList [(10, "XY"), (3, "Z")]
    inputEncoding := "ascii"
    outputEncoding := "ascii"
    allowOverflow := false }

/-- The same with a text at the last reference that has no bytes in the
encoding. -/
def Revision.halfway : Revision :=
  { Revision.overlapping with texts := .ofList [(10, "XY"), (3, "Z"), (6, "é")] }

theorem Session.unchanged_sample :
    (∃ e, (Revision.halfway.run .nested).result = .error e) ∧
      (Revision.halfway.run .nested).image = .nested ∧
      (∃ draft code, Revision.overlapping.prepare .nested = .ok draft ∧
        Revision.patchAll Image.nested.code.toArray draft.patches.toList = (code, .ok ()) ∧
        draft.patches.size = 4) ∧
      (Session.apply ⟨.nested, ⟨[], [10, 3, 2, 6], "sample", 13⟩, ⟨.v0, "ascii", none, false⟩⟩
        .rebuild Revision.halfway.texts).session =
        ⟨.nested, ⟨[], [10, 3, 2, 6], "sample", 13⟩, ⟨.v0, "ascii", none, false⟩⟩ := by
  obtain ⟨himage, hpatches, hsession⟩ := Session.unchanged_of_error
  have hfails : (Revision.halfway.run .nested).result.toOption.isNone = true := by decide +kernel
  obtain ⟨e, he⟩ : ∃ e, (Revision.halfway.run .nested).result = .error e := by
    cases hresult : (Revision.halfway.run .nested).result with
    | error e => exact ⟨e, rfl⟩
    | ok report => simp [hresult, Except.toOption] at hfails
  have hprepare : (Revision.overlapping.prepare .nested).toOption.map
      (fun draft => draft.patches.size) = some 4 := by
    decide +kernel
  obtain ⟨draft, hdraft, hsize⟩ := exists_ok_of_map_toOption hprepare
  obtain ⟨code, hcode⟩ := hpatches _ _ _ hdraft
  refine ⟨⟨e, he⟩, (himage _ _ _ he).1, ⟨draft, code, hdraft, hcode, hsize⟩, ?_⟩
  apply hsession _ _ _ e
  -- the session asks for the same revision
  rw [Session.result_apply]
  exact he

end Scenario
