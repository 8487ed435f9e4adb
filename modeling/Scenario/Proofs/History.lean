import Scenario.Proofs.Patched
import Scenario.Proofs.References
import Scenario.Proofs.Revising
import Scenario.Proofs.Sections
import Scenario.Proofs.Tables
import Scenario.Session

/-!
# Scenario.Proofs.History

A session through any number of revisions.

A session decodes its script once and never again, so everything it does
later rests on what decoding found: where the string fields are.  Revisions
mix both ways of putting texts back, fail halfway, and store offsets modulo
65536.  Still the image keeps track of the one that was loaded
(`Image.Tracks`): it differs in its pool and in its string fields, which lead
into the pool.

1. `Image.Tracks.run` — a revision keeps this, whether it succeeds or not.
2. `Session.Tracks.runs` — hence any list of calls keeps it.
3. Hence the script can be written, loaded and decoded again at any time,
   with the instructions that were decoded first.
-/

namespace Scenario

/-! ## images -/

/-- An image that differs from `image₀` in its pool and in the fields of
references, which lead into the pool. -/
structure Image.Tracks (refs : List Int) (image₀ image : Image) : Prop where
  header : image.header = image₀.header
  labels : image.labels = image₀.labels
  codeBase : image.codeBase = image₀.codeBase
  length_code : image.code.length = image₀.code.length
  outside : ∀ i : Nat, (∀ r ∈ refs, (i : Int) < r ∨ r + 2 ≤ i) → image.code[i]? = image₀.code[i]?
  references : ∀ r ∈ refs, ∃ offset, image.code.readUInt? r 2 = some offset ∧
    offset < image.pool.length

/-- A revision, whether it succeeds or not, keeps track. -/
theorem Image.Tracks.run [Codecs] {r : Revision} {image₀ image : Image} {low high : Int}
    (hfields : FieldsIn low high r.refs) (h : Image.Tracks r.refs image₀ image) :
    Image.Tracks r.refs image₀ (r.run image).image := by
  cases hresult : (r.run image).result with
  | error e =>
      rw [Revision.run_image_of_error hresult]
      exact h
  | ok report =>
      obtain ⟨b, hdone⟩ := Revision.exists_done_of_run hfields hresult
      exact {
        header := hdone.header.trans h.header
        labels := hdone.labels.trans h.labels
        codeBase := hdone.codeBase.trans h.codeBase
        length_code := hdone.length_code.trans h.length_code
        outside := fun i hi => (hdone.outside i hi).trans (h.outside i hi)
        references := fun _ hr => hdone.exists_offset hr }

/-! ## sessions -/

namespace Session

/-- A call that puts texts into a session. -/
structure Call where
  mode : Mode
  texts : Ordered Int String
  /-- What the session is told to do with offsets above `FFFF`. -/
  allowOverflow : Bool

/-- The session with the overflow policy of a call. -/
def prepare (s : Session) (call : Call) : Session :=
  { s with options := { s.options with allowOverflow := call.allowOverflow } }

/-- The session after a call, whether that succeeded or not. -/
def step [Codecs] (s : Session) (call : Call) : Session :=
  ((s.prepare call).apply call.mode call.texts).session

/-- The session after a list of calls. -/
def runs [Codecs] (s : Session) (calls : List Call) : Session := calls.foldl step s

/-- A session that works on what was decoded in `s₀`, on an image that keeps
track of the one of `s₀`. -/
structure Tracks (s₀ s : Session) : Prop where
  decoded : s.decoded = s₀.decoded
  version : s.options.version = s₀.options.version
  image : Image.Tracks s₀.refs s₀.image s.image

/-- A call changes the image by a revision of the references that were
decoded, and leaves them and the version as they are. -/
theorem step_eq [Codecs] (s : Session) (call : Call) :
    ∃ r : Revision, r.refs = s.refs ∧ (s.step call).image = (r.run s.image).image ∧
      (s.step call).decoded = s.decoded ∧
      (s.step call).options.version = s.options.version := by
  refine ⟨(s.prepare call).revision call.mode call.texts, rfl, ?_⟩
  rw [step, apply]
  split <;> exact ⟨rfl, rfl, rfl⟩

namespace Tracks

variable {s₀ s : Session}

/-- A call, whether it succeeds or not, keeps track. -/
theorem step [Codecs] {low high : Int} (hfields : FieldsIn low high s₀.refs) (h : s₀.Tracks s)
    (call : Call) : s₀.Tracks (s.step call) := by
  obtain ⟨r, hrefs, himage, hdecoded, hversion⟩ := s.step_eq call
  have hsame : r.refs = s₀.refs := by rw [hrefs, refs, h.decoded, refs]
  refine ⟨hdecoded.trans h.decoded, hversion.trans h.version, ?_⟩
  rw [himage, ← hsame]
  exact Image.Tracks.run (hsame ▸ hfields) (hsame ▸ h.image)

/-- Any list of calls keeps track. -/
theorem runs [Codecs] {low high : Int} (hfields : FieldsIn low high s₀.refs) (h : s₀.Tracks s)
    (calls : List Call) : s₀.Tracks (s.runs calls) := by
  induction calls generalizing s with
  | nil => exact h
  | cons call calls ih => exact ih (h.step hfields call)

end Tracks

/-- What was loaded lies in the file and was decoded. -/
theorem load_eq_ok [Codecs] {data : Bytes} {options : Options} {s : Session}
    (h : load data options = .ok s) :
    (∃ bs, s.image.FileLaid bs data) ∧ s.options = options ∧
      s.image.decode options.version.dialect options.encoding = .ok s.decoded := by
  rw [load] at h
  split at h
  · cases h
  · next image himage =>
    obtain ⟨d, hd, hs⟩ := andThen_eq_ok_iff.mp h
    obtain rfl := Except.ok.inj hs
    exact ⟨Image.load_eq_ok_iff.mp himage, rfl, hd⟩

/-- **The invariant of sessions**: after any calls the image keeps track of the
one that was loaded, is what its file is loaded as, and is decoded to the same
instructions, but for the offsets and texts of references. -/
theorem runs_of_load [Codecs] {data : Bytes} {options : Options} {s₀ : Session}
    (h : load data options = .ok s₀) (calls : List Call) :
    s₀.Tracks (s₀.runs calls) ∧
      (∃ file, (s₀.runs calls).toBytes = .ok file ∧
        Image.load file = .ok (s₀.runs calls).image) ∧
      ∀ encoding, Encoding.Decodes encoding →
        ∃ d, (s₀.runs calls).image.decode options.version.dialect encoding = .ok d ∧
          d.instructions.map (Instruction.recast .forgetTexts) =
            s₀.decoded.instructions.map (Instruction.recast .forgetTexts) ∧
          d.stringRefs = s₀.refs ∧ d.consumed = s₀.decoded.consumed := by
  obtain ⟨⟨bs, hfile⟩, -, hd⟩ := load_eq_ok h
  have hstart : s₀.Tracks s₀ :=
    ⟨rfl, rfl, rfl, rfl, rfl, rfl, fun _ _ => rfl, fun _ hr => Image.exists_offset_of_decode hd hr⟩
  have htracks := hstart.runs (Image.fieldsIn_of_decode hd) calls
  have himage := htracks.image
  have hfile' := hfile.revised himage.header himage.labels himage.codeBase himage.length_code
  exact ⟨htracks, ⟨_, hfile'.write, hfile'.load⟩, fun encoding hdecodes =>
    Image.exists_decode_of_patched hd himage.codeBase himage.length_code himage.outside
      himage.references hdecodes⟩

/-- A file with one label, one call with a string, and three bytes of padding. -/
def sampleFile : Bytes := [
  0x00, 0x00, 0x00, 0x00, 0x04, 0x00, 0x07, 0x00, 0x00, 0x00, 0x00, 0x00,
  0x01, 0x00, 0x02, 0x00,
  0x00, 0x00, 0x00, 0x00, 0x00, 0x00, 0x00,
  0x41, 0x42, 0x00]

/-- A call in each mode, and between them one whose text has no bytes in the
encoding. -/
def sampleCalls : List Call := [
  ⟨.rebuild, .ofList [(2, "XYZ")], false⟩,
  ⟨.append, .ofList [(2, "é")], false⟩,
  ⟨.append, .ofList [(2, "")], true⟩]

theorem runs_sample :
    ∃ s₀, load sampleFile ⟨.v1, "ascii", none, false⟩ = .ok s₀ ∧ s₀.refs = [2] ∧
      s₀.Tracks (s₀.runs sampleCalls) ∧
      ∃ d, (s₀.runs sampleCalls).image.decode Version.v1.dialect "ascii" = .ok d ∧
        d.stringRefs = [2] ∧ d.consumed = 4 := by
  let image : Image := ⟨sampleFile.take 12, [⟨1, 2⟩], List.replicate 7 0, 16, [0x41, 0x42, 0x00]⟩
  let options : Options := ⟨.v1, "ascii", none, false⟩
  let ctx : Context := ⟨Version.v1.dialect, .ofPool image.pool, "ascii"⟩
  obtain ⟨spec, hspec, hoperands⟩ := Version.v1.lookup_zero
  have hdecodes : Encoding.Decodes "ascii" := Encoding.decodes_of_lenient rfl
  obtain ⟨text, htext⟩ := @Context.resolves_of_lt _ ctx (Bytes.word 0 0) hdecodes (by decide) 18
  have hstring : OperandsLaid (ArgumentLaid ctx 16) spec 2 0 spec.operands
      [.string ⟨2, 0, text⟩] ([0, 0] ++ []) := by
    rw [hoperands]
    exact .cons (.string 0 0 htext) .nil
  have hcall : InstructionLaid ctx 16 0
      ⟨16, 0, "exec_func", [.function 17 0 spec.mnemonic [.string ⟨2, 0, text⟩]]⟩
      (0 :: ((0 :: ([0, 0] ++ [])) ++ [])) :=
    .mk 0 rfl (.cons (.function 0 hspec hstring) .nil)
  have hend : CodeLaid ctx 16 4 [] [] [0, 0, 0] := .done rfl
  obtain ⟨d, hd, hrefs, hconsumed⟩ : ∃ d, image.decode Version.v1.dialect "ascii" = .ok d ∧
      d.stringRefs = [2] ∧ d.consumed = 4 :=
    ⟨_, Code.decode_eq_ok_iff.mpr ⟨_, _, _, CodeLaid.step rfl hcall hend, rfl, rfl⟩, rfl, rfl⟩
  have hload : load sampleFile options = .ok ⟨image, d, options⟩ := by
    have himage : Image.load sampleFile = .ok image := rfl
    rw [load, himage]
    exact andThen_eq_ok_iff.mpr ⟨d, hd, rfl⟩
  obtain ⟨htracks, -, hdecode⟩ := runs_of_load hload sampleCalls
  obtain ⟨d', hd', -, hrefs', hconsumed'⟩ := hdecode "ascii" hdecodes
  exact ⟨_, hload, hrefs, htracks, d', hd', hrefs'.trans hrefs, hconsumed'.trans hconsumed⟩

end Session

end Scenario
