import Scenario.Image
import Scenario.Ordered
import Scenario.Pool.Builder
import Scenario.Text.Blank

/-!
# Scenario.Revision

Taking the texts out of an image, and putting changed texts back.

There are two ways to put texts back.  *Append* keeps the pool byte for byte
and adds the changed strings behind it; *rebuild* makes a new pool of the
strings that are referred to, where unchanged ones keep their stored bytes.
Equal strings are stored once.  Both patch the 16-bit references in the code
in place, so the code keeps its length.

A revision has three stages: every reference is resolved, then the strings
are added to the new pool, and only then is the image changed.  A failure in
the first two leaves the image as it was.
-/

namespace Scenario

/-! ## Stored texts -/

/-- A reference, the pool offset it holds, and the text found there. -/
structure Resolved where
  reference : Int
  offset : Nat
  text : String
  deriving DecidableEq, Repr

namespace Image

/-- The pool offset at a position of the code. -/
def offsetAt (image : Image) (reference : Int) : Except Error Nat :=
  match image.code.readUInt? reference 2 with
  | some offset => .ok offset
  | none => .error (.referenceOutside reference image.code.length)

/-- Resolves one reference. -/
def resolveAt [Codecs] (image : Image) (encoding : String) (reference : Int) :
    Except Error Resolved := do
  let offset ← image.offsetAt reference
  let text ← Pool.resolve image.pool offset encoding (some (image.absolute reference))
  return { reference, offset, text }

/-- Resolves every reference. -/
def storedTexts [Codecs] (image : Image) (refs : List Int) (encoding : String) :
    Except Error (List Resolved) :=
  let code : Buffer := image.code.toArray
  let index := Pool.Index.ofPool image.pool
  refs.mapM fun reference =>
    match code.readWord? reference with
    | none => .error (.referenceOutside reference code.size)
    | some offset => do
      let text ← index.resolve offset encoding (some (image.absolute reference))
      return { reference, offset, text }

/-- Resolving all references resolves each of them. -/
theorem storedTexts_eq_mapM [Codecs] (image : Image) (refs : List Int) (encoding : String) :
    image.storedTexts refs encoding = refs.mapM (image.resolveAt encoding) := by
  simp only [storedTexts, Buffer.readWord?_toArray, Pool.Index.resolve_ofPool, List.size_toArray]
  congr 1
  funext reference
  simp only [resolveAt, offsetAt]
  cases image.code.readUInt? reference 2 <;> rfl

/-- The texts worth editing: those that are not blank. -/
def entries [Codecs] (image : Image) (refs : List Int) (encoding : String) :
    Except Error (List (Int × String)) := do
  let texts ← image.storedTexts refs encoding
  return (texts.filter fun r => !Text.isBlankText r.text).map fun r => (r.reference, r.text)

end Image

/-! ## Revisions -/

/-- How changed texts are put back. -/
inductive Mode where
  | append
  | rebuild
  deriving DecidableEq, Repr

namespace Mode

/-- The name of a mode. -/
def name : Mode → String
  | append => "append"
  | rebuild => "rebuild"

/-- The mode of a name. -/
def ofName (s : String) : Except Error Mode :=
  if s = append.name then .ok append
  else if s = rebuild.name then .ok rebuild
  else .error (.unknownMode s)

end Mode

/-- A change of the texts of an image. -/
structure Revision where
  mode : Mode
  /-- Positions of the references in the code. -/
  refs : List Int
  /-- New texts by reference. -/
  texts : Ordered Int String
  inputEncoding : String
  outputEncoding : String
  allowOverflow : Bool

/-- What a revision did. -/
structure Report where
  mode : Mode
  references : Nat
  patched : Nat
  uniqueStrings : Nat
  poolBefore : Nat
  poolAfter : Nat
  /-- New offsets by reference. -/
  patches : List (Int × Nat)
  deriving DecidableEq, Repr

namespace Revision

/-- The new text of a reference, if it differs from the stored one. -/
def newText? (r : Revision) (stored : Resolved) : Option String :=
  match r.texts.get? stored.reference with
  | some text => if text = stored.text then none else some text
  | none => none

/-- Adds what a reference needs in the new pool; nothing, if it stays as it
is in a pool that is kept.  `index` is that of the image's pool. -/
def contribute [Codecs] (r : Revision) (image : Image) (index : Pool.Index)
    (builder : Pool.Builder) (stored : Resolved) : Pool.Builder × Except Error (Option Placement) :=
  let address := image.absolute stored.reference
  match r.newText? stored, r.mode with
  | some text, _ =>
    let (builder, placement) := builder.add text address
    (builder, placement.map some)
  | none, .append => (builder, .ok none)
  | none, .rebuild =>
    let (builder, placement) := builder.addRaw (index.stringAt stored.offset) address
    (builder, placement.map some)

/-- The new pool under construction: placements so far, newest first, and
the fields to patch. -/
structure Draft where
  builder : Pool.Builder
  placements : List Placement
  patches : Ordered Int Nat

/-- Adds what every reference needs, up to the first failure. -/
def addAll [Codecs] (r : Revision) (image : Image) (index : Pool.Index) :
    Draft → List Resolved → Draft × Except Error Unit
  | draft, [] => (draft, .ok ())
  | ⟨builder, placements, patches⟩, stored :: rest =>
    match r.contribute image index builder stored with
    | (builder, .error e) => (⟨builder, placements, patches⟩, .error e)
    | (builder, .ok none) => addAll r image index ⟨builder, placements, patches⟩ rest
    | (builder, .ok (some placement)) =>
      addAll r image index
        { builder
          placements := placement :: placements
          patches := patches.set stored.reference placement.field } rest

/-- The draft that a revision starts from. -/
def start (r : Revision) (image : Image) : Draft :=
  let base := match r.mode with
    | .append => image.pool
    | .rebuild => []
  { builder := .start r.outputEncoding base r.allowOverflow, placements := [], patches := .empty }

/-- Patches fields one after the other, up to the first failure. -/
def patchAll : Buffer → List (Int × Nat) → Buffer × Except Error Unit
  | code, [] => (code, .ok ())
  | code, (reference, offset) :: rest =>
    match Buffer.patchFault? code.size reference offset with
    | some e => (code, .error e)
    | none => patchAll (code.setWord reference.toNat offset) rest

/-- Patches never change the length of the code. -/
@[simp]
theorem size_patchAll (code : Buffer) (patches : List (Int × Nat)) :
    (patchAll code patches).1.size = code.size := by
  fun_induction patchAll code patches with
  | case1 => rfl
  | case2 => rfl
  | case3 _ _ _ _ _ ih => simp [ih]

/-- What became of a revision: the image behind it, the placements made on
the way, and its result. -/
structure Outcome where
  image : Image
  placements : List Placement
  result : Except Error Report

/-- Changes the image as a finished draft says. -/
def commit (r : Revision) (image : Image) (draft : Draft) : Image × Except Error Report :=
  match patchAll image.code.toArray draft.patches.toList with
  | (code, .error e) => ({ image with code := code.toList }, .error e)
  | (code, .ok ()) =>
    let pool := draft.builder.value
    ({ image with code := code.toList, pool },
      .ok {
        mode := r.mode
        references := r.refs.length
        patched := draft.patches.size
        uniqueStrings := draft.builder.cache.size
        poolBefore := image.pool.length
        poolAfter := pool.length
        patches := draft.patches.toList })

/-- Carries a revision out. -/
def run [Codecs] (r : Revision) (image : Image) : Outcome :=
  match image.storedTexts r.refs r.inputEncoding with
  | .error e => ⟨image, [], .error e⟩
  | .ok stored =>
    match r.addAll image (.ofPool image.pool) (r.start image) stored with
    | (draft, .error e) => ⟨image, draft.placements.reverse, .error e⟩
    | (draft, .ok ()) =>
      let (image, result) := r.commit image draft
      ⟨image, draft.placements.reverse, result⟩

end Revision

end Scenario
