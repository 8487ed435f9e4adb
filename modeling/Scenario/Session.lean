import Scenario.Code.Reader
import Scenario.Listing
import Scenario.Options
import Scenario.Revision
import Scenario.Sheet

/-!
# Scenario.Session

A script that is loaded and decoded, with the options it is worked on with.

Decoding happens once, on loading.  Revisions patch the code in place and
exchange the pool, so the positions of references stay valid, while the
texts in decoded instructions are those found on loading.  After a revision
the pool is read in the encoding of the new texts.
-/

namespace Scenario

/-- A loaded script. -/
structure Session where
  image : Image
  decoded : Decoded
  options : Options

namespace Session

variable [Codecs]

/-- Decodes an image. -/
def ofImage (image : Image) (options : Options) : Except Interrupted Session := do
  let decoded ← image.decode options.version.dialect options.encoding
  return { image, decoded, options }

/-- Loads and decodes a script file. -/
def load (data : Bytes) (options : Options) : Except Interrupted Session :=
  match Image.load data with
  | .error e => .error ⟨e, []⟩
  | .ok image => ofImage image options

/-- Positions of the references. -/
def refs (s : Session) : List Int := s.decoded.stringRefs

/-- The listing of the script. -/
def listing (s : Session) : Except Error String :=
  Listing.render s.decoded.instructions (some s.image) s.decoded.version

/-- The texts worth editing. -/
def entries (s : Session) : Except Error (List (Int × String)) :=
  s.image.entries s.refs s.options.encoding

/-- The sheet of the script. -/
def sheet (s : Session) : Except Error String := do
  return Sheet.format (← s.entries)

/-- The file of the script. -/
def toBytes (s : Session) : Except Error Bytes := s.image.write

/-- The revision that puts texts into the script. -/
def revision (s : Session) (mode : Mode) (texts : Ordered Int String) : Revision :=
  { mode
    refs := s.refs
    texts
    inputEncoding := s.options.encoding
    outputEncoding := s.options.newEncoding
    allowOverflow := s.options.allowOverflow }

/-- What became of a session that was to be changed. -/
structure Outcome where
  session : Session
  placements : List Placement
  result : Except Error Report

/-- Puts texts into the script. -/
def apply (s : Session) (mode : Mode) (texts : Ordered Int String) : Outcome :=
  let outcome := (s.revision mode texts).run s.image
  let session := { s with image := outcome.image }
  match outcome.result with
  | .error e => ⟨session, outcome.placements, .error e⟩
  | .ok report =>
    ⟨{ session with options := { s.options with encoding := s.options.newEncoding } },
      outcome.placements, .ok report⟩

/-- Changes the options; what was decoded stays. -/
def changeOptions (s : Session) (changes : Options.Changes) : Except Error Session := do
  return { s with options := ← s.options.change changes }

end Session

end Scenario
