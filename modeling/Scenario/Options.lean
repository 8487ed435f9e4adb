import Scenario.Dialect
import Scenario.Encoding

/-!
# Scenario.Options

Settings of a session: format version, text encodings and what to do with
pool offsets that do not fit.  Names are checked and made canonical when
options are made or changed: first the version, then the encoding of the
script, then the encoding of new texts.
-/

namespace Scenario

/-- Settings of a session. -/
structure Options where
  version : Version
  /-- Canonical name of the encoding of the script. -/
  encoding : String
  /-- Canonical name of the encoding of new texts, if it is set apart. -/
  outputEncoding : Option String
  /-- Whether pool offsets above `FFFF` are stored modulo 65536. -/
  allowOverflow : Bool
  deriving DecidableEq, Repr

namespace Options

/-- Options with every name checked. -/
def make (version : VersionKey) (encoding : String) (outputEncoding : Option String)
    (allowOverflow : Bool) : Except Error Options := do
  let version ← Version.ofKey version
  let encoding ← Encoding.canonicalName encoding
  let outputEncoding ← outputEncoding.mapM Encoding.canonicalName
  return { version, encoding, outputEncoding, allowOverflow }

/-- The options unless others are asked for. -/
def default : Options :=
  { version := .default
    encoding := Encoding.defaultName
    outputEncoding := none
    allowOverflow := false }

/-- The encoding in which new texts are stored. -/
def newEncoding (o : Options) : String := o.outputEncoding.getD o.encoding

/-- Settings to change; what is absent stays. -/
structure Changes where
  version : Option VersionKey
  encoding : Option String
  outputEncoding : Option (Option String)
  allowOverflow : Option Bool

/-- Options with some settings changed. -/
def change (o : Options) (c : Changes) : Except Error Options :=
  make (c.version.getD (.text o.version.name)) (c.encoding.getD o.encoding)
    (c.outputEncoding.getD o.outputEncoding) (c.allowOverflow.getD o.allowOverflow)

end Options

end Scenario
