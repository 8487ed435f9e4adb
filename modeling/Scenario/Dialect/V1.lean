import Scenario.Dialect.Signature

/-!
# Scenario.Dialect.V1

Function signatures of script format v1.
-/

namespace Scenario.Dialect.V1

/-- Runs of consecutive function codes: the first code, and the signature of
each function from there on. -/
def signatureRuns : List (Int × List String) := [
  (0x00, ["S", "S", "E", "", "", "", "", "", "EEEES", "EEEES", "EE", "", "E"]),
  (0x10, ["E", "", "E", "", "", "E", "EE", "E", "E", "EEE", "EEEEEEE", "EEEEEEE", "EEEEEEEEEEE",
    "EEEEE", "EEE", "EE"]),
  (0x20, ["EEEE", "EEEE", "EEE", "EEEEE", "EEEEE", "EEEE", "EEEE", "EEEEE", "EE", "EEEEEEEEEE",
    "EE", "E", "E", "E", "E", ""]),
  (0x30, ["EE", "EE", "E", "E", "E", "E", "E", "E", "EE", "EE", "EE", "E", "E", "E", "E", "E"]),
  (0x40, ["EE", "E", "", "", "EE", "E", "EEE", "E", "EE", "EE", "", "", "E", "E", "E", "E"]),
  (0x50, ["EE", "E", "E", "EEE", "", "E", "EE", "E", "E", "", "E", "E", "", "E", "E", "EE"]),
  (0x60, ["EE", "E", "E", "EE", "EE", "EE", "EE", "EEE", "EEE", "E", "E", "EEEE", "EEEES",
    "EEEEEEEEEEE", "SE", "EEEEE"]),
  (0x70, ["E", "E", "E", "EE", "EEEE", "", "", "E", "E", "E", "EE", "", ""]),
  (0x7E, ["EEEES", "E"]),
  (0x80, ["EE", "EEEE", "E", "ES", "E", "E", "E", "EEE", "EEE", "EE", "S", "E", "E", "E", "E",
    "EE"]),
  (0x90, ["EEEEE", "EE", "", "", "ES", "EE", "E", "EE", "EE", "EEE", "E", "EEEE", "EEEEE",
    "EEEES", "E", "EEE"]),
  (0xA0, ["EEEEES", "EE", "E", "", "EEEEE", "EEEE", "", "", "", "E", "EESEEEEEE", "", "EEEE", "E",
    "EEEEE", ""]),
  (0xB0, ["E", "", "E", "", "EEEEEEEEE", "EEEE", "", "EEEES", "EEEES", "E", "", "E", "E", "E",
    "E", "EEE"]),
  (0xC0, ["EEEE", "EEEE", "", "EE", "EE", "EE", "EE", "EEEE", "EE", "EESEEEEEE", "", "", "", "",
    "EESEEEEEE", ""]),
  (0xD0, ["EE", "EEESEEEEEEEE", "E", "EESEEEE", "EE", "EE", "E", "S", "", "", "", "", "", "EEE",
    "EEEEE", "EEEEE"]),
  (0xE0, ["EEEEE", "E", "", "E", "E", "EEEE", "", "EEEEE", "EEEEE", "", "", "EE", "SE", "EEEEEE",
    "E", "EEESEEEEEE"]),
  (0xF0, ["E", "EEEEEEEEEE", "E", "E", "EE", "EEE", "E", "E", "E", "E", "E", "E", "E", "EE", "EE",
    ""])]

/-- Functions with a mnemonic of their own. -/
def names : List (Int × String) := [(0x00, "push_string"), (0x01, "push_string")]

end Scenario.Dialect.V1
