import Scenario.Dialect.Signature

/-!
# Scenario.Dialect.V2

Function signatures of script format v2.
-/

namespace Scenario.Dialect.V2

/-- Runs of consecutive function codes: the first code, and the signature of
each function from there on. -/
def signatureRuns : List (Int × List String) := [
  (0x00, ["S", "S", "E", "", "", "", "", "", "EEEES", "EEEES", "EE", "", "E", "EEEE", "EEEE",
    "EE"]),
  (0x10, ["E", "", "E", "", "", "E", "EE", "E", "E", "E", "EEEEEE", "EEEEEEE", "EEEEEEEEEEE",
    "EEEEE", "EEE", "EE"]),
  (0x20, ["EEEE", "EEEE", "EEE", "EEEEE", "E", "EEEE", "EEEE", "EEEEE", "EE", "EEEEEEEEEEE", "EE",
    "E", "E", "E", "E", ""]),
  (0x30, ["EE", "EE", "E", "E", "E", "E", "E", "E", "EE", "EE", "EE", "EE", "E", "E", "E", "E"]),
  (0x40, ["EE", "E", "", "", "EE", "E", "EEE", "E", "EE", "EE", "", "", "E", "E", "E", "E"]),
  (0x50, ["EE", "EEEEE", "S", "E", "EE", "E", "EE", "E", "E", "", "E", "E", "", "E", "E", "EE"]),
  (0x60, ["EE", "E", "E", "EE", "EE", "EE", "EE", "EEE", "EEE", "E", "E", "EEEE", "EEEES",
    "EEEEEEEEEEE", "SE", "EEEEE"]),
  (0x70, ["E", "E", "E", "EE", "EEEE", "", "", "E", "E", "EEES", "EE", "", "", "S", "EE", "E"]),
  (0x80, ["EE", "EEEE", "E", "ES", "E", "E", "E", "EEE", "EEE", "EEE", "S", "E", "E", "E", "E",
    "EE"]),
  (0x90, ["EEEEE", "EE", "", "", "ES", "EE", "E", "EE", "EE", "EEE", "E", "EEEE", "EEEEE",
    "EEEES", "E", "EEEEEW"]),
  (0xA0, ["EE", "E", "", "EEEEE", "EEEE", "", "E", "", "E", "EESEEEEEE", "", "EEEE", "E", "EEEEE",
    "", "E"]),
  (0xB0, ["", "E", "", "EEEEEEEEE", "EEEE", "", "EEEES", "EEEES", "E", "", "E", "E", "E", "E",
    "EEE", "EEEE"]),
  (0xC0, ["EEEE", "", "EE", "EE", "EE", "EE", "EEEE", "EE", "EESEEEEEE", "", "", "", "",
    "EESEEEEEE", "SE", "EE"]),
  (0xD0, ["EEESEEEEEEEE", "E", "EESEEEE", "EE", "EE", "E", "S", "", "", "", "", "", "EEE",
    "EEEEEE", "EEEEEE", "EEEEEE"]),
  (0xE0, ["E", "", "EEEEE", "E", "EEEE", "", "EEEEE", "EEEEE", "", "", "EEE", "SE", "EEEEEE", "E",
    "", "E"]),
  (0xF0, ["EEEEEEEEEE", "E", "E", "EE", "EEE", "E", "E", "E", "E", "E", "E", "E", "EE", "EE", "",
    "S"])]

/-- Functions with a mnemonic of their own. -/
def names : List (Int × String) := [(0x00, "push_string"), (0x01, "push_string")]

end Scenario.Dialect.V2
