import Scenario.Compression.Chains

/-!
# Scenario.Compression.Compress

Compressing: the data is parsed into pieces, and these are written as a
stream.

The parse keeps the places behind it in chains.  `parse_eq_parseFrom` says
that it is the one that walks over all of them.
-/

namespace Scenario.Compression

/-- The pieces of the data `ahead`, of which the first byte has the index
`position`, with the places before it in chains; `done` holds the pieces
before, newest first. -/
def parseWith (done : List Piece) (position : Nat) (chains : Chains) (ahead : Bytes) :
    List Piece :=
  match ahead with
  | [] => done.reverse
  | b :: rest =>
    match chains.search position (b :: rest) with
    | none =>
      parseWith (.literal b :: done) (position + 1) (chains.add position (b :: rest)) rest
    | some m =>
      let slot := (windowStart + (position - m.distance)) % windowSize
      parseWith (.copy slot m.length :: done) (position + m.length)
        (chains.extend m.length position (b :: rest)) (rest.drop (m.length - 1))
termination_by ahead.length
decreasing_by
  · simp
  · simp only [List.length_drop, List.length_cons]; omega

/-- Parsing with chains is parsing, as long as the chains follow the suffixes
behind. -/
theorem parseWith_eq (done : List Piece) (behind : List Bytes) (chains : Chains)
    (h : chains.Follow behind) (ahead : Bytes) :
    parseWith done behind.length chains ahead = parseFrom done behind.length behind ahead := by
  match ahead with
  | [] => rw [parseWith, parseFrom]
  | b :: rest =>
    rw [parseWith, parseFrom, Chains.search_eq h]
    cases hm : search behind (b :: rest) with
    | none => exact parseWith_eq _ _ _ (h.add (b :: rest)) rest
    | some m =>
      have hlength := length_extend (length_le_of_search hm) behind
      have ih := fun done => parseWith_eq done _ _ (h.extend m.length (b :: rest))
        (rest.drop (m.length - 1))
      rw [hlength] at ih
      exact ih _
termination_by ahead.length
decreasing_by
  · simp
  · simp only [List.length_drop, List.length_cons]; omega

/-- The pieces of the data. -/
def parse (data : Bytes) : List Piece := parseWith [] 0 .empty data

/-- The parse is the one that walks over all earlier places. -/
theorem parse_eq_parseFrom (data : Bytes) : parse data = parseFrom [] 0 [] data :=
  parseWith_eq [] [] .empty Chains.follow_empty data

/-- Compresses the data. -/
def compress (data : Bytes) : Bytes := Piece.encode (parse data)

end Scenario.Compression
