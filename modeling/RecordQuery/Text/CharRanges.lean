/-! Sets of characters as lists of closed ranges of code points. -/

namespace RecordQuery.Text

abbrev CharRanges := List (Nat × Nat)

namespace CharRanges

def contains (ranges : CharRanges) (c : Char) : Bool :=
  ranges.any fun (first, last) => first ≤ c.toNat && c.toNat ≤ last

end CharRanges

end RecordQuery.Text
