import RecordQuery.Text.CharRanges

/-! The property White_Space, and a text without the white space at its two ends. -/

namespace RecordQuery.Text

def whiteSpaceRanges : CharRanges :=
  [ (0x9, 0xd), (0x20, 0x20), (0x85, 0x85), (0xa0, 0xa0), (0x1680, 0x1680), (0x2000, 0x200a),
    (0x2028, 0x2029), (0x202f, 0x202f), (0x205f, 0x205f), (0x3000, 0x3000)]

def isWhiteSpace (c : Char) : Bool := whiteSpaceRanges.contains c

def trimStart (s : List Char) : List Char := s.dropWhile isWhiteSpace

def trim (s : List Char) : List Char := (trimStart (trimStart s).reverse).reverse

theorem trimStart_eq_self {s : List Char} (h : ∀ c ∈ s.head?, isWhiteSpace c = false) :
    trimStart s = s := by
  cases s with
  | nil => rfl
  | cons c s => simp [trimStart, h c (by simp)]

/-- A text with no white space at its ends is left alone. -/
theorem trim_eq_self {s : List Char} (first : ∀ c ∈ s.head?, isWhiteSpace c = false)
    (last : ∀ c ∈ s.getLast?, isWhiteSpace c = false) : trim s = s := by
  rw [trim, trimStart_eq_self first, trimStart_eq_self, List.reverse_reverse]
  simpa using last

end RecordQuery.Text
