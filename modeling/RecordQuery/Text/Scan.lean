/-! Scanning: a scan finds something at the front of a text and leaves the text after it. Blanks are
the four characters that may stand between parts, and links are items that repeat behind a sign. -/

namespace RecordQuery

/-- What was found at the front of a text, and the text after it. -/
abbrev Scan (α : Type) := List Char → Option (α × List Char)

namespace Text

def isBlank (c : Char) : Bool := c == ' ' || c == '\t' || c == '\r' || c == '\n'

def skipBlank (s : List Char) : List Char := s.dropWhile isBlank

theorem length_skipBlank_le (s : List Char) : (skipBlank s).length ≤ s.length :=
  (List.dropWhile_suffix isBlank).length_le

@[simp] theorem skipBlank_nil : skipBlank [] = [] := rfl

theorem skipBlank_of_not_blank {c : Char} {s : List Char} (h : isBlank c = false) :
    skipBlank (c :: s) = c :: s := by
  simp [skipBlank, h]

/-- Items each of which stands behind a sign, as many as there are; blanks may surround a sign. -/
def scanLinks {α : Type} (sign : List Char → Option (List Char)) (item : Scan α) (s : List Char) :
    List α × List Char :=
  match sign (skipBlank s) with
  | none => ([], s)
  | some r =>
    match item (skipBlank r) with
    | none => ([], s)
    | some (found, rest) =>
      if rest.length < s.length then
        let (more, rest) := scanLinks sign item rest
        (found :: more, rest)
      else ([], s)
termination_by s.length

/-- One or more items with signs between them. -/
def scanChain {α : Type} (sign : List Char → Option (List Char)) (item : Scan α) : Scan (List α) :=
  fun s => do
    let (first, s) ← item s
    let (more, s) := scanLinks sign item s
    return (first :: more, s)

end Text

end RecordQuery
