import RecordQuery.Text.CaseTable

/-! Full lower-casing of a text. Every character is mapped on its own, with two exceptions: the
dotted capital I becomes two characters, and a capital sigma becomes a final sigma where it ends a
word. Whether it does depends on the nearest characters on either side that are not ignorable for
case, so a prefix of a text need not be lower-cased to a prefix. -/

namespace RecordQuery.Text

namespace CaseRun

def moves (run : CaseRun) (c : Char) : Bool :=
  run.first ≤ c.toNat && c.toNat ≤ run.last && (c.toNat - run.first) % run.stride = 0

def move (run : CaseRun) (c : Char) : Char := Char.ofNat (c.toNat + run.shift).toNat

end CaseRun

/-- The lower-case mapping of one character away from its neighbours. -/
def lowerChar (c : Char) : List Char :=
  if c = 'İ' then ['i', '\u0307']
  else match lowerRuns.find? (·.moves c) with
    | some run => [run.move c]
    | none => [c]

/-- Whether the first character that is not ignorable for case is cased. -/
def meetsCased (s : List Char) : Bool :=
  match s.dropWhile caseIgnorableRanges.contains with
  | [] => false
  | c :: _ => casedRanges.contains c

/-- Lower-case a text that follows `before`, which is given from its last character on. -/
def lowerAfter (before : List Char) : List Char → List Char
  | [] => []
  | c :: rest =>
    let mapped :=
      if c = 'Σ' then if meetsCased before && !meetsCased rest then ['ς'] else ['σ']
      else lowerChar c
    mapped ++ lowerAfter (c :: before) rest

def lower (s : List Char) : List Char := lowerAfter [] s

example : lower "ΟΔΟΣ ΑΣ.".toList = "οδος ας.".toList := by decide +kernel

example : lower "ΑΣΑ".toList = "ασα".toList := by decide +kernel

example : lower "İK".toList = "i̇k".toList := by decide +kernel

end RecordQuery.Text
