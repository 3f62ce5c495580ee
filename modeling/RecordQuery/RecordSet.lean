import RecordQuery.Criterion.Basic
import RecordQuery.SortDirective
import RecordQuery.StableSort

/-! Record sets: collections with an identity, either ordered, equal as sequences, or unordered,
equal as multisets. Duplicates are kept in both. Evaluating without criterion and directives is the
backing collection itself; a filter alone keeps its order and whether it is ordered, and sorting
makes an ordered set. -/

namespace RecordQuery

structure RecordSet (α : Type) where
  /-- Two sets share their records when they share this number. -/
  identity : Nat
  ordered : Bool
  records : List α

namespace RecordSet

variable {α : Type}

/-- Whether two sets are the same collection, and not only equal ones. -/
def same (a b : RecordSet α) : Bool := a.identity == b.identity && a.ordered == b.ordered

/-- Remove the first element that equals `x`, if there is one. -/
def take? [BEq α] (x : α) : List α → Option (List α)
  | [] => none
  | y :: ys => if y == x then some ys else (y :: ·) <$> take? x ys

/-- Whether each element of the first list finds an equal one of its own in the second. -/
def matchAll [BEq α] : List α → List α → Bool
  | [], _ => true
  | x :: xs, ys =>
    match take? x ys with
    | some ys => matchAll xs ys
    | none => false

protected def beq [BEq α] (a b : RecordSet α) : Bool :=
  a.ordered == b.ordered && a.records.length == b.records.length &&
    if a.ordered then a.records == b.records else matchAll a.records b.records

instance [BEq α] : BEq (RecordSet α) := ⟨RecordSet.beq⟩

def contains [BEq α] (set : RecordSet α) (x : α) : Bool := set.records.any (· == x)

/-- The kind of a set and its records, each shown by `f`. -/
def shown (f : α → String) (set : RecordSet α) : String :=
  (if set.ordered then "OrderedSet([" else "UnorderedSet([")
    ++ ", ".intercalate (set.records.map f) ++ "])"

variable [Record α]

/-- Whether a record stands strictly before another by a list of directives. -/
def before (directives : List SortDirective) (a b : α) : Bool :=
  compareBy directives (Record.resolve a) (Record.resolve b) == .lt

def filterBy (criterion : Option Criterion) (records : List α) : List α :=
  match criterion with
  | none => records
  | some c => records.filter fun r => c.selects (Record.resolve r)

/-- Apply a criterion and directives to a backing collection; a new collection is numbered
`fresh`. -/
def materialize (fresh : Nat) (backing : RecordSet α) (criterion : Option Criterion)
    (directives : List SortDirective) : RecordSet α :=
  match criterion, directives with
  | none, [] => backing
  | criterion, [] =>
    { identity := fresh, ordered := backing.ordered, records := filterBy criterion backing.records }
  | criterion, directives =>
    { identity := fresh, ordered := true,
      records := stableSort (before directives) (filterBy criterion backing.records) }

@[simp] theorem materialize_none_nil (fresh : Nat) (backing : RecordSet α) :
    materialize fresh backing none [] = backing := rfl

/-- A filter alone keeps the kind of a set. -/
theorem ordered_materialize_nil (fresh : Nat) (backing : RecordSet α) (c : Option Criterion) :
    (materialize fresh backing c []).ordered = backing.ordered := by cases c <;> rfl

/-- A filter alone keeps the order of the records. -/
theorem records_materialize_nil (fresh : Nat) (backing : RecordSet α) (c : Option Criterion) :
    (materialize fresh backing c []).records = filterBy c backing.records := by cases c <;> rfl

theorem materialize_cons (fresh : Nat) (backing : RecordSet α) (c : Option Criterion)
    (d : SortDirective) (ds : List SortDirective) :
    materialize fresh backing c (d :: ds) =
      { identity := fresh, ordered := true,
        records := stableSort (before (d :: ds)) (filterBy c backing.records) } := by
  cases c <;> rfl

end RecordSet

end RecordQuery
