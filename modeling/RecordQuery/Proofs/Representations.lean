import Mathlib.Data.List.Nodup
import RecordQuery.Criterion.Basic
import RecordQuery.SortDirective

/-! The representations of a record. One object may be held as a document, as a map of documents, as
a flat map of scalars if it has nothing else in it, and behind pointers; the flat map keeps its
entries in any order. All of them resolve every path alike, so no predicate, criterion or directive
tells them apart. -/

namespace RecordQuery

variable {fields fields' : List (String × Document)}

/-! ### Fields under distinct names -/

section

variable {α : Type} {entries entries' : List (String × α)}

theorem lookup_eq_some_iff_mem (hnames : (entries.map Prod.fst).Nodup) {name : String} {x : α} :
    entries.lookup name = some x ↔ (name, x) ∈ entries := by
  constructor
  · intro h
    obtain ⟨before, after, rfl, -⟩ := List.lookup_eq_some_iff.1 h
    simp
  · intro h
    obtain ⟨before, after, rfl⟩ := List.append_of_mem h
    rw [List.map_append, List.map_cons, List.nodup_middle, List.nodup_cons, List.mem_append,
      not_or] at hnames
    refine List.lookup_eq_some_iff.2 ⟨before, after, rfl, fun e he => bne_iff_ne.2 ?_⟩
    rintro rfl
    exact hnames.1.1 (List.mem_map.2 ⟨e, he, rfl⟩)

/-- Under distinct names the order of the entries does not matter. -/
theorem lookup_perm (h : entries.Perm entries') (hnames : (entries'.map Prod.fst).Nodup)
    (name : String) : entries.lookup name = entries'.lookup name := by
  have hnames' : (entries.map Prod.fst).Nodup := (h.map Prod.fst).nodup_iff.2 hnames
  ext x
  rw [lookup_eq_some_iff_mem hnames', lookup_eq_some_iff_mem hnames, h.mem_iff]

theorem lookup_map_values {β : Type} (f : α → β) (entries : List (String × α)) (name : String) :
    (entries.map fun e => (e.1, f e.2)).lookup name = (entries.lookup name).map f := by
  induction entries with
  | nil => rfl
  | cons e entries ih =>
    rw [List.map_cons, List.lookup_cons, List.lookup_cons, ih]
    cases name == e.1 <;> rfl

end

/-! ### Representations -/

/-- The entries are the fields in some order, each with the scalar that the field is. -/
def Flattens (entries : List (String × Value)) (fields : List (String × Document)) : Prop :=
  (entries.map fun e => (e.1, some e.2)).Perm (fields.map fun f => (f.1, f.2.scalar?))

/-- The record holds the object that has these fields, in one of the ways a record can. -/
inductive Represents (fields : List (String × Document)) : {α : Type} → [Record α] → α → Prop
  | document : Represents fields (Document.object fields)
  | object : Represents fields (ObjectRecord.mk fields)
  | flat {entries : List (String × Value)} : Flattens entries fields →
      Represents fields (FlatRecord.mk entries)
  | pointer {α : Type} [Record α] {a : α} : Represents fields a → Represents fields (Pointer.mk a)

/-- There is no way on from a scalar. -/
theorem Document.follow_of_scalar {d : Document} {v : Value} (h : d.scalar? = some v)
    (step : String) (steps : List String) : d.follow (step :: steps) = none := by
  rw [follow_cons]
  cases d with
  | object fields => exact absurd h (by simp [scalar?])
  | null | bool | integer | float | string | array => rfl

/-- A name is in a flat map exactly if the object has it, and leads to the scalar of the field. -/
theorem lookup_flat {entries : List (String × Value)} (h : Flattens entries fields)
    (hnames : (fields.map Prod.fst).Nodup) (name : String) :
    (entries.lookup name = none ∧ fields.lookup name = none) ∨
      ∃ v d, entries.lookup name = some v ∧ fields.lookup name = some d ∧ d.scalar? = some v := by
  have hnames' : ((fields.map fun f => (f.1, f.2.scalar?)).map Prod.fst).Nodup := by
    rw [List.map_map]
    exact hnames
  have hmaps : (entries.lookup name).map some = (fields.lookup name).map Document.scalar? := by
    rw [← lookup_map_values, ← lookup_map_values]
    exact lookup_perm h hnames' name
  cases hentry : entries.lookup name with
  | none =>
    rw [hentry] at hmaps
    exact .inl ⟨rfl, Option.map_eq_none_iff.1 hmaps.symm⟩
  | some v =>
    rw [hentry] at hmaps
    obtain ⟨d, hd, hv⟩ := Option.map_eq_some_iff.1 hmaps.symm
    exact .inr ⟨v, d, rfl, hd, hv⟩

theorem resolve_document (fields : List (String × Document)) (path : KeyPath) :
    Record.resolve (Document.object fields) path = Record.resolve (ObjectRecord.mk fields) path := by
  obtain ⟨steps⟩ := path
  cases steps with
  | nil => rfl
  | cons step steps => exact Option.bind_assoc ..

theorem resolve_flat {entries : List (String × Value)} (h : Flattens entries fields)
    (hnames : (fields.map Prod.fst).Nodup) (path : KeyPath) :
    Record.resolve (FlatRecord.mk entries) path = Record.resolve (ObjectRecord.mk fields) path := by
  obtain ⟨steps⟩ := path
  match steps with
  | [] => rfl
  | [step] =>
    show entries.lookup step = (fields.lookup step).bind Document.scalar?
    obtain ⟨hentry, hfield⟩ | ⟨v, d, hentry, hfield, hv⟩ := lookup_flat h hnames step
    · rw [hentry, hfield, Option.bind_none]
    · rw [hentry, hfield, Option.bind_some, hv]
  | step :: next :: steps =>
    -- nothing is behind a name of the flat map, and nothing behind a field that is a scalar
    show none =
      (fields.lookup step).bind fun d => (d.follow (next :: steps)).bind Document.scalar?
    obtain ⟨-, hfield⟩ | ⟨v, d, -, hfield, hv⟩ := lookup_flat h hnames step
    · rw [hfield, Option.bind_none]
    · rw [hfield, Option.bind_some, Document.follow_of_scalar hv, Option.bind_none]

theorem resolve_represents {α : Type} [Record α] {a : α} (h : Represents fields a)
    (hnames : (fields.map Prod.fst).Nodup) (path : KeyPath) :
    Record.resolve a path = Record.resolve (ObjectRecord.mk fields) path := by
  induction h with
  | document => exact resolve_document fields path
  | object => rfl
  | flat h => exact resolve_flat h hnames path
  | pointer _ ih => exact ih

namespace Represents

/-- How a record is represented makes no difference. Two records that hold the same object resolve
every path to the same scalar or both to none, and so agree on every predicate, on every criterion,
and, taken with two records that hold another object, on every sort directive. -/
theorem interchangeable {α β : Type} [Record α] [Record β] {a a' : α} {b b' : β}
    (hnames : (fields.map Prod.fst).Nodup) (hnames' : (fields'.map Prod.fst).Nodup)
    (ha : Represents fields a) (hb : Represents fields b)
    (ha' : Represents fields' a') (hb' : Represents fields' b') :
    (∀ path, Record.resolve a path = Record.resolve b path) ∧
    (∀ p : Predicate, p.evaluate (Record.resolve a) = p.evaluate (Record.resolve b)) ∧
    (∀ c : Criterion, c.selects (Record.resolve a) = c.selects (Record.resolve b)) ∧
    ∀ d : SortDirective, d.compare (Record.resolve a) (Record.resolve a') =
      d.compare (Record.resolve b) (Record.resolve b') := by
  have hresolve : Record.resolve a = Record.resolve b := funext fun path =>
    (resolve_represents ha hnames path).trans (resolve_represents hb hnames path).symm
  have hresolve' : Record.resolve a' = Record.resolve b' := funext fun path =>
    (resolve_represents ha' hnames' path).trans (resolve_represents hb' hnames' path).symm
  rw [hresolve, hresolve']
  exact ⟨fun _ => rfl, fun _ => rfl, fun _ => rfl, fun _ => rfl⟩

/-- Flat maps that list their entries backwards, and documents behind two pointers. Nothing follows
the scalar at the name, and the count that exceeds all integers is a double either way. -/
theorem interchangeable_flat :
    let fields : List (String × Document) :=
      [("name", .string "bob"), ("count", .integer 9223372036854775808), ("note", .null)]
    let fields' : List (String × Document) := [("count", .bool true)]
    let flat : FlatRecord :=
      ⟨[("note", .nil), ("count", .float (.ofInt 9223372036854775808)), ("name", .string "bob")]⟩
    let flat' : FlatRecord := ⟨[("count", .bool true)]⟩
    let held : Pointer (Pointer Document) := ⟨⟨.object fields⟩⟩
    let held' : Pointer (Pointer Document) := ⟨⟨.object fields'⟩⟩
    let p := Predicate.comparison (.path ⟨["name", "first"]⟩) .notEqual (.literal .nil) false
    let c := Criterion.comparison ⟨["note"]⟩ .equal (.value .nil) false
    let d : SortDirective := { field := ⟨["count"]⟩, ascending := false }
    Record.resolve flat ⟨["count"]⟩ = Record.resolve held ⟨["count"]⟩ ∧
      p.evaluate (Record.resolve flat) = p.evaluate (Record.resolve held) ∧
      c.selects (Record.resolve flat) = c.selects (Record.resolve held) ∧
      d.compare (Record.resolve flat) (Record.resolve flat') =
        d.compare (Record.resolve held) (Record.resolve held') := by
  intro fields fields' flat flat' held held' p c d
  have hentries : flat.entries.map (fun e => (e.1, some e.2)) =
      (fields.map fun f => (f.1, f.2.scalar?)).reverse := by rfl
  have hflattens : Flattens flat.entries fields := by
    rw [Flattens, hentries]
    exact List.reverse_perm _
  have hflat : Represents fields flat := .flat hflattens
  have hflat' : Represents fields' flat' := .flat (.refl _)
  have hheld : Represents fields held := .pointer (.pointer .document)
  have hheld' : Represents fields' held' := .pointer (.pointer .document)
  obtain ⟨hresolve, hpredicate, hcriterion, hdirective⟩ :=
    interchangeable (by decide) (by decide) hflat hheld hflat' hheld'
  exact ⟨hresolve _, hpredicate p, hcriterion c, hdirective d⟩

end Represents

end RecordQuery
