import RecordQuery.Proofs.Collation
import RecordQuery.Proofs.StableSorting
import RecordQuery.Proofs.Steps

/-! Filtering and sorting record sets. Collation need not be transitive, so what is said of sorting
is said of records whose values it does order: there the directives together are a preorder, each in
its own direction and with missing fields as nil, and the sorted records are the only arrangement of
the selected ones. Hence it does not matter in which order a set is filtered and sorted, nor whether
that is done at once. -/

namespace RecordQuery

/-- Values on which collation is transitive. -/
def Value.Sortable (vs : List Value) : Prop :=
  ∀ u ∈ vs, ∀ v ∈ vs, ∀ w ∈ vs, u.collate v ≠ .gt → v.collate w ≠ .gt → u.collate w ≠ .gt

instance (vs : List Value) : Decidable (Value.Sortable vs) :=
  inferInstanceAs (Decidable (∀ u ∈ vs, ∀ v ∈ vs, ∀ w ∈ vs,
    u.collate v ≠ .gt → v.collate w ≠ .gt → u.collate w ≠ .gt))

variable {α : Type} [Record α]

/-- What records are placed by. -/
def SortDirective.keys (d : SortDirective) (records : List α) : List Value :=
  records.map fun r => d.key (Record.resolve r)

/-- Two records compared by a list of directives. -/
def RecordSet.compareRecords (ds : List SortDirective) (a b : α) : Ordering :=
  compareBy ds (Record.resolve a) (Record.resolve b)

/-! ### Directives -/

theorem SortDirective.orders {d : SortDirective} {records : List α}
    (h : Value.Sortable (d.keys records)) :
    Orders (fun a b => d.compare (Record.resolve a) (Record.resolve b)) records := by
  have hkeys {r : α} (hr : r ∈ records) : d.key (Record.resolve r) ∈ d.keys records :=
    List.mem_map_of_mem hr
  have hcollate : Orders
      (fun a b => (d.key (Record.resolve a)).collate (d.key (Record.resolve b))) records :=
    ⟨fun a b => Value.collate_swap _ _,
      fun a ha b hb c hc => h _ (hkeys ha) _ (hkeys hb) _ (hkeys hc)⟩
  unfold compare
  cases d.ascending with
  | true => exact hcollate
  | false => exact hcollate.flip

deriving instance DecidableEq for FlatRecord

namespace RecordSet

/-- Directives order together what each of them orders. -/
theorem orders_compareRecords {ds : List SortDirective} {records : List α}
    (h : ∀ d ∈ ds, Value.Sortable (d.keys records)) : Orders (compareRecords ds) records := by
  induction ds with
  | nil => exact ⟨fun _ _ => rfl, fun _ _ _ _ _ _ _ _ => by simp [compareRecords]⟩
  | cons d ds ih =>
    have hfirst := SortDirective.orders (h d List.mem_cons_self)
    exact hfirst.lex (ih fun d hd => h d (List.mem_cons_of_mem _ hd))

/-! ### Materialized sets -/

/-- Without directives all records tie. -/
theorem stableSort_before_nil (records : List α) : stableSort (before []) records = records := by
  have hfilter := @filter_stableSort α (before []) (fun _ => true) records fun _ _ _ _ _ _ => rfl
  simpa using hfilter

theorem ordered_materialize (fresh : ℕ) (backing : RecordSet α) (c : Option Criterion)
    (ds : List SortDirective) :
    (backing.materialize fresh c ds).ordered = (backing.ordered || !ds.isEmpty) := by
  cases ds with
  | nil => simp [ordered_materialize_nil]
  | cons d ds => simp [materialize_cons]

/-- The selected records, sorted. -/
theorem records_materialize (fresh : ℕ) (backing : RecordSet α) (c : Option Criterion)
    (ds : List SortDirective) : (backing.materialize fresh c ds).records =
      stableSort (before ds)
        (backing.records.filter fun r => c.all (·.selects (Record.resolve r))) := by
  rw [← filterBy_eq]
  cases ds with
  | nil => rw [records_materialize_nil, stableSort_before_nil]
  | cons d ds => rw [materialize_cons]

/-- Records tie when they tie on every directive, in whichever direction it goes. -/
theorem compareRecords_eq_iff {ds : List SortDirective} {a b : α} :
    compareRecords ds a b = .eq ↔
      ∀ d ∈ ds, (d.key (Record.resolve a)).collate (d.key (Record.resolve b)) = .eq := by
  unfold compareRecords
  induction ds with
  | nil => simp
  | cons d ds ih =>
    have hfirst : d.compare (Record.resolve a) (Record.resolve b) = .eq ↔
        (d.key (Record.resolve a)).collate (d.key (Record.resolve b)) = .eq := by
      unfold SortDirective.compare
      split
      · rfl
      · exact Ordering.swap_eq_eq
    rw [compareBy_cons, Ordering.then_eq_eq, hfirst, ih, List.forall_mem_cons]

/-- Sorting is correct on records whose values collation orders: the set is ordered, and its records
are the one arrangement of those that the criterion selects, or of all without a criterion. What
ties is what ties on every directive. -/
theorem materialize_arranges (fresh : ℕ) (backing : RecordSet α) (c : Option Criterion)
    {ds : List SortDirective} (hne : ds ≠ [])
    (hsortable : ∀ d ∈ ds, Value.Sortable (d.keys backing.records)) :
    (backing.materialize fresh c ds).ordered = true ∧
      (∀ records : List α, Arranges (compareRecords ds)
        (backing.records.filter fun r => c.all (·.selects (Record.resolve r))) records ↔
          records = (backing.materialize fresh c ds).records) ∧
      ∀ a b : α, compareRecords ds a b = .eq ↔
        ∀ d ∈ ds, (d.key (Record.resolve a)).collate (d.key (Record.resolve b)) = .eq := by
  refine ⟨by simp [ordered_materialize, hne], fun records => ?_, fun a b => compareRecords_eq_iff⟩
  rw [records_materialize]
  exact arranges_iff ((orders_compareRecords hsortable).mono (List.filter_subset_self _))

/-- Descending by a field that holds an integer, the double equal to it, or nothing; and then by a
field that no record has. Three records tie, of which two are equal, and one is not selected. -/
theorem materialize_arranges_ties :
    let two : FlatRecord := ⟨[("n", .integer 2), ("name", .string "a")]⟩
    let double : FlatRecord := ⟨[("n", .float (.ofInt 2)), ("name", .string "b")]⟩
    let missing : FlatRecord := ⟨[("name", .string "c")]⟩
    let unnamed : FlatRecord := ⟨[("n", .string "2"), ("name", .nil)]⟩
    let backing : RecordSet FlatRecord := ⟨0, false, [missing, two, double, unnamed, two]⟩
    let named := Criterion.comparison ⟨["name"]⟩ .notEqual (.value .nil) false
    let ds : List SortDirective := [⟨⟨["n"]⟩, false⟩, ⟨⟨["job", "title"]⟩, true⟩]
    (∀ d ∈ ds, Value.Sortable (d.keys backing.records)) ∧
      (backing.materialize 1 (some named) ds).ordered = true ∧
      Arranges (compareRecords ds)
        (backing.records.filter fun r => named.selects (Record.resolve r))
        [two, double, two, missing] ∧
      compareRecords ds two double = .eq := by
  intro two double missing unnamed backing named ds
  have hsortable : ∀ d ∈ ds, Value.Sortable (d.keys backing.records) := by decide +kernel
  obtain ⟨hordered, harranges, hties⟩ :=
    materialize_arranges 1 backing (some named) (List.cons_ne_nil _ _) hsortable
  exact ⟨hsortable, hordered, (harranges _).2 (by decide +kernel),
    (hties _ _).2 (by decide +kernel)⟩

/-- Whether a set is ordered, and its records. -/
def contents (set : RecordSet α) : Bool × List α := (set.ordered, set.records)

/-- Criteria may be applied one after the other, in either order, or as one; and where collation
orders the values that the directives lead to, a set may be filtered before it is sorted, after it
is, or at once. -/
theorem contents_in_any_order (backing : RecordSet α) (a b : Criterion) (ds : List SortDirective)
    (i j k l m : ℕ) :
    (((backing.materialize i (some a) []).materialize j (some b) []).contents =
        (backing.materialize k (some (a.and b)) []).contents ∧
      ((backing.materialize l (some b) []).materialize m (some a) []).contents =
        (backing.materialize k (some (a.and b)) []).contents) ∧
    ((∀ d ∈ ds, Value.Sortable (d.keys backing.records)) →
      ((backing.materialize i none ds).materialize j (some a) []).contents =
          (backing.materialize k (some a) ds).contents ∧
        ((backing.materialize l (some a) []).materialize m none ds).contents =
          (backing.materialize k (some a) ds).contents) := by
  have hboth (r : α) : (a.and b).selects (Record.resolve r) =
      (a.selects (Record.resolve r) && b.selects (Record.resolve r)) := by
    simp [Criterion.and, Criterion.selects]
  refine ⟨⟨?_, ?_⟩, fun hsortable => ⟨?_, ?_⟩⟩
  · simp [contents, ordered_materialize, records_materialize, stableSort_before_nil,
      List.filter_filter, hboth, Bool.and_comm]
  · simp [contents, ordered_materialize, records_materialize, stableSort_before_nil,
      List.filter_filter, hboth]
  · have hfilter : stableSort (before ds) (backing.records.filter fun r =>
          a.selects (Record.resolve r)) =
        (stableSort (before ds) backing.records).filter fun r => a.selects (Record.resolve r) :=
      stableSort_filter (orders_compareRecords hsortable) _
    simp [contents, ordered_materialize, records_materialize, stableSort_before_nil, hfilter]
  · simp [contents, ordered_materialize, records_materialize, stableSort_before_nil]

/-- Two criteria that are missed by different records, and directives of which the first leaves a
tie between an integer and the double equal to it. -/
theorem contents_in_any_order_ties :
    let low : FlatRecord := ⟨[("n", .integer 1), ("name", .string "a")]⟩
    let double : FlatRecord := ⟨[("n", .float (.ofInt 2)), ("name", .string "b")]⟩
    let two (name : String) : FlatRecord := ⟨[("n", .integer 2), ("name", .string name)]⟩
    let backing : RecordSet FlatRecord := ⟨0, false, [low, two "b", double, two "c"]⟩
    let short := Criterion.comparison ⟨["name"]⟩ .less (.value (.string "c")) false
    let many := Criterion.comparison ⟨["n"]⟩ .greater (.value (.integer 1)) false
    let ds : List SortDirective := [⟨⟨["n"]⟩, false⟩, ⟨⟨["name"]⟩, true⟩]
    (∀ d ∈ ds, Value.Sortable (d.keys backing.records)) ∧
      ((backing.materialize 1 (some short) []).materialize 2 (some many) []).contents =
        (false, [two "b", double]) ∧
      ((backing.materialize 1 none ds).materialize 2 (some short) []).contents =
        (true, [two "b", double, low]) := by
  intro low double two backing short many ds
  obtain ⟨⟨hfilters, -⟩, hsorting⟩ := contents_in_any_order backing short many ds 1 2 3 4 5
  have hsortable : ∀ d ∈ ds, Value.Sortable (d.keys backing.records) := by decide +kernel
  refine ⟨hsortable, hfilters.trans ?_, (hsorting hsortable).1.trans ?_⟩
  · decide +kernel
  · decide +kernel

end RecordSet

end RecordQuery
