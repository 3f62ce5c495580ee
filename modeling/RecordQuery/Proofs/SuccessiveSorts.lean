import RecordQuery.Proofs.Sorting

/-! Sorting key by key. A list that is arranged by a minor order and then by a major one is arranged
by the two together, since the second pass leaves what ties in the order of the first. Hence a set
that is sorted by a list of directives has the order it gets from one pass for each directive, from
the last one to the first. -/

namespace RecordQuery

variable {α : Type} {cmp cmp' : α → α → Ordering} {xs ys zs : List α}

/-- An arrangement by one order that is then arranged by another is one by the second, and by the
first where that ties. -/
theorem Arranges.lex (h : Orders cmp xs) (minor : Arranges cmp' xs ys) (major : Arranges cmp ys zs) :
    Arranges (fun a b => (cmp a b).then (cmp' a b)) xs zs := by
  refine ⟨major.perm.trans minor.perm, ?_, fun a ha => ?_⟩
  · rw [List.pairwise_iff_forall_sublist]
    intro a b hab
    rw [Ne, Ordering.then_eq_lt, not_or]
    refine ⟨List.pairwise_iff_forall_sublist.1 major.ordered hab, ?_⟩
    rintro ⟨htie, hlt⟩
    -- what ties stands in the order of the first pass
    have ha : a ∈ ys := major.perm.mem_iff.1 (hab.subset List.mem_cons_self)
    have hties : [a, b].Sublist (ys.filter fun c => cmp a c == .eq) := by
      rw [← major.stable a ha]
      simpa [h.refl, h.eq_comm.1 htie] using hab.filter fun c => cmp a c == .eq
    exact List.pairwise_iff_forall_sublist.1 minor.ordered (hties.trans List.filter_sublist) hlt
  · have hboth (l : List α) : (l.filter fun b => (cmp a b).then (cmp' a b) == .eq) =
        (l.filter fun b => cmp a b == .eq).filter fun b => cmp' a b == .eq := by
      rw [List.filter_filter]
      refine List.filter_congr fun b _ => ?_
      cases cmp a b <;> simp
    rw [hboth, hboth, major.stable a (minor.perm.mem_iff.2 ha), List.filter_comm, minor.stable a ha,
      List.filter_comm]

/-- Sorting by two orders at once is sorting by the minor one first. -/
theorem stableSort_lex (h : Orders cmp xs) (h' : Orders cmp' xs) :
    stableSort (fun a b => (cmp a b).then (cmp' a b) == .lt) xs =
      stableSort (fun a b => cmp a b == .lt) (stableSort (fun a b => cmp' a b == .lt) xs) := by
  have minor := arranges_stableSort h'
  have major := arranges_stableSort (h.mono minor.perm.subset)
  exact ((arranges_iff (h.lex h')).1 (minor.lex h major)).symm

namespace RecordSet

variable [Record α]

/-- A set sorted by each directive on its own, from the last one to the first; every collection that
is made takes the next number. -/
def sortInTurn (fresh : ℕ) (backing : RecordSet α) : List SortDirective → RecordSet α
  | [] => backing
  | d :: ds => (backing.sortInTurn fresh ds).materialize (fresh + ds.length) none [d]

theorem records_materialize_none (fresh : ℕ) (backing : RecordSet α) (ds : List SortDirective) :
    (backing.materialize fresh none ds).records = stableSort (before ds) backing.records := by
  simp [records_materialize]

/-- Sorting by a list of directives is sorting by the first, after sorting by the others. -/
theorem stableSort_before_cons {records : List α} {d : SortDirective} {ds : List SortDirective}
    (hfirst : Value.Sortable (d.keys records)) (hrest : ∀ d ∈ ds, Value.Sortable (d.keys records)) :
    stableSort (before (d :: ds)) records =
      stableSort (before [d]) (stableSort (before ds) records) := by
  have hd : Orders (compareRecords [d]) records := orders_compareRecords (by simpa using hfirst)
  have hds : Orders (compareRecords ds) records := orders_compareRecords hrest
  have hbefore : before (α := α) (d :: ds) =
      fun a b => (compareRecords [d] a b).then (compareRecords ds a b) == .lt := by
    funext a b
    simp [before, compareRecords, compareBy_cons]
  rw [hbefore, stableSort_lex hd hds]
  rfl

/-- Where collation orders the values that the directives lead to, a set that is sorted by all of
them at once has the records that it has after it was sorted by each in turn, in the same order. -/
theorem contents_sortInTurn (backing : RecordSet α) {ds : List SortDirective}
    (hsortable : ∀ d ∈ ds, Value.Sortable (d.keys backing.records)) (k fresh : ℕ) :
    (backing.materialize k none ds).contents = (backing.sortInTurn fresh ds).contents := by
  induction ds with
  | nil => rfl
  | cons d ds ih =>
    obtain ⟨hfirst, hrest⟩ := List.forall_mem_cons.1 hsortable
    have hmore : stableSort (before ds) backing.records = (backing.sortInTurn fresh ds).records := by
      rw [← records_materialize_none k]
      exact congrArg Prod.snd (ih hrest)
    have hrecords : (backing.materialize k none (d :: ds)).records =
        (backing.sortInTurn fresh (d :: ds)).records := by
      rw [sortInTurn, records_materialize_none, records_materialize_none,
        stableSort_before_cons hfirst hrest, hmore]
    simp [contents, sortInTurn, ordered_materialize, hrecords]

/-- Descending by an integer or the double equal to it, then ascending by a name that one record
lacks; two records tie on both. -/
theorem contents_sortInTurn_ties :
    let low : FlatRecord := ⟨[("n", .integer 1), ("name", .string "a")]⟩
    let double : FlatRecord := ⟨[("n", .float (.ofInt 2)), ("name", .string "b")]⟩
    let two : FlatRecord := ⟨[("n", .integer 2), ("name", .string "b")]⟩
    let unnamed : FlatRecord := ⟨[("n", .integer 2)]⟩
    let backing : RecordSet FlatRecord := ⟨0, false, [low, double, two, unnamed, low]⟩
    let ds : List SortDirective := [⟨⟨["n"]⟩, false⟩, ⟨⟨["name"]⟩, true⟩]
    (∀ d ∈ ds, Value.Sortable (d.keys backing.records)) ∧
      (backing.sortInTurn 1 ds).contents = (true, [unnamed, double, two, low, low]) := by
  intro low double two unnamed backing ds
  have hsortable : ∀ d ∈ ds, Value.Sortable (d.keys backing.records) := by decide +kernel
  exact ⟨hsortable, (contents_sortInTurn backing hsortable 1 1).symm.trans (by decide +kernel)⟩

end RecordSet

end RecordQuery
