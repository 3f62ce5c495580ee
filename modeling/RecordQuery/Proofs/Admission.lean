import RecordQuery.Proofs.Accepted
import RecordQuery.Proofs.Atoms
import RecordQuery.Proofs.CanonicalText
import RecordQuery.Proofs.Overflow
import RecordQuery.Proofs.Places
import RecordQuery.Scope

/-! What enters a scope, as an input of a filter or as a part. Whatever the input, the criterion it
stands for is valid: fields and criteria are checked, and what binding makes of a format needs no
check. So the operands of comparisons are canonical. Predicates that are handed over are adopted as
they are. In the predicate of a format, what stands in the place of an operand of the text is
canonical too, be it written there or bound, unless a numeral is written there that is too large for
a double. -/

namespace RecordQuery

namespace CriterionInput

theorem checked_eq_ok_iff {c : Criterion} {result : Option Criterion} :
    checked c = .ok result ↔ c.validate = .ok () ∧ result = some c := by
  rw [checked, bind_eq_ok_iff]
  constructor
  · rintro ⟨⟨⟩, hvalid, he⟩
    exact ⟨hvalid, (Except.ok.inj he).symm⟩
  · rintro ⟨hvalid, rfl⟩
    exact ⟨(), hvalid, rfl⟩

/-- One equality for every entry and nothing else. -/
theorem exists_of_mem_equalities {seen : List KeyPath} {entries : List (String × Value)}
    {cs : List Criterion} (h : equalities seen entries = .ok cs) :
    ∀ c ∈ cs, ∃ path v, c = .comparison path .equal (.value v) false := by
  induction entries generalizing seen cs with
  | nil =>
    obtain rfl := Except.ok.inj h
    simp
  | cons entry entries ih =>
    obtain ⟨key, v⟩ := entry
    rw [equalities] at h
    split at h
    · exact absurd h (by simp)
    · rename_i path hpath
      split at h
      · exact absurd h (by simp)
      · obtain ⟨cs, hcs, rfl⟩ := map_eq_ok_iff.1 h
        rw [List.forall_mem_cons]
        exact ⟨⟨path, v, rfl⟩, ih hcs⟩

/-- What is known of the criterion that an input stands for, one case for every kind of input. -/
inductive Normalized : CriterionInput → Criterion → Prop
  | fields {entry entries operands} : equalities [] (entry :: entries) = .ok operands →
      (Criterion.logical .and operands).validate = .ok () →
      Normalized (.fields (entry :: entries)) (.logical .and operands)
  | criterion {c} : c.validate = .ok () → Normalized (.criterion c) c
  | scope {c} : Normalized (.scope (some c)) c
  | predicate {p} : (Criterion.native p).validate = .ok () → Normalized (.predicate p) (.native p)
  | format {text arguments p} : Predicate.parseWith text arguments = .ok p →
      Normalized (.format text arguments) (.native p)

theorem normalized_of_normalize {input : CriterionInput} {c : Criterion}
    (h : input.normalize = .ok (some c)) : Normalized input c := by
  cases input with
  | fields entries =>
    cases entries with
    | nil => exact absurd (Except.ok.inj h) (by simp)
    | cons entry entries =>
      obtain ⟨operands, hoperands, hchecked⟩ := bind_eq_ok_iff.1 h
      obtain ⟨hvalid, he⟩ := checked_eq_ok_iff.1 hchecked
      obtain rfl := Option.some.inj he
      exact .fields hoperands hvalid
  | criterion c =>
    obtain ⟨hvalid, he⟩ := checked_eq_ok_iff.1 h
    obtain rfl := Option.some.inj he
    exact .criterion hvalid
  | scope c =>
    obtain rfl := Except.ok.inj h
    exact .scope
  | predicate p =>
    obtain ⟨hvalid, he⟩ := checked_eq_ok_iff.1 h
    obtain rfl := Option.some.inj he
    exact .predicate hvalid
  | format text arguments =>
    rw [normalize] at h
    split at h
    · rename_i p hp
      obtain rfl := Option.some.inj (Except.ok.inj h)
      exact .format hp
    · exact absurd h (by simp)

theorem normalize_format {text : String} {arguments : List Value} {p : Predicate}
    (h : Predicate.parseWith text arguments = .ok p) :
    (format text arguments).normalize = .ok (some (.native p)) := by
  rw [normalize, h]

/-- Every input but a scope stands for a valid criterion. -/
theorem validate_of_normalize {input : CriterionInput} {c : Criterion}
    (own : ∀ criterion, input ≠ .scope criterion) (h : input.normalize = .ok (some c)) :
    c.validate = .ok () := by
  cases normalized_of_normalize h with
  | fields _ hvalid => exact hvalid
  | criterion hvalid => exact hvalid
  | scope => exact absurd rfl (own _)
  | predicate hvalid => exact hvalid
  | format hp =>
    obtain ⟨q, -, hbind⟩ := bind_eq_ok_iff.1 hp
    exact Criterion.validate_native_eq_ok_iff.2 (Predicate.placeholders_of_bind hbind)

/-- No document describes a scope. -/
theorem ne_scope_of_ofDocument {d : Document} {input : CriterionInput}
    (h : ofDocument d = .ok input) (criterion : Option Criterion) : input ≠ .scope criterion := by
  unfold ofDocument at h
  split at h
  · obtain ⟨entries, -, rfl⟩ := map_eq_ok_iff.1 h
    simp
  · obtain rfl := Except.ok.inj h
    simp
  · obtain ⟨arguments, -, rfl⟩ := map_eq_ok_iff.1 h
    simp
  · exact absurd h (by simp)
  · exact absurd h (by simp)
  · exact absurd h (by simp)

end CriterionInput

/-! ### What a format admits -/

/-- What may stand in the place of an operand written at the front of a text: a valid path or a
literal that is no `nan`, and a canonical one, unless a numeral that overflows is written there. -/
structure Operand.AdmittedAt (s : List Char) (o : Operand) : Prop where
  isRead : o.IsRead
  canonical : (∀ n rest, scanNumeral s = some (n, rest) → ¬ n.Overflows) → o.Canonical

theorem isFinite_literalWords : ∀ w ∈ literalWords, w.2.isFinite = true := by decide

theorem Operand.FoundAt.canonical {s : List Char} {o : Operand} (h : FoundAt s o)
    (hnumeral : ∀ n rest, scanNumeral s = some (n, rest) → ¬ n.Overflows) : o.Canonical := by
  obtain ⟨rest, hscan⟩ := h
  have hread := isRead_of_scanOperand hscan o rfl
  have hscanned := scannedOperand_of_scanOperand hscan
  generalize hfound : Except.ok o = found at hscanned
  cases hscanned with
  | value | key | string =>
    obtain rfl := Except.ok.inj hfound
    trivial
  | word hword =>
    obtain rfl := Except.ok.inj hfound
    obtain ⟨word, hmem, -⟩ := mem_of_scanWord hword
    exact isFinite_literalWords _ hmem
  | numeral hn =>
    obtain rfl := Except.ok.inj hfound
    exact (Value.isFinite_ofNumeral_iff _).2 (hnumeral _ _ hn)
  | path =>
    obtain ⟨path, -, rfl⟩ := map_eq_ok_iff.1 hfound.symm
    exact hread

/-- What binding puts in the place of an operand is admitted there. -/
theorem Operand.FoundAt.admittedAt {s : List Char} {o o' : Operand} (h : FoundAt s o)
    (hbinds : o.BindsTo o') : AdmittedAt s o' := by
  obtain ⟨rest, hscan⟩ := h
  refine ⟨isRead_of_bindsTo (isRead_of_scanOperand hscan o rfl) hbinds, fun hnumeral => ?_⟩
  rcases hbinds.eq_or_bind with ⟨rfl, -⟩ | ⟨placeholder, argument, -, hargument⟩
  · exact canonical ⟨rest, hscan⟩ hnumeral
  · rcases Placeholder.cases_of_bind hargument with ⟨rfl, hfinite⟩ | ⟨name, path, hpath, rfl⟩
    · exact hfinite
    · exact KeyPath.isValid_of_parse hpath

theorem Predicate.admitted_of_parseWith {text : String} {arguments : List Value} {q : Predicate}
    (h : parseWith text arguments = .ok q) :
    Operand.Along Operand.AdmittedAt text.toList q.leaves [] := by
  obtain ⟨p, hp, hbind⟩ := bind_eq_ok_iff.1 h
  exact (along_of_parse hp).replace (leafwise_bind hbind).forall₂_leaves
    fun _ _ _ hfound hbinds => hfound.admittedAt hbinds

/-- The predicates that an input brings along: any that is handed over, on its own or inside a
criterion, and for a format those whose operands are admitted, one by one, at the places of the
operands in the text. -/
def CriterionInput.Supplies : CriterionInput → Predicate → Prop
  | criterion c, p => .native p ∈ c.atoms
  | predicate p, q => q = p
  | format text _, p => Operand.Along Operand.AdmittedAt text.toList p.leaves []
  | fields _, _ => False
  | scope _, _ => False

namespace Criterion

/-- Every operand is canonical but for those of predicates that were supplied. -/
def CanonicalBut (supplied : Predicate → Prop) (c : Criterion) : Prop :=
  ∀ t ∈ c.atoms, (∀ o ∈ t.atomLeaves, o.Canonical) ∨ ∃ p, t = .native p ∧ supplied p

theorem canonicalBut_of_validate {supplied : Predicate → Prop} {c : Criterion}
    (h : c.validate = .ok ()) (hsupplied : ∀ p, .native p ∈ c.atoms → supplied p) :
    c.CanonicalBut supplied := by
  intro t ht
  cases t with
  | comparison => exact .inl (validate_comparison_eq_ok_iff.1 (validate_eq_ok_iff.1 h _ ht))
  | native p => exact .inr ⟨p, rfl, hsupplied p ht⟩
  | logical | external => exact .inl (by simp [atomLeaves])

end Criterion

theorem CriterionInput.canonicalBut_of_normalize {input : CriterionInput} {c : Criterion}
    (own : ∀ criterion, input ≠ .scope criterion) (h : input.normalize = .ok (some c)) :
    c.CanonicalBut input.Supplies := by
  have hvalid := validate_of_normalize own h
  cases normalized_of_normalize h with
  | fields hoperands _ =>
    refine Criterion.canonicalBut_of_validate hvalid fun p hp => ?_
    rw [Criterion.atoms_logical, List.mem_flatMap] at hp
    obtain ⟨c, hc, hp⟩ := hp
    obtain ⟨path, v, rfl⟩ := exists_of_mem_equalities hoperands c hc
    exact absurd hp (by simp)
  | criterion _ => exact Criterion.canonicalBut_of_validate hvalid fun p hp => hp
  | scope => exact absurd rfl (own _)
  | predicate _ =>
    refine Criterion.canonicalBut_of_validate hvalid fun q hq => ?_
    show q = _
    simpa using hq
  | format hp =>
    refine Criterion.canonicalBut_of_validate hvalid fun q hq => ?_
    obtain rfl : q = _ := by simpa using hq
    exact Predicate.admitted_of_parseWith hp

/-! ### Filters and parts -/

theorem SortDirective.checked_eq_ok_iff {d result : SortDirective} :
    d.checked = .ok result ↔ d.field.isValid = true ∧ result = d := by
  unfold checked
  split
  · rename_i hvalid
    rw [Except.ok.injEq]
    exact ⟨fun h => ⟨hvalid, h.symm⟩, fun h => h.2.symm⟩
  · rename_i hinvalid
    exact ⟨fun h => absurd h (by simp), fun h => absurd h.1 hinvalid⟩

theorem SortDirective.mapM_checked_eq_ok_iff {ds results : List SortDirective} :
    ds.mapM checked = .ok results ↔ (∀ d ∈ ds, d.field.isValid = true) ∧ results = ds := by
  induction ds generalizing results with
  | nil =>
    rw [List.mapM_nil]
    simp only [pure, Except.pure, Except.ok.injEq, List.not_mem_nil]
    grind
  | cons d ds ih =>
    simp only [List.mapM_cons, bind_eq_ok_iff, checked_eq_ok_iff, ih, List.forall_mem_cons]
    constructor
    · rintro ⟨_, ⟨hd, rfl⟩, _, ⟨hds, rfl⟩, he⟩
      exact ⟨⟨hd, hds⟩, (Except.ok.inj he).symm⟩
    · rintro ⟨⟨hd, hds⟩, rfl⟩
      exact ⟨d, ⟨hd, rfl⟩, ds, ⟨hds, rfl⟩, rfl⟩

namespace Scope

theorem filter_eq_ok_iff {scope derived : Scope} {input : CriterionInput} :
    scope.filter input = .ok derived ↔ ∃ incoming, input.normalize = .ok incoming ∧
      derived = { scope with criterion := Criterion.combine scope.criterion incoming } := by
  rw [filter, bind_eq_ok_iff]
  constructor
  · rintro ⟨incoming, hincoming, he⟩
    exact ⟨incoming, hincoming, (Except.ok.inj he).symm⟩
  · rintro ⟨incoming, hincoming, rfl⟩
    exact ⟨incoming, hincoming, rfl⟩

/-- A scope is put together from valid parts, as they are. -/
theorem parts_of_ofParts {α : Type} {session : Session α} {target : Target}
    {criterion : Option Criterion} {directives : List SortDirective} {context : Option ContextId}
    {scope : Scope} (h : ofParts session target criterion directives context = .ok scope) :
    ((∀ c ∈ criterion, c.validate = .ok ()) ∧ scope.criterion = criterion) ∧
      (∀ d ∈ directives, d.field.isValid = true) ∧ scope.directives = directives := by
  -- the check of the criterion comes first and the choice of the context last
  have hchecked : (∀ c ∈ criterion, c.validate = .ok ()) ∧ ∃ results,
      directives.mapM SortDirective.checked = .ok results ∧
        ∃ context, scope = ⟨target, criterion, results, context⟩ := by
    unfold ofParts at h
    cases criterion <;> cases context <;> simp only [bind_eq_ok_iff] at h
    case none.none | none.some =>
      obtain ⟨results, hresults, context, -, he⟩ := h
      exact ⟨by simp, results, hresults, context, (Except.ok.inj he).symm⟩
    case some.none | some.some =>
      obtain ⟨⟨⟩, hc, results, hresults, context, -, he⟩ := h
      exact ⟨by simpa using hc, results, hresults, context, (Except.ok.inj he).symm⟩
  obtain ⟨hvalid, results, hresults, context, rfl⟩ := hchecked
  obtain ⟨hdirectives, rfl⟩ := SortDirective.mapM_checked_eq_ok_iff.1 hresults
  exact ⟨⟨hvalid, rfl⟩, hdirectives, rfl⟩

/-- From valid parts there is a scope if there is a context for it. -/
theorem ofParts_of_valid {α : Type} {session : Session α} {target : Target}
    {criterion : Option Criterion} {directives : List SortDirective} {context : Option ContextId}
    (hcriterion : ∀ c ∈ criterion, c.validate = .ok ())
    (hdirectives : ∀ d ∈ directives, d.field.isValid = true) :
    ofParts session target criterion directives context =
      Scope.mk target criterion directives <$> context.elim session.currentContext .ok := by
  have hchecked := SortDirective.mapM_checked_eq_ok_iff.2 ⟨hdirectives, rfl⟩
  unfold ofParts
  rw [hchecked]
  cases criterion with
  | none => cases context <;> rfl
  | some c => cases context <;> simp only [hcriterion c rfl] <;> rfl

/-- Everything a scope takes in by a filter or as a part has canonical operands: all operands of
comparisons, and in the predicate of a format all paths, all arguments and all literals, but for a
literal written as a numeral that overflows, of which no more is said than that it is no `nan`.
Predicates that are handed over are adopted as they are. -/
theorem admitted_canonical :
    (∀ (scope derived : Scope) (input : CriterionInput), (∀ criterion, input ≠ .scope criterion) →
      scope.filter input = .ok derived → ∃ incoming, input.normalize = .ok incoming ∧
        derived.criterion = Criterion.combine scope.criterion incoming ∧
        ∀ c ∈ incoming, c.CanonicalBut input.Supplies) ∧
    ∀ {α : Type} (session : Session α) (target : Target) (criterion : Option Criterion)
      (directives : List SortDirective) (context : Option ContextId) (scope : Scope),
      ofParts session target criterion directives context = .ok scope →
        scope.criterion = criterion ∧
        ∀ c ∈ criterion, c.CanonicalBut (CriterionInput.criterion c).Supplies := by
  constructor
  · intro scope derived input own h
    obtain ⟨incoming, hincoming, rfl⟩ := filter_eq_ok_iff.1 h
    refine ⟨incoming, hincoming, rfl, fun c hc => ?_⟩
    obtain rfl := Option.mem_def.1 hc
    exact CriterionInput.canonicalBut_of_normalize own hincoming
  · intro α session target criterion directives context scope h
    obtain ⟨⟨hvalid, hcriterion⟩, -⟩ := parts_of_ofParts h
    exact ⟨hcriterion, fun c hc =>
      Criterion.canonicalBut_of_validate (hvalid c hc) fun p hp => hp⟩

/-- A format with paths, a key, two arguments, of which one is a double, and a literal that is one;
and a criterion that compares two fields as a part. -/
theorem admitted_canonical_arguments :
    let half := Value.float { negative := false, magnitude := 1022 * Nat.pow 2 52 }
    let input := CriterionInput.format "NOT (%K < %@ OR job.title == %@ OR pay >= 0.5)"
      [.string "age", half, .string "cook"]
    let c := Criterion.comparison ⟨["job", "title"]⟩ .equal (.field ⟨["role"]⟩) true
    (∃ derived incoming, (withContext ⟨"people"⟩ ⟨0⟩).filter input = .ok derived ∧
      derived.criterion = some incoming ∧ incoming.CanonicalBut input.Supplies ∧
      incoming.leaves = [.path ⟨["age"]⟩, .literal half, .path ⟨["job", "title"]⟩,
        .literal (.string "cook"), .path ⟨["pay"]⟩, .literal half]) ∧
    ∃ scope, ofParts (Session.empty : Session Unit) ⟨"people"⟩ (some c) [] (some ⟨0⟩) = .ok scope ∧
      scope.criterion = some c ∧ c.CanonicalBut (CriterionInput.criterion c).Supplies := by
  intro half input c
  let p := Predicate.not (.compound .or
    [.comparison (.placeholder .key) .less (.placeholder .value) false,
      .comparison (.path ⟨["job", "title"]⟩) .equal (.placeholder .value) false,
      .comparison (.path ⟨["pay"]⟩) .greaterOrEqual (.literal half) false])
  have hparse : Predicate.parse "NOT (%K < %@ OR job.title == %@ OR pay >= 0.5)" = .ok p := by
    have htext : p.text = "NOT (%K < %@ OR job.title == %@ OR pay >= 0.5)" := by decide +kernel
    have hhalf : half.denoted = half := by decide +kernel
    have hbranching : p.Branching := .not (.compound (by decide) fun q hq => by
      simp only [List.mem_cons, List.not_mem_nil, or_false] at hq
      rcases hq with rfl | rfl | rfl <;> exact .comparison)
    rw [← htext, Predicate.parse_canonical_text hbranching (by decide) (by decide)]
    simp [p, Operand.denoted, hhalf]
  have hbound : Predicate.parseWith "NOT (%K < %@ OR job.title == %@ OR pay >= 0.5)"
      [.string "age", half, .string "cook"] = .ok (.not (.compound .or
      [.comparison (.path ⟨["age"]⟩) .less (.literal half) false,
        .comparison (.path ⟨["job", "title"]⟩) .equal (.literal (.string "cook")) false,
        .comparison (.path ⟨["pay"]⟩) .greaterOrEqual (.literal half) false])) :=
    bind_eq_ok_iff.2 ⟨_, hparse, rfl⟩
  have hnormalize := CriterionInput.normalize_format hbound
  have hfilter : (withContext ⟨"people"⟩ ⟨0⟩).filter input = .ok _ :=
    filter_eq_ok_iff.2 ⟨_, hnormalize, rfl⟩
  obtain ⟨incoming, hincoming, hcriterion, hcanonical⟩ :=
    admitted_canonical.1 _ _ input (by simp [input]) hfilter
  obtain rfl := Except.ok.inj (hnormalize.symm.trans hincoming)
  have hparts : ofParts (Session.empty : Session Unit) ⟨"people"⟩ (some c) [] (some ⟨0⟩) =
    .ok ⟨⟨"people"⟩, some c, [], ⟨0⟩⟩ := by rfl
  obtain ⟨hpart, hc⟩ := admitted_canonical.2 _ _ _ _ _ _ hparts
  exact ⟨⟨_, _, hfilter, hcriterion, hcanonical _ rfl, by simp [Criterion.leaves,
    Criterion.atomLeaves]⟩, _, hparts, hpart, hc c rfl⟩

/-- Handing over a predicate with a malformed path and a literal that is no number leads to a scope
that is filtered by it. -/
theorem admitted_not_canonical :
    let p := Predicate.comparison (.path ⟨["a b"]⟩) .equal (.literal (.float .nan)) false
    ∃ derived, (withContext ⟨"people"⟩ ⟨0⟩).filter (.predicate p) = .ok derived ∧
      derived.criterion = some (.native p) ∧
      (Operand.path ⟨["a b"]⟩ ∈ p.leaves ∧ ¬ (Operand.path ⟨["a b"]⟩).Canonical) ∧
      (Operand.literal (.float .nan) ∈ p.leaves ∧
        ¬ (Operand.literal (.float .nan)).Canonical) := by
  refine ⟨_, rfl, rfl, ⟨by simp, ?_⟩, by simp, ?_⟩
  · simp only [Operand.Canonical]
    decide
  · simp only [Operand.Canonical]
    decide

end Scope

end RecordQuery
