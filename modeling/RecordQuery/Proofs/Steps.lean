import Mathlib.Data.List.Perm.Basic
import RecordQuery.Proofs.Admission

/-! Scopes that are derived in several steps. What a step adds depends on the step alone: a filter
brings the criterion its input stands for, a sorting step its directive, and neither looks at the
scope it is applied to. So a derived scope selects what the first one and all inputs select, in the
order of the directives, and the filters may come in any order and anywhere between the sorting
steps. -/

namespace RecordQuery

/-- Criteria that are combined one after the other select together. -/
theorem Criterion.all_selects_combine (look : Lookup) (a b : Option Criterion) :
    (combine a b).all (·.selects look) = (a.all (·.selects look) && b.all (·.selects look)) := by
  cases a with
  | none => rfl
  | some a =>
    cases b with
    | none => simp [combine_none_right]
    | some b => simp [combine, Criterion.and, selects]

theorem Criterion.all_selects_foldl_combine (look : Lookup) (incoming : List (Option Criterion))
    (c : Option Criterion) :
    (incoming.foldl combine c).all (·.selects look) =
      (c.all (·.selects look) && incoming.all (·.all (·.selects look))) := by
  induction incoming generalizing c with
  | nil => simp
  | cons b incoming ih =>
    rw [List.foldl_cons, ih, all_selects_combine, List.all_cons, Bool.and_assoc]

namespace RecordSet

variable {α : Type} [Record α]

theorem filterBy_eq (c : Option Criterion) (records : List α) :
    filterBy c records = records.filter fun r => c.all (·.selects (Record.resolve r)) := by
  cases c <;> simp [filterBy]

/-- The kind and the records of an evaluated set depend on what the criterion selects only. -/
theorem contents_materialize (fresh : ℕ) (backing : RecordSet α) {c c' : Option Criterion}
    (h : ∀ look, c.all (·.selects look) = c'.all (·.selects look)) (ds : List SortDirective) :
    (backing.materialize fresh c ds).ordered = (backing.materialize fresh c' ds).ordered ∧
      (backing.materialize fresh c ds).records = (backing.materialize fresh c' ds).records := by
  have hfilter : filterBy c backing.records = filterBy c' backing.records := by
    simp only [filterBy_eq, h]
  cases ds with
  | nil => simp only [ordered_materialize_nil, records_materialize_nil, hfilter, and_self]
  | cons d ds => simp only [materialize_cons, hfilter, and_self]

end RecordSet

namespace Scope

/-- What leads from one scope to another. -/
inductive Step where
  | filter (input : CriterionInput)
  | sortBy (directive : SortDirective)
  | sortByName (field : String) (ascending : Bool)

namespace Step

def apply (scope : Scope) : Step → Except ScopeError Scope
  | filter input => scope.filter input
  | sortBy directive => scope.sortBy directive
  | sortByName field ascending => scope.sortByName field ascending

/-- The input of a filter. -/
def input? : Step → Option CriterionInput
  | filter input => some input
  | sortBy _ | sortByName _ _ => none

/-- The directive that a sorting step adds, or why it is refused. -/
def directive? : Step → Option (Except ScopeError SortDirective)
  | filter _ => none
  | sortBy directive => some directive.checked
  | sortByName field ascending => some (SortDirective.named field ascending)

end Step

/-- The scope that steps lead to, one after the other. -/
def derive (scope : Scope) (steps : List Step) : Except ScopeError Scope :=
  steps.foldlM Step.apply scope

/-! ### What steps add -/

theorem sortBy_eq_ok_iff {scope derived : Scope} {directive : SortDirective} :
    scope.sortBy directive = .ok derived ↔ ∃ d, directive.checked = .ok d ∧
      derived = { scope with directives := scope.directives ++ [d] } := by
  rw [sortBy, bind_eq_ok_iff]
  constructor
  · rintro ⟨d, hd, he⟩
    exact ⟨d, hd, (Except.ok.inj he).symm⟩
  · rintro ⟨d, hd, rfl⟩
    exact ⟨d, hd, rfl⟩

theorem sortByName_eq_ok_iff {scope derived : Scope} {field : String} {ascending : Bool} :
    scope.sortByName field ascending = .ok derived ↔
      ∃ d, SortDirective.named field ascending = .ok d ∧
        derived = { scope with directives := scope.directives ++ [d] } := by
  rw [sortByName, bind_eq_ok_iff]
  constructor
  · rintro ⟨d, hd, he⟩
    exact ⟨d, hd, (Except.ok.inj he).symm⟩
  · rintro ⟨d, hd, rfl⟩
    exact ⟨d, hd, rfl⟩

/-- The criterion and the directives that are brought to a scope. -/
def extend (scope : Scope) (incoming : List (Option Criterion)) (added : List SortDirective) :
    Scope :=
  { scope with
    criterion := incoming.foldl Criterion.combine scope.criterion
    directives := scope.directives ++ added }

theorem apply_filter_eq_ok_iff {scope derived : Scope} {input : CriterionInput} :
    (Step.filter input).apply scope = .ok derived ↔
      ∃ incoming, input.normalize = .ok incoming ∧ derived = scope.extend [incoming] [] := by
  simp only [Step.apply, filter_eq_ok_iff, extend, List.append_nil, List.foldl_cons, List.foldl_nil]

/-- A sorting step appends its directive and changes nothing else. -/
theorem apply_eq_ok_iff_of_directive? {scope derived : Scope} {step : Step}
    {d : Except ScopeError SortDirective} (h : step.directive? = some d) :
    step.apply scope = .ok derived ↔ ∃ d', d = .ok d' ∧ derived = scope.extend [] [d'] := by
  cases step with
  | filter => exact absurd h (by simp [Step.directive?])
  | sortBy =>
    obtain rfl := Option.some.inj h
    exact sortBy_eq_ok_iff
  | sortByName =>
    obtain rfl := Option.some.inj h
    exact sortByName_eq_ok_iff

theorem extend_extend (scope : Scope) (incoming incoming' : List (Option Criterion))
    (added added' : List SortDirective) :
    (scope.extend incoming added).extend incoming' added' =
      scope.extend (incoming ++ incoming') (added ++ added') := by
  simp [extend]

/-- Steps lead to a scope exactly when every input stands for something and every directive is
accepted, whatever scope they start from. -/
theorem derive_eq_ok_iff {scope derived : Scope} {steps : List Step} :
    scope.derive steps = .ok derived ↔ ∃ incoming added,
      (steps.filterMap Step.input?).map CriterionInput.normalize = incoming.map .ok ∧
      steps.filterMap Step.directive? = added.map .ok ∧ derived = scope.extend incoming added := by
  induction steps generalizing scope with
  | nil =>
    constructor
    · intro h
      obtain rfl := Except.ok.inj h
      exact ⟨[], [], rfl, rfl, by simp [extend]⟩
    · rintro ⟨incoming, added, hincoming, hadded, rfl⟩
      obtain rfl := List.map_eq_nil_iff.1 hincoming.symm
      obtain rfl := List.map_eq_nil_iff.1 hadded.symm
      simp [extend, derive, pure, Except.pure]
  | cons step steps ih =>
    have hcons : scope.derive (step :: steps) = .ok derived ↔
        ∃ next, step.apply scope = .ok next ∧ next.derive steps = .ok derived := by
      rw [derive, List.foldlM_cons, bind_eq_ok_iff]
      exact Iff.rfl
    rw [hcons]
    cases hdirective : step.directive? with
    | none =>
      obtain ⟨input, rfl⟩ : ∃ input, step = .filter input := by
        cases step with
        | filter input => exact ⟨input, rfl⟩
        | sortBy | sortByName => exact absurd hdirective (by simp [Step.directive?])
      have hinput : (Step.filter input).input? = some input := rfl
      rw [List.filterMap_cons_some hinput, List.filterMap_cons_none hdirective, List.map_cons]
      simp only [apply_filter_eq_ok_iff, ih]
      constructor
      · rintro ⟨-, ⟨first, hfirst, rfl⟩, incoming, added, hincoming, hadded, rfl⟩
        exact ⟨first :: incoming, added, by rw [hfirst, hincoming, List.map_cons], hadded,
          extend_extend ..⟩
      · rintro ⟨incoming, added, hincoming, hadded, rfl⟩
        obtain ⟨first, incoming, rfl, hfirst, hincoming⟩ := List.map_eq_cons_iff.1 hincoming.symm
        exact ⟨_, ⟨first, hfirst.symm, rfl⟩, incoming, added, hincoming.symm, hadded,
          (extend_extend scope [first] incoming [] added).symm⟩
    | some d =>
      have hinput : step.input? = none := by
        cases step with
        | filter => exact absurd hdirective (by simp [Step.directive?])
        | sortBy | sortByName => rfl
      rw [List.filterMap_cons_none hinput, List.filterMap_cons_some hdirective]
      simp only [apply_eq_ok_iff_of_directive? hdirective, ih]
      constructor
      · rintro ⟨-, ⟨first, hfirst, rfl⟩, incoming, added, hincoming, hadded, rfl⟩
        exact ⟨incoming, first :: added, hincoming, by rw [hfirst, hadded, List.map_cons],
          extend_extend ..⟩
      · rintro ⟨incoming, added, hincoming, hadded, rfl⟩
        obtain ⟨first, added, rfl, hfirst, hadded⟩ := List.map_eq_cons_iff.1 hadded.symm
        exact ⟨_, ⟨first, hfirst.symm, rfl⟩, incoming, added, hincoming, hadded.symm,
          (extend_extend scope [] incoming [first] added).symm⟩

/-! ### Steps in another order -/

/-- Filters may be permuted and moved past sorting steps: the same criteria come in, in another
order, and the same directives in the same order. -/
theorem derive_of_perm {scope derived : Scope} {steps others : List Step}
    (h : scope.derive steps = .ok derived)
    (hsorting : others.filterMap Step.directive? = steps.filterMap Step.directive?)
    (hinputs : (others.filterMap Step.input?).Perm (steps.filterMap Step.input?)) :
    ∃ incoming incoming' added, derived = scope.extend incoming added ∧
      scope.derive others = .ok (scope.extend incoming' added) ∧ incoming'.Perm incoming := by
  obtain ⟨incoming, added, hincoming, hadded, rfl⟩ := derive_eq_ok_iff.1 h
  have hperm := hinputs.map CriterionInput.normalize
  rw [hincoming] at hperm
  -- a permutation of successes is the image of a permutation of what succeeded
  obtain ⟨incoming', hincoming', hperm⟩ :=
    (congrFun₂ (List.eq_map_comp_perm Except.ok) _ incoming).mpr hperm
  exact ⟨incoming, incoming', added, rfl,
    derive_eq_ok_iff.2 ⟨incoming', added, hincoming', hsorting.trans hadded, rfl⟩, hperm⟩

variable {α : Type} [Record α]

/-- Whether the set a scope evaluates to is ordered, and its records. -/
def contents (scope : Scope) (session : Session α) : Except ScopeError (Bool × List α) :=
  (fun found => (found.1.ordered, found.1.records)) <$> scope.evaluate session

theorem contents_congr {a b : Scope} (htarget : a.target = b.target)
    (hcontext : a.context = b.context) (hdirectives : a.directives = b.directives)
    (hselects : ∀ look, a.criterion.all (·.selects look) = b.criterion.all (·.selects look))
    (session : Session α) : a.contents session = b.contents session := by
  unfold contents evaluate
  rw [htarget, hcontext, hdirectives]
  cases session.backing? b.context b.target with
  | none => rfl
  | some backing =>
    have hcontents := backing.contents_materialize session.nextIdentity hselects b.directives
    exact congrArg Except.ok (Prod.ext hcontents.1 hcontents.2)

/-! ### Steps that are refused -/

/-- Why a step is refused: its input stands for nothing, or its field is no path. -/
def Step.RefusedWith : Step → ScopeError → Prop
  | filter input, error => input.normalize = .error error
  | sortBy d, error => d.field.isValid = false ∧ error = .invalidSortField d.field.text
  | sortByName field _, error =>
    (∀ path, KeyPath.parse field ≠ .ok path) ∧ error = .invalidSortField field

theorem apply_eq_error_iff {scope : Scope} {step : Step} {error : ScopeError} :
    step.apply scope = .error error ↔ step.RefusedWith error := by
  cases step with
  | filter input => exact bind_pure_eq_error_iff
  | sortBy d =>
    refine bind_pure_eq_error_iff.trans ?_
    unfold SortDirective.checked
    split
    · simp_all [Step.RefusedWith]
    · rename_i hinvalid
      simp [Step.RefusedWith, hinvalid, eq_comm]
  | sortByName field ascending =>
    refine bind_pure_eq_error_iff.trans ?_
    unfold SortDirective.named
    cases hpath : KeyPath.parse field <;> simp [Step.RefusedWith, hpath, eq_comm]

/-- What a chain of steps means. The scope it leads to has the target and the context of the first
one, its directives and those of the steps after them, and selects what the first one and every
input selects. Filters in another order, anywhere between the same sorting steps, lead to a scope
that shows the same records in the same order. A step is refused for its own sake only, whatever the
scope.

Nothing is assumed of the comparison of records: both scopes sort the same list by the same one. If
it is no total order, the order that they share is that of insertion; another sort might fail. -/
theorem derived_by_steps (scope : Scope) :
    (∀ (steps : List Step) (derived : Scope), scope.derive steps = .ok derived →
      ∃ incoming added,
        (steps.filterMap Step.input?).mapM CriterionInput.normalize = .ok incoming ∧
        (steps.filterMap Step.directive?).mapM id = .ok added ∧
        derived.target = scope.target ∧ derived.context = scope.context ∧
        derived.directives = scope.directives ++ added ∧
        ∀ look, derived.criterion.all (·.selects look) =
          (scope.criterion.all (·.selects look) && incoming.all (·.all (·.selects look)))) ∧
    (∀ (steps others : List Step) (derived : Scope), scope.derive steps = .ok derived →
      others.filterMap Step.directive? = steps.filterMap Step.directive? →
      (others.filterMap Step.input?).Perm (steps.filterMap Step.input?) →
      ∃ other, scope.derive others = .ok other ∧
        ∀ {α : Type} [Record α] (session : Session α),
          other.contents session = derived.contents session) ∧
    ∀ (step : Step) (error : ScopeError),
      step.apply scope = .error error ↔ step.RefusedWith error := by
  refine ⟨fun steps derived h => ?_, fun steps others derived h hsorting hinputs => ?_,
    fun step error => apply_eq_error_iff⟩
  · obtain ⟨incoming, added, hincoming, hadded, rfl⟩ := derive_eq_ok_iff.1 h
    exact ⟨incoming, added, mapM_eq_ok_iff.2 hincoming, mapM_id_eq_ok_iff.2 hadded, rfl, rfl, rfl,
      fun look => Criterion.all_selects_foldl_combine look incoming scope.criterion⟩
  · obtain ⟨incoming, incoming', added, rfl, hother, hperm⟩ := derive_of_perm h hsorting hinputs
    have hselects (look : Lookup) : (scope.extend incoming' added).criterion.all (·.selects look) =
        (scope.extend incoming added).criterion.all (·.selects look) := by
      simp only [extend, Criterion.all_selects_foldl_combine, hperm.all_eq]
    exact ⟨_, hother, contents_congr rfl rfl rfl hselects⟩

/-- A predicate before a sorting step and two maps of fields behind it, one of them empty; and the
same filters with the second map first. -/
theorem derived_by_steps_swapped :
    let scope := withContext ⟨"people"⟩ ⟨0⟩
    let young := Predicate.comparison (.path ⟨["age"]⟩) .less (.literal (.integer 30)) false
    let cook := Criterion.comparison ⟨["job", "title"]⟩ .equal (.value (.string "cook")) false
    let cooks := CriterionInput.fields [("job.title", .string "cook")]
    let byName := Step.sortByName "name" false
    let steps := [.filter (.predicate young), byName, .filter (.fields []), .filter cooks]
    let others := [.filter cooks, .filter (.predicate young), .filter (.fields []), byName]
    let derived : Scope := { scope with
      criterion := some (.and (.native young) (.logical .and [cook]))
      directives := [⟨⟨["name"]⟩, false⟩] }
    scope.derive steps = .ok derived ∧
      (∀ look, derived.criterion.all (·.selects look) =
        ((Criterion.native young).selects look && cook.selects look)) ∧
      (∃ other, scope.derive others = .ok other ∧
        ∀ session : Session Document, other.contents session = derived.contents session) ∧
      (Step.sortByName "a b" true).apply scope = .error (.invalidSortField "a b") := by
  intro scope young cook cooks byName steps others derived
  obtain ⟨hmeaning, horder, hrefused⟩ := derived_by_steps scope
  have hderived : scope.derive steps = .ok derived := by rfl
  obtain ⟨incoming, added, hincoming, -, -, -, -, hselects⟩ := hmeaning steps derived hderived
  have hall : (steps.filterMap Step.input?).mapM CriterionInput.normalize =
    .ok [some (.native young), none, some (.logical .and [cook])] := by rfl
  obtain rfl := Except.ok.inj (hall.symm.trans hincoming)
  have hperm : (others.filterMap Step.input?).Perm (steps.filterMap Step.input?) :=
    @List.perm_append_comm _ [cooks] [.predicate young, .fields []]
  obtain ⟨other, hother, hcontents⟩ := horder steps others derived hderived rfl hperm
  have hname : KeyPath.parse "a b" = .error (.invalidKeyPath "a b") := by rfl
  exact ⟨hderived, fun look => by simpa [scope, withContext, Criterion.selects] using hselects look,
    ⟨other, hother, hcontents⟩, (hrefused _ _).2 ⟨by simp [hname], rfl⟩⟩

end Scope

end RecordQuery
