import RecordQuery.Proofs.Admission
import RecordQuery.Proofs.Evaluation

/-! What scopes can be derived, and what holds of all of them. A scope begins as all records of a
target or with given parts; filters and directives lead on from there, and a filter may take its
criterion from another scope. Neither what binding makes of a format nor the criterion of another
scope is checked on the way: the one has no placeholder left, and the other has been sound all
along. -/

namespace RecordQuery

namespace Scope

/-- The scopes that can be derived in finitely many steps, each of which succeeds. -/
inductive Reachable : Scope → Prop
  | withContext (target : Target) (context : ContextId) : Reachable (withContext target context)
  | new {α : Type} {session : Session α} {target : Target} {scope : Scope} :
      new session target = .ok scope → Reachable scope
  | ofParts {α : Type} {session : Session α} {target : Target} {criterion : Option Criterion}
      {directives : List SortDirective} {context : Option ContextId} {scope : Scope} :
      ofParts session target criterion directives context = .ok scope → Reachable scope
  | filter {scope derived : Scope} {input : CriterionInput} : Reachable scope →
      (∀ criterion, input ≠ .scope criterion) → scope.filter input = .ok derived →
      Reachable derived
  | filterDocument {scope derived : Scope} {d : Document} {input : CriterionInput} :
      Reachable scope → CriterionInput.ofDocument d = .ok input → scope.filter input = .ok derived →
      Reachable derived
  | filterScope {scope other derived : Scope} : Reachable scope → Reachable other →
      scope.filter other.input = .ok derived → Reachable derived
  | sortBy {scope derived : Scope} {directive : SortDirective} : Reachable scope →
      scope.sortBy directive = .ok derived → Reachable derived
  | sortByName {scope derived : Scope} {field : String} {ascending : Bool} : Reachable scope →
      scope.sortByName field ascending = .ok derived → Reachable derived

/-- A valid criterion, if there is one, and directives for valid paths. -/
structure Sound (scope : Scope) : Prop where
  criterion : ∀ c ∈ scope.criterion, c.validate = .ok ()
  directives : ∀ d ∈ scope.directives, d.field.isValid = true

end Scope

/-- Criteria that are valid are so together. -/
theorem Criterion.validate_combine {a b : Option Criterion} (ha : ∀ c ∈ a, c.validate = .ok ())
    (hb : ∀ c ∈ b, c.validate = .ok ()) : ∀ c ∈ combine a b, c.validate = .ok () := by
  cases a with
  | none => simpa only [combine_none_left] using hb
  | some a =>
    cases b with
    | none => simpa only [combine_none_right] using ha
    | some b =>
      intro c hc
      obtain rfl := Option.some.inj hc
      rw [Criterion.and, validate, validateAll_eq_ok_iff]
      intro c hc
      rcases List.mem_pair.1 hc with rfl | rfl
      · exact ha c rfl
      · exact hb c rfl

theorem SortDirective.isValid_of_named {field : String} {ascending : Bool} {d : SortDirective}
    (h : named field ascending = .ok d) : d.field.isValid = true := by
  unfold named at h
  split at h
  · rename_i path hpath
    obtain rfl := Except.ok.inj h
    exact KeyPath.isValid_of_parse hpath
  · exact absurd h (by simp)

namespace Scope

variable {scope derived : Scope}

/-! ### One step -/

theorem sound_withContext (target : Target) (context : ContextId) :
    (withContext target context).Sound :=
  ⟨by simp [withContext], by simp [withContext]⟩

theorem sound_of_new {α : Type} {session : Session α} {target : Target}
    (h : new session target = .ok scope) : scope.Sound := by
  obtain ⟨context, -, rfl⟩ := map_eq_ok_iff.1 h
  exact sound_withContext target context

theorem sound_of_ofParts {α : Type} {session : Session α} {target : Target}
    {criterion : Option Criterion} {directives : List SortDirective} {context : Option ContextId}
    (h : ofParts session target criterion directives context = .ok scope) : scope.Sound := by
  obtain ⟨⟨hvalid, rfl⟩, hdirectives, rfl⟩ := parts_of_ofParts h
  exact ⟨hvalid, hdirectives⟩

/-- A filter keeps soundness if what it lets in is valid. -/
theorem Sound.filter {input : CriterionInput} (hscope : scope.Sound)
    (hinput : ∀ c, input.normalize = .ok (some c) → c.validate = .ok ())
    (h : scope.filter input = .ok derived) : derived.Sound := by
  obtain ⟨incoming, hincoming, rfl⟩ := filter_eq_ok_iff.1 h
  refine ⟨Criterion.validate_combine hscope.criterion fun c hc => ?_, hscope.directives⟩
  obtain rfl := Option.mem_def.1 hc
  exact hinput c hincoming

theorem Sound.append_directive (hscope : scope.Sound) {d : SortDirective}
    (hd : d.field.isValid = true) :
    Sound { scope with directives := scope.directives ++ [d] } := by
  refine ⟨hscope.criterion, ?_⟩
  rw [List.forall_mem_append]
  exact ⟨hscope.directives, by simpa using hd⟩

theorem Sound.sortBy {directive : SortDirective} (hscope : scope.Sound)
    (h : scope.sortBy directive = .ok derived) : derived.Sound := by
  obtain ⟨d, hd, he⟩ := bind_eq_ok_iff.1 h
  obtain ⟨hvalid, rfl⟩ := SortDirective.checked_eq_ok_iff.1 hd
  obtain rfl := Except.ok.inj he
  exact hscope.append_directive hvalid

theorem Sound.sortByName {field : String} {ascending : Bool} (hscope : scope.Sound)
    (h : scope.sortByName field ascending = .ok derived) : derived.Sound := by
  obtain ⟨d, hd, he⟩ := bind_eq_ok_iff.1 h
  obtain rfl := Except.ok.inj he
  exact hscope.append_directive (SortDirective.isValid_of_named hd)

/-! ### All steps -/

/-- By induction on the derivation; for a filter by another scope both derivations are needed. -/
theorem Reachable.sound (h : scope.Reachable) : scope.Sound := by
  induction h with
  | withContext target context => exact sound_withContext target context
  | new h => exact sound_of_new h
  | ofParts h => exact sound_of_ofParts h
  | filter _ own h ih => exact ih.filter (fun _ => CriterionInput.validate_of_normalize own) h
  | filterDocument _ hd h ih =>
    have own := CriterionInput.ne_scope_of_ofDocument hd
    exact ih.filter (fun _ => CriterionInput.validate_of_normalize own) h
  | @filterScope scope other derived _ _ h ih ihOther =>
    have hother (c : Criterion) (hc : other.input.normalize = .ok (some c)) :
        c.validate = .ok () := ihOther.criterion c (Except.ok.inj hc)
    exact ih.filter hother h
  | sortBy _ h ih => exact ih.sortBy h
  | sortByName _ h ih => exact ih.sortByName h

/-- Every scope that can be derived has a valid criterion and valid directives, and the predicates
of the language in its criterion have a value on every record: none of them meets a placeholder. -/
theorem Reachable.valid_and_bound (h : scope.Reachable) :
    (∀ c ∈ scope.criterion, c.validate = .ok () ∧
      ∀ p, .native p ∈ c.atoms → ∀ look, ∃ b, p.evaluate look = .ok b) ∧
    ∀ d ∈ scope.directives, d.field.isValid = true := by
  obtain ⟨hcriterion, hdirectives⟩ := h.sound
  refine ⟨fun c hc => ⟨hcriterion c hc, fun p hp look => ?_⟩, hdirectives⟩
  have hp := Criterion.validate_native_eq_ok_iff.1
    (Criterion.validate_eq_ok_iff.1 (hcriterion c hc) _ hp)
  exact Predicate.exists_evaluate (Predicate.placeholders_eq_nil_iff.1 hp) look

/-- A scope that is filtered by a format with arguments and then by another scope, which is filtered
by a described map of fields, and sorted by a name. -/
theorem valid_and_bound_shared :
    let young := Predicate.comparison (.path ⟨["age"]⟩) .less (.literal (.integer 30)) false
    let cooks := Criterion.logical .and
      [.comparison ⟨["job", "title"]⟩ .equal (.value (.string "cook")) false]
    let scope : Scope :=
      ⟨⟨"people"⟩, some (.logical .and [.native young, cooks]), [⟨⟨["name"]⟩, true⟩], ⟨0⟩⟩
    scope.Reachable ∧
      (∀ c ∈ scope.criterion, c.validate = .ok () ∧
        ∀ p, .native p ∈ c.atoms → ∀ look, ∃ b, p.evaluate look = .ok b) ∧
      ∀ d ∈ scope.directives, d.field.isValid = true := by
  intro young cooks scope
  let format := CriterionInput.format "%K < %@" [.string "age", .integer 30]
  let document := Document.object [("job.title", .string "cook")]
  let placeholders := Predicate.comparison (.placeholder .key) .less (.placeholder .value) false
  have hparse : Predicate.parse "%K < %@" = .ok placeholders := by
    have htext : placeholders.text = "%K < %@" := by decide
    rw [← htext, Predicate.parse_canonical_text .comparison (by decide) (by decide)]
    rfl
  have hformat : format.normalize = .ok (some (.native young)) :=
    CriterionInput.normalize_format (bind_eq_ok_iff.2 ⟨_, hparse, rfl⟩)
  have hdocument : CriterionInput.ofDocument document =
    .ok (.fields [("job.title", .string "cook")]) := rfl
  have hfields : (CriterionInput.fields [("job.title", .string "cook")]).normalize =
    .ok (some cooks) := by rfl
  let all := withContext ⟨"people"⟩ ⟨0⟩
  have hall : all.Reachable := .withContext _ _
  have hyoung : Reachable { all with criterion := some (.native young) } :=
    hall.filter (by simp) (filter_eq_ok_iff.2 ⟨_, hformat, rfl⟩)
  have hcooks : Reachable { all with criterion := some cooks } :=
    hall.filterDocument hdocument (filter_eq_ok_iff.2 ⟨_, hfields, rfl⟩)
  have hboth := hyoung.filterScope hcooks (filter_eq_ok_iff.2 ⟨_, rfl, rfl⟩)
  have hname : SortDirective.named "name" true = .ok ⟨⟨["name"]⟩, true⟩ := by rfl
  have hscope : scope.Reachable := hboth.sortByName (bind_eq_ok_iff.2 ⟨_, hname, rfl⟩)
  exact ⟨hscope, hscope.valid_and_bound⟩

end Scope

end RecordQuery
