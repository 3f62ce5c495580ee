import RecordQuery.Proofs.Programs

/-! The contexts of scopes. A scope belongs to one context from the moment it is made: the one it is
given, the one that is current then, or the one of the scope it is derived from. What is registered
there is looked up when the scope is evaluated, and not before. So a scope evaluates to what has
been inserted last for its target in its own context, and nothing that is done elsewhere changes
that. -/

namespace RecordQuery

namespace Program

variable {α : Type}

/-- The context a scope belongs to, by the operations alone. -/
inductive OwnContext (ops : List (Operation α)) : ℕ → ContextId → Prop
  | withContext {n : ℕ} {target : Target} {context : ContextId} :
      ops[n]? = some (.withContext target context) → OwnContext ops n context
  | ofParts {n : ℕ} {target : Target} {criterion : Option Criterion}
      {directives : List SortDirective} {context : ContextId} :
      ops[n]? = some (.ofParts target criterion directives (some context)) →
      OwnContext ops n context
  | new {n : ℕ} {target : Target} {context : ContextId} : ops[n]? = some (.new target) →
      Installed (ops.take n) context → OwnContext ops n context
  | ofPartsInCurrent {n : ℕ} {target : Target} {criterion : Option Criterion}
      {directives : List SortDirective} {context : ContextId} :
      ops[n]? = some (.ofParts target criterion directives none) →
      Installed (ops.take n) context → OwnContext ops n context
  | derive {n parent : ℕ} {step : Scope.Step} {context : ContextId} :
      ops[n]? = some (.derive parent step) → OwnContext ops parent context →
      OwnContext ops n context

/-! ### Scopes -/

theorem currentContext_eq_ok_iff {session : Session α} {context : ContextId} :
    session.currentContext = .ok context ↔ session.current = some context := by
  unfold Session.currentContext
  cases session.current <;> simp

/-- The context of a scope that is put together from parts. -/
theorem context_of_ofParts {session : Session α} {target : Target} {criterion : Option Criterion}
    {directives : List SortDirective} {context : Option ContextId} {scope : Scope}
    (h : Scope.ofParts session target criterion directives context = .ok scope) :
    context.elim session.currentContext .ok = .ok scope.context := by
  obtain ⟨⟨hcriterion, -⟩, hdirectives, -⟩ := Scope.parts_of_ofParts h
  rw [Scope.ofParts_of_valid hcriterion hdirectives] at h
  obtain ⟨own, hown, rfl⟩ := map_eq_ok_iff.1 h
  exact hown

theorem context_of_apply {scope derived : Scope} {step : Scope.Step}
    (h : step.apply scope = .ok derived) : derived.context = scope.context := by
  cases step with
  | filter =>
    obtain ⟨incoming, -, rfl⟩ := Scope.filter_eq_ok_iff.1 h
    rfl
  | sortBy =>
    obtain ⟨d, -, rfl⟩ := Scope.sortBy_eq_ok_iff.1 h
    rfl
  | sortByName =>
    obtain ⟨d, -, rfl⟩ := Scope.sortByName_eq_ok_iff.1 h
    rfl

/-- The context that the scope of an operation gets. -/
def Operation.own? (state : State α) : Operation α → Option ContextId
  | withContext _ context => some context
  | new _ => state.session.current
  | ofParts _ _ _ context => context.or state.session.current
  | derive parent _ => (state.scope? parent).map Scope.context
  | newContext | insert _ _ _ | remove _ _ | setCurrent _ | clearCurrent => none

theorem own?_of_answer {state : State α} {op : Operation α} {scope : Scope}
    (h : op.answer state = some (.scope (.ok scope))) : op.own? state = some scope.context := by
  cases op with
  | newContext | insert | remove | setCurrent | clearCurrent =>
    exact absurd (Option.some.inj h) (by simp)
  | new target =>
    obtain ⟨context, hcontext, rfl⟩ := map_eq_ok_iff.1 (Answer.scope.inj (Option.some.inj h))
    exact currentContext_eq_ok_iff.1 hcontext
  | withContext target context =>
    obtain rfl := Except.ok.inj (Answer.scope.inj (Option.some.inj h))
    rfl
  | ofParts target criterion directives context =>
    have hcontext := context_of_ofParts (Answer.scope.inj (Option.some.inj h))
    cases context with
    | none => exact currentContext_eq_ok_iff.1 hcontext
    | some context => exact congrArg some (Except.ok.inj hcontext)
  | derive parent step =>
    obtain ⟨made, hmade, hscope⟩ := Option.map_eq_some_iff.1 h
    rw [Operation.own?, hmade, Option.map_some, context_of_apply (Answer.scope.inj hscope)]

/-- What an operation makes a scope in is the own context of that scope, if this is so for the scope
it may derive it from. -/
theorem ownContext_iff_own? {ops : List (Operation α)} {n : ℕ} {op : Operation α}
    (hop : ops[n]? = some op) {before : State α}
    (hbefore : State.initial.run (ops.take n) = some before) {own : ContextId}
    (hown : op.own? before = some own)
    (hparent : ∀ parent made, before.scope? parent = some made →
      ∀ context, OwnContext ops parent context ↔ context = made.context) {context : ContextId} :
    OwnContext ops n context ↔ op.own? before = some context := by
  have hinstalled (context : ContextId) :
      before.session.current = some context ↔ Installed (ops.take n) context :=
    current_eq_some_iff_installed hbefore
  constructor
  · intro h
    -- there is one operation at `n`, and it is the one that each constructor names
    cases h with
    | withContext hop' | ofParts hop' =>
      obtain rfl := Option.some.inj (hop.symm.trans hop')
      rfl
    | new hop' hcurrent | ofPartsInCurrent hop' hcurrent =>
      obtain rfl := Option.some.inj (hop.symm.trans hop')
      exact (hinstalled context).2 hcurrent
    | derive hop' h =>
      obtain rfl := Option.some.inj (hop.symm.trans hop')
      obtain ⟨made, hmade, -⟩ := Option.map_eq_some_iff.1 hown
      rw [(hparent _ made hmade context).1 h, Operation.own?, hmade, Option.map_some]
  · intro h
    cases op with
    | newContext | insert | remove | setCurrent | clearCurrent =>
      exact absurd h (by simp [Operation.own?])
    | new => exact .new hop ((hinstalled context).1 h)
    | withContext =>
      obtain rfl := Option.some.inj h
      exact .withContext hop
    | ofParts target criterion directives given =>
      cases given with
      | none => exact .ofPartsInCurrent hop ((hinstalled context).1 h)
      | some given =>
        obtain rfl := Option.some.inj h
        exact .ofParts hop
    | derive parent step =>
      obtain ⟨made, hmade, rfl⟩ := Option.map_eq_some_iff.1 h
      exact .derive hop ((hparent parent made hmade _).2 rfl)

/-- A scope has the context that is its own by the operations. By induction on when it was made, as
the scope it is derived from was made before. -/
theorem ownContext_iff {ops : List (Operation α)} {state : State α}
    (h : State.initial.run ops = some state) {n : ℕ} {scope : Scope}
    (hscope : state.scope? n = some scope) {context : ContextId} :
    OwnContext ops n context ↔ context = scope.context := by
  induction n using Nat.strong_induction_on generalizing scope context with
  | h n ih =>
    have hn := lt_of_scope? h hscope
    have hop : ops[n]? = some ops[n] := List.getElem?_eq_getElem hn
    obtain ⟨before, hbefore, hprefix, hanswer⟩ := answer_eq_of_run h hop
    have hown := own?_of_answer (hanswer.trans (State.scope?_eq_some_iff.1 hscope))
    rw [ownContext_iff_own? hop hbefore hown, hown, Option.some.injEq, eq_comm]
    intro parent made hmade context
    have hlt := lt_of_scope? hbefore hmade
    rw [List.length_take_of_le hn.le] at hlt
    exact ih parent hlt (scope?_eq_of_answers hprefix hmade)

/-- The operation is to make a scope of these parts, which are valid, in the current context. -/
inductive Operation.Asks : Operation α → Target → Option Criterion → List SortDirective → Prop
  | new {target : Target} : Asks (.new target) target none []
  | ofParts {target : Target} {criterion : Option Criterion} {directives : List SortDirective} :
      (∀ c ∈ criterion, c.validate = .ok ()) → (∀ d ∈ directives, d.field.isValid = true) →
      Asks (.ofParts target criterion directives none) target criterion directives

theorem answer_of_asks {state : State α} {op : Operation α} {target : Target}
    {criterion : Option Criterion} {directives : List SortDirective}
    (h : op.Asks target criterion directives) :
    op.answer state = some (.scope
      (Scope.mk target criterion directives <$> state.session.currentContext)) := by
  cases h with
  | new => rfl
  | ofParts hcriterion hdirectives =>
    rw [Operation.answer, Scope.ofParts_of_valid hcriterion hdirectives, Option.elim_none]

/-- The scope is made in the context that is installed then, and refused if there is none. -/
theorem answer_of_asks_in_run {ops : List (Operation α)} {state : State α}
    (h : State.initial.run ops = some state) {n : ℕ} {op : Operation α} (hop : ops[n]? = some op)
    {target : Target} {criterion : Option Criterion} {directives : List SortDirective}
    (hasks : op.Asks target criterion directives) :
    (∀ context, Installed (ops.take n) context →
      state.answers[n]? = some (.scope (.ok ⟨target, criterion, directives, context⟩))) ∧
    ((∀ context, ¬ Installed (ops.take n) context) →
      state.answers[n]? = some (.scope (.error .noCurrentContext))) := by
  obtain ⟨before, hbefore, -, hanswer⟩ := answer_eq_of_run h hop
  rw [← hanswer, answer_of_asks hasks]
  refine ⟨fun context hcontext => ?_, fun hnone => ?_⟩
  · rw [currentContext_eq_ok_iff.2 ((current_eq_some_iff_installed hbefore).2 hcontext)]
    rfl
  · have hcurrent : before.session.current = none :=
      Option.eq_none_iff_forall_ne_some.2 fun context hcontext =>
        hnone context ((current_eq_some_iff_installed hbefore).1 hcontext)
    rw [Session.currentContext, hcurrent]
    rfl

/-- A scope is evaluated from what is registered for its target in its context now. -/
theorem evaluate_eq [Record α] (scope : Scope) (session : Session α) :
    Prod.fst <$> scope.evaluate session =
      (session.backing? scope.context scope.target).elim (.error (.unknownTarget scope.target))
        fun set => .ok (set.materialize session.nextIdentity scope.criterion scope.directives) := by
  unfold Scope.evaluate
  cases session.backing? scope.context scope.target <;> rfl

/-- Scopes and contexts over a whole program, by its operations alone. The program can go on with an
operation exactly if what that names has been handed out, and every new context is another one. A
scope that is made in the current context gets the one installed last, or is refused if there is
none; a scope belongs to its own context for good. It evaluates to what was inserted last for its
target in that context, filtered and sorted by its parts, and to an unknown target if nothing is
left there; and no later operation changes this unless it concerns the target in that context. -/
theorem evaluate_after_run [Record α] {ops : List (Operation α)} {state : State α}
    (h : State.initial.run ops = some state) :
    (∀ op, (∃ next, State.initial.run (ops ++ [op]) = some next) ↔
      (∀ context ∈ op.context?, context ∈ state.contexts) ∧
        ∀ parent step, op = .derive parent step → ∃ scope, state.scope? parent = some scope) ∧
    state.contexts.Nodup ∧
    (∀ n op target criterion directives, ops[n]? = some op → op.Asks target criterion directives →
      (∀ context, Installed (ops.take n) context →
        state.answers[n]? = some (.scope (.ok ⟨target, criterion, directives, context⟩))) ∧
      ((∀ context, ¬ Installed (ops.take n) context) →
        state.answers[n]? = some (.scope (.error .noCurrentContext)))) ∧
    ∀ n scope, state.scope? n = some scope →
      (∀ context, OwnContext ops n context ↔ context = scope.context) ∧
      (∀ set, LastInserted ops scope.context scope.target set →
        Prod.fst <$> scope.evaluate state.session =
          .ok (set.materialize state.session.nextIdentity scope.criterion scope.directives)) ∧
      ((∀ set, ¬ LastInserted ops scope.context scope.target set) →
        Prod.fst <$> scope.evaluate state.session = .error (.unknownTarget scope.target)) ∧
      ∀ later last, State.initial.run (ops ++ later) = some last →
        (∀ op ∈ later, ¬ op.Concerns scope.context scope.target) →
        last.scope? n = some scope ∧
          Prod.fst <$> scope.evaluate last.session = Prod.fst <$> scope.evaluate state.session := by
  refine ⟨fun op => ?_, ?_,
    fun n op target criterion directives hop hasks => answer_of_asks_in_run h hop hasks,
    fun n scope hscope => ⟨fun context => ownContext_iff h hscope, fun set hset => ?_,
      fun hnone => ?_, fun later last hlast hlater => ?_⟩⟩
  · have hstep : (∃ next, State.initial.run (ops ++ [op]) = some next) ↔
        ∃ next, state.step op = some next := by
      simp only [run_append_singleton_eq_some_iff, h, Option.some.injEq, exists_eq_left']
    rw [hstep, exists_step_iff]
  · rw [contexts_eq_of_run h]
    exact List.nodup_range.map fun a b hab => congrArg ContextId.number hab
  · rw [evaluate_eq, (backing?_eq_some_iff_lastInserted h).2 hset, Option.elim_some]
  · have hbacking : state.session.backing? scope.context scope.target = none :=
      Option.eq_none_iff_forall_ne_some.2 fun set hset =>
        hnone set ((backing?_eq_some_iff_lastInserted h).1 hset)
    rw [evaluate_eq, hbacking, Option.elim_none]
  · obtain ⟨state', hstate, hrest⟩ := run_append_eq_some_iff.1 hlast
    obtain rfl := Option.some.inj (h.symm.trans hstate)
    refine ⟨scope?_eq_of_answers (prefix_answers hrest) hscope, ?_⟩
    rw [evaluate_eq, evaluate_eq, backing?_of_not_concerns hrest hlater, nextIdentity_of_run hrest]

/-- Two contexts that take turns as the current one. A scope that was made while the first was
current is sorted by name later, after the second has become current and has got people of its own,
and evaluates to the people the first has in the end; one that is made with the second, whose people
are removed, finds its target unknown. Before and after the turns there is no current context. -/
theorem evaluate_after_run_turns :
    let first : RecordSet Document := ⟨0, false, [.object [("name", .string "eve")]]⟩
    let second : RecordSet Document :=
      ⟨1, false, [.object [("name", .string "bob")], .object [("name", .string "ann")]]⟩
    let people : Target := ⟨"people"⟩
    let ops : List (Operation Document) :=
      [.newContext, .newContext, .new people, .setCurrent ⟨0⟩, .insert ⟨0⟩ people first,
        .new people, .setCurrent ⟨1⟩, .insert ⟨1⟩ people first,
        .derive 5 (.sortByName "name" true), .insert ⟨0⟩ people second, .clearCurrent, .new people,
        .ofParts people none [] (some ⟨1⟩), .remove ⟨1⟩ people]
    let sorted : Scope := ⟨people, none, [⟨⟨["name"]⟩, true⟩], ⟨0⟩⟩
    let other := Scope.withContext people ⟨1⟩
    ∃ state, State.initial.run ops = some state ∧
      state.answers[2]? = some (.scope (.error .noCurrentContext)) ∧
      state.answers[11]? = some (.scope (.error .noCurrentContext)) ∧
      state.scope? 8 = some sorted ∧ OwnContext ops 8 sorted.context ∧
      Prod.fst <$> sorted.evaluate state.session =
        .ok (second.materialize 0 sorted.criterion sorted.directives) ∧
      state.scope? 12 = some other ∧ OwnContext ops 12 other.context ∧
      Prod.fst <$> other.evaluate state.session = .error (.unknownTarget people) := by
  intro first second people ops sorted other
  have hstate : ∃ state, State.initial.run ops = some state ∧ state.scope? 8 = some sorted ∧
      state.scope? 12 = some other ∧ state.session.backing? ⟨1⟩ people = none :=
    ⟨_, rfl, rfl, rfl, rfl⟩
  obtain ⟨state, hrun, hsorted, hother, hremoved⟩ := hstate
  obtain ⟨-, -, hasked, hscopes⟩ := evaluate_after_run hrun
  have hbefore (context : ContextId) : ¬ Installed (ops.take 2) context := by
    rintro ⟨before, after, h, -⟩
    have hmem : .setCurrent context ∈ ops.take 2 := by simp [h]
    simp [ops] at hmem
  have hafter (context : ContextId) : ¬ Installed (ops.take 10 ++ [.clearCurrent]) context := by
    rw [Installed, stands_append_singleton]
    simp [Operation.Installs]
  have hfirst := (hasked 2 (.new people) people none [] rfl .new).2 hbefore
  have hcleared := (hasked 11 (.new people) people none [] rfl .new).2 hafter
  obtain ⟨hownSorted, hinserted, -, -⟩ := hscopes 8 sorted hsorted
  obtain ⟨hownOther, -, hunknown, -⟩ := hscopes 12 other hother
  have hsecond : LastInserted ops sorted.context people second :=
    ⟨ops.take 9, ops.drop 10, rfl, by simp [ops, sorted, Operation.Concerns]⟩
  have hidentity : state.session.nextIdentity = 0 := nextIdentity_of_run hrun
  refine ⟨state, hrun, hfirst, hcleared, hsorted, (hownSorted _).2 rfl, ?_, hother,
    (hownOther _).2 rfl, hunknown fun set hset => ?_⟩
  · rw [hinserted second hsecond, hidentity]
  · exact absurd (hremoved.symm.trans ((backing?_eq_some_iff_lastInserted hrun).2 hset)) (by simp)

end Program

end RecordQuery
