import Mathlib.Data.List.Induction
import RecordQuery.Proofs.Steps

/-! Programs over a session, as the operations they perform one after the other. Every operation has
an answer, and later operations name contexts and scopes that have been answered before. What is
registered for a target in a context, and which context is current, can be read off the operations
alone: it is what the last of those that matter has left. -/

namespace RecordQuery

namespace Program

/-- What a program does. Contexts go by their numbers, and a scope by the operation that made it,
counted from zero. -/
inductive Operation (α : Type) where
  | newContext
  | insert (context : ContextId) (target : Target) (set : RecordSet α)
  | remove (context : ContextId) (target : Target)
  | setCurrent (context : ContextId)
  | clearCurrent
  | new (target : Target)
  | withContext (target : Target) (context : ContextId)
  | ofParts (target : Target) (criterion : Option Criterion) (directives : List SortDirective)
      (context : Option ContextId)
  | derive (parent : ℕ) (step : Scope.Step)

/-- What an operation hands back: a new context, the collection that was registered before, the
context that was current before, or a scope unless it is refused. -/
inductive Answer (α : Type) where
  | context (context : ContextId)
  | collection (set : Option (RecordSet α))
  | current (context : Option ContextId)
  | scope (outcome : Except ScopeError Scope)

structure State (α : Type) where
  session : Session α
  /-- One answer for every operation so far. -/
  answers : List (Answer α)

variable {α : Type}

def Answer.context? : Answer α → Option ContextId
  | context found => some found
  | collection _ | current _ | scope _ => none

/-- The contexts that have been handed out. -/
def State.contexts (state : State α) : List ContextId := state.answers.filterMap Answer.context?

/-- The scope an operation made. -/
def State.scope? (state : State α) (n : ℕ) : Option Scope :=
  match state.answers[n]? with
  | some (.scope (.ok scope)) => some scope
  | _ => none

namespace Operation

/-- The context an operation names. -/
def context? : Operation α → Option ContextId
  | insert context _ _ | remove context _ | setCurrent context | withContext _ context =>
    some context
  | ofParts _ _ _ context => context
  | newContext | clearCurrent | new _ | derive _ _ => none

def effect (session : Session α) : Operation α → Session α
  | newContext => session.newContext.2
  | insert context target set => (session.insert context target set).2
  | remove context target => (session.remove context target).2
  | setCurrent context => (session.setCurrent context).2
  | clearCurrent => session.clearCurrent.2
  | new _ | withContext _ _ | ofParts _ _ _ _ | derive _ _ => session

/-- There is no answer only when a scope is to be derived where no scope was made. -/
def answer (state : State α) : Operation α → Option (Answer α)
  | newContext => some (.context state.session.newContext.1)
  | insert context target set => some (.collection (state.session.insert context target set).1)
  | remove context target => some (.collection (state.session.remove context target).1)
  | setCurrent context => some (.current (state.session.setCurrent context).1)
  | clearCurrent => some (.current state.session.clearCurrent.1)
  | new target => some (.scope (Scope.new state.session target))
  | withContext target context => some (.scope (.ok (Scope.withContext target context)))
  | ofParts target criterion directives context =>
    some (.scope (Scope.ofParts state.session target criterion directives context))
  | derive parent step => (state.scope? parent).map fun scope => .scope (step.apply scope)

end Operation

/-- One operation, which may name only contexts and scopes that have been handed out. -/
def State.step (state : State α) (op : Operation α) : Option (State α) :=
  if op.context?.all (· ∈ state.contexts) then
    (op.answer state).map fun answer =>
      { session := op.effect state.session, answers := state.answers ++ [answer] }
  else none

/-- All operations of a program. -/
def State.run (state : State α) (ops : List (Operation α)) : Option (State α) :=
  ops.foldlM State.step state

/-- Where programs start: there is no context. -/
def State.initial : State α := { session := .empty, answers := [] }

/-! ### One operation -/

/-- What an operation leaves, and what it answers. -/
theorem State.step_eq_some {state next : State α} {op : Operation α}
    (h : state.step op = some next) :
    next.session = op.effect state.session ∧
      ∃ answer, op.answer state = some answer ∧ next.answers = state.answers ++ [answer] := by
  rw [step, Option.ite_none_right_eq_some, Option.map_eq_some_iff] at h
  obtain ⟨-, answer, hanswer, rfl⟩ := h
  exact ⟨rfl, answer, hanswer, rfl⟩

/-- A program can go on with an operation whose context and scope there are. -/
theorem exists_step_iff {state : State α} {op : Operation α} :
    (∃ next, state.step op = some next) ↔ (∀ context ∈ op.context?, context ∈ state.contexts) ∧
      ∀ parent step, op = .derive parent step → ∃ scope, state.scope? parent = some scope := by
  have hanswer : (∃ answer, op.answer state = some answer) ↔
      ∀ parent step, op = .derive parent step → ∃ scope, state.scope? parent = some scope := by
    cases op with
    | derive parent step => simp [Operation.answer]
    | newContext | insert | remove | setCurrent | clearCurrent | new | withContext | ofParts =>
      simp [Operation.answer]
  rw [← hanswer]
  simp [State.step, Option.all_eq_true]

namespace Operation

/-- The operation registers or unregisters a collection for the target in the context. -/
def Concerns (context : ContextId) (target : Target) (op : Operation α) : Prop :=
  (∃ set, op = insert context target set) ∨ op = remove context target

/-- The operation replaces or removes the current context. -/
def Installs (op : Operation α) : Prop :=
  (∃ context, op = setCurrent context) ∨ op = clearCurrent

theorem backing?_effect_of_not_concerns {session : Session α} {op : Operation α}
    {context : ContextId} {target : Target} (h : ¬ op.Concerns context target) :
    (op.effect session).backing? context target = session.backing? context target := by
  cases op with
  | insert context' target' set =>
    have hne : (context, target) ≠ (context', target') := by
      rintro ⟨⟩
      exact h (.inl ⟨set, rfl⟩)
    exact session.backing?_insert_of_ne hne set
  | remove context' target' =>
    have hne : (context, target) ≠ (context', target') := by
      rintro ⟨⟩
      exact h (.inr rfl)
    exact session.backing?_forget_of_ne hne
  | newContext | setCurrent | clearCurrent | new | withContext | ofParts | derive => rfl

theorem backing?_effect_eq_some_iff {session : Session α} {op : Operation α} {context : ContextId}
    {target : Target} {set : RecordSet α} :
    (op.effect session).backing? context target = some set ↔ op = insert context target set ∨
      ¬ op.Concerns context target ∧ session.backing? context target = some set := by
  by_cases h : op.Concerns context target
  · obtain ⟨set', rfl⟩ | rfl := h
    · simp [effect, Concerns]
    · simp [effect, Session.remove, Concerns]
  · rw [backing?_effect_of_not_concerns h]
    have hne : op ≠ insert context target set := fun he => h (.inl ⟨set, he⟩)
    simp only [h, hne, false_or, not_false_eq_true, true_and]

theorem current_effect_eq_some_iff {session : Session α} {op : Operation α} {context : ContextId} :
    (op.effect session).current = some context ↔
      op = setCurrent context ∨ ¬ op.Installs ∧ session.current = some context := by
  cases op <;>
    simp [effect, Installs, Session.newContext, Session.insert, Session.remove, Session.forget,
      Session.setCurrent, Session.clearCurrent]

/-- Only evaluations number new sets. -/
theorem nextIdentity_effect (op : Operation α) (session : Session α) :
    (op.effect session).nextIdentity = session.nextIdentity := by
  cases op <;> rfl

end Operation

/-! ### What has been done last -/

/-- The operation has been performed, and none that undoes it since. -/
def Stands (op : Operation α) (Undoes : Operation α → Prop) (ops : List (Operation α)) : Prop :=
  ∃ before after, ops = before ++ op :: after ∧ ∀ o ∈ after, ¬ Undoes o

/-- The collection that is registered for a target in a context, by the operations alone. -/
def LastInserted (ops : List (Operation α)) (context : ContextId) (target : Target)
    (set : RecordSet α) : Prop :=
  Stands (.insert context target set) (·.Concerns context target) ops

/-- The context that is current, by the operations alone. -/
def Installed (ops : List (Operation α)) (context : ContextId) : Prop :=
  Stands (.setCurrent context) Operation.Installs ops

theorem not_stands_nil (op : Operation α) (Undoes : Operation α → Prop) :
    ¬ Stands op Undoes [] := by
  rintro ⟨before, after, h, -⟩
  exact absurd h (by simp)

theorem stands_append_singleton {op last : Operation α} {Undoes : Operation α → Prop}
    {ops : List (Operation α)} :
    Stands op Undoes (ops ++ [last]) ↔ last = op ∨ ¬ Undoes last ∧ Stands op Undoes ops := by
  constructor
  · rintro ⟨before, after, h, hafter⟩
    rcases List.eq_nil_or_concat after with rfl | ⟨after, o, rfl⟩
    · exact .inl (List.cons.inj (List.append_inj' h rfl).2).1
    · rw [List.concat_eq_append, ← List.cons_append, ← List.append_assoc] at h
      obtain ⟨rfl, ho⟩ := List.append_inj' h rfl
      obtain rfl := (List.cons.inj ho).1
      rw [List.concat_eq_append, List.forall_mem_append, List.forall_mem_singleton] at hafter
      exact .inr ⟨hafter.2, before, after, rfl, hafter.1⟩
  · rintro (rfl | ⟨hlast, before, after, rfl, hafter⟩)
    · exact ⟨ops, [], rfl, by simp⟩
    · refine ⟨before, after ++ [last], by simp, ?_⟩
      rw [List.forall_mem_append, List.forall_mem_singleton]
      exact ⟨hafter, hlast⟩

/-! ### Whole programs -/

theorem run_append_eq_some_iff {start last : State α} {ops later : List (Operation α)} :
    start.run (ops ++ later) = some last ↔
      ∃ state, start.run ops = some state ∧ state.run later = some last := by
  rw [State.run, List.foldlM_append]
  exact Option.bind_eq_some_iff

theorem run_cons_eq_some_iff {start last : State α} {op : Operation α}
    {ops : List (Operation α)} :
    start.run (op :: ops) = some last ↔
      ∃ state, start.step op = some state ∧ state.run ops = some last := by
  rw [State.run, List.foldlM_cons]
  exact Option.bind_eq_some_iff

theorem run_append_singleton_eq_some_iff {start last : State α} {op : Operation α}
    {ops : List (Operation α)} :
    start.run (ops ++ [op]) = some last ↔
      ∃ state, start.run ops = some state ∧ state.step op = some last := by
  simp only [run_append_eq_some_iff, run_cons_eq_some_iff]
  constructor
  · rintro ⟨state, hstate, next, hnext, hlast⟩
    obtain rfl := Option.some.inj hlast
    exact ⟨state, hstate, hnext⟩
  · rintro ⟨state, hstate, hlast⟩
    exact ⟨state, hstate, last, hlast, rfl⟩

/-- What each operation of a program keeps the program keeps. -/
theorem run_induction {P : State α → Prop} {ops : List (Operation α)}
    (hstep : ∀ op ∈ ops, ∀ state next, state.step op = some next → P state → P next)
    {start last : State α} (h : start.run ops = some last) (hstart : P start) : P last := by
  induction ops generalizing start with
  | nil =>
    obtain rfl := Option.some.inj h
    exact hstart
  | cons op ops ih =>
    obtain ⟨state, hstate, hlast⟩ := run_cons_eq_some_iff.1 h
    rw [List.forall_mem_cons] at hstep
    exact ih hstep.2 hlast (hstep.1 start state hstate hstart)

/-- Answers are never taken back. -/
theorem prefix_answers {start last : State α} {ops : List (Operation α)}
    (h : start.run ops = some last) : start.answers <+: last.answers := by
  refine run_induction (P := fun state => start.answers <+: state.answers)
    (fun op _ state next hnext hstate => ?_) h (List.prefix_refl _)
  obtain ⟨-, answer, -, hanswers⟩ := State.step_eq_some hnext
  rw [hanswers]
  exact hstate.trans (List.prefix_append ..)

theorem length_answers {ops : List (Operation α)} {state : State α}
    (h : State.initial.run ops = some state) : state.answers.length = ops.length := by
  induction ops using List.reverseRecOn generalizing state with
  | nil =>
    obtain rfl := Option.some.inj h
    rfl
  | append_singleton ops op ih =>
    obtain ⟨before, hbefore, hstep⟩ := run_append_singleton_eq_some_iff.1 h
    obtain ⟨-, answer, -, hanswers⟩ := State.step_eq_some hstep
    rw [hanswers, List.length_append, List.length_append, ih hbefore]
    rfl

/-- Every answer is the one its operation gives in the state in which it is performed. -/
theorem answer_eq_of_run {ops : List (Operation α)} {state : State α}
    (h : State.initial.run ops = some state) {n : ℕ} {op : Operation α} (hop : ops[n]? = some op) :
    ∃ before, State.initial.run (ops.take n) = some before ∧
      before.answers <+: state.answers ∧ op.answer before = state.answers[n]? := by
  obtain ⟨hn, hop⟩ := List.getElem?_eq_some_iff.1 hop
  have hops : ops = ops.take n ++ op :: ops.drop (n + 1) := by
    rw [← hop, List.cons_getElem_drop_succ, List.take_append_drop]
  rw [hops, run_append_eq_some_iff] at h
  obtain ⟨before, hbefore, h⟩ := h
  obtain ⟨next, hstep, hrest⟩ := run_cons_eq_some_iff.1 h
  obtain ⟨-, answer, hanswer, hanswers⟩ := State.step_eq_some hstep
  obtain ⟨rest, hrest⟩ := prefix_answers hrest
  have hlength : before.answers.length = n := by
    rw [length_answers hbefore, List.length_take_of_le hn.le]
  rw [hanswers, List.append_assoc] at hrest
  refine ⟨before, hbefore, ⟨_, hrest⟩, ?_⟩
  rw [hanswer, ← hrest, List.getElem?_append_right hlength.le, hlength, Nat.sub_self]
  rfl

/-- What holds of a session exactly after one operation, until another undoes it, holds at the end of
a program when that operation stands. -/
theorem iff_stands_of_run {P : Session α → Prop} {op : Operation α} {Undoes : Operation α → Prop}
    (hempty : ¬ P .empty) (heffect : ∀ session last,
      P (Operation.effect session last) ↔ last = op ∨ ¬ Undoes last ∧ P session)
    {ops : List (Operation α)} {state : State α} (h : State.initial.run ops = some state) :
    P state.session ↔ Stands op Undoes ops := by
  induction ops using List.reverseRecOn generalizing state with
  | nil =>
    obtain rfl := Option.some.inj h
    exact iff_of_false hempty (not_stands_nil _ _)
  | append_singleton ops last ih =>
    obtain ⟨before, hbefore, hstep⟩ := run_append_singleton_eq_some_iff.1 h
    rw [(State.step_eq_some hstep).1, heffect, ih hbefore, stands_append_singleton]

/-- The collections that are registered are those that were inserted last. -/
theorem backing?_eq_some_iff_lastInserted {ops : List (Operation α)} {state : State α}
    (h : State.initial.run ops = some state) {context : ContextId} {target : Target}
    {set : RecordSet α} :
    state.session.backing? context target = some set ↔ LastInserted ops context target set :=
  iff_stands_of_run (P := fun session => session.backing? context target = some set)
    (by simp [Session.empty, Session.backing?])
    (fun _ _ => Operation.backing?_effect_eq_some_iff) h

/-- The current context is the one that was installed last. -/
theorem current_eq_some_iff_installed {ops : List (Operation α)} {state : State α}
    (h : State.initial.run ops = some state) {context : ContextId} :
    state.session.current = some context ↔ Installed ops context :=
  iff_stands_of_run (P := fun session => session.current = some context)
    (by simp [Session.empty]) (fun _ _ => Operation.current_effect_eq_some_iff) h

theorem State.scope?_eq_some_iff {state : State α} {n : ℕ} {scope : Scope} :
    state.scope? n = some scope ↔ state.answers[n]? = some (.scope (.ok scope)) := by
  unfold State.scope?
  split
  · simp_all
  · simp_all

theorem scope?_eq_of_answers {state later : State α} (h : state.answers <+: later.answers) {n : ℕ}
    {scope : Scope} (hscope : state.scope? n = some scope) : later.scope? n = some scope := by
  rw [State.scope?_eq_some_iff] at hscope ⊢
  obtain ⟨rest, hrest⟩ := h
  rw [← hrest, List.getElem?_append_left (List.getElem?_eq_some_iff.1 hscope).1, hscope]

theorem lt_of_scope? {ops : List (Operation α)} {state : State α}
    (h : State.initial.run ops = some state) {n : ℕ} {scope : Scope}
    (hscope : state.scope? n = some scope) : n < ops.length := by
  rw [← length_answers h]
  exact (List.getElem?_eq_some_iff.1 (State.scope?_eq_some_iff.1 hscope)).1

/-- What no operation of a program changes in a session stays as it is. -/
theorem eq_of_run {β : Type} {f : Session α → β} {ops : List (Operation α)}
    (hops : ∀ op ∈ ops, ∀ session, f (op.effect session) = f session) {start last : State α}
    (h : start.run ops = some last) : f last.session = f start.session := by
  refine run_induction (P := fun state => f state.session = f start.session)
    (fun op hop state next hnext hstate => ?_) h rfl
  rw [(State.step_eq_some hnext).1, hops op hop, hstate]

/-- Operations that do not concern the target in the context leave what is registered there. -/
theorem backing?_of_not_concerns {start last : State α} {ops : List (Operation α)}
    (h : start.run ops = some last) {context : ContextId} {target : Target}
    (hops : ∀ op ∈ ops, ¬ op.Concerns context target) :
    last.session.backing? context target = start.session.backing? context target :=
  eq_of_run (f := fun session => session.backing? context target)
    (fun op hop _ => Operation.backing?_effect_of_not_concerns (hops op hop)) h

theorem nextIdentity_of_run {start last : State α} {ops : List (Operation α)}
    (h : start.run ops = some last) : last.session.nextIdentity = start.session.nextIdentity :=
  eq_of_run (fun op _ session => op.nextIdentity_effect session) h

/-- Every new context is another one than those before. -/
theorem contexts_eq_of_run {ops : List (Operation α)} {state : State α}
    (h : State.initial.run ops = some state) :
    state.contexts = (List.range state.session.nextContext).map ContextId.mk := by
  refine run_induction (P := fun state =>
    state.contexts = (List.range state.session.nextContext).map ContextId.mk)
    (fun op _ state next hnext hstate => ?_) h rfl
  obtain ⟨hsession, answer, hanswer, hanswers⟩ := State.step_eq_some hnext
  rw [State.contexts, hanswers, List.filterMap_append, ← State.contexts, hstate, hsession]
  cases op with
  | newContext =>
    obtain rfl := Option.some.inj hanswer
    simp [Operation.effect, Session.newContext, Answer.context?, List.range_succ]
  | derive =>
    obtain ⟨made, -, rfl⟩ := Option.map_eq_some_iff.1 hanswer
    simp [Operation.effect, Answer.context?]
  | insert | remove | setCurrent | clearCurrent | new | withContext | ofParts =>
    obtain rfl := Option.some.inj hanswer
    simp [Operation.effect, Answer.context?, Session.insert, Session.remove, Session.forget,
      Session.setCurrent, Session.clearCurrent]

end Program

end RecordQuery
