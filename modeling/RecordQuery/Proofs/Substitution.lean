import RecordQuery.Proofs.Bound

/-! Binding as substitution. The placeholders of a predicate are numbered as it is written, the left
operand before the right one and the operands of a compound in order; the argument of each number
is taken or refused on its own. The first refusal is the error, and without one the predicate is the
same tree with every placeholder replaced by what its argument became. -/

namespace RecordQuery

/-! ### One argument -/

namespace Placeholder

/-- What an argument becomes in the place of a placeholder that takes it. -/
inductive Takes : Placeholder → Value → Operand → Prop
  | value {v} : v.isFinite = true → Takes value v (.literal v)
  | key {name path} : KeyPath.parse name = .ok path → Takes key (.string name) (.path path)

/-- Why a placeholder does not take an argument. -/
inductive Refuses : Placeholder → Value → FormatError → Prop
  | notFinite {x} : x.isFinite = false → Refuses value (.float x) (.nonFiniteNumber x)
  | noName {v} : v.kind ≠ .string → Refuses key v (.keyPathArgument v.kind)
  | noPath {name text} : KeyPath.parse name = .error (.invalidKeyPath text) →
      Refuses key (.string name) (.invalidKeyPath text)

theorem Takes.bind_eq {p : Placeholder} {v : Value} {o : Operand} (h : p.Takes v o) :
    p.bind v = .ok o := by
  cases h with
  | value hfinite =>
    cases v with
    | float x => exact if_pos hfinite
    | nil | bool b | integer n | string s => rfl
  | key hparse => simp [bind, hparse]

theorem Refuses.bind_eq {p : Placeholder} {v : Value} {e : FormatError} (h : p.Refuses v e) :
    p.bind v = .error e := by
  cases h with
  | notFinite hfinite => simp [bind, hfinite]
  | noName hkind =>
    cases v with
    | string s => exact absurd rfl hkind
    | nil | bool b | integer n | float x => rfl
  | noPath hparse => simp [bind, hparse]

theorem Takes.not_refuses {p : Placeholder} {v : Value} {o : Operand} (h : p.Takes v o)
    (e : FormatError) : ¬ p.Refuses v e := by
  intro hrefuses
  exact absurd (h.bind_eq.symm.trans hrefuses.bind_eq) (by simp)

theorem Takes.unique {p : Placeholder} {v : Value} {o o' : Operand} (h : p.Takes v o)
    (h' : p.Takes v o') : o = o' :=
  Except.ok.inj (h.bind_eq.symm.trans h'.bind_eq)

theorem takes_or_refuses (p : Placeholder) (v : Value) :
    (∃ o, p.Takes v o) ∨ ∃ e, p.Refuses v e := by
  cases p with
  | value =>
    cases v with
    | float x =>
      cases hfinite : x.isFinite with
      | true => exact .inl ⟨_, .value hfinite⟩
      | false => exact .inr ⟨_, .notFinite hfinite⟩
    | nil | bool b | integer n | string s => exact .inl ⟨_, .value rfl⟩
  | key =>
    cases v with
    | string name =>
      cases hparse : KeyPath.parse name with
      | ok path => exact .inl ⟨_, .key hparse⟩
      | error e =>
        obtain ⟨-, rfl⟩ := KeyPath.parse_eq_error_iff.1 hparse
        exact .inr ⟨_, .noPath hparse⟩
    | nil | bool b | integer n | float x => exact .inr ⟨_, .noName (by simp [Value.kind])⟩

end Placeholder

/-! ### All arguments -/

/-- What all arguments become, each in the place of its placeholder. -/
def bindEach (ps : List Placeholder) (arguments : List Value) : Except FormatError (List Operand) :=
  (ps.zip arguments).mapM fun x => x.1.bind x.2

/-- The argument that has a number is refused by the placeholder of that number. -/
def RefusedAt (ps : List Placeholder) (arguments : List Value) (k : ℕ) (e : FormatError) : Prop :=
  ∃ p v, ps[k]? = some p ∧ arguments[k]? = some v ∧ p.Refuses v e

theorem bindEach_cons (p : Placeholder) (v : Value) (ps : List Placeholder)
    (arguments : List Value) : bindEach (p :: ps) (v :: arguments) = do
      let o ← p.bind v
      return o :: (← bindEach ps arguments) := by
  simp [bindEach]

theorem bindEach_append {ps : List Placeholder} {arguments : List Value}
    (h : ps.length = arguments.length) (ps' : List Placeholder) (arguments' : List Value) :
    bindEach (ps ++ ps') (arguments ++ arguments') = do
      let os ← bindEach ps arguments
      return os ++ (← bindEach ps' arguments') := by
  rw [bindEach, List.zip_append h, List.mapM_append]
  rfl

theorem length_of_bindEach {ps : List Placeholder} {arguments : List Value} {os : List Operand}
    (h : ps.length = arguments.length) (hos : bindEach ps arguments = .ok os) :
    os.length = ps.length := by
  have hlength := congrArg List.length (mapM_eq_ok_iff.1 hos)
  simp only [List.length_map, List.length_zip, h, Nat.min_self] at hlength
  omega

@[simp] theorem refusedAt_zero {p : Placeholder} {v : Value} {ps : List Placeholder}
    {arguments : List Value} {e : FormatError} :
    RefusedAt (p :: ps) (v :: arguments) 0 e ↔ p.Refuses v e := by
  simp [RefusedAt]

@[simp] theorem refusedAt_succ {p : Placeholder} {v : Value} {ps : List Placeholder}
    {arguments : List Value} {k : ℕ} {e : FormatError} :
    RefusedAt (p :: ps) (v :: arguments) (k + 1) e ↔ RefusedAt ps arguments k e := by
  simp [RefusedAt]

/-- The first argument that is refused is the error of all. -/
theorem bindEach_eq_error {ps : List Placeholder} {arguments : List Value} {k : ℕ} {e : FormatError}
    (hrefused : RefusedAt ps arguments k e)
    (hfirst : ∀ j < k, ∀ e', ¬ RefusedAt ps arguments j e') : bindEach ps arguments = .error e := by
  induction ps generalizing arguments k with
  | nil => simp [RefusedAt] at hrefused
  | cons p ps ih =>
    cases arguments with
    | nil => simp [RefusedAt] at hrefused
    | cons v arguments =>
      rw [bindEach_cons]
      cases k with
      | zero =>
        rw [(refusedAt_zero.1 hrefused).bind_eq]
        rfl
      | succ k =>
        have hmore := ih (refusedAt_succ.1 hrefused) fun j hj e' he' =>
          hfirst (j + 1) (by omega) e' (refusedAt_succ.2 he')
        obtain ⟨o, htakes⟩ := (p.takes_or_refuses v).resolve_right fun ⟨e', he'⟩ =>
          hfirst 0 (by omega) e' (refusedAt_zero.2 he')
        rw [htakes.bind_eq, hmore]
        rfl

/-- Arguments of which none is refused are all taken. -/
theorem exists_bindEach {ps : List Placeholder} {arguments : List Value}
    (h : ∀ k e, ¬ RefusedAt ps arguments k e) : ∃ os, bindEach ps arguments = .ok os ∧
      List.Forall₂ (fun x o => x.1.Takes x.2 o) (ps.zip arguments) os := by
  induction ps generalizing arguments with
  | nil => exact ⟨[], rfl, .nil⟩
  | cons p ps ih =>
    cases arguments with
    | nil => exact ⟨[], rfl, .nil⟩
    | cons v arguments =>
      obtain ⟨o, htakes⟩ := (p.takes_or_refuses v).resolve_right fun ⟨e, he⟩ =>
        h 0 e (refusedAt_zero.2 he)
      obtain ⟨os, hos, hall⟩ := ih fun k e he => h (k + 1) e (refusedAt_succ.2 he)
      refine ⟨o :: os, ?_, .cons htakes hall⟩
      rw [bindEach_cons, htakes.bind_eq, hos]
      rfl

/-! ### Numbered placeholders -/

/-- An operand with a placeholder replaced by what has its number. -/
def Operand.fill (os : List Operand) (k : ℕ) : Operand → Operand
  | placeholder p => os[k]?.getD (placeholder p)
  | o => o

namespace Predicate

mutual

/-- The same tree with its placeholders, which are numbered from `k` on from left to right, each
replaced by the operand of its number. -/
def fill (os : List Operand) (k : ℕ) : Predicate → Predicate
  | comparison left op right foldCase =>
    comparison (left.fill os k) op (right.fill os (k + left.placeholders.length)) foldCase
  | compound kind operands => compound kind (fillAll os k operands)
  | not operand => not (operand.fill os k)
  | constant value => constant value

def fillAll (os : List Operand) (k : ℕ) : List Predicate → List Predicate
  | [] => []
  | p :: ps => p.fill os k :: fillAll os (k + p.placeholders.length) ps

end

end Predicate

/-- A step that binds a part with the given placeholders: it takes one argument for each, and gives
the part filled with what they become, wherever that stands among all operands. -/
def Binds {β : Type} (step : List Value → Except FormatError (β × List Value))
    (ps : List Placeholder) (filled : List Operand → ℕ → β) : Prop :=
  ∀ arguments, ps.length = arguments.length → ∀ rest before after,
    step (arguments ++ rest) =
      (fun os => (filled (before ++ os ++ after) before.length, rest)) <$> bindEach ps arguments

namespace Binds

variable {β γ δ : Type} {step : List Value → Except FormatError (β × List Value)}
  {step' : List Value → Except FormatError (γ × List Value)} {ps ps' : List Placeholder}
  {filled : List Operand → ℕ → β} {filled' : List Operand → ℕ → γ}

theorem map (h : Binds step ps filled) (f : β → γ) :
    Binds (fun arguments => do
      let (x, arguments) ← step arguments
      return (f x, arguments)) ps fun os k => f (filled os k) := by
  intro arguments hlength rest before after
  simp only [h arguments hlength rest before after]
  cases bindEach ps arguments <;> rfl

/-- One part after another: the second goes on where the first has stopped. -/
theorem seq (h : Binds step ps filled) (h' : Binds step' ps' filled') (f : β → γ → δ) :
    Binds (fun arguments => do
      let (x, arguments) ← step arguments
      let (y, arguments) ← step' arguments
      return (f x y, arguments)) (ps ++ ps')
        fun os k => f (filled os k) (filled' os (k + ps.length)) := by
  intro arguments hlength rest before after
  obtain ⟨first, second, rfl, hfirst⟩ : ∃ first second, arguments = first ++ second ∧
      ps.length = first.length := by
    refine ⟨arguments.take ps.length, arguments.drop ps.length, by simp, ?_⟩
    simp only [List.length_append] at hlength
    simp only [List.length_take]
    omega
  have hsecond : ps'.length = second.length := by
    simp only [List.length_append] at hlength
    omega
  rw [bindEach_append hfirst]
  simp only [List.append_assoc]
  cases hbind : bindEach ps first with
  | error e =>
    have hstep := h first hfirst (second ++ rest) before after
    rw [hbind] at hstep
    rw [hstep]
    rfl
  | ok os =>
    have hstep := h first hfirst (second ++ rest) before
    simp only [hbind, List.append_assoc] at hstep
    cases hbind' : bindEach ps' second with
    | error e =>
      have hstep' := h' second hsecond rest before after
      rw [hbind'] at hstep'
      rw [hstep after]
      simp only [Functor.map, Except.map, bind, Except.bind, hstep']
    | ok os' =>
      have hstep' := h' second hsecond rest (before ++ os) after
      simp only [hbind', List.append_assoc, List.length_append, length_of_bindEach hfirst hbind]
        at hstep'
      rw [hstep (os' ++ after)]
      simp only [Functor.map, Except.map, bind, Except.bind, hstep']
      simp [pure, Except.pure]

end Binds

/-- An operand takes the next argument if it is a placeholder, and none otherwise. -/
theorem Operand.binds_bind (o : Operand) :
    Binds o.bind o.placeholders fun os k => o.fill os k := by
  intro arguments hlength rest before after
  cases o with
  | literal v =>
    obtain rfl : arguments = [] := List.length_eq_zero_iff.1 hlength.symm
    rfl
  | path path =>
    obtain rfl : arguments = [] := List.length_eq_zero_iff.1 hlength.symm
    rfl
  | placeholder p =>
    obtain ⟨v, rfl⟩ := List.length_eq_one_iff.1 hlength.symm
    simp only [placeholders, bindEach_cons, List.cons_append, List.nil_append, bind]
    cases p.bind v with
    | error e => rfl
    | ok o =>
      have hfill : (placeholder p).fill (before ++ [o] ++ after) before.length = o := by
        simp [fill]
      exact congrArg (fun q => Except.ok (q, rest)) hfill.symm

namespace Predicate

theorem binds_bindAllFrom {ps : List Predicate}
    (ih : ∀ p ∈ ps, Binds p.bindFrom p.placeholders fun os k => p.fill os k) :
    Binds (bindAllFrom ps) (ps.flatMap placeholders) fun os k => fillAll os k ps := by
  induction ps with
  | nil =>
    intro arguments hlength rest before after
    obtain rfl : arguments = [] := List.length_eq_zero_iff.1 hlength.symm
    rfl
  | cons p ps ihs =>
    obtain ⟨hp, hps⟩ := List.forall_mem_cons.1 ih
    have hcons := hp.seq (ihs hps) List.cons
    exact hcons

/-- Each placeholder of a predicate takes the argument of its number. -/
theorem binds_bindFrom (p : Predicate) :
    Binds p.bindFrom p.placeholders fun os k => p.fill os k := by
  induction p with
  | comparison left op right foldCase =>
    exact left.binds_bind.seq right.binds_bind fun l r => comparison l op r foldCase
  | compound kind operands ih =>
    have hall := (binds_bindAllFrom ih).map (compound kind)
    rw [← placeholdersOfAll_eq] at hall
    exact hall
  | not operand ih => exact ih.map not
  | constant value =>
    intro arguments hlength rest before after
    obtain rfl : arguments = [] := List.length_eq_zero_iff.1 hlength.symm
    rfl

/-- As many arguments as placeholders are bound one by one. -/
theorem bind_eq {p : Predicate} {arguments : List Value}
    (h : p.placeholders.length = arguments.length) :
    p.bind arguments = (fun os => p.fill os 0) <$> bindEach p.placeholders arguments := by
  have hfrom := p.binds_bindFrom arguments h [] [] []
  rw [List.append_nil] at hfrom
  rw [bind, placeholderCount, if_pos h, hfrom]
  cases bindEach p.placeholders arguments with
  | error e => rfl
  | ok os => simp [Functor.map, Except.map]

theorem parseWith_of_parse {format : String} {p : Predicate} (h : parse format = .ok p)
    (arguments : List Value) : parseWith format arguments = p.bind arguments := by
  rw [parseWith, h]
  rfl

/-- Binding is substitution by position. A format that is not read has the error of reading it; a
number of arguments other than that of the placeholders is an error whatever they are; otherwise the
first argument that is refused gives the error, and if all are taken, the predicate is the one that
was read with every placeholder replaced by what the argument of its number became. -/
theorem parseWith_by_position (format : String) (arguments : List Value) :
    (∀ e, parse format = .error e → parseWith format arguments = .error e) ∧
    ∀ p, parse format = .ok p →
      (p.placeholders.length ≠ arguments.length → parseWith format arguments =
        .error (.placeholderCount p.placeholders.length arguments.length)) ∧
      (p.placeholders.length = arguments.length →
        (∀ k e, RefusedAt p.placeholders arguments k e →
          (∀ j < k, ∀ e', ¬ RefusedAt p.placeholders arguments j e') →
            parseWith format arguments = .error e) ∧
        ((∀ k e, ¬ RefusedAt p.placeholders arguments k e) →
          ∃ os, List.Forall₂ (fun x o => x.1.Takes x.2 o) (p.placeholders.zip arguments) os ∧
            parseWith format arguments = .ok (p.fill os 0) ∧ (p.fill os 0).placeholders = [])) := by
  refine ⟨fun e he => by rw [parseWith, he]; rfl, fun p hp => ?_⟩
  rw [parseWith_of_parse hp]
  refine ⟨fun hne => by rw [bind, placeholderCount, if_neg hne], fun hlength => ⟨?_, fun h => ?_⟩⟩
  · intro k e hrefused hfirst
    rw [bind_eq hlength, bindEach_eq_error hrefused hfirst]
    rfl
  · obtain ⟨os, hos, htakes⟩ := exists_bindEach h
    have hbind : p.bind arguments = .ok (p.fill os 0) := by
      rw [bind_eq hlength, hos]
      rfl
    exact ⟨os, htakes, hbind, placeholders_of_bind hbind⟩

/-- Placeholders under a negation, in both operands and beside them: too few arguments, two of three
that are refused, and three that are taken. -/
theorem parseWith_by_position_nested :
    let format := "a == %@ AND NOT (%K < %@ OR b == nil)"
    parseWith format [] = .error (.placeholderCount 3 0) ∧
      parseWith format [.integer 1, .integer 2, .float .nan] = .error (.keyPathArgument .integer) ∧
      parseWith format [.integer 1, .string " c.d", .string "%@"] =
        .ok (compound .and [comparison (.path ⟨["a"]⟩) .equal (.literal (.integer 1)) false,
          not (compound .or
            [comparison (.path ⟨["c", "d"]⟩) .less (.literal (.string "%@")) false,
              comparison (.path ⟨["b"]⟩) .equal (.literal .nil) false])]) := by
  intro format
  have hparse : parse "a == %@ AND NOT (%K < %@ OR b == nil)" = .ok (compound .and
      [comparison (.path ⟨["a"]⟩) .equal (.placeholder .value) false,
        not (compound .or [comparison (.placeholder .key) .less (.placeholder .value) false,
          comparison (.path ⟨["b"]⟩) .equal (.literal .nil) false])]) := by
    with_unfolding_all rfl
  have hfirst : Placeholder.Takes .value (.integer 1) (.literal (.integer 1)) := .value rfl
  have hsecond : Placeholder.Takes .key (.string " c.d") (.path ⟨["c", "d"]⟩) := .key (by decide)
  have hthird : Placeholder.Takes .value (.string "%@") (.literal (.string "%@")) := .value rfl
  have hnone : ∀ k e, ¬ RefusedAt [.value, .key, .value]
      [.integer 1, .string " c.d", .string "%@"] k e := by
    intro k e hrefused
    rcases k with _ | _ | _ | k
    · exact hfirst.not_refuses e (refusedAt_zero.1 hrefused)
    · exact hsecond.not_refuses e (by simpa using hrefused)
    · exact hthird.not_refuses e (by simpa using hrefused)
    · simp [RefusedAt] at hrefused
  obtain ⟨-, hread⟩ := parseWith_by_position format []
  obtain ⟨-, hrefused⟩ := parseWith_by_position format [.integer 1, .integer 2, .float .nan]
  obtain ⟨-, htaken⟩ := parseWith_by_position format [.integer 1, .string " c.d", .string "%@"]
  refine ⟨(hread _ hparse).1 (by decide), ((hrefused _ hparse).2 rfl).1 1 _ ?_ ?_, ?_⟩
  · exact ⟨_, _, rfl, rfl, .noName (by decide)⟩
  · intro j hj e he
    obtain rfl : j = 0 := by omega
    exact hfirst.not_refuses e (refusedAt_zero.1 he)
  · obtain ⟨os, hos, hparsed, -⟩ := ((htaken _ hparse).2 rfl).2 hnone
    obtain - | ⟨ho, - | ⟨ho', - | ⟨ho'', - | -⟩⟩⟩ := hos
    rw [hparsed, ho.unique hfirst, ho'.unique hsecond, ho''.unique hthird]
    rfl

end Predicate

end RecordQuery
