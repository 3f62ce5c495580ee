import RecordQuery.Proofs.NumberText
import RecordQuery.Proofs.Outcomes
import RecordQuery.Proofs.Scanned

/-! What is made of a parse tree is what is read. The grammar finds a tree exactly where a predicate
is scanned, of the form that the builder expects there, so that the builder makes the predicate of
it, or stops at the first error that the scanned parts carry. All other checks of the builder
pass. -/

namespace RecordQuery

open Text (skipBlank)

/-! ### Scanners that go together -/

/-- Two scanners that find something in the same places and leave the same text, with what they find
in a relation. -/
def Corresponds {α β : Type} (R : α → β → Prop) (first : Scan α) (second : Scan β) : Prop :=
  ∀ s, first s = none ∧ second s = none ∨
    ∃ a b rest, first s = some (a, rest) ∧ second s = some (b, rest) ∧ R a b

/-- An outcome of scanned parts, as one of building. -/
def raised {α : Type} : Except FormatError α → Except BuildError α := Except.mapError .format

section

variable {α β : Type} {R : α → β → Prop} {first first' : Scan α} {second second' : Scan β}

theorem Corresponds.orElse (h : Corresponds R first second) (h' : Corresponds R first' second') :
    Corresponds R (fun s => first s <|> first' s) (fun s => second s <|> second' s) := by
  intro s
  obtain ⟨ha, hb⟩ | ⟨a, b, rest, ha, hb, hR⟩ := h s
  · simpa [ha, hb] using h' s
  · exact .inr ⟨a, b, rest, by simp [ha], by simp [hb], hR⟩

/-- What one scanner finds, in two forms. -/
theorem Corresponds.of_map {γ : Type} {scanner : Scan γ} {f : γ × List Char → α × List Char}
    {g : γ × List Char → β × List Char} (h : ∀ {s c rest}, scanner s = some (c, rest) →
      (f (c, rest)).2 = (g (c, rest)).2 ∧ R (f (c, rest)).1 (g (c, rest)).1) :
    Corresponds R (fun s => (scanner s).map f) (fun s => (scanner s).map g) := by
  intro s
  cases hs : scanner s with
  | none => exact .inl (by simp [hs])
  | some found =>
    obtain ⟨hrest, hR⟩ := h hs
    exact .inr ⟨(f found).1, (g found).1, (f found).2, by simp [hs], by simp [hs, hrest], hR⟩

theorem Corresponds.scanLinks (h : Corresponds R first second)
    (sign : List Char → Option (List Char)) (s : List Char) :
    ∃ as bs rest, Text.scanLinks sign first s = (as, rest) ∧
      Text.scanLinks sign second s = (bs, rest) ∧ List.Forall₂ R as bs := by
  fun_induction Text.scanLinks sign first s with
  | case1 s hsign =>
    refine ⟨[], [], s, rfl, ?_, .nil⟩
    rw [Text.scanLinks, hsign]
  | case2 s r hsign hitem =>
    obtain ⟨-, hb⟩ | ⟨a, b, t, ha, -, -⟩ := h (skipBlank r)
    · refine ⟨[], [], s, rfl, ?_, .nil⟩
      simp only [Text.scanLinks, hsign, hb]
    · rw [hitem] at ha
      exact absurd ha (by simp)
  | case3 s r hsign a t hitem hlength more rest hmore ih =>
    obtain ⟨ha, -⟩ | ⟨a', b, t', ha, hb, hR⟩ := h (skipBlank r)
    · rw [hitem] at ha
      exact absurd ha (by simp)
    · obtain ⟨rfl, rfl⟩ := Prod.mk.inj (Option.some.inj (hitem.symm.trans ha))
      obtain ⟨as, bs, u, has, hbs, hall⟩ := ih
      rw [hmore] at has
      obtain ⟨rfl, rfl⟩ := Prod.mk.inj has
      refine ⟨a :: more, b :: bs, rest, rfl, ?_, .cons hR hall⟩
      rw [Text.scanLinks]
      simp only [hsign, hb, if_pos hlength, hbs]
  | case4 s r hsign a t hitem hlength =>
    obtain ⟨ha, -⟩ | ⟨a', b, t', ha, hb, -⟩ := h (skipBlank r)
    · rw [hitem] at ha
      exact absurd ha (by simp)
    · obtain ⟨rfl, rfl⟩ := Prod.mk.inj (Option.some.inj (hitem.symm.trans ha))
      refine ⟨[], [], s, rfl, ?_, .nil⟩
      rw [Text.scanLinks]
      simp only [hsign, hb, if_neg hlength]

theorem Corresponds.scanChain (h : Corresponds R first second)
    (sign : List Char → Option (List Char)) :
    Corresponds (fun as bs => bs ≠ [] ∧ List.Forall₂ R as bs) (Text.scanChain sign first)
      (Text.scanChain sign second) := by
  intro s
  obtain ⟨ha, hb⟩ | ⟨a, b, rest, ha, hb, hR⟩ := h s
  · exact .inl ⟨by simp [Text.scanChain, ha], by simp [Text.scanChain, hb]⟩
  · obtain ⟨as, bs, t, has, hbs, hall⟩ := h.scanLinks sign rest
    exact .inr ⟨a :: as, b :: bs, t, by simp [Text.scanChain, ha, has],
      by simp [Text.scanChain, hb, hbs], by simp, .cons hR hall⟩

end

namespace ParseTree

/-! ### Operands and operators -/

theorem scanQuoted_eq_map {closing : Char} (hclosing : closing ≠ '\\') (s : List Char) :
    Text.scanQuoted closing s = (scanEscaped closing s).map (Prod.map unescape id) := by
  unfold Text.scanQuoted
  fun_induction scanEscaped closing s with
  | case1 => rfl
  | case2 => simp [Text.scanLiteral, Ne.symm hclosing]
  | case3 c s ih =>
    simp only [Text.scanLiteral, Ne.symm hclosing, ih, Option.map_map]
    rfl
  | case4 => simp [Text.scanLiteral, unescape]
  | case5 c s hlast hpair hc ih =>
    have hne : c ≠ '\\' := by
      rintro rfl
      cases s with
      | nil => exact hlast rfl rfl
      | cons d s => exact hpair d s rfl rfl
    have hcons (found : List Char) : unescape (c :: found) = c :: unescape found :=
      unescape.eq_4 c found (fun h _ => hne h) fun _ _ h _ => hne h
    simp only [Text.scanLiteral, hc, hne, ih, Option.map_map, Bool.false_eq_true, if_false]
    cases scanEscaped closing s with
    | none => rfl
    | some found =>
      obtain ⟨found, rest⟩ := found
      simp [hcons]

theorem corresponds_scanQuoted {closing : Char} (hclosing : closing ≠ '\\') :
    Corresponds (fun t found => t.buildOperand = raised found) (scanQuoted closing)
      (fun s =>
        (Text.scanQuoted closing s).map (Prod.map RecordQuery.scanOperand.ofString id)) := by
  simp only [scanQuoted_eq_map hclosing, Option.map_map]
  exact .of_map fun _ => ⟨rfl, rfl⟩

theorem scanWord_map {α β : Type} (f : α → β) (words : List (String × α)) (s : List Char) :
    scanWord (words.map (Prod.map id f)) s = (scanWord words s).map (Prod.map f id) := by
  unfold scanWord
  induction words with
  | nil => rfl
  | cons w words ih =>
    rw [List.map_cons, List.findSome?_cons, List.findSome?_cons, ih]
    cases h : afterKeyword w.1.toList s <;> simp [h]

/-- The rule of a word that stands for a value. -/
def wordRule : Value → Rule
  | .bool b => .bool b
  | _ => .nil

theorem corresponds_literals :
    Corresponds (fun t found => t.buildOperand = raised found)
      (fun s => (scanWord literalRules s).map (Prod.map (node · []) id))
      (fun s => (scanWord literalWords s).map (Prod.map (.ok ∘ .literal) id)) := by
  have hrules : literalRules = literalWords.map (Prod.map id wordRule) := rfl
  simp only [hrules, scanWord_map, Option.map_map]
  refine .of_map fun {s v rest} hs => ?_
  obtain ⟨word, hmem, -⟩ := mem_of_scanWord hs
  simp only [literalWords, List.mem_cons, Prod.mk.injEq, List.not_mem_nil, or_false] at hmem
  rcases hmem with h | h | h | h | h | h <;> obtain ⟨-, rfl⟩ := h <;> exact ⟨rfl, rfl⟩

theorem corresponds_number :
    Corresponds (fun t found => t.buildOperand = raised found) scanNumber
      (fun s => (scanNumeral s).map (Prod.map (.ok ∘ .literal ∘ Value.ofNumeral) id)) := by
  intro s
  cases hs : scanNumeral s with
  | none => exact .inl (by simp [scanNumber, hs])
  | some found =>
    obtain ⟨n, rest⟩ := found
    exact .inr ⟨_, .ok (.literal (.ofNumeral n)), rest, by rw [scanNumber, hs]; rfl,
      by simp [hs], buildOperand_number hs⟩

theorem corresponds_path :
    Corresponds (fun t found => t.buildOperand = raised found)
      (fun s => (scanPath s).map (Prod.map (leaf .path) id))
      (fun s => (scanPath s).map (Prod.map RecordQuery.scanOperand.ofPath id)) := by
  refine .of_map fun {s found rest} _ => ⟨by rw [Prod.map_apply, Prod.map_apply], ?_⟩
  have hpath (path : Except FormatError KeyPath) :
      Operand.path <$> path.mapError BuildError.format = raised (Operand.path <$> path) := by
    cases path <;> rfl
  exact hpath _

theorem corresponds_scanOperand :
    Corresponds (fun t found => t.buildOperand = raised found) scanOperand
      RecordQuery.scanOperand := by
  intro s
  fun_cases scanOperand s with
  | case1 s => exact .inr ⟨_, _, s, rfl, rfl, rfl⟩
  | case2 s => exact .inr ⟨_, _, s, rfl, rfl, rfl⟩
  | case3 s => exact corresponds_scanQuoted (by decide) s
  | case4 s => exact corresponds_scanQuoted (by decide) s
  | case5 =>
    rename_i hvalue hkey hdouble hsingle
    rw [RecordQuery.scanOperand.eq_5 s hvalue hkey hdouble hsingle]
    exact corresponds_literals.orElse (corresponds_number.orElse corresponds_path) s

theorem corresponds_scanOperator :
    Corresponds (fun t found => t.buildOperator = (found.1, ·) <$> raised found.2) scanOperator
      RecordQuery.scanOperator := by
  intro s
  unfold scanOperator RecordQuery.scanOperator
  cases hop : scanSymbol s <|> scanWord operatorWords s with
  | none => exact .inl (by simp)
  | some found =>
    obtain ⟨op, t⟩ := found
    cases hmodifier : scanModifier t with
    | mk flags u =>
      refine .inr ⟨node .operator (node (.symbol op) [] :: (flags.map modifierTree).toList),
        (op, foldsCase flags), u, by simp [hmodifier], by simp [hmodifier], ?_⟩
      cases flags with
      | none => rfl
      | some flags =>
        have hflags : buildFoldCase [modifierTree flags] = raised (foldsCase (some flags)) := by
          show (if flags = ['c'] then _ else _) = raised (if flags = ['c'] then _ else _)
          split <;> rfl
        exact congrArg (Functor.map (op, ·)) hflags

/-! ### Predicates -/

theorem buildComparison_node (left op right : ParseTree) :
    (node .comparison [left, op, right]).buildComparison = (do
      let left ← left.buildOperand
      let op ← op.buildOperator
      let right ← right.buildOperand
      return .comparison left op.1 right op.2) := rfl

theorem corresponds_scanComparison :
    Corresponds (fun t found => t.rule = .comparison ∧ t.buildComparison = raised found)
      scanComparison Predicate.scanComparison := by
  intro s
  unfold scanComparison Predicate.scanComparison
  obtain ⟨ht, hf⟩ | ⟨left, left', u, ht, hf, hleft⟩ := corresponds_scanOperand s
  · exact .inl (by simp [ht, hf])
  obtain ⟨ht', hf'⟩ | ⟨op, ⟨op', foldCase⟩, v, ht', hf', hop⟩ :=
    corresponds_scanOperator (skipBlank u)
  · exact .inl (by simp [ht, hf, ht', hf'])
  obtain ⟨ht'', hf''⟩ | ⟨right, right', w, ht'', hf'', hright⟩ :=
    corresponds_scanOperand (skipBlank v)
  · exact .inl (by simp [ht, hf, ht', hf', ht'', hf''])
  refine .inr ⟨node .comparison [left, op, right], (do
      let left ← left'
      let foldCase ← foldCase
      let right ← right'
      return .comparison left op' right foldCase), w, ?_, ?_, rfl, ?_⟩
  · simp [ht, ht', ht'']
  · simp [hf, hf', hf'']
  · rw [buildComparison_node, hleft, hop, hright]
    cases left' <;> cases foldCase <;> cases right' <;> rfl

section

variable {inner : Scan ParseTree} {inner' : Scan Predicate.Read}

theorem buildNegation_group (t : ParseTree) :
    buildNegation (node .negation [node .group [t]]) = buildChain .or t := by
  rw [buildNegation]
  rfl

theorem buildNegation_comparison {t : ParseTree} (h : t.rule = .comparison) :
    buildNegation (node .negation [t]) = t.buildComparison := by
  cases t <;> obtain rfl := h <;> rw [buildNegation] <;> rfl

/-- What a group holds is a chain of OR. -/
theorem corresponds_scanGroup
    (h : Corresponds (fun t found => buildChain .or t = raised found) inner inner') :
    Corresponds (fun t found => buildNegation (node .negation [t]) = raised found)
      (scanGroup inner) (Predicate.scanGroup inner') := by
  intro s
  fun_cases scanGroup inner s with
  | case1 s =>
    obtain ⟨ht, hf⟩ | ⟨t, found, u, ht, hf, hbuild⟩ := h (skipBlank s)
    · exact .inl (by simp [Predicate.scanGroup, ht, hf])
    · simp only [Predicate.scanGroup, ht, hf, Option.bind_eq_bind, Option.bind_some]
      by_cases hclose : ∃ v, skipBlank u = ')' :: v
      · obtain ⟨v, hv⟩ := hclose
        rw [hv]
        exact .inr ⟨_, _, v, rfl, rfl, (buildNegation_group t).trans hbuild⟩
      · refine .inl ⟨?_, ?_⟩ <;> split <;> first | rfl | exact absurd ⟨_, ‹_›⟩ hclose
  | case2 =>
    rename_i hopen
    exact .inl ⟨rfl, Predicate.scanGroup.eq_2 _ _ hopen⟩

theorem corresponds_scanPrimary
    (h : Corresponds (fun t found => buildChain .or t = raised found) inner inner') :
    Corresponds (fun t found => buildNegation (node .negation [t]) = raised found)
      (scanPrimary inner) (Predicate.scanPrimary inner') := by
  have hconstant : Corresponds (fun t found => buildNegation (node .negation [t]) = raised found)
      (fun s => (scanWord Predicate.constantWords s).map
        (Prod.map (fun value => node (.constant value) []) id))
      (fun s => (scanWord Predicate.constantWords s).map (Prod.map (.ok ∘ .constant) id)) := by
    refine .of_map fun {s value rest} _ => ⟨rfl, ?_⟩
    show buildNegation (node .negation [node (.constant value) []]) = .ok (.constant value)
    rw [buildNegation]
    rfl
  have hcomparison : Corresponds (fun t found => buildNegation (node .negation [t]) = raised found)
      scanComparison Predicate.scanComparison := by
    intro s
    obtain hnone | ⟨t, found, rest, ht, hf, hrule, hbuild⟩ := corresponds_scanComparison s
    · exact .inl hnone
    · exact .inr ⟨t, found, rest, ht, hf, (buildNegation_comparison hrule).trans hbuild⟩
  exact (corresponds_scanGroup h).orElse (hconstant.orElse hcomparison)

/-- A negation without a sign holds what stands in its place. -/
theorem corresponds_unsigned
    (h : Corresponds (fun t found => buildChain .or t = raised found) inner inner') :
    Corresponds (fun t found => t.rule = .negation ∧ buildNegation t = raised found)
      (fun s => (scanPrimary inner s).map (Prod.map (fun found => node .negation [found]) id))
      (Predicate.scanPrimary inner') := by
  intro s
  obtain ⟨ht, hf⟩ | ⟨t, found, rest, ht, hf, hbuild⟩ := corresponds_scanPrimary h s
  · exact .inl (by simp [ht, hf])
  · exact .inr ⟨node .negation [t], found, rest, by simp [ht], hf, rfl, hbuild⟩

theorem buildNegation_not (t : ParseTree) :
    buildNegation (node .negation [node .not [], t]) = .not <$> buildNegation t := by
  rw [buildNegation]
  rfl

theorem corresponds_scanNegation
    (h : Corresponds (fun t found => buildChain .or t = raised found) inner inner') :
    Corresponds (fun t found => t.rule = .negation ∧ buildNegation t = raised found)
      (scanNegation inner) (Predicate.scanNegation inner') := by
  intro s
  fun_induction scanNegation inner s with
  | case1 s hnot =>
    rw [Predicate.scanNegation]
    split
    · exact corresponds_unsigned h s
    · simp_all
  | case2 s r hnot t rest hr ih =>
    obtain ⟨ht, -⟩ | ⟨t', found, rest', ht, hf, -, hbuild⟩ := ih
    · rw [hr] at ht
      exact absurd ht (by simp)
    obtain ⟨rfl, rfl⟩ := Prod.mk.inj (Option.some.inj (hr.symm.trans ht))
    rw [Predicate.scanNegation]
    split
    · simp_all
    · rename_i r' hnot'
      obtain rfl := Option.some.inj (hnot.symm.trans hnot')
      rw [hf]
      refine .inr ⟨_, _, rest, rfl, rfl, rfl, ?_⟩
      rw [buildNegation_not, hbuild]
      cases found <;> rfl
  | case3 s r hnot hr ih =>
    obtain ⟨-, hf⟩ | ⟨t, found, rest, ht, -⟩ := ih
    · rw [Predicate.scanNegation]
      split
      · simp_all
      · rename_i r' hnot'
        obtain rfl := Option.some.inj (hnot.symm.trans hnot')
        rw [hf]
        exact corresponds_unsigned h s
    · rw [hr] at ht
      exact absurd ht (by simp)

end

/-! ### Chains and whole predicates -/

/-- The rule of the operands of a chain. -/
def operandRule : Connective → Rule
  | .or => .chain .and
  | .and => .negation

/-- What is made of an operand of a chain. -/
def makeOperand : Connective → ParseTree → Except BuildError Predicate
  | .or => buildChain .and
  | .and => buildNegation

theorem buildOperands_cons {kind : Connective} {t : ParseTree} (h : t.rule = operandRule kind)
    (ts : List ParseTree) : buildOperands kind (t :: ts) = do
      let p ← makeOperand kind t
      return p :: (← buildOperands kind ts) := by
  rw [buildOperands]
  cases kind <;> simp [h, operandRule, makeOperand]

theorem buildOperands_connective (kind : Connective) (ts : List ParseTree) :
    buildOperands kind (node (.connective kind) [] :: ts) = buildOperands kind ts := by
  rw [buildOperands]
  exact if_pos rfl

theorem buildOperands_intersperse {kind : Connective} {ts : List ParseTree}
    (h : ∀ t ∈ ts, t.rule = operandRule kind) :
    buildOperands kind (ts.intersperse (node (.connective kind) [])) =
      ts.mapM (makeOperand kind) := by
  induction ts with
  | nil => rw [List.intersperse_nil, buildOperands]; rfl
  | cons t ts ih =>
    obtain ⟨ht, hts⟩ := List.forall_mem_cons.1 h
    rw [List.mapM_cons, ← ih hts]
    cases ts with
    | nil => rw [List.intersperse_singleton, buildOperands_cons ht, List.intersperse_nil]
    | cons u ts =>
      rw [List.intersperse_cons_cons, buildOperands_cons ht, buildOperands_connective]

theorem mapM_makeOperand {kind : Connective} {ts : List ParseTree} {founds : List Predicate.Read}
    (h : List.Forall₂ (fun t found => makeOperand kind t = raised found) ts founds) :
    ts.mapM (makeOperand kind) = raised (founds.mapM id) := by
  induction h with
  | nil => rfl
  | @cons t found ts founds ht _ ih =>
    rw [List.mapM_cons, List.mapM_cons, ht, ih]
    cases found with
    | error e => rfl
    | ok p =>
      rw [id_eq]
      cases founds.mapM id <;> rfl

theorem joined_eq {ps : List Predicate} (hne : ps ≠ []) (kind : Connective) :
    joined kind ps = .ok (Predicate.chain kind ps) := by
  unfold joined Predicate.chain
  split
  · exact absurd rfl hne
  · rfl
  · rename_i hsingle
    split
    · exact absurd rfl (hsingle _)
    · rfl

theorem corresponds_scanChain (kind : Connective) {tree : Scan ParseTree}
    {item : Scan Predicate.Read}
    (h : Corresponds (fun t found => t.rule = operandRule kind ∧ makeOperand kind t = raised found)
      tree item) (sign : List Char → Option (List Char)) :
    Corresponds (fun t found => t.rule = .chain kind ∧ buildChain kind t = raised found)
      (scanChain kind sign tree) (Predicate.scanJoined kind sign item) := by
  intro s
  obtain ⟨ht, hf⟩ | ⟨ts, founds, rest, ht, hf, hne, hall⟩ := h.scanChain sign s
  · exact .inl (by simp [scanChain, Predicate.scanJoined, ht, hf])
  · refine .inr ⟨chainTree kind ts, Predicate.chain kind <$> founds.mapM id, rest,
      by simp [scanChain, ht], by simp [Predicate.scanJoined, hf], rfl, ?_⟩
    obtain ⟨hrules, hmade⟩ := (List.forall₂_and_left _ _).1 hall
    rw [buildChain]
    show (do joined kind (← buildOperands kind (ts.intersperse (node (.connective kind) [])))) = _
    rw [buildOperands_intersperse hrules, mapM_makeOperand hmade]
    cases hps : founds.mapM id with
    | error e => rfl
    | ok ps =>
      have hps : ps ≠ [] := by
        rintro rfl
        exact hne (mapM_id_eq_ok_iff.1 hps)
      exact joined_eq hps kind

theorem corresponds_scan :
    Corresponds (fun t found => t.rule = .chain .or ∧ buildChain .or t = raised found) scan
      Predicate.scan := by
  intro s
  induction hn : s.length using Nat.strongRecOn generalizing s with
  | ind n ih =>
    have hinner : Corresponds (fun t found => buildChain .or t = raised found)
        (fun r => if r.length < s.length then scan r else none) (Predicate.scanBelow s.length) := by
      intro r
      by_cases hr : r.length < s.length
      · obtain hnone | ⟨t, found, rest, ht, hf, -, hbuild⟩ := ih r.length (by omega) r rfl
        · exact .inl (by simp [Predicate.scanBelow, hr, hnone])
        · exact .inr
            ⟨t, found, rest, by simp [hr, ht], by simp [Predicate.scanBelow, hr, hf], hbuild⟩
      · exact .inl (by simp [Predicate.scanBelow, hr])
    rw [scan, Predicate.scan_eq]
    have hconjunctions := corresponds_scanChain .and (corresponds_scanNegation hinner) afterAnd
    exact corresponds_scanChain .or hconjunctions afterOr s

end ParseTree

/-- Reading by way of parse trees gives what reading gives, and no error but those of formats. -/
theorem Predicate.parseChecked_eq (format : String) :
    parseChecked format = raised (parse format) := by
  unfold parseChecked ParseTree.ofFormat parse
  obtain ⟨ht, hf⟩ | ⟨t, found, rest, ht, hf, hrule, hbuild⟩ :=
    ParseTree.corresponds_scan (skipBlank format.toList)
  · rw [ht, hf]
    rfl
  · rw [ht, hf]
    by_cases hrest : skipBlank rest = []
    · simp only [hrest, if_true, ParseTree.build, hrule]
      exact hbuild
    · simp only [hrest, if_false]
      rfl

end RecordQuery
