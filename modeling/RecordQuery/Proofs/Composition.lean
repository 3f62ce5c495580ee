import RecordQuery.Proofs.Accepted
import RecordQuery.Proofs.Locality
import RecordQuery.Proofs.Places

/-! Predicate formats compose by their texts. Whatever way an accepted text is written, in front of
a closing parenthesis it is read as it is at its end: the connectives that are tried behind an
operand stop at a parenthesis as they stop at the end, and no scanner falls back on another one
there. Hence accepted texts in parentheses are items, whose negations and chains are read part by
part. -/

namespace RecordQuery

open Text (skipBlank scanLinks scanChain)

/-! ### What is an operand is no negation -/

theorem afterNot_of_afterKeyword {word s rest : List Char}
    (hword : word.all isIdentifierChar = true) (hne : word ≠ [] ∧ word ≠ "not".toList)
    (h : afterKeyword word s = some rest) : afterNot s = none := by
  obtain ⟨run, rfl, rfl, hrun, hstop⟩ := exists_run_of_afterKeyword hword h
  obtain ⟨c, run, rfl⟩ := List.exists_cons_of_ne_nil (mt List.map_eq_nil_iff.2 hne.1)
  have hc : c ≠ '!' := by
    rintro rfl
    exact absurd hrun (by simp [isIdentifierChar])
  rw [List.cons_append, afterNot_eq_afterKeyword hc, ← List.cons_append,
    afterKeyword_append (by decide) hrun hstop, if_neg hne.2]

/-- What is read as an operand begins no negation. -/
theorem afterNot_of_scanOperand {s rest : List Char} {o : Operand}
    (h : scanOperand s = some (.ok o, rest)) : afterNot s = none :=
  Option.eq_none_iff_forall_ne_some.2 fun _ hnot => (Filler.of_afterNot hnot).scanOperand_ne h

/-! ### Predicates in front of a parenthesis -/

namespace Predicate

variable (u : List Char)

/-- What one scanner reads, with a text after it at which it may end, the other reads in front of a
parenthesis. -/
def Carries (ends : List Char → Prop) (item item' : Scan Read) : Prop :=
  ∀ s p rest, item s = some (.ok p, rest) → ends rest →
    item' (s ++ ')' :: u) = some (.ok p, rest ++ ')' :: u)

theorem scanComparison_append_close {s rest : List Char} {found : Read}
    (h : scanComparison s = some (found, rest)) :
    scanComparison (s ++ ')' :: u) = some (found, rest ++ ')' :: u) := by
  obtain ⟨left, t, op, foldCase, v, right, hleft, hop, hright, rfl⟩ := exists_of_scanComparison h
  simp [scanComparison, scanOperand_append_close u hleft, skipBlank_append_close,
    scanOperator_append_close, hop, scanOperand_append_close u hright]

theorem afterNot_of_scanComparison {s rest : List Char} {p : Predicate}
    (h : scanComparison s = some (.ok p, rest)) : afterNot s = none := by
  obtain ⟨left, t, op, foldCase, v, right, hleft, -, -, hfound⟩ := exists_of_scanComparison h
  obtain ⟨o, rfl, -⟩ := bind_eq_ok_iff.1 hfound.symm
  exact afterNot_of_scanOperand hleft

/-- What is read without being negated begins no negation, so that where a sign of negation stands
a negation is read or nothing without an error. -/
theorem afterNot_of_scanPrimary {inner : Scan Read} {s rest : List Char} {p : Predicate}
    (h : scanPrimary inner s = some (.ok p, rest)) : afterNot s = none := by
  rcases cases_of_scanPrimary h with hgroup | ⟨value, hword, -⟩ | hcomparison
  · obtain ⟨r, t, rfl, -, -⟩ := exists_of_scanGroup hgroup
    rfl
  · obtain ⟨word, hmem, hafter⟩ := mem_of_scanWord hword
    exact afterNot_of_afterKeyword (all_isIdentifierChar_constantWords _ hmem)
      ((by decide : ∀ w ∈ constantWords, w.1.toList ≠ [] ∧ w.1.toList ≠ "not".toList) _ hmem)
      hafter
  · exact afterNot_of_scanComparison hcomparison

theorem closes_of_head? {rest : List Char} (h : ∀ c ∈ (skipBlank rest).head?, c = ')') :
    Closes rest := by
  refine ⟨fun c hc => ?_, h⟩
  obtain ⟨s, rfl⟩ := List.head?_eq_some_iff.1 hc
  cases hblank : Text.isBlank c with
  | true =>
    simp only [Text.isBlank, Bool.or_eq_true, beq_iff_eq] at hblank
    simp only [List.mem_cons, List.not_mem_nil, or_false]
    tauto
  | false =>
    rw [Text.skipBlank_of_not_blank hblank] at h
    simp [h c rfl]

section

variable {u} {inner inner' item item' : Scan Read} {ends : List Char → Prop}

namespace Carries

theorem group (h : Carries u Closes inner inner') :
    Carries u (fun _ => True) (scanGroup inner) (scanGroup inner') := by
  rintro s p rest hs -
  obtain ⟨r, t, rfl, hr, ht⟩ := exists_of_scanGroup hs
  have hinner := h _ p t hr (closes_of_head? (by simp [ht]))
  rw [← skipBlank_append_close] at hinner
  exact scanGroup_eq hinner (by rw [skipBlank_append_close, ht, List.cons_append])

theorem primary (h : Carries u Closes inner inner') :
    Carries u (fun _ => True) (scanPrimary inner) (scanPrimary inner') := by
  rintro s p rest hs -
  by_cases hopen : ∃ r, s = '(' :: r
  · obtain ⟨r, rfl⟩ := hopen
    rw [scanPrimary_open] at hs
    rw [List.cons_append, scanPrimary_open]
    exact h.group _ p rest hs trivial
  · have hne : ∀ r, s = '(' :: r → False := fun r hr => hopen ⟨r, hr⟩
    have hgroup : scanGroup inner' (s ++ ')' :: u) = none :=
      scanGroup.eq_2 _ _ (ne_cons_of_close u (by decide) hne)
    rw [scanPrimary, scanGroup.eq_2 _ _ hne] at hs
    rw [scanPrimary, hgroup, scanWord_append_close u (by decide)]
    cases hword : scanWord constantWords s with
    | some x =>
      rw [hword] at hs
      obtain ⟨hp, rfl⟩ := Prod.mk.inj (Option.some.inj hs)
      rw [← hp]
      rfl
    | none =>
      rw [hword] at hs
      exact scanComparison_append_close u hs

theorem negation (h : Carries u Closes inner inner') :
    Carries u (fun _ => True) (scanNegation inner) (scanNegation inner') := by
  rintro s p rest hs -
  fun_induction scanNegation inner s generalizing p rest with
  | case1 s hnot =>
    rw [scanNegation_of_none (by rw [afterNot_append_close, hnot]; rfl)]
    exact h.primary s p rest hs trivial
  | case2 s r hnot found t hr ih =>
    obtain ⟨hfound, rfl⟩ := Prod.mk.inj (Option.some.inj hs)
    obtain ⟨q, rfl, rfl⟩ := map_eq_ok_iff.1 hfound
    have hnot' : afterNot (s ++ ')' :: u) = some (r ++ ')' :: u) := by
      rw [afterNot_append_close, hnot, Option.map_some]
    rw [scanNegation_of_some hnot' (by rw [skipBlank_append_close]; exact ih q t hr)]
    rfl
  | case3 s r hnot hr ih =>
    rw [afterNot_of_scanPrimary hs] at hnot
    exact absurd hnot (by simp)

/-- Behind an item stands a connective, or what stands behind all items. -/
theorem ends_of_scanLinks {kind : Connective}
    (between : ∀ {t r}, afterConnective kind (skipBlank t) = some r → ends t) {s rest : List Char}
    {more : List Read} (h : scanLinks (afterConnective kind) item s = (more, rest))
    (hrest : ends rest) : ends s := by
  cases hnext : afterConnective kind (skipBlank s) with
  | some r => exact between hnext
  | none =>
    rw [scanLinks, hnext] at h
    obtain ⟨-, rfl⟩ := Prod.mk.inj h
    exact hrest

theorem links {kind : Connective} (h : Carries u ends item item')
    (between : ∀ {t r}, afterConnective kind (skipBlank t) = some r → ends t) {s rest : List Char}
    {ps : List Predicate}
    (hs : scanLinks (afterConnective kind) item s = (ps.map .ok, rest))
    (hsign : afterConnective kind (skipBlank rest) = none) (hrest : ends rest) :
    scanLinks (afterConnective kind) item' (s ++ ')' :: u) =
      (ps.map .ok, rest ++ ')' :: u) := by
  fun_induction scanLinks (afterConnective kind) item s generalizing ps rest with
  | case1 s hnone =>
    obtain ⟨hps, rfl⟩ := Prod.mk.inj hs
    rw [scanLinks]
    simp [skipBlank_append_close, afterConnective_append_close, hnone, ← hps]
  | case2 s r hsome hnone =>
    obtain ⟨hps, rfl⟩ := Prod.mk.inj hs
    rw [hsome] at hsign
    exact absurd hsign (by simp)
  | case3 s r hsome found t hitem hlength more rest' hmore ih =>
    obtain ⟨hps, rfl⟩ := Prod.mk.inj hs
    obtain ⟨p, ps, rfl, hp, hps⟩ := List.map_eq_cons_iff.1 hps.symm
    have hitem' := h _ p _ (hp ▸ hitem) (ends_of_scanLinks between hmore hrest)
    have ih := ih (hps ▸ hmore) hsign hrest
    rw [scanLinks]
    simp only [skipBlank_append_close, afterConnective_append_close, hsome, Option.map_some,
      hitem', ih]
    rw [if_pos (by simpa using hlength)]
    rfl
  | case4 s r hsome found t hitem hlength =>
    obtain ⟨hps, rfl⟩ := Prod.mk.inj hs
    rw [hsome] at hsign
    exact absurd hsign (by simp)

theorem joined (kind : Connective) (h : Carries u ends item item')
    (between : ∀ {t r}, afterConnective kind (skipBlank t) = some r → ends t) :
    Carries u (fun rest => afterConnective kind (skipBlank rest) = none ∧ ends rest)
      (scanJoined kind (afterConnective kind) item)
      (scanJoined kind (afterConnective kind) item') := by
  rintro s p rest hs ⟨hsign, hrest⟩
  obtain ⟨first, t, more, hfirst, hmore, hfound⟩ := exists_of_scanJoined hs
  obtain ⟨ps, hps, rfl⟩ := map_eq_ok_iff.1 hfound.symm
  have hall := mapM_id_eq_ok_iff.1 hps
  obtain ⟨q, qs, rfl, hq, hqs⟩ := List.map_eq_cons_iff.1 hall.symm
  have hfirst' := h s q t (hq ▸ hfirst) (ends_of_scanLinks between hmore hrest)
  have hmore' := h.links between (hqs ▸ hmore) hsign hrest
  simp only [scanJoined, scanChain, hfirst', hmore', hq, hqs, Option.bind_eq_bind,
    Option.bind_some, pure, Option.map_some, Prod.map_apply, hps, id_eq]
  rfl

end Carries

theorem carries_scan : Carries u Closes scan scan := by
  intro s
  induction hn : s.length using Nat.strongRecOn generalizing s with
  | ind n ih =>
    intro p rest hs hrest
    have inners : Carries u Closes (scanBelow s.length) (scanBelow (s ++ ')' :: u).length) := by
      intro r q t hr ht
      unfold scanBelow at hr ⊢
      split at hr
      · rw [if_pos (by simpa)]
        exact ih r.length (by omega) r rfl q t hr ht
      · exact absurd hr (by simp)
    have conjunctions := inners.negation.joined .and fun _ => trivial
    have operands := conjunctions.joined .or fun h => ⟨afterAnd_of_afterOr h, trivial⟩
    rw [scan_eq] at hs ⊢
    exact operands s p rest hs
      ⟨afterConnective_closes hrest .or, afterConnective_closes hrest .and, trivial⟩

end

/-! ### Groups of whole texts -/

theorem readsAsItem_of_parse {s : String} {p : Predicate} (h : parse s = .ok p) :
    ReadsAsItem ('(' :: (s.toList ++ [')'])) p := by
  obtain ⟨t, hscan, ht⟩ := exists_scan_of_parse h
  refine ⟨⟨'(', _, rfl, rfl⟩, fun {inner rest} _ hinner => ?_⟩
  have happend : '(' :: (s.toList ++ [')']) ++ rest = '(' :: (s.toList ++ ')' :: rest) := by simp
  rw [happend] at hinner ⊢
  have hread : inner (skipBlank (s.toList ++ ')' :: rest)) = some (.ok p, t ++ ')' :: rest) := by
    rw [hinner _ (Nat.lt_succ_of_le (Text.length_skipBlank_le _)), skipBlank_append_close]
    exact carries_scan _ p t hscan (closes_of_head? (by simp [ht]))
  rw [scanNegation_of_none rfl, scanPrimary_open]
  exact scanGroup_eq hread (by rw [skipBlank_append_close, ht, List.nil_append])

/-- Texts in parentheses, with a connective between them. -/
theorem parse_join (kind : Connective) {ss : List String} {ps : List Predicate} (hne : ss ≠ [])
    (h : List.Forall₂ (fun s p => parse s = .ok p) ss ps) :
    parse ((String.ofList kind.separator).intercalate (ss.map fun s => "(" ++ s ++ ")")) =
      .ok (chain kind ps) := by
  have hitems : List.Forall₂ ReadsAsItem (ss.map fun s => '(' :: (s.toList ++ [')'])) ps :=
    List.forall₂_map_left_iff.2 (h.imp fun _ _ => readsAsItem_of_parse)
  have htext : (String.ofList kind.separator).intercalate (ss.map fun s => "(" ++ s ++ ")") =
      String.ofList (kind.join (ss.map fun s => '(' :: (s.toList ++ [')']))) := by
    apply String.toList_injective
    simp [kind.join_eq, Function.comp_def]
  rw [htext]
  exact (reads_join kind (by simpa) hitems).parse_eq

/-- Formats compose by their texts: a format in parentheses is read as it is on its own, behind NOT
as its negation, and with others behind AND or OR as one compound of what they are read as. -/
theorem parse_composed :
    (∀ s p, parse s = .ok p →
      parse ("(" ++ s ++ ")") = .ok p ∧ parse ("NOT (" ++ s ++ ")") = .ok (not p)) ∧
    ∀ (ss : List String) (ps : List Predicate), 2 ≤ ss.length →
      List.Forall₂ (fun s p => parse s = .ok p) ss ps →
        parse (" AND ".intercalate (ss.map fun s => "(" ++ s ++ ")")) = .ok (compound .and ps) ∧
        parse (" OR ".intercalate (ss.map fun s => "(" ++ s ++ ")")) = .ok (compound .or ps) := by
  refine ⟨fun s p h => ?_, fun ss ps hlength h => ?_⟩
  · have hitem := readsAsItem_of_parse h
    have hgroup : "(" ++ s ++ ")" = String.ofList ('(' :: (s.toList ++ [')'])) := by
      apply String.toList_injective
      simp
    have hnot : "NOT (" ++ s ++ ")" =
        String.ofList ("NOT ".toList ++ '(' :: (s.toList ++ [')'])) := by
      apply String.toList_injective
      simp
    rw [hgroup, hnot]
    exact ⟨hitem.reads.parse_eq, hitem.not.reads.parse_eq⟩
  · have hne : ss ≠ [] := by
      rintro rfl
      exact absurd hlength (by decide)
    have hjoin (kind : Connective) := parse_join kind hne h
    simp only [chain_of_two_le (h.length_eq ▸ hlength)] at hjoin
    exact ⟨hjoin .and, hjoin .or⟩

/-- A closing parenthesis in a string literal, a prefix sign and blanks at the end. -/
theorem parse_composed_layout :
    parse "(a=1||b!=')' )" = .ok (compound .or
      [comparison (.path ⟨["a"]⟩) .equal (.literal (.integer 1)) false,
        comparison (.path ⟨["b"]⟩) .notEqual (.literal (.string ")")) false]) ∧
    parse "NOT (a=1||b!=')' )" = .ok (not (compound .or
      [comparison (.path ⟨["a"]⟩) .equal (.literal (.integer 1)) false,
        comparison (.path ⟨["b"]⟩) .notEqual (.literal (.string ")")) false])) ∧
    parse "(a=1||b!=')' ) AND (!truepredicate)" = .ok (compound .and [compound .or
      [comparison (.path ⟨["a"]⟩) .equal (.literal (.integer 1)) false,
        comparison (.path ⟨["b"]⟩) .notEqual (.literal (.string ")")) false],
      not (constant true)]) := by
  have hfirst : parse "a=1||b!=')' " = .ok (compound .or
      [comparison (.path ⟨["a"]⟩) .equal (.literal (.integer 1)) false,
        comparison (.path ⟨["b"]⟩) .notEqual (.literal (.string ")")) false]) := by
    with_unfolding_all rfl
  have hsecond : parse "!truepredicate" = .ok (not (constant true)) := by
    with_unfolding_all rfl
  exact ⟨(parse_composed.1 _ _ hfirst).1, (parse_composed.1 _ _ hfirst).2,
    (parse_composed.2 [_, _] _ (by decide) (.cons hfirst (.cons hsecond .nil))).1⟩

end Predicate

end RecordQuery
