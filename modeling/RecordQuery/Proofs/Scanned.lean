import RecordQuery.Predicate.Reader
import RecordQuery.Proofs.Outcomes

/-! Induction over what is scanned. A relation between a text, what is found at its front and the
text that is left holds of every predicate scanned if it holds of comparisons and constants and is
kept by groups, negations and chains; backtracking and the guard on groups are dealt with here. -/

namespace RecordQuery

open Text (skipBlank scanLinks scanChain)

theorem mem_of_scanWord {α : Type} {words : List (String × α)} {s rest : List Char} {value : α}
    (h : scanWord words s = some (value, rest)) :
    ∃ word, (word, value) ∈ words ∧ afterKeyword word.toList s = some rest := by
  obtain ⟨w, hw, hafter⟩ := List.exists_of_findSome?_eq_some h
  obtain ⟨r, hr, he⟩ := Option.map_eq_some_iff.1 hafter
  obtain ⟨rfl, rfl⟩ := Prod.mk.inj he
  exact ⟨w.1, hw, hr⟩

/-- The ways in which an operand is found. -/
inductive ScannedOperand : List Char → Except FormatError Operand → List Char → Prop
  | value {rest} : ScannedOperand ('%' :: '@' :: rest) (.ok (.placeholder .value)) rest
  | key {rest} : ScannedOperand ('%' :: 'K' :: rest) (.ok (.placeholder .key)) rest
  | string {closing s found rest} : closing ∈ ['"', '\''] →
      Text.scanQuoted closing s = some (found, rest) →
      ScannedOperand (closing :: s) (.ok (.literal (.string (String.ofList found)))) rest
  | word {s v rest} : scanWord literalWords s = some (v, rest) →
      ScannedOperand s (.ok (.literal v)) rest
  | numeral {s n rest} : scanNumeral s = some (n, rest) →
      ScannedOperand s (.ok (.literal (.ofNumeral n))) rest
  | path {s found rest} : scanPath s = some (found, rest) →
      ScannedOperand s (.path <$> KeyPath.parse (String.ofList found)) rest

theorem scannedOperand_of_scanOperand {s rest : List Char} {found : Except FormatError Operand}
    (h : scanOperand s = some (found, rest)) : ScannedOperand s found rest := by
  unfold scanOperand at h
  split at h
  · obtain ⟨rfl, rfl⟩ := Prod.mk.inj (Option.some.inj h)
    exact .value
  · obtain ⟨rfl, rfl⟩ := Prod.mk.inj (Option.some.inj h)
    exact .key
  · obtain ⟨⟨f, r⟩, hf, he⟩ := Option.map_eq_some_iff.1 h
    obtain ⟨rfl, rfl⟩ := Prod.mk.inj he
    exact .string (by simp) hf
  · obtain ⟨⟨f, r⟩, hf, he⟩ := Option.map_eq_some_iff.1 h
    obtain ⟨rfl, rfl⟩ := Prod.mk.inj he
    exact .string (by simp) hf
  · cases hword : scanWord literalWords s with
    | some x =>
      rw [hword] at h
      obtain ⟨rfl, rfl⟩ := Prod.mk.inj (Option.some.inj h)
      exact .word hword
    | none =>
      cases hnumeral : scanNumeral s with
      | some x =>
        rw [hword, hnumeral] at h
        obtain ⟨rfl, rfl⟩ := Prod.mk.inj (Option.some.inj h)
        exact .numeral hnumeral
      | none =>
        rw [hword, hnumeral] at h
        obtain ⟨⟨f, r⟩, hf, he⟩ := Option.map_eq_some_iff.1 h
        obtain ⟨rfl, rfl⟩ := Prod.mk.inj he
        exact .path hf

namespace Predicate

/-- A comparison is found as two operands with an operator between them. -/
theorem exists_of_scanComparison {s rest : List Char} {found : Read}
    (h : scanComparison s = some (found, rest)) : ∃ left t op foldCase u right,
      scanOperand s = some (left, t) ∧ scanOperator (skipBlank t) = some ((op, foldCase), u) ∧
      scanOperand (skipBlank u) = some (right, rest) ∧
      found = do
        let left ← left
        let foldCase ← foldCase
        let right ← right
        return comparison left op right foldCase := by
  simp only [scanComparison, Option.bind_eq_bind, Option.bind_eq_some_iff, Prod.exists] at h
  obtain ⟨left, t, hleft, op, foldCase, u, hop, right, v, hright, hfound⟩ := h
  obtain ⟨rfl, rfl⟩ := Prod.mk.inj (Option.some.inj hfound)
  exact ⟨left, t, op, foldCase, u, right, hleft, hop, hright, rfl⟩

/-- A group is found as what stands in its parentheses. -/
theorem exists_of_scanGroup {inner : Scan Read} {s rest : List Char} {found : Read}
    (h : scanGroup inner s = some (found, rest)) : ∃ r t, s = '(' :: r ∧
      inner (skipBlank r) = some (found, t) ∧ skipBlank t = ')' :: rest := by
  unfold scanGroup at h
  split at h
  · rename_i r
    obtain ⟨⟨f, t⟩, hf, ht⟩ := Option.bind_eq_some_iff.1 h
    simp only at ht
    split at ht
    · rename_i u hu
      obtain ⟨rfl, rfl⟩ := Prod.mk.inj (Option.some.inj ht)
      exact ⟨r, t, rfl, hf, hu⟩
    · exact absurd ht (by simp)
  · exact absurd h (by simp)

/-- What is not negated is found as a group, a constant or a comparison. -/
theorem cases_of_scanPrimary {inner : Scan Read} {s rest : List Char} {found : Read}
    (h : scanPrimary inner s = some (found, rest)) :
    scanGroup inner s = some (found, rest) ∨
      (∃ value, scanWord constantWords s = some (value, rest) ∧ found = .ok (constant value)) ∨
      scanComparison s = some (found, rest) := by
  unfold scanPrimary at h
  cases hgroup : scanGroup inner s with
  | some x =>
    rw [hgroup] at h
    exact .inl h
  | none =>
    cases hword : scanWord constantWords s with
    | some x =>
      rw [hgroup, hword] at h
      obtain ⟨rfl, rfl⟩ := Prod.mk.inj (Option.some.inj h)
      exact .inr (.inl ⟨x.1, rfl, rfl⟩)
    | none =>
      rw [hgroup, hword] at h
      exact .inr (.inr h)

/-- Operands with a connective between them are found as the first and those that follow it. -/
theorem exists_of_scanJoined {kind : Connective} {sign : List Char → Option (List Char)}
    {item : Scan Read} {s rest : List Char} {found : Read}
    (h : scanJoined kind sign item s = some (found, rest)) : ∃ first t more,
      item s = some (first, t) ∧ scanLinks sign item t = (more, rest) ∧
      found = chain kind <$> (first :: more).mapM id := by
  simp only [scanJoined, scanChain, Option.map_eq_some_iff, Option.bind_eq_bind,
    Option.bind_eq_some_iff, Prod.exists] at h
  obtain ⟨all, t, ⟨first, r, hfirst, hmore⟩, hfound⟩ := h
  obtain ⟨rfl, rfl⟩ := Prod.mk.inj (Option.some.inj hmore)
  obtain ⟨rfl, rfl⟩ := Prod.mk.inj hfound
  exact ⟨first, r, _, hfirst, rfl, rfl⟩

/-- The text after a connective. -/
def afterConnective : Connective → List Char → Option (List Char)
  | .and => afterAnd
  | .or => afterOr

/-- The scanner of whole predicates on texts below a length, as groups use it. -/
def scanBelow (length : Nat) : Scan Read := fun r => if r.length < length then scan r else none

theorem scan_eq (s : List Char) :
    scan s = scanJoined .or afterOr (scanConjunction (scanBelow s.length)) s := by
  rw [scan]
  rfl

/-- Items that stand behind a connective one after another, each of them in the relation. -/
inductive Linked (kind : Connective) (P : List Char → Read → List Char → Prop) :
    List Char → List Read → List Char → Prop
  | nil {s} : Linked kind P s [] s
  | cons {s r found t more rest} : afterConnective kind (skipBlank s) = some r →
      P (skipBlank r) found t → Linked kind P t more rest → Linked kind P s (found :: more) rest

/-- Every part of what is found is in the relation, on whatever level it stands. -/
structure Invariant (P : List Char → Read → List Char → Prop) : Prop where
  comparison : ∀ {s found rest}, scanComparison s = some (found, rest) → P s found rest
  constant : ∀ {s value rest}, scanWord constantWords s = some (value, rest) →
    P s (.ok (.constant value)) rest
  group : ∀ {s found t rest}, P (skipBlank s) found t → skipBlank t = ')' :: rest →
    P ('(' :: s) found rest
  negation : ∀ {s r found rest}, afterNot s = some r → P (skipBlank r) found rest →
    P s (.not <$> found) rest
  chain : ∀ {kind s first t second more rest}, P s first t →
    Linked kind P t (second :: more) rest →
    P s (compound kind <$> (first :: second :: more).mapM id) rest

theorem Linked.forall {kind : Connective} {P : List Char → Read → List Char → Prop}
    {s rest : List Char} {more : List Read} (h : Linked kind P s more rest) :
    ∀ found ∈ more, ∃ t u, P t found u := by
  induction h with
  | nil => simp
  | cons _ hfound _ ih =>
    intro found hmem
    rcases List.mem_cons.1 hmem with rfl | hmem
    · exact ⟨_, _, hfound⟩
    · exact ih found hmem

/-- Whatever a scanner finds is in the relation. -/
def Finds (P : List Char → Read → List Char → Prop) (item : Scan Read) : Prop :=
  ∀ s found rest, item s = some (found, rest) → P s found rest

section

variable {P : List Char → Read → List Char → Prop} {inner item : Scan Read}

theorem linked_scanLinks (items : Finds P item) (kind : Connective) (s : List Char) :
    Linked kind P s (scanLinks (afterConnective kind) item s).1
      (scanLinks (afterConnective kind) item s).2 := by
  fun_induction scanLinks (afterConnective kind) item s with
  | case1 => exact .nil
  | case2 => exact .nil
  | case3 s r hsign found rest hitem _ more rest' hmore ih =>
    rw [hmore] at ih
    exact .cons hsign (items _ _ _ hitem) ih
  | case4 => exact .nil

theorem chain_singleton_mapM (kind : Connective) (first : Read) :
    chain kind <$> [first].mapM id = first := by
  cases first <;> rfl

theorem chain_two_mapM (kind : Connective) (first second : Read) (more : List Read) :
    chain kind <$> (first :: second :: more).mapM id =
      compound kind <$> (first :: second :: more).mapM id := by
  cases hall : (first :: second :: more).mapM id with
  | error e => rfl
  | ok ps =>
    have hlength := congrArg List.length (mapM_id_eq_ok_iff.1 hall)
    simp only [List.length_cons, List.length_map] at hlength
    show Except.ok (chain kind ps) = .ok (compound kind ps)
    rw [chain_of_two_le (by omega)]

namespace Invariant

variable (h : Invariant P)

include h

theorem finds_scanJoined (items : Finds P item) (kind : Connective) :
    Finds P (scanJoined kind (afterConnective kind) item) := by
  intro s found rest hs
  obtain ⟨first, t, more, hfirst, hmore, rfl⟩ := exists_of_scanJoined hs
  have hlinked := linked_scanLinks items kind t
  rw [hmore] at hlinked
  cases more with
  | nil =>
    cases hlinked
    rw [chain_singleton_mapM]
    exact items _ _ _ hfirst
  | cons second more =>
    rw [chain_two_mapM]
    exact h.chain (items _ _ _ hfirst) hlinked

theorem finds_scanGroup (inners : Finds P inner) : Finds P (scanGroup inner) := by
  intro s found rest hs
  obtain ⟨r, t, rfl, hr, ht⟩ := exists_of_scanGroup hs
  exact h.group (inners _ _ _ hr) ht

theorem finds_scanPrimary (inners : Finds P inner) : Finds P (scanPrimary inner) := by
  intro s found rest hs
  rcases cases_of_scanPrimary hs with hgroup | ⟨value, hword, rfl⟩ | hcomparison
  · exact h.finds_scanGroup inners s found rest hgroup
  · exact h.constant hword
  · exact h.comparison hcomparison

theorem finds_scanNegation (inners : Finds P inner) : Finds P (scanNegation inner) := by
  intro s found rest hs
  fun_induction scanNegation inner s generalizing found rest with
  | case1 s hnot => exact h.finds_scanPrimary inners s found rest hs
  | case2 s r hnot found' rest' hr ih =>
    obtain ⟨rfl, rfl⟩ := Prod.mk.inj (Option.some.inj hs)
    exact h.negation hnot (ih _ _ hr)
  | case3 s r hnot hr ih => exact h.finds_scanPrimary inners s found rest hs

/-- The relation holds of everything that is scanned. -/
theorem finds_scan : Finds P scan := by
  intro s found rest hs
  induction hn : s.length using Nat.strongRecOn generalizing s found rest with
  | ind n ih =>
    have inners : Finds P (scanBelow s.length) := by
      intro r f t hr
      unfold scanBelow at hr
      split at hr
      · exact ih r.length (by omega) r f t hr rfl
      · exact absurd hr (by simp)
    rw [scan_eq] at hs
    have conjunctions := h.finds_scanJoined (h.finds_scanNegation inners) .and
    exact h.finds_scanJoined conjunctions .or s found rest hs

end Invariant

end

/-- What is read is scanned up to blanks at the end. -/
theorem exists_scan_of_parse {format : String} {p : Predicate} (h : parse format = .ok p) :
    ∃ rest, scan (skipBlank format.toList) = some (.ok p, rest) ∧ skipBlank rest = [] := by
  unfold parse at h
  split at h
  · exact absurd h (by simp)
  · rename_i found rest hscan
    split at h
    · rename_i hrest
      exact ⟨rest, by rw [hscan, h], hrest⟩
    · exact absurd h (by simp)

end Predicate

end RecordQuery
