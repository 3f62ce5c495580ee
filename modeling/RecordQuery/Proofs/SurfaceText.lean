import Mathlib.Tactic.Choose
import RecordQuery.Proofs.Reading

/-! Surface texts: all the ways in which the language lets a predicate be written. Every token has
its synonyms, blanks of any length stand between tokens, and a predicate may carry parentheses
wherever it stands; it needs them only as a compound that would otherwise be taken apart, which
depends on the place it stands in. Each of these texts is read as the one tree it spells. -/

namespace RecordQuery

open Text (isBlank skipBlank Gap attached)

/-! ### String literals -/

namespace Text

/-- The ways to write a character of a string literal: as it is, unless it would end the literal or
begin an escape; by the letter that names it; and behind a backslash, unless it is such a letter. -/
inductive Writes (closing : Char) : Char → List Char → Prop
  | plain {c : Char} : c ≠ closing → c ≠ '\\' → Writes closing c [c]
  | newline : Writes closing '\n' ['\\', 'n']
  | tab : Writes closing '\t' ['\\', 't']
  | carriageReturn : Writes closing '\r' ['\\', 'r']
  | escaped {c : Char} : c ∉ ['n', 't', 'r'] → Writes closing c ['\\', c]

theorem unescape_of_not_mem {c : Char} (h : c ∉ ['n', 't', 'r']) : unescape c = c := by
  unfold unescape
  split <;> simp_all

theorem scanLiteral_written {closing c : Char} {u : List Char} (hclosing : closing ≠ '\\')
    (h : Writes closing c u) (s : List Char) :
    scanLiteral closing false (u ++ s) =
      (scanLiteral closing false s).map (Prod.map (c :: ·) id) := by
  cases h with
  | plain hne hescape => simp [scanLiteral, hne, hescape]
  | newline | tab | carriageReturn => simp [scanLiteral, hclosing.symm, unescape]
  | escaped hc => simp [scanLiteral, hclosing.symm, unescape_of_not_mem hc]

theorem scanQuoted_written {closing : Char} {s : List Char} {us : List (List Char)}
    (hclosing : closing ≠ '\\') (h : List.Forall₂ (Writes closing) s us) (rest : List Char) :
    scanQuoted closing (us.flatten ++ closing :: rest) = some (s, rest) := by
  unfold scanQuoted
  induction h with
  | nil => simp [scanLiteral]
  | cons hu _ ih =>
    rw [List.flatten_cons, List.append_assoc, scanLiteral_written hclosing hu, ih]
    rfl

/-- The canonical text of a literal is one of them. -/
theorem writes_escape (c : Char) : Writes '"' c (escape c) := by
  unfold escape
  split
  · exact .escaped (by decide)
  · exact .escaped (by decide)
  · exact .newline
  · exact .tab
  · exact .carriageReturn
  · rename_i hquote hescape _ _ _
    exact .plain hquote hescape

end Text

/-! ### Operands -/

/-- The words for a literal, in lower case. -/
def Value.words : Value → List String
  | nil => ["nil", "null"]
  | bool true => ["true", "yes"]
  | bool false => ["false", "no"]
  | _ => []

/-- The ways to write an operand. -/
inductive Operand.Spelling : Operand → List Char → Prop
  | word {v : Value} {t : List Char} : IsWord v.words t → Spelling (.literal v) t
  | integer (n : Int64) : Spelling (.literal (.integer n)) (toString n.toInt).toList
  | string {closing : Char} {s : String} {us : List (List Char)} : closing ∈ ['"', '\''] →
      List.Forall₂ (Text.Writes closing) s.toList us →
      Spelling (.literal (.string s)) (closing :: (us.flatten ++ [closing]))
  | path {path : KeyPath} : path.isValid = true → Spelling (.path path) path.chars
  | placeholder (p : Placeholder) : Spelling (.placeholder p) p.chars

theorem mem_literalWords {v : Value} {w : String} (h : w ∈ v.words) : (w, v) ∈ literalWords := by
  unfold Value.words at h
  split at h
  case h_4 => simp at h
  all_goals rcases List.mem_pair.1 h with rfl | rfl <;> simp [literalWords]

theorem toList_toString_int (n : Int) : (toString n).toList = (Numeral.ofInt n).chars := by
  cases n with
  | ofNat m => simp [Numeral.chars, Numeral.ofInt, toString, Int.repr, Nat.repr]
  | negSucc m =>
    simp [Numeral.chars, Numeral.ofInt, toString, Int.repr, Nat.repr, Int.negSucc_lt_zero]

theorem readsAsLeaf_string {closing : Char} {s : String} {us : List (List Char)}
    (hclosing : closing ∈ ['"', '\'']) (h : List.Forall₂ (Text.Writes closing) s.toList us) :
    ReadsAsLeaf (closing :: (us.flatten ++ [closing])) (.literal (.string s)) := by
  have hsign : closing ∈ ['-', '"', '\'', '%'] := by
    simp only [List.mem_cons, List.not_mem_nil, or_false] at hclosing ⊢
    tauto
  refine ⟨fun {rest} _ => ?_, fun _ => opensOperand_of_sign (.inr hsign) _⟩
  have hscan := Text.scanQuoted_written (by rintro rfl; simp at hclosing) h rest
  rw [List.cons_append, List.append_assoc, List.singleton_append]
  rcases List.mem_pair.1 hclosing with rfl | rfl
  · simp [scanOperand, hscan, scanOperand.ofString]
  · simp [scanOperand, hscan, scanOperand.ofString]

theorem Operand.Spelling.readsAsLeaf {o : Operand} {t : List Char} (h : o.Spelling t) :
    ReadsAsLeaf t o := by
  cases h with
  | word h =>
    obtain ⟨w, hw, he⟩ := isWord_iff.1 h
    have hmem := mem_literalWords hw
    exact ⟨scanOperand_word hmem he,
      fun stop => opensOperand_of_word hmem he (stop.head_false isIdentifierChar (by decide))⟩
  | integer n =>
    rw [toList_toString_int]
    exact (Spells.ofInt n).readsAsLeaf
  | string hclosing h => exact readsAsLeaf_string hclosing h
  | path h => exact (Spells.path h).readsAsLeaf
  | placeholder p => exact (Spells.placeholder p).readsAsLeaf

theorem Operand.exists_spelling {o : Operand} (valid : ∀ path, o = .path path → path.isValid = true)
    (float_free : ∀ x, o ≠ .literal (.float x)) : ∃ t, o.Spelling t := by
  cases o with
  | path path => exact ⟨_, .path (valid path rfl)⟩
  | placeholder p => exact ⟨_, .placeholder p⟩
  | literal v =>
    cases v with
    | nil => exact ⟨"nil".toList, .word (by decide)⟩
    | bool b =>
      cases b with
      | true => exact ⟨"true".toList, .word (by decide)⟩
      | false => exact ⟨"false".toList, .word (by decide)⟩
    | integer n => exact ⟨_, .integer n⟩
    | float x => exact absurd rfl (float_free x)
    | string s =>
      have hwrites : List.Forall₂ (Text.Writes '"') s.toList (s.toList.map Text.escape) := by
        rw [List.forall₂_map_right_iff, List.forall₂_same]
        exact fun c _ => Text.writes_escape c
      exact ⟨_, .string (by simp) hwrites⟩

/-! ### Predicates -/

/-- Where a predicate stands: on its own, in a format or a group, between connectives, or behind a
negation. -/
inductive Place where
  | whole
  | operand (kind : Connective)
  | negated

/-- The compounds that need no parentheses: all of them on their own, and AND as an operand of OR,
since it binds tighter. -/
def Place.admits : Place → Connective → Bool
  | whole, _ => true
  | operand .or, .and => true
  | _, _ => false

namespace Predicate

/-- The word for a constant, in lower case. -/
def constantWord (value : Bool) : String := if value then "truepredicate" else "falsepredicate"

/-- An operand behind a connective: what stands in front of it, its text, and the predicate. -/
structure Link where
  separator : List Char
  text : List Char
  operand : Predicate

/-- The ways to write a predicate in a place. -/
inductive Spelling : Place → Predicate → List Char → Prop
  | comparison {place left op right foldCase l g w g' r} :
      left.Spelling l → Gap g → IsWord (Operator.spellings op) w → Gap g' → right.Spelling r →
      Spelling place (.comparison left op right foldCase)
        (l ++ (g ++ (w ++ (caseModifier foldCase ++ (g' ++ r)))))
  | constant {place value t} : IsWord [constantWord value] t → Spelling place (.constant value) t
  | not {place p n g t} : IsWord negationSpellings n → Gap g → Spelling .negated p t →
      Spelling place (.not p) (n ++ (g ++ t))
  | group {place p g t g'} : (∀ c ∈ g, isBlank c = true) → Spelling .whole p t →
      (∀ c ∈ g', isBlank c = true) → Spelling place p ('(' :: (g ++ (t ++ (g' ++ [')']))))
  | compound {place : Place} {kind p t} {links : List Link} : place.admits kind → links ≠ [] →
      Spelling (.operand kind) p t →
      (∀ link ∈ links, kind.Between link.separator) →
      (∀ link ∈ links, Spelling (.operand kind) link.operand link.text) →
      Spelling place (.compound kind (p :: links.map Link.operand))
        (t ++ attached (links.map fun link => (link.separator, link.text)))

/-- The formats that spell a predicate: its texts, with blanks around them. -/
def SpelledBy (p : Predicate) (format : String) : Prop :=
  ∃ g t g', (∀ c ∈ g, isBlank c = true) ∧ Spelling .whole p t ∧ (∀ c ∈ g', isBlank c = true) ∧
    format.toList = g ++ (t ++ g')

/-- How a text has to be read to stand in a place. -/
def ReadsAt : Place → List Char → Predicate → Prop
  | .whole => Reads
  | .operand .or => ReadsAsConjunction
  | .operand .and | .negated => ReadsAsItem

theorem ReadsAsItem.readsAt {t : List Char} {p : Predicate} (h : ReadsAsItem t p) (place : Place) :
    ReadsAt place t p := by
  match place with
  | .whole => exact h.reads
  | .operand .or => exact h.readsAsConjunction
  | .operand .and | .negated => exact h

/-- Operands that are read where they stand make a compound that is read where it may stand. -/
theorem readsAt_compound {place : Place} {kind : Connective} {t : List Char} {p : Predicate}
    {links : List Link} (admitted : place.admits kind) (hne : links ≠ [])
    (hfirst : ReadsAt (.operand kind) t p)
    (between : ∀ link ∈ links, kind.Between link.separator)
    (hlinks : ∀ link ∈ links, ReadsAt (.operand kind) link.text link.operand) :
    ReadsAt place (t ++ attached (links.map fun link => (link.separator, link.text)))
      (compound kind (p :: links.map Link.operand)) := by
  have htwo : 2 ≤ (p :: links.map Link.operand).length := by
    have := List.length_pos_iff.2 hne
    simp only [List.length_cons, List.length_map]
    omega
  have hoperands : List.Forall₂ (ReadsAt (.operand kind))
      (t :: (links.map fun link => (link.separator, link.text)).map Prod.snd)
      (p :: links.map Link.operand) := by
    refine .cons hfirst ?_
    rw [List.map_map, List.forall₂_map_left_iff, List.forall₂_map_right_iff, List.forall₂_same]
    exact hlinks
  have hbetween : ∀ link ∈ links.map fun link => (link.separator, link.text),
      kind.Between link.1 := by simpa using between
  rw [← chain_of_two_le htwo]
  cases kind with
  | and =>
    have hread := readsAsConjunction_attached hoperands hbetween
    match place, admitted with
    | .whole, _ => exact hread.reads
    | .operand .or, _ => exact hread
  | or =>
    match place, admitted with
    | .whole, _ => exact reads_attached hoperands hbetween

/-- A text is read in its place as the predicate it spells. -/
theorem Spelling.readsAt {place : Place} {p : Predicate} {t : List Char}
    (h : Spelling place p t) : ReadsAt place t p := by
  induction h with
  | comparison hl hg hw hg' hr =>
    exact (readsAsItem_parts hl.readsAsLeaf hg hw _ hg' hr.readsAsLeaf).readsAt _
  | @constant _ value t ht =>
    obtain ⟨w, hw, he⟩ := isWord_iff.1 ht
    obtain rfl := List.mem_singleton.1 hw
    have hmem : (constantWord value, value) ∈ constantWords := by cases value <;> decide
    exact (readsAsItem_constantWord hmem he).readsAt _
  | not hn hg _ ih => exact (ReadsAsItem.negated ih hn hg).readsAt _
  | group hg _ hg' ih => exact (Reads.spacedGroup ih hg hg').readsAt _
  | compound admitted hne _ between _ ih ihs => exact readsAt_compound admitted hne ih between ihs

theorem Spelling.pair {place : Place} {kind : Connective} {p q : Predicate}
    {t separator u : List Char} (admitted : place.admits kind) (hp : Spelling (.operand kind) p t)
    (between : kind.Between separator) (hq : Spelling (.operand kind) q u) :
    Spelling place (.compound kind [p, q]) (t ++ (separator ++ u)) := by
  have := @Spelling.compound place kind p t [⟨separator, u, q⟩] admitted (by simp) hp
    (by simpa using between) (by simpa using hq)
  simpa [attached] using this

/-- A predicate can be written wherever it stands, a compound in parentheses. -/
theorem exists_spelling {p : Predicate} (branching : p.Branching)
    (leaves : ∀ o ∈ p.leaves, ∃ t, o.Spelling t) (place : Place) : ∃ t, Spelling place p t := by
  induction branching generalizing place with
  | @comparison left op right foldCase =>
    obtain ⟨l, hl⟩ := leaves left (by simp)
    obtain ⟨r, hr⟩ := leaves right (by simp)
    have hw : IsWord op.spellings op.symbol.toList := by cases op <;> decide
    exact ⟨_, .comparison hl Text.gap_space hw Text.gap_space hr⟩
  | @compound kind operands hlength _ ih =>
    choose! text htext using fun p hp =>
      ih p hp (fun o ho => leaves o (by simpa using ⟨p, hp, ho⟩)) (.operand kind)
    match operands, hlength with
    | p :: q :: qs, _ =>
      let links := (q :: qs).map fun p => Link.mk kind.separator (text p) p
      have hlinks : ∀ link ∈ links, Spelling (.operand kind) link.operand link.text := by
        intro link hlink
        obtain ⟨p, hp, rfl⟩ := List.mem_map.1 hlink
        exact htext p (List.mem_cons_of_mem _ hp)
      have hbetween : ∀ link ∈ links, kind.Between link.separator := by
        intro link hlink
        obtain ⟨p, -, rfl⟩ := List.mem_map.1 hlink
        exact kind.between_separator
      have hcompound : Spelling .whole (compound kind (p :: links.map Link.operand)) _ :=
        .compound rfl (by simp [links]) (htext p (by simp)) hbetween hlinks
      have hoperands : links.map Link.operand = q :: qs := by simp [links, Function.comp_def]
      rw [hoperands] at hcompound
      exact ⟨_, @Spelling.group place _ [] _ [] (by simp) hcompound (by simp)⟩
  | not _ ih =>
    obtain ⟨t, ht⟩ := ih (by simpa using leaves) .negated
    exact ⟨_, .not (n := "NOT".toList) (by decide) Text.gap_space ht⟩
  | @constant value =>
    exact ⟨(constantWord value).toList, .constant (by cases value <;> decide)⟩

/-- A predicate that the language can name has a text, and every text that spells it is read as
it. -/
theorem parse_spelled {p : Predicate} (branching : p.Branching)
    (valid : ∀ path ∈ p.paths, path.isValid = true) (float_free : ∀ x, .float x ∉ p.literals) :
    (∃ format, p.SpelledBy format) ∧ ∀ format, p.SpelledBy format → parse format = .ok p := by
  constructor
  · have hleaves : ∀ o ∈ p.leaves, ∃ t, o.Spelling t := by
      intro o ho
      refine Operand.exists_spelling ?_ ?_
      · rintro path rfl
        exact valid path (mem_paths.2 ho)
      · rintro x rfl
        exact float_free x (mem_literals.2 ho)
    obtain ⟨t, ht⟩ := exists_spelling branching hleaves .whole
    exact ⟨String.ofList t, [], t, [], by simp, ht, by simp, by simp⟩
  · rintro format ⟨g, t, g', hg, ht, hg', he⟩
    rw [← String.ofList_toList (s := format), he]
    exact Reads.parse_spaced ht.readsAt hg hg'

/-- Signs and words in mixed case, an escaped quote, AND without parentheses and a comparison with
more of them than it needs. -/
theorem parse_spelled_layout :
    parse ("\t! ( a.b =< -5 AnD\n'it\\'\\s\\n' bEGINSWITH[c] %K ) " ++
        "|| TruePredicate && ((NULL <> yEs)) ") =
      .ok (compound .or [
        not (compound .and [
          comparison (.path ⟨["a", "b"]⟩) .lessOrEqual (.literal (.integer (-5))) false,
          comparison (.literal (.string "it's\n")) .beginsWith (.placeholder .key) true]),
        compound .and [constant true,
          comparison (.literal .nil) .notEqual (.literal (.bool true)) false]]) := by
  have hspace : Gap [' '] := Text.gap_space
  have hstring : Operand.Spelling (.literal (.string "it's\n")) "'it\\'\\s\\n'".toList :=
    @Operand.Spelling.string '\'' _ [['i'], ['t'], ['\\', '\''], ['\\', 's'], ['\\', 'n']] (by simp)
      (.cons (.plain (by decide) (by decide)) (.cons (.plain (by decide) (by decide))
        (.cons (.escaped (by decide)) (.cons (.escaped (by decide)) (.cons .newline .nil)))))
  have hbound := @Spelling.comparison (.operand .and) _ .lessOrEqual _ false _ _ "=<".toList _ _
    (@Operand.Spelling.path ⟨["a", "b"]⟩ (by decide)) hspace (by decide) hspace (.integer (-5))
  have hbegins := @Spelling.comparison (.operand .and) _ .beginsWith _ true _ _
    "bEGINSWITH".toList _ _ hstring hspace (by decide) hspace (.placeholder .key)
  have hunequal := @Spelling.comparison .whole (.literal .nil) .notEqual (.literal (.bool true))
    false "NULL".toList _ "<>".toList _ "yEs".toList (.word (by decide)) hspace (by decide) hspace
    (.word (by decide))
  have hand := @Connective.Between.mk .and _ "AnD".toList ['\n'] hspace (by decide)
    (Text.gap_singleton rfl)
  have hsigns := @Connective.Between.mk .and _ "&&".toList _ hspace (by decide) hspace
  have hor := @Connective.Between.mk .or _ "||".toList _ hspace (by decide) hspace
  have hnot := @Spelling.not (.operand .or) _ "!".toList _ _ (by decide) hspace
    (@Spelling.group .negated _ [' '] _ [' '] hspace.all_blank (.pair rfl hbound hand hbegins)
      hspace.all_blank)
  have htwice := @Spelling.group (.operand .and) _ [] _ [] (by simp)
    (@Spelling.group _ _ [] _ [] (by simp) hunequal (by simp)) (by simp)
  have hbare := @Spelling.pair (.operand .or) _ _ _ _ _ _ rfl
    (@Spelling.constant _ true "TruePredicate".toList (by decide)) hsigns htwice
  have hwhole := @Spelling.pair .whole _ _ _ _ _ _ rfl hnot hor hbare
  refine (parse_spelled ?_ ?_ ?_).2 _ ⟨['\t'], _, [' '],
    (Text.gap_singleton rfl).all_blank, hwhole, hspace.all_blank, rfl⟩
  · have hpair {kind : Connective} {p q : Predicate} (hp : p.Branching) (hq : q.Branching) :
        (compound kind [p, q]).Branching := .compound le_rfl (by simp [hp, hq])
    exact hpair (.not (hpair .comparison .comparison)) (hpair .constant .comparison)
  · decide
  · simp [literals, Operand.literal?]

end Predicate

end RecordQuery
