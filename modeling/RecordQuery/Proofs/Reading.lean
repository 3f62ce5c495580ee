import RecordQuery.Proofs.Chains
import RecordQuery.Proofs.Operands
import RecordQuery.Proofs.Scanned

/-! Texts that are read as predicates wherever they stand. A text reads as an item when negation
takes it off the front whatever part may follow, as an operand of OR when a chain of AND does if no
AND follows, and as a whole when that is so up to the end of a group or of the format. Comparisons,
constants, groups and negations are items, however their tokens are written and spaced; items with
AND between them are an operand of OR, and such operands with OR between them are a whole. -/

namespace RecordQuery

open Predicate (constantWords afterConnective)
open Text (isBlank skipBlank scanLinks scanChain Visible TakesAll Gap attached)

/-! ### Blanks and signs -/

theorem isBlank_toLower (c : Char) : isBlank c.toLower = isBlank c := by
  have hblank {d : Char} (h : isIdentifierChar d = true) : isBlank d = false :=
    isBlank_eq_false (ne_of_test isIdentifierChar h (by decide))
  cases hupper : c.isUpper with
  | false => rw [toLower_of_not_isUpper hupper]
  | true =>
    have hc : isIdentifierChar c = true := isIdentifierChar_iff.2 (.inl hupper)
    rw [hblank hc, hblank (by rwa [isIdentifierChar_toLower])]

theorem IsWord.visible {words : List String} {t : List Char} (h : IsWord words t)
    (hwords : ∀ w ∈ words, w.toList.head?.any (!isBlank ·)) : Visible t := by
  obtain ⟨w, hw, he⟩ := isWord_iff.1 h
  have hfirst := hwords w hw
  rw [← he] at hfirst
  cases t with
  | nil => simp at hfirst
  | cons c s => exact ⟨c, s, rfl, by simpa [isBlank_toLower] using hfirst⟩

theorem stops_cons_of_isBlank {c : Char} (h : isBlank c = true) (s : List Char) :
    Stops (c :: s) := by
  refine stops_cons s ?_
  simp only [isBlank, Bool.or_eq_true, beq_iff_eq] at h
  simp only [List.mem_cons]
  tauto

theorem stops_append {g rest : List Char} (hg : ∀ c ∈ g, isBlank c = true) (stop : Stops rest) :
    Stops (g ++ rest) := by
  cases g with
  | nil => exact stop
  | cons c g => exact stops_cons_of_isBlank (hg c (by simp)) _

theorem Text.Gap.stops {g : List Char} (h : Text.Gap g) (s : List Char) : Stops (g ++ s) := by
  obtain ⟨c, g, rfl⟩ := List.exists_cons_of_ne_nil h.ne_nil
  exact stops_cons_of_isBlank (h.all_blank c (by simp)) _

section

variable {t rest : List Char}

theorem afterKeyword_of_map_toLower {word : List Char} (hword : word.all isIdentifierChar = true)
    (ht : t.map Char.toLower = word) (stop : Stops rest) :
    afterKeyword word (t ++ rest) = some rest := by
  have hrun : t.all isIdentifierChar = true := by rwa [← all_isIdentifierChar_map_toLower, ht]
  rw [afterKeyword_append hword hrun (stop.head_false isIdentifierChar (by decide)), if_pos ht]

theorem afterNot_append (h : IsWord negationSpellings t) (stop : Stops rest) :
    afterNot (t ++ rest) = some rest := by
  obtain ⟨w, hw, he⟩ := isWord_iff.1 h
  rcases List.mem_pair.1 hw with rfl | rfl
  · obtain ⟨-, c, s, rfl, hc⟩ := exists_cons_of_word (by decide) he
    have hne := @ne_of_test isIdentifierChar c hc ['!'] (by decide) '!' (.head _)
    exact (afterNot_eq_afterKeyword hne _).trans (afterKeyword_of_map_toLower (by decide) he stop)
  · rw [eq_of_map_toLower he (by decide)]
    cases rest with
    | nil => rfl
    | cons d rest =>
      have hne : d ≠ '=' := by simpa using stop.head_false (· == '=') (by decide) d (by simp)
      simp [afterNot, hne]

theorem afterConnective_append {kind : Connective} (h : IsWord kind.spellings t)
    (stop : Stops rest) : afterConnective kind (t ++ rest) = some rest := by
  obtain ⟨w, hw, he⟩ := isWord_iff.1 h
  cases kind with
  | and =>
    rcases List.mem_pair.1 hw with rfl | rfl
    · obtain ⟨-, c, s, rfl, hc⟩ := exists_cons_of_word (by decide) he
      have hne := @ne_of_test isIdentifierChar c hc ['&'] (by decide) '&' (.head _)
      have hsign : afterAnd (c :: s ++ rest) = afterKeyword "and".toList (c :: s ++ rest) :=
        afterAnd.eq_2 _ fun r hr => hne (List.cons.inj hr).1
      exact hsign.trans (afterKeyword_of_map_toLower (by decide) he stop)
    · rw [eq_of_map_toLower he (by decide)]
      rfl
  | or =>
    rcases List.mem_pair.1 hw with rfl | rfl
    · obtain ⟨-, c, s, rfl, hc⟩ := exists_cons_of_word (by decide) he
      have hne := @ne_of_test isIdentifierChar c hc ['|'] (by decide) '|' (.head _)
      have hsign : afterOr (c :: s ++ rest) = afterKeyword "or".toList (c :: s ++ rest) :=
        afterOr.eq_2 _ fun r hr => hne (List.cons.inj hr).1
      exact hsign.trans (afterKeyword_of_map_toLower (by decide) he stop)
    · rw [eq_of_map_toLower he (by decide)]
      rfl

end

namespace Predicate

/-- A scanner of groups that does what the scanner of whole predicates does on texts below a
length. -/
def Agrees (inner : Scan Read) (length : ℕ) : Prop :=
  ∀ r : List Char, r.length < length → inner r = scan r

theorem Agrees.mono {inner : Scan Read} {m n : ℕ} (h : Agrees inner n) (hle : m ≤ n) :
    Agrees inner m := fun r hr => h r (by omega)

theorem agrees_scanBelow (length : ℕ) : Agrees (scanBelow length) length :=
  fun _ hr => if_pos hr

/-- What may follow a whole predicate: blanks, and then nothing or the end of a group. -/
structure Closes (rest : List Char) : Prop where
  stops : Stops rest
  closed : ∀ c ∈ (skipBlank rest).head?, c = ')'

structure ReadsAsItem (t : List Char) (p : Predicate) : Prop where
  exists_cons : ∃ c s, t = c :: s ∧ isBlank c = false
  scan_eq : ∀ {inner : Scan Read} {rest : List Char}, Stops rest →
    Agrees inner (t ++ rest).length → scanNegation inner (t ++ rest) = some (.ok p, rest)

structure Reads (t : List Char) (p : Predicate) : Prop where
  exists_cons : ∃ c s, t = c :: s ∧ isBlank c = false
  scan_eq : ∀ {rest : List Char}, Closes rest → scan (t ++ rest) = some (.ok p, rest)

/-! ### Items -/

theorem scanNegation_of_none {inner : Scan Read} {s : List Char} (h : afterNot s = none) :
    scanNegation inner s = scanPrimary inner s := by
  rw [scanNegation]
  split
  · rfl
  · simp_all

theorem scanNegation_of_some {inner : Scan Read} {s r rest : List Char} {found : Read}
    (h : afterNot s = some r) (hr : scanNegation inner (skipBlank r) = some (found, rest)) :
    scanNegation inner s = some (.not <$> found, rest) := by
  rw [scanNegation]
  split
  · simp_all
  · rename_i r' h'
    obtain rfl : r = r' := Option.some.inj (h.symm.trans h')
    rw [hr]

theorem scanGroup_of_ne {inner : Scan Read} {c : Char} (h : c ≠ '(') (s : List Char) :
    scanGroup inner (c :: s) = none := by
  unfold scanGroup
  split
  · exact absurd (List.cons.inj ‹_›).1 h
  · rfl

theorem scanGroup_eq {inner : Scan Read} {r t rest : List Char} {found : Read}
    (hr : inner (skipBlank r) = some (found, t)) (ht : skipBlank t = ')' :: rest) :
    scanGroup inner ('(' :: r) = some (found, rest) := by
  simp only [scanGroup, hr, ht, Option.bind_eq_bind, Option.bind_some]
  rfl

/-- Nothing but a group begins with a parenthesis. -/
theorem scanPrimary_open (inner : Scan Read) (s : List Char) :
    scanPrimary inner ('(' :: s) = scanGroup inner ('(' :: s) := by
  have hcomparison : scanComparison ('(' :: s) = none := rfl
  have hword : scanWord constantWords ('(' :: s) = none := rfl
  rw [scanPrimary, hword, hcomparison]
  cases scanGroup inner ('(' :: s) <;> rfl

/-- What begins like an operand is read as a comparison. -/
theorem scanNegation_of_opensOperand {inner : Scan Read} {s : List Char} (h : OpensOperand s) :
    scanNegation inner s = scanComparison s := by
  obtain ⟨c, t, rfl, hc, -⟩ := h.exists_cons
  rw [scanNegation_of_none h.afterNot_eq, scanPrimary, scanGroup_of_ne hc, h.scanWord_eq]
  rfl

theorem readsAsItem_parts {l r w g g' : List Char} {left right : Operand} {op : Operator}
    (hl : ReadsAsLeaf l left) (hg : Gap g) (hw : IsWord op.spellings w) (foldCase : Bool)
    (hg' : Gap g') (hr : ReadsAsLeaf r right) :
    ReadsAsItem (l ++ (g ++ (w ++ (caseModifier foldCase ++ (g' ++ r)))))
      (comparison left op right foldCase) := by
  have hopens (s : List Char) : OpensOperand (l ++ (g ++ s)) := hl.opensOperand (hg.stops s)
  have happend (rest : List Char) : l ++ (g ++ (w ++ (caseModifier foldCase ++ (g' ++ r)))) ++ rest =
      l ++ (g ++ (w ++ (caseModifier foldCase ++ (g' ++ (r ++ rest))))) := by simp
  refine ⟨?_, fun {inner rest} stop _ => ?_⟩
  · obtain ⟨c, s, hs, -, hc⟩ := (hopens _).exists_cons
    exact ⟨c, s, hs, hc⟩
  · have hleft := hl.scanOperand_eq (hg.stops (w ++ (caseModifier foldCase ++ (g' ++ (r ++ rest)))))
    have hop := scanOperator_append hw foldCase (hg'.stops (r ++ rest))
    have hright := hr.scanOperand_eq stop
    obtain ⟨c, s, hs, -, hc⟩ := (hr.opensOperand stop).exists_cons
    have hskip : skipBlank (r ++ rest) = r ++ rest := by
      rw [hs, Text.skipBlank_of_not_blank hc]
    rw [happend, scanNegation_of_opensOperand (hopens _)]
    simp only [scanComparison, hleft, Text.skipBlank_append hg.all_blank,
      (hw.visible (by cases op <;> decide)).skipBlank_append, hop, Text.skipBlank_append hg'.all_blank, hskip,
      hright, Option.bind_eq_bind, Option.bind_some]
    rfl

theorem readsAsItem_comparison {l r : List Char} {left right : Operand} (hl : Spells l left)
    (hr : Spells r right) (op : Operator) (foldCase : Bool) :
    ReadsAsItem (comparisonText l op foldCase r) (comparison left op right foldCase) := by
  have hsymbol : IsWord op.spellings op.symbol.toList := by cases op <;> decide
  have := readsAsItem_parts hl.readsAsLeaf Text.gap_space hsymbol foldCase Text.gap_space
    hr.readsAsLeaf
  simpa [comparisonText, caseModifier] using this

theorem readsAsItem_constantWord {w : String × Bool} (hw : w ∈ constantWords) {t : List Char}
    (ht : t.map Char.toLower = w.1.toList) : ReadsAsItem t (constant w.2) := by
  obtain ⟨hword, hnot, hfind⟩ := (by decide : ∀ w ∈ constantWords,
    (w.1.toList ≠ [] ∧ w.1.toList.all isIdentifierChar = true) ∧ w.1.toList ≠ "not".toList ∧
      constantWords.find? (fun v => w.1.toList = v.1.toList) = some w) w hw
  obtain ⟨hrun, c, s, rfl, hc⟩ := exists_cons_of_word hword ht
  rw [← ht] at hnot hfind
  have hne : ∀ d ∈ ['!', '(', ' ', '\t', '\r', '\n'], c ≠ d :=
    ne_of_test isIdentifierChar hc (by decide)
  refine ⟨⟨c, s, rfl, isBlank_eq_false hne⟩, fun {inner rest} stop _ => ?_⟩
  have hstop := stop.head_false isIdentifierChar (by decide)
  have hafter : afterNot (c :: s ++ rest) = none := by
    rw [List.cons_append, afterNot_eq_afterKeyword (hne '!' (by simp)), ← List.cons_append,
      afterKeyword_append (by decide) hrun hstop, if_neg hnot]
  have hgroup : scanGroup inner (c :: s ++ rest) = none := scanGroup_of_ne (hne '(' (by simp)) _
  rw [scanNegation_of_none hafter, scanPrimary, hgroup,
    scanWord_append all_isIdentifierChar_constantWords hrun hstop, hfind]
  rfl

theorem readsAsItem_constant (value : Bool) :
    ReadsAsItem (constant value).chars (constant value) := by
  cases value with
  | true => exact readsAsItem_constantWord (.head _) (by decide)
  | false => exact readsAsItem_constantWord (.tail _ (.head _)) (by decide)

theorem Reads.spacedGroup {t g g' : List Char} {p : Predicate} (h : Reads t p)
    (hg : ∀ c ∈ g, isBlank c = true) (hg' : ∀ c ∈ g', isBlank c = true) :
    ReadsAsItem ('(' :: (g ++ (t ++ (g' ++ [')'])))) p := by
  refine ⟨⟨'(', _, rfl, rfl⟩, fun {inner rest} stop hinner => ?_⟩
  have hskip : skipBlank (g' ++ ')' :: rest) = ')' :: rest := Text.skipBlank_append hg' _
  have hclose : Closes (g' ++ ')' :: rest) :=
    ⟨stops_append hg' (stops_cons rest (by simp)), by simp [hskip]⟩
  have happend : '(' :: (g ++ (t ++ (g' ++ [')']))) ++ rest =
      '(' :: (g ++ (t ++ (g' ++ ')' :: rest))) := by simp
  rw [happend] at hinner ⊢
  have hlength : (t ++ (g' ++ ')' :: rest)).length <
      ('(' :: (g ++ (t ++ (g' ++ ')' :: rest)))).length := by
    simp only [List.length_cons, List.length_append]
    omega
  have hscan : inner (skipBlank (g ++ (t ++ (g' ++ ')' :: rest)))) =
      some (.ok p, g' ++ ')' :: rest) := by
    rw [Text.skipBlank_append hg, Visible.skipBlank_append h.exists_cons, hinner _ hlength,
      h.scan_eq hclose]
  rw [scanNegation_of_none rfl, scanPrimary_open]
  exact scanGroup_eq hscan hskip

theorem Reads.group {t : List Char} {p : Predicate} (h : Reads t p) :
    ReadsAsItem ('(' :: (t ++ [')'])) p :=
  @spacedGroup _ [] [] _ h (by simp) (by simp)

theorem ReadsAsItem.negated {n g t : List Char} {p : Predicate} (h : ReadsAsItem t p)
    (hn : IsWord negationSpellings n) (hg : Gap g) : ReadsAsItem (n ++ (g ++ t)) (not p) := by
  refine ⟨(hn.visible (by decide)).append _, fun {inner rest} stop hinner => ?_⟩
  simp only [List.append_assoc] at hinner ⊢
  have hinner' : Agrees inner (t ++ rest).length := by
    refine hinner.mono ?_
    simp only [List.length_append]
    omega
  have hread : scanNegation inner (skipBlank (g ++ (t ++ rest))) = some (.ok p, rest) := by
    rw [Text.skipBlank_append hg.all_blank, Visible.skipBlank_append h.exists_cons,
      h.scan_eq stop hinner']
  exact scanNegation_of_some (afterNot_append hn (hg.stops _)) hread

theorem ReadsAsItem.not {t : List Char} {p : Predicate} (h : ReadsAsItem t p) :
    ReadsAsItem ("NOT ".toList ++ t) (not p) :=
  h.negated (n := "NOT".toList) (by decide) Text.gap_space

/-! ### Items with a connective between them -/

end Predicate

/-- What may stand between two operands: a connective, however it is written, and blanks around
it. -/
inductive Connective.Between (kind : Connective) : List Char → Prop
  | mk {g w g' : List Char} : Gap g → IsWord kind.spellings w → Gap g' →
      Between kind (g ++ (w ++ g'))

/-- What the canonical text has between two operands. -/
def Connective.separator (kind : Connective) : List Char := ' ' :: (kind.word ++ [' '])

theorem Connective.join_eq (kind : Connective) (ts : List (List Char)) :
    kind.join ts = kind.separator.intercalate ts := rfl

theorem Connective.between_separator (kind : Connective) : kind.Between kind.separator :=
  .mk Text.gap_space (by cases kind <;> decide) Text.gap_space

namespace Predicate

/-- What may follow an operand of OR: a part that does not go on with AND. -/
def FollowsOperand (rest : List Char) : Prop := Stops rest ∧ afterAnd (skipBlank rest) = none

end Predicate

namespace Connective.Between

variable {kind : Connective} {separator : List Char}

theorem stops (h : kind.Between separator) (s : List Char) : Stops (separator ++ s) := by
  obtain ⟨hg, -, -⟩ := h
  rw [List.append_assoc]
  exact hg.stops _

theorem separates (h : kind.Between separator) :
    Text.Separates (afterConnective kind) separator := by
  obtain @⟨g, w, g', hg, hw, hg'⟩ := h
  intro s
  refine ⟨g' ++ s, ?_, Text.skipBlank_append hg'.all_blank s⟩
  have hvisible : Visible w := hw.visible (by cases kind <;> decide)
  rw [List.append_assoc, List.append_assoc, Text.skipBlank_append hg.all_blank,
    hvisible.skipBlank_append, afterConnective_append hw (hg'.stops s)]

theorem followsOperand (h : Connective.or.Between separator) (s : List Char) :
    Predicate.FollowsOperand (separator ++ s) := by
  obtain ⟨r, hor, -⟩ := h.separates s
  exact ⟨h.stops s, afterAnd_of_afterOr hor⟩

end Connective.Between

namespace Predicate

/-- A text that is read as an operand of OR: what follows it does not go on with AND. -/
structure ReadsAsConjunction (t : List Char) (p : Predicate) : Prop where
  exists_cons : ∃ c s, t = c :: s ∧ isBlank c = false
  scan_eq : ∀ {inner : Scan Read} {rest : List Char}, FollowsOperand rest →
    Agrees inner (t ++ rest).length → scanConjunction inner (t ++ rest) = some (.ok p, rest)

theorem afterConnective_closes {rest : List Char} (h : Closes rest) (kind : Connective) :
    afterConnective kind (skipBlank rest) = none := by
  cases hskip : skipBlank rest with
  | nil => cases kind <;> rfl
  | cons c s =>
    obtain rfl : c = ')' := h.closed c (by simp [hskip])
    cases kind <;> rfl

section

variable {t : List Char} {p : Predicate} {links : List (List Char × List Char)}
  {ps : List Predicate}

theorem scanJoined_attached {kind : Connective} {item : Scan Read} {follows : List Char → Prop}
    {length : ℕ} {rest : List Char}
    (takes : TakesAll item follows length (t :: links.map Prod.snd) ((p :: ps).map .ok))
    (between : ∀ link ∈ links, kind.Between link.1)
    (hfollows : ∀ link ∈ links, ∀ s, follows (link.1 ++ s)) (hrest : follows rest)
    (ends : afterConnective kind (skipBlank rest) = none)
    (hlength : (t ++ (attached links ++ rest)).length ≤ length) :
    scanJoined kind (afterConnective kind) item (t ++ (attached links ++ rest)) =
      some (.ok (chain kind (p :: ps)), rest) := by
  have hchain := Text.scanChain_attached takes (fun link hlink => (between link hlink).separates)
    hfollows hrest ends hlength
  have hall := mapM_id_eq_ok_iff.2 (rfl : (p :: ps).map (Except.ok : Predicate → Read) = _)
  rw [scanJoined, hchain, Option.map_some, Prod.map_apply, ← List.map_cons, hall]
  rfl

/-- Items with AND between them are an operand of OR. -/
theorem readsAsConjunction_attached
    (items : List.Forall₂ ReadsAsItem (t :: links.map Prod.snd) (p :: ps))
    (between : ∀ link ∈ links, Connective.and.Between link.1) :
    ReadsAsConjunction (t ++ attached links) (chain .and (p :: ps)) := by
  have hfirst := (List.forall₂_cons.1 items).1.exists_cons
  refine ⟨Visible.append hfirst _, fun {inner rest} hrest hinner => ?_⟩
  rw [List.append_assoc] at hinner ⊢
  have htakes : TakesAll (scanNegation inner) Stops (t ++ (attached links ++ rest)).length
      (t :: links.map Prod.snd) ((p :: ps).map .ok) :=
    List.forall₂_map_right_iff.2 <| items.imp fun t p h =>
      ⟨h.exists_cons, fun r stop hlength => h.scan_eq stop (hinner.mono hlength)⟩
  exact scanJoined_attached htakes between (fun link hlink => (between link hlink).stops) hrest.1
    hrest.2 le_rfl

/-- Operands with OR between them are a whole. -/
theorem reads_attached
    (operands : List.Forall₂ ReadsAsConjunction (t :: links.map Prod.snd) (p :: ps))
    (between : ∀ link ∈ links, Connective.or.Between link.1) :
    Reads (t ++ attached links) (chain .or (p :: ps)) := by
  have hfirst := (List.forall₂_cons.1 operands).1.exists_cons
  refine ⟨Visible.append hfirst _, fun {rest} hclose => ?_⟩
  rw [List.append_assoc, scan_eq]
  have htakes : TakesAll (scanConjunction (scanBelow (t ++ (attached links ++ rest)).length))
      FollowsOperand (t ++ (attached links ++ rest)).length (t :: links.map Prod.snd)
      ((p :: ps).map .ok) :=
    List.forall₂_map_right_iff.2 <| operands.imp fun t p h =>
      ⟨h.exists_cons, fun r hr hlength => h.scan_eq hr ((agrees_scanBelow _).mono hlength)⟩
  exact scanJoined_attached htakes between (fun link hlink => (between link hlink).followsOperand)
    ⟨hclose.stops, afterConnective_closes hclose .and⟩ (afterConnective_closes hclose .or) le_rfl

theorem ReadsAsItem.readsAsConjunction (h : ReadsAsItem t p) : ReadsAsConjunction t p := by
  have := @readsAsConjunction_attached t p [] [] (.cons h .nil) (by simp)
  simpa [attached] using this

theorem ReadsAsConjunction.reads (h : ReadsAsConjunction t p) : Reads t p := by
  have := @reads_attached t p [] [] (.cons h .nil) (by simp)
  simpa [attached] using this

theorem ReadsAsItem.reads (h : ReadsAsItem t p) : Reads t p := h.readsAsConjunction.reads

end

/-- Items with one connective between them are a whole; one item alone is a whole with either. -/
theorem reads_join (kind : Connective) {ts : List (List Char)} {ps : List Predicate}
    (hne : ts ≠ []) (items : List.Forall₂ ReadsAsItem ts ps) :
    Reads (kind.join ts) (chain kind ps) := by
  obtain - | @⟨t, p, ts, ps, ht, hts⟩ := items
  · exact absurd rfl hne
  have hsnd : (ts.map (kind.separator, ·)).map Prod.snd = ts := by simp [Function.comp_def]
  have items : List.Forall₂ ReadsAsItem (t :: (ts.map (kind.separator, ·)).map Prod.snd)
      (p :: ps) := by rw [hsnd]; exact .cons ht hts
  have between : ∀ link ∈ ts.map (kind.separator, ·), kind.Between link.1 := by
    simpa using fun _ _ => kind.between_separator
  rw [kind.join_eq, Text.intercalate_cons, Text.linked_eq_attached]
  cases kind with
  | and => exact (readsAsConjunction_attached items between).reads
  | or => exact reads_attached (items.imp fun _ _ => ReadsAsItem.readsAsConjunction) between

/-- A whole is read as a format, with blanks around it. -/
theorem Reads.parse_spaced {g t g' : List Char} {p : Predicate} (h : Reads t p)
    (hg : ∀ c ∈ g, isBlank c = true) (hg' : ∀ c ∈ g', isBlank c = true) :
    parse (String.ofList (g ++ (t ++ g'))) = .ok p := by
  have hskip : skipBlank g' = [] := by simpa using Text.skipBlank_append hg' []
  have hclose : Closes g' := ⟨by simpa using stops_append hg' stops_nil, by simp [hskip]⟩
  simp only [parse, String.toList_ofList, Text.skipBlank_append hg,
    Visible.skipBlank_append h.exists_cons, h.scan_eq hclose, hskip, if_true]

theorem Reads.parse_eq {t : List Char} {p : Predicate} (h : Reads t p) :
    parse (String.ofList t) = .ok p := by
  simpa using @parse_spaced [] t [] p h (by simp) (by simp)

end Predicate

end RecordQuery
