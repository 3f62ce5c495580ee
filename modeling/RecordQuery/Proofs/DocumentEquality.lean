import Mathlib.Data.List.Forall2
import Mathlib.Data.List.Perm.Subperm
import RecordQuery.Proofs.Collation
import RecordQuery.Proofs.Representations
import RecordQuery.Record

/-! Equality of documents. Documents that come from a text hold no float that is not a number, and
none of their objects has a name twice. On them equality is an equivalence relation: objects are
compared name by name, whatever the order of their fields, and this at every depth. Equal documents
lead by every path to equal documents or both to none. -/

namespace RecordQuery

theorem lookup_eq_none_iff_not_mem {α : Type} {entries : List (String × α)} {name : String} :
    entries.lookup name = none ↔ name ∉ entries.map Prod.fst := by
  simp only [List.lookup_eq_none_iff, bne_iff_ne, ne_eq, List.mem_map, not_exists, not_and]
  exact forall₂_congr fun _ _ => ne_comm

section

variable {α β : Type} {R : α → β → Prop} {a : α} {o : Option α} {o' : Option β}

theorem eq_none_iff_of_rel (h : Option.Rel R o o') : o = none ↔ o' = none := by
  cases h <;> simp

theorem rel_flip (h : Option.Rel R o o') : Option.Rel (flip R) o' o := by
  cases h with
  | none => exact .none
  | some h => exact .some h

theorem rel_imp_mem {S : α → β → Prop}
    (himp : ∀ a ∈ o, ∀ b ∈ o', R a b → S a b) (h : Option.Rel R o o') : Option.Rel S o o' := by
  cases h with
  | none => exact .none
  | some h => exact .some (himp _ rfl _ rfl h)

theorem forall₂_imp_mem {S : α → β → Prop} {xs : List α} {ys : List β}
    (himp : ∀ a ∈ xs, ∀ b ∈ ys, R a b → S a b) (h : List.Forall₂ R xs ys) :
    List.Forall₂ S xs ys := by
  induction h with
  | nil => exact .nil
  | cons hab _ ih =>
    refine .cons (himp _ (by simp) _ (by simp) hab) (ih fun a ha b hb => ?_)
    exact himp a (List.mem_cons_of_mem _ ha) b (List.mem_cons_of_mem _ hb)

theorem rel_bind {γ δ : Type} {S : γ → δ → Prop} {f : α → Option γ} {g : β → Option δ}
    (h : Option.Rel R o o') (hfg : ∀ a b, R a b → Option.Rel S (f a) (g b)) :
    Option.Rel S (o.bind f) (o'.bind g) := by
  cases h with
  | none => exact .none
  | some h => exact hfg _ _ h

section

variable {γ : Type} {S : β → γ → Prop} {T : α → γ → Prop}

theorem rel_comp_mem {o'' : Option γ} (hcomp : ∀ a ∈ o, ∀ b ∈ o', ∀ c ∈ o'', R a b → S b c → T a c)
    (h : Option.Rel R o o') (h' : Option.Rel S o' o'') : Option.Rel T o o'' := by
  cases h with
  | none =>
    cases h'
    exact .none
  | some h =>
    cases h' with
    | some h' => exact .some (hcomp _ rfl _ rfl _ rfl h h')

theorem forall₂_comp_mem {xs : List α} {ys : List β} {zs : List γ}
    (hcomp : ∀ a ∈ xs, ∀ b ∈ ys, ∀ c ∈ zs, R a b → S b c → T a c)
    (h : List.Forall₂ R xs ys) (h' : List.Forall₂ S ys zs) : List.Forall₂ T xs zs := by
  induction h generalizing zs with
  | nil =>
    cases h'
    exact .nil
  | cons hab _ ih =>
    cases h' with
    | cons hbc h' =>
      refine .cons (hcomp _ (by simp) _ (by simp) _ (by simp) hab hbc) (ih ?_ h')
      exact fun a ha b hb c hc => hcomp a (List.mem_cons_of_mem _ ha) b
        (List.mem_cons_of_mem _ hb) c (List.mem_cons_of_mem _ hc)

end

theorem exists_of_rel_some (h : Option.Rel R (some a) o') : ∃ b, o' = some b ∧ R a b := by
  cases h with
  | some h => exact ⟨_, rfl, h⟩

end

/-- Doubles are equal if they are the same number. -/
theorem Binary64.beq_iff {x y : Binary64} :
    (x == y) = true ↔ x.isNaN = false ∧ y.isNaN = false ∧ x.scaled = y.scaled := by
  show (x.compare y == some .eq) = true ↔ _
  unfold compare
  cases x.isNaN <;> cases y.isNaN <;> simp

namespace Document

/-- Floats are finite, and no object has two fields of one name. -/
inductive Proper : Document → Prop
  | null : Proper null
  | bool {b} : Proper (bool b)
  | integer {n} : Proper (integer n)
  | float {x} : x.isFinite = true → Proper (float x)
  | string {s} : Proper (string s)
  | array {items} : (∀ d ∈ items, Proper d) → Proper (array items)
  | object {fields} : (fields.map Prod.fst).Nodup → (∀ f ∈ fields, Proper f.2) →
      Proper (object fields)

/-- How two equal documents are built. -/
inductive Matches : Document → Document → Prop
  | null : Matches null null
  | bool {b : Bool} : Matches (bool b) (bool b)
  | integer {n : Int} : Matches (integer n) (integer n)
  | float {x y : Binary64} : (x == y) = true → Matches (float x) (float y)
  | string {s : String} : Matches (string s) (string s)
  | array {items items' : List Document} :
      List.Forall₂ (fun d d' => (d == d') = true) items items' →
      Matches (array items) (array items')
  | object {fields fields' : List (String × Document)} : fields.length = fields'.length →
      (∀ f ∈ fields, ∃ d, fields'.lookup f.1 = some d ∧ (f.2 == d) = true) →
      Matches (object fields) (object fields')

variable {a b c : Document} {items items' : List Document}
  {fields fields' : List (String × Document)}

theorem Proper.of_mem (h : (Document.array items).Proper) {d : Document} (hd : d ∈ items) :
    d.Proper := by
  cases h with
  | array hitems => exact hitems d hd

theorem Proper.nodup (h : (Document.object fields).Proper) : (fields.map Prod.fst).Nodup := by
  cases h with
  | object hnames _ => exact hnames

theorem Proper.of_lookup (h : (Document.object fields).Proper) {name : String} {d : Document}
    (hd : fields.lookup name = some d) : d.Proper := by
  cases h with
  | object hnames hfields => exact hfields _ ((lookup_eq_some_iff_mem hnames).1 hd)

/-! ### Equality by constructors -/

theorem beqItems_iff :
    beqItems items items' = true ↔ List.Forall₂ (fun x y => (x == y) = true) items items' := by
  induction items generalizing items' with
  | nil => cases items' <;> simp [beqItems]
  | cons d items ih =>
    cases items' with
    | nil => simp [beqItems]
    | cons d' items' =>
      rw [beqItems, Bool.and_eq_true, List.forall₂_cons, ih]
      rfl

theorem beqFields_iff : beqFields fields fields' = true ↔
    ∀ f ∈ fields, ∃ d, fields'.lookup f.1 = some d ∧ (f.2 == d) = true := by
  induction fields with
  | nil => simp [beqFields]
  | cons f fields ih =>
    rw [beqFields, Bool.and_eq_true, List.forall_mem_cons, ih]
    refine and_congr_left' ?_
    cases fields'.lookup f.1 with
    | none => simp
    | some d =>
      simp only [Option.some.injEq, exists_eq_left']
      rfl

theorem beq_iff_matches : (a == b) = true ↔ Matches a b := by
  constructor
  · intro h
    cases a <;> cases b <;> try exact absurd h Bool.false_ne_true
    case null.null => exact .null
    case bool.bool x y =>
      obtain rfl : x = y := eq_of_beq h
      exact .bool
    case integer.integer m n =>
      obtain rfl : m = n := eq_of_beq h
      exact .integer
    case float.float => exact .float h
    case string.string s t =>
      obtain rfl : s = t := eq_of_beq h
      exact .string
    case array.array => exact .array (beqItems_iff.1 h)
    case object.object fields fields' =>
      have h : (fields.length == fields'.length && beqFields fields fields') = true := h
      rw [Bool.and_eq_true, beq_iff_eq, beqFields_iff] at h
      exact .object h.1 h.2
  · intro h
    cases h with
    | null => rfl
    | @bool b => exact beq_self_eq_true b
    | @integer n => exact beq_self_eq_true n
    | @string s => exact beq_self_eq_true s
    | float h => exact h
    | array h => exact beqItems_iff.2 h
    | object hlength h =>
      exact Bool.and_eq_true_iff.2 ⟨beq_iff_eq.2 hlength, beqFields_iff.2 h⟩

/-! ### Objects name by name -/

theorem names_perm (hnames : (fields.map Prod.fst).Nodup) (hlength : fields.length = fields'.length)
    (h : ∀ f ∈ fields, ∃ d, fields'.lookup f.1 = some d ∧ (f.2 == d) = true) :
    (fields.map Prod.fst).Perm (fields'.map Prod.fst) := by
  -- no name of the first object is missing from the second, and there are no more of them there
  refine (List.subperm_of_subset hnames fun name hname => ?_).perm_of_length_le (by simp [hlength])
  obtain ⟨f, hf, rfl⟩ := List.mem_map.1 hname
  obtain ⟨d, hd, -⟩ := h f hf
  by_contra hmissing
  rw [lookup_eq_none_iff_not_mem.2 hmissing] at hd
  exact absurd hd (by simp)

/-- Objects are equal if each name leads to equal documents or to none in both. -/
theorem object_beq_iff (hnames : (fields.map Prod.fst).Nodup)
    (hnames' : (fields'.map Prod.fst).Nodup) : (object fields == object fields') = true ↔
      ∀ name, Option.Rel (fun d d' => (d == d') = true) (fields.lookup name)
        (fields'.lookup name) := by
  constructor
  · intro h name
    cases beq_iff_matches.1 h with
    | object hlength hfields =>
      cases hd : fields.lookup name with
      | none =>
        have hmissing := lookup_eq_none_iff_not_mem.1 hd
        rw [(names_perm hnames hlength hfields).mem_iff] at hmissing
        rw [lookup_eq_none_iff_not_mem.2 hmissing]
        exact .none
      | some d =>
        obtain ⟨d', hd', hbeq⟩ := hfields (name, d) ((lookup_eq_some_iff_mem hnames).1 hd)
        rw [hd']
        exact .some hbeq
  · intro h
    refine beq_iff_matches.2 (.object ?_ fun f hf => ?_)
    · have hperm : (fields.map Prod.fst).Perm (fields'.map Prod.fst) := by
        refine (List.perm_ext_iff_of_nodup hnames hnames').2 fun name => ?_
        rw [← not_iff_not, ← lookup_eq_none_iff_not_mem, ← lookup_eq_none_iff_not_mem]
        exact eq_none_iff_of_rel (h name)
      simpa using hperm.length_eq
    · have := h f.1
      rw [(lookup_eq_some_iff_mem hnames).2 hf] at this
      exact exists_of_rel_some this

/-! ### Equivalence -/

theorem Proper.beq_self (ha : a.Proper) : (a == a) = true := by
  rw [beq_iff_matches]
  induction ha with
  | null => exact .null
  | bool => exact .bool
  | integer => exact .integer
  | float hx =>
    have hnan := Binary64.isNaN_of_isFinite hx
    exact .float (Binary64.beq_iff.2 ⟨hnan, hnan, rfl⟩)
  | string => exact .string
  | array _ ih => exact .array (List.forall₂_same.2 fun d hd => beq_iff_matches.2 (ih d hd))
  | object hnames _ ih =>
    exact .object rfl fun f hf =>
      ⟨f.2, (lookup_eq_some_iff_mem hnames).2 hf, beq_iff_matches.2 (ih f hf)⟩

theorem Proper.beq_symm (ha : a.Proper) (hb : b.Proper) (h : (a == b) = true) :
    (b == a) = true := by
  induction ha generalizing b with
  | null | bool | integer | string =>
    cases beq_iff_matches.1 h
    exact h
  | float =>
    cases beq_iff_matches.1 h with
    | float hxy =>
      obtain ⟨hx, hy, hscaled⟩ := Binary64.beq_iff.1 hxy
      exact beq_iff_matches.2 (.float (Binary64.beq_iff.2 ⟨hy, hx, hscaled.symm⟩))
  | array _ ih =>
    cases beq_iff_matches.1 h with
    | array hitems =>
      refine beq_iff_matches.2 (.array (List.Forall₂.flip ?_))
      exact forall₂_imp_mem (fun d hd d' hd' heq => ih d hd (hb.of_mem hd') heq) hitems
  | object hnames _ ih =>
    cases beq_iff_matches.1 h with
    | object =>
      rw [object_beq_iff hnames hb.nodup] at h
      rw [object_beq_iff hb.nodup hnames]
      refine fun name => rel_flip (rel_imp_mem (fun d hd d' hd' heq => ?_) (h name))
      exact ih (name, d) ((lookup_eq_some_iff_mem hnames).1 hd) (hb.of_lookup hd') heq

theorem Proper.beq_trans (ha : a.Proper) (hb : b.Proper) (hc : c.Proper) (h : (a == b) = true)
    (h' : (b == c) = true) : (a == c) = true := by
  induction ha generalizing b c with
  | null | bool | integer | string =>
    cases beq_iff_matches.1 h
    exact h'
  | float =>
    cases beq_iff_matches.1 h with
    | float hxy =>
      cases beq_iff_matches.1 h' with
      | float hyz =>
        obtain ⟨hx, -, hscaled⟩ := Binary64.beq_iff.1 hxy
        obtain ⟨-, hz, hscaled'⟩ := Binary64.beq_iff.1 hyz
        exact beq_iff_matches.2 (.float (Binary64.beq_iff.2 ⟨hx, hz, hscaled.trans hscaled'⟩))
  | array _ ih =>
    cases beq_iff_matches.1 h with
    | array hitems =>
      cases beq_iff_matches.1 h' with
      | array hitems' =>
        refine beq_iff_matches.2 (.array ?_)
        refine forall₂_comp_mem (fun d hd d' hd' d'' hd'' heq heq' => ?_) hitems hitems'
        exact ih d hd (hb.of_mem hd') (hc.of_mem hd'') heq heq'
  | object hnames _ ih =>
    cases beq_iff_matches.1 h with
    | object =>
      cases beq_iff_matches.1 h' with
      | object =>
        rw [object_beq_iff hnames hb.nodup] at h
        rw [object_beq_iff hb.nodup hc.nodup] at h'
        rw [object_beq_iff hnames hc.nodup]
        intro name
        refine rel_comp_mem (fun d hd d' hd' d'' hd'' heq heq' => ?_) (h name) (h' name)
        exact ih (name, d) ((lookup_eq_some_iff_mem hnames).1 hd) (hb.of_lookup hd')
          (hc.of_lookup hd'') heq heq'

/-! ### What equal documents lead to -/

/-- Two proper documents that are equal. -/
structure Equal (a b : Document) : Prop where
  left : a.Proper
  right : b.Proper
  beq : (a == b) = true

namespace Equal

theorem field? (h : Equal a b) (name : String) :
    Option.Rel Equal (a.field? name) (b.field? name) := by
  obtain ⟨ha, hb, h⟩ := h
  cases beq_iff_matches.1 h with
  | object =>
    refine rel_imp_mem (fun d hd d' hd' heq => ?_) ((object_beq_iff ha.nodup hb.nodup).1 h name)
    exact ⟨ha.of_lookup hd, hb.of_lookup hd', heq⟩
  | null | bool | integer | float | string | array => exact .none

theorem follow (h : Equal a b) (steps : List String) :
    Option.Rel Equal (a.follow steps) (b.follow steps) := by
  induction steps generalizing a b with
  | nil => exact .some h
  | cons step steps ih =>
    rw [follow_cons, follow_cons]
    exact rel_bind (h.field? step) fun _ _ => ih

end Equal

end Document

/-! ### Proper documents as records -/

/-- A document that is proper. -/
abbrev ProperDocument := {d : Document // d.Proper}

namespace ProperDocument

instance : Record ProperDocument where
  resolve d := Record.resolve d.1

instance : EquivBEq ProperDocument where
  rfl {a} := a.2.beq_self
  symm {a b} h := a.2.beq_symm b.2 h
  trans {a b c} h h' := a.2.beq_trans b.2 c.2 h h'

theorem equal_of_beq {a b : ProperDocument} (h : (a == b) = true) : a.1.Equal b.1 := ⟨a.2, b.2, h⟩

/-- A document and the same one as a proper document. -/
def Is (d : Document) (x : ProperDocument) : Prop := d = x.1

theorem Is.beq_eq {d d' : Document} {x x' : ProperDocument} (h : Is d x) (h' : Is d' x') :
    (d == d') = (x == x') := by
  obtain rfl := h
  obtain rfl := h'
  rfl

end ProperDocument

end RecordQuery
