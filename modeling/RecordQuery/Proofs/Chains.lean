import Mathlib.Data.List.Forall2
import RecordQuery.Text.Scan

/-! Written items with a separator between them are scanned as the items. The scanner of one item
is only asked to take items off the front where something follows that may follow them, and where
the text is not too long, so that it may be a scanner that looks no further than that. -/

namespace RecordQuery.Text

/-- Texts that begin with a character that is not skipped. -/
def Visible (t : List Char) : Prop := ∃ c s, t = c :: s ∧ isBlank c = false

theorem Visible.skipBlank_append {t : List Char} (h : Visible t) (rest : List Char) :
    skipBlank (t ++ rest) = t ++ rest := by
  obtain ⟨c, s, rfl, hc⟩ := h
  exact skipBlank_of_not_blank hc

theorem Visible.append {t : List Char} (h : Visible t) (rest : List Char) :
    Visible (t ++ rest) := by
  obtain ⟨c, s, rfl, hc⟩ := h
  exact ⟨c, s ++ rest, rfl, hc⟩

theorem skipBlank_append {g : List Char} (h : ∀ c ∈ g, isBlank c = true) (s : List Char) :
    skipBlank (g ++ s) = skipBlank s :=
  List.dropWhile_append_of_pos h

/-- Blanks, at least one. -/
structure Gap (g : List Char) : Prop where
  ne_nil : g ≠ []
  all_blank : ∀ c ∈ g, isBlank c = true

theorem gap_singleton {c : Char} (h : isBlank c = true) : Gap [c] :=
  ⟨List.cons_ne_nil _ _, by simpa using h⟩

theorem gap_space : Gap [' '] := gap_singleton rfl

/-- Written items, each behind a separator of its own. -/
def attached (links : List (List Char × List Char)) : List Char :=
  links.flatMap fun link => link.1 ++ link.2

/-- Written items, each behind the same separator. -/
def linked (separator : List Char) (ts : List (List Char)) : List Char :=
  ts.flatMap (separator ++ ·)

theorem linked_eq_attached (separator : List Char) (ts : List (List Char)) :
    linked separator ts = attached (ts.map (separator, ·)) := by
  simp [linked, attached, List.flatMap_map]

theorem intercalate_cons (separator t : List Char) (ts : List (List Char)) :
    separator.intercalate (t :: ts) = t ++ linked separator ts := by
  induction ts generalizing t with
  | nil => simp [linked]
  | cons u us ih =>
    rw [List.intercalate_cons_cons, ih]
    simp [linked]

/-- A separator that a scanner of signs takes off the front, up to blanks. -/
def Separates (sign : List Char → Option (List Char)) (separator : List Char) : Prop :=
  ∀ s, ∃ r, sign (skipBlank (separator ++ s)) = some r ∧ skipBlank r = skipBlank s

variable {α : Type}

/-- Texts each of which an item scanner takes off the front of not too long a text, if what follows
is admissible. -/
def TakesAll (item : Scan α) (follows : List Char → Prop) (length : ℕ) (ts : List (List Char))
    (found : List α) : Prop :=
  List.Forall₂ (fun t a => Visible t ∧ ∀ rest, follows rest → (t ++ rest).length ≤ length →
    item (t ++ rest) = some (a, rest)) ts found

section

variable {sign : List Char → Option (List Char)} {item : Scan α} {follows : List Char → Prop}
  {length : ℕ} {rest : List Char}

section

variable {links : List (List Char × List Char)} {found : List α}

theorem follows_attached (between : ∀ link ∈ links, ∀ s, follows (link.1 ++ s))
    (hrest : follows rest) : follows (attached links ++ rest) := by
  cases links with
  | nil => exact hrest
  | cons link links =>
    have := between link (by simp) (link.2 ++ (attached links ++ rest))
    simpa [attached] using this

theorem scanLinks_attached (takes : TakesAll item follows length (links.map Prod.snd) found)
    (separates : ∀ link ∈ links, Separates sign link.1)
    (between : ∀ link ∈ links, ∀ s, follows (link.1 ++ s)) (hrest : follows rest)
    (ends : sign (skipBlank rest) = none) (hlength : (attached links ++ rest).length ≤ length) :
    scanLinks sign item (attached links ++ rest) = (found, rest) := by
  induction links generalizing found with
  | nil =>
    obtain rfl := List.forall₂_nil_left_iff.1 takes
    rw [scanLinks]
    simp [attached, ends]
  | cons link links ih =>
    obtain ⟨separator, t⟩ := link
    obtain ⟨a, found, ⟨⟨c, s, rfl, hc⟩, htake⟩, hmore, rfl⟩ := List.forall₂_cons_left_iff.1 takes
    have happend : attached ((separator, c :: s) :: links) ++ rest =
        separator ++ (c :: s ++ (attached links ++ rest)) := by simp [attached]
    have hbetween := fun l hl => between l (List.mem_cons_of_mem _ hl)
    have hfollows := follows_attached hbetween hrest
    rw [happend] at hlength ⊢
    obtain ⟨r, hsign, hskip⟩ := separates (separator, c :: s) (by simp)
      (c :: s ++ (attached links ++ rest))
    rw [List.cons_append, skipBlank_of_not_blank hc, ← List.cons_append] at hskip
    simp only [List.length_cons, List.length_append] at hlength
    have hitem := htake _ hfollows (by simp only [List.length_append, List.length_cons]; omega)
    have hmore := ih hmore (fun l hl => separates l (List.mem_cons_of_mem _ hl)) hbetween
      (by simp only [List.length_append]; omega)
    rw [scanLinks, hsign]
    simp only [hskip, hitem, hmore]
    rw [if_pos (by simp only [List.length_cons, List.length_append]; omega)]

theorem scanChain_attached {t : List Char} {a : α}
    (takes : TakesAll item follows length (t :: links.map Prod.snd) (a :: found))
    (separates : ∀ link ∈ links, Separates sign link.1)
    (between : ∀ link ∈ links, ∀ s, follows (link.1 ++ s)) (hrest : follows rest)
    (ends : sign (skipBlank rest) = none)
    (hlength : (t ++ (attached links ++ rest)).length ≤ length) :
    scanChain sign item (t ++ (attached links ++ rest)) = some (a :: found, rest) := by
  obtain ⟨⟨-, htake⟩, hmore⟩ := List.forall₂_cons.1 takes
  have hfirst := htake _ (follows_attached between hrest) hlength
  have hlinks := scanLinks_attached hmore separates between hrest ends
    (by simp only [List.length_append] at hlength ⊢; omega)
  simp only [scanChain, hfirst, hlinks, Option.bind_eq_bind, Option.bind_some]
  rfl

end

theorem scanChain_intercalate {separator t : List Char} {a : α} {ts : List (List Char)}
    {found : List α} (takes : TakesAll item follows length (t :: ts) (a :: found))
    (separates : Separates sign separator) (between : ∀ s, follows (separator ++ s))
    (hrest : follows rest) (ends : sign (skipBlank rest) = none)
    (hlength : (separator.intercalate (t :: ts) ++ rest).length ≤ length) :
    scanChain sign item (separator.intercalate (t :: ts) ++ rest) = some (a :: found, rest) := by
  have hsnd : (ts.map (separator, ·)).map Prod.snd = ts := by simp [Function.comp_def]
  rw [intercalate_cons, linked_eq_attached, List.append_assoc] at hlength ⊢
  exact scanChain_attached (by rwa [hsnd]) (by simpa using fun _ _ => separates)
    (by simpa using fun _ _ => between) hrest ends hlength

end

end RecordQuery.Text
