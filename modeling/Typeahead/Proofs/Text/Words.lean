import Typeahead.Text.Blank

/-!
# Cutting a text

A text is cut at its blanks into words, and at the first occurrence of a mark into what stands
before it and what stands behind.  Texts that are glued together are cut where they were glued.

## Main results

* `Text.words_append_cons` — **the words of a text around a blank are those before it and those
  behind it.**
* `Text.words_of_forall` — a text without blanks is one word.
* `Text.join_append` — pieces are joined by joining the first ones and the others.
* `Text.eq_append_of_partition?` — what a text is cut into gives it back.
* `Text.partition?_append`, `Text.partition?_eq_none` — where two full stops are found.
-/

namespace Typeahead

namespace Text

variable {c : Char} {t u w : Text}

/-! ### Words -/

/-- A blank at the start of a text belongs to no word. -/
theorem words_cons_blank (hc : isBlank c = true) (t : Text) : words (c :: t) = words t := by
  cases t with
  | nil => exact if_pos hc
  | cons d t => exact if_pos hc

/-- A text that does not start with a blank has a first word, which a character put before the text
goes on with. -/
theorem exists_words_cons (hc : isBlank c = false) (t : Text) :
    ∃ word rest, words (c :: t) = (c :: word) :: rest := by
  cases t with
  | nil => exact ⟨[], [], by rw [words, hc]; rfl⟩
  | cons d t =>
    rw [words, hc]
    simp only [Bool.false_eq_true, if_false]
    split
    · exact ⟨[], _, rfl⟩
    · split
      · exact ⟨[], [], rfl⟩
      next word rest _ => exact ⟨word, rest, rfl⟩

/-- **The words of a text around a blank are those before it and those behind it.** -/
theorem words_append_cons (hc : isBlank c = true) (t u : Text) :
    words (t ++ c :: u) = words t ++ words u := by
  induction t with
  | nil => exact words_cons_blank hc u
  | cons d t ih =>
    by_cases hd : isBlank d = true
    · rw [List.cons_append, words_cons_blank hd, words_cons_blank hd, ih]
    · rw [Bool.not_eq_true] at hd
      cases t with
      | nil =>
        -- The blank ends the word that the one character is.
        simp only [List.cons_append, List.nil_append, words, hd, hc, Bool.false_eq_true, if_false,
          if_true]
        rw [words_cons_blank hc]
      | cons e t =>
        simp only [List.cons_append] at ih
        simp only [List.cons_append, words, hd, Bool.false_eq_true, if_false]
        by_cases he : isBlank e = true
        · rw [if_pos he, if_pos he, ih]
          rfl
        · rw [if_neg he, if_neg he]
          obtain ⟨word, rest, hword⟩ := exists_words_cons (Bool.not_eq_true _ ▸ he) t
          rw [ih, hword]
          rfl

/-- A text without blanks is one word. -/
theorem words_of_forall (hne : w ≠ []) (h : ∀ c ∈ w, isBlank c = false) : words w = [w] := by
  induction w with
  | nil => exact absurd rfl hne
  | cons c w ih =>
    obtain ⟨hc, hrest⟩ := List.forall_mem_cons.mp h
    cases w with
    | nil => rw [words, hc]; rfl
    | cons d w =>
      have hd : isBlank d = false := hrest d List.mem_cons_self
      simp only [words, hc, hd, Bool.false_eq_true, if_false]
      rw [ih (List.cons_ne_nil d w) hrest]

/-! ### Pieces joined -/

/-- Pieces are joined by joining the first ones and the others. -/
theorem join_append {pieces others : List Text} (hpieces : pieces ≠ []) (hothers : others ≠ [])
    (sep : Char) : join sep (pieces ++ others) = join sep pieces ++ sep :: join sep others := by
  induction pieces with
  | nil => exact absurd rfl hpieces
  | cons piece rest ih =>
    by_cases hlast : rest = []
    · rw [hlast, List.singleton_append, join_cons hothers, join_singleton]
    · rw [List.cons_append, join_cons (List.append_ne_nil_of_left_ne_nil hlast others),
        join_cons hlast, ih hlast, List.append_assoc, List.cons_append]

/-! ### What stands before and behind a mark -/

/-- What a text is cut into gives it back. -/
theorem eq_append_of_partition? {mark : Text} {parts : Text × Text}
    (h : partition? mark t = some parts) : t = parts.1 ++ mark ++ parts.2 := by
  induction t generalizing parts with
  | nil =>
    simp only [partition?, Option.ite_none_right_eq_some, Option.some.injEq] at h
    obtain ⟨rfl, rfl⟩ := h
    rfl
  | cons c t ih =>
    rw [partition?] at h
    split at h
    next hmark =>
      cases h
      obtain ⟨rest, hrest⟩ := List.isPrefixOf_iff_prefix.mp hmark
      rw [← hrest, List.drop_left, List.nil_append]
    next =>
      obtain ⟨parts', hparts', rfl⟩ := Option.map_eq_some_iff.mp h
      rw [List.cons_append, List.cons_append, ← ih hparts']

/-- Two full stops are found behind a text without any. -/
theorem partition?_append (ht : '.' ∉ t) (u : Text) :
    partition? ['.', '.'] (t ++ '.' :: '.' :: u) = some (t, u) := by
  induction t with
  | nil => rfl
  | cons c t ih =>
    obtain ⟨hc, hrest⟩ := not_or.mp (mt List.mem_cons.mpr ht)
    have hmark : List.isPrefixOf ['.', '.'] (c :: (t ++ '.' :: '.' :: u)) = false := by
      simp [List.isPrefixOf, hc]
    rw [List.cons_append, partition?, hmark, ih hrest]
    rfl

/-- Two full stops are not found in a text without any. -/
theorem partition?_eq_none (ht : '.' ∉ t) : partition? ['.', '.'] t = none := by
  cases h : partition? ['.', '.'] t with
  | none => rfl
  | some parts =>
    rw [eq_append_of_partition? h] at ht
    simp at ht

end Text

end Typeahead
