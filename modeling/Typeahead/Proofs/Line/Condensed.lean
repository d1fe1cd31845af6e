import Typeahead.Line.Command
import Typeahead.Proofs.Line.Division

/-!
# A line without superfluous spaces

Without a grammar a line is run as its non-empty arguments with single spaces between them.  That
line divides into just these arguments: an argument that was not the last leaves no double quote
open, so that the space behind it is a cut, wherever it stands now.  Hence the line that is run is a
normal form; only unquoted spaces are missing in it, and it is run as it is.

## Main definitions

* `Line.condensed` — a line without superfluous spaces.
* `Line.uncut` — what is left of a line without the spaces at which it is cut.

## Main results

* `Line.Division.sublist` — some of the pieces of a line divide the line that they make.
* `Line.uncut_eq_flatten` — all that is lost of a line are the cuts between its arguments.
* `Command.ofReadings_condensed` — **the command of a line without a grammar is its normal form.**
-/

namespace Typeahead

namespace Line

/-- A line with single spaces between its non-empty arguments. -/
def condensed (t : Text) : Text := Text.join ' ' ((arguments t).filter (· ≠ []))

/-- The rest of a line without the spaces at which it is cut. -/
def uncutFrom (quoted : Bool) : Text → Text
  | [] => []
  | c :: t =>
    if c = '"' then c :: uncutFrom (!quoted) t
    else if c = ' ' && !quoted then uncutFrom quoted t
    else c :: uncutFrom quoted t

/-- A line without the spaces at which it is cut; those between double quotes stay. -/
def uncut (t : Text) : Text := uncutFrom false t

variable {t : Text} {pieces : List Text}

/-! ### Some of the pieces of a line -/

theorem dropLast_sublist_dropLast {α : Type} {l l' : List α} (h : l.Sublist l') :
    l.dropLast.Sublist l'.dropLast := by
  rw [← l.reverse_reverse, ← l'.reverse_reverse, List.dropLast_reverse, List.dropLast_reverse]
  exact h.reverse.tail.reverse

/-- **Some of the pieces of a line divide the line that they make**, whichever are left out. -/
theorem Division.sublist {kept : List Text} (h : Division t pieces) (hkept : kept.Sublist pieces)
    (hne : kept ≠ []) : Division (Text.join ' ' kept) kept := by
  refine ⟨hne, rfl, ?_, ?_⟩
  · intro piece hpiece
    exact h.closed piece ((dropLast_sublist_dropLast hkept).subset hpiece)
  · intro piece hpiece
    exact h.whole piece (hkept.subset hpiece)

theorem arguments_nil : arguments [] = [] := rfl

/-- The line without superfluous spaces has the non-empty arguments of the line and no other. -/
theorem arguments_condensed (t : Text) :
    arguments (condensed t) = (arguments t).filter (· ≠ []) := by
  by_cases hnil : (arguments t).filter (· ≠ []) = []
  · rw [condensed, hnil, Text.join_nil, arguments_nil]
  · have hne : t ≠ [] := by
      rintro rfl
      exact hnil rfl
    have hdivision : Division (condensed t) ((arguments t).filter (· ≠ [])) :=
      (division_arguments hne).sublist List.filter_sublist hnil
    -- None of the pieces is empty, so neither is what they make.
    have hcondensed : condensed t ≠ [] := by
      obtain ⟨piece, rest, hcons⟩ := List.exists_cons_of_ne_nil hnil
      have hpiece : piece ≠ [] := by
        have hmem : piece ∈ (arguments t).filter (· ≠ []) := hcons ▸ List.mem_cons_self
        exact of_decide_eq_true (List.mem_filter.mp hmem).2
      rw [condensed, hcons]
      cases rest with
      | nil => exact hpiece
      | cons next rest => exact List.append_ne_nil_of_left_ne_nil hpiece _
    exact hdivision.arguments_eq hcondensed

/-- A line without superfluous spaces stays as it is. -/
theorem condensed_condensed (t : Text) : condensed (condensed t) = condensed t := by
  rw [condensed, arguments_condensed, List.filter_filter]
  simp only [Bool.and_self]
  rfl

/-! ### What is lost of a line -/

/-- A text that is nowhere cut is there in full. -/
theorem uncutFrom_append {quoted : Bool} {piece : Text} (h : Whole quoted piece) (t : Text) :
    uncutFrom quoted (piece ++ t) = piece ++ uncutFrom (quotedAfter quoted piece) t := by
  induction piece generalizing quoted with
  | nil => rw [quotedAfter_nil]; rfl
  | cons c piece ih =>
    obtain ⟨hfirst, hrest⟩ := whole_cons_iff.mp h
    rw [List.cons_append, uncutFrom]
    by_cases hc : c = '"'
    · subst hc
      rw [quotedAfter_quote, quotedAfter_nil] at hrest
      rw [if_pos rfl, quotedAfter_quote, ih hrest]
      rfl
    · rw [quotedAfter_cons hc, quotedAfter_nil] at hrest
      -- A space is quoted here, so it stays.
      have hstay : (decide (c = ' ') && !quoted) = false := by
        by_cases hspace : c = ' '
        · simp [hfirst hspace]
        · simp [hspace]
      rw [if_neg hc, hstay, quotedAfter_cons hc, ih hrest]
      rfl

theorem Division.uncut_eq (h : Division t pieces) : uncut t = pieces.flatten := by
  have hwhole : ∀ piece ∈ pieces, Whole false piece :=
    fun piece hpiece => whole_false_iff.mpr (h.whole piece hpiece)
  have hclosed := h.closed
  rw [← h.join]
  clear h
  induction pieces with
  | nil => rfl
  | cons piece rest ih =>
    obtain ⟨hpiece, hrest⟩ := List.forall_mem_cons.mp hwhole
    by_cases hlast : rest = []
    · have hend := uncutFrom_append hpiece []
      rw [List.append_nil, uncutFrom, List.append_nil] at hend
      rw [hlast, Text.join_singleton, uncut, hend, List.flatten_singleton]
    · rw [List.dropLast_cons_of_ne_nil hlast, List.forall_mem_cons] at hclosed
      have hcut : uncutFrom false (' ' :: Text.join ' ' rest) = uncut (Text.join ' ' rest) := rfl
      rw [Text.join_cons hlast, uncut, uncutFrom_append hpiece,
        (not_quotedAfter_iff piece).mpr hclosed.1, hcut, ih hrest hclosed.2, List.flatten_cons]

/-- **All that is lost of a line are the cuts between its arguments.** -/
theorem uncut_eq_flatten (t : Text) : uncut t = (arguments t).flatten := by
  by_cases hne : t = []
  · rw [hne]
    rfl
  · exact (division_arguments hne).uncut_eq

end Line

namespace Command

open Line

/-- **The command of a line without a grammar is its normal form.**  It is the line without
superfluous spaces.  This divides into just the non-empty arguments of the line, in their order, so
that its command is the same once more; and what is missing in it are unquoted spaces only. -/
theorem ofReadings_condensed (t : Text) (readings : List Reading) :
    let c := condensed t
    ofReadings none (arguments t) readings = .ok ⟨c, [], []⟩ ∧
      arguments c = (arguments t).filter (· ≠ []) ∧
      (∀ readings', ofReadings none (arguments c) readings' = .ok ⟨c, [], []⟩) ∧
      uncut c = uncut t := by
  intro c
  refine ⟨rfl, arguments_condensed t, ?_, ?_⟩
  · intro readings'
    change Except.ok (Command.mk (condensed c) [] []) = _
    rw [condensed_condensed]
  · rw [uncut_eq_flatten, uncut_eq_flatten, arguments_condensed]
    exact List.flatten_filter_ne_nil

/-- A quoted space stays, with the double quote that is never closed, and three others go. -/
example : condensed [' ', 'a', '"', ' ', '"', ' ', ' ', '"', 'b', ' '] =
    ['a', '"', ' ', '"', ' ', '"', 'b', ' '] := by decide

end Command

end Typeahead
