import Mathlib.Algebra.Group.Nat.Even
import Mathlib.Data.List.Chain
import Typeahead.Proofs.Line.Layout

/-!
# How a line divides into its arguments

A line is cut at its unquoted spaces and nothing of it is lost.  That can be said without walking
through the line: the arguments are pieces that, with single spaces between them, give the line
back; each of them but the last leaves no double quote open, for only then the space behind it is a
cut; and none of them has a space that stands outside double quotes, for there it would have been
cut.  There is just one list of pieces of this kind.

## Main definitions

* `Line.quotedAfter` — whether a text leaves its end between double quotes.
* `Line.Whole` — a text that is nowhere cut.
* `Line.Division` — the pieces that a line divides into, told by what they are.
* `Line.laid` — the spans of pieces laid out one behind the other.

## Main results

* `Line.exists_division` — every line divides.
* `Line.division_iff` — **the arguments of a line are its one division.**
* `Line.spans_eq_laid` — the spans are those of the arguments laid out one behind the other.
-/

namespace Typeahead

namespace Line

/-! ### Quotes -/

/-- Whether the place behind a text is between double quotes, by whether the place before it is. -/
def quotedAfter (quoted : Bool) (t : Text) : Bool := quoted ^^ decide (¬ Even (t.count '"'))

@[simp] theorem quotedAfter_nil (quoted : Bool) : quotedAfter quoted [] = quoted := by
  simp [quotedAfter]

/-- A double quote turns the state over. -/
@[simp] theorem quotedAfter_quote (quoted : Bool) (t : Text) :
    quotedAfter quoted ('"' :: t) = quotedAfter (!quoted) t := by
  simp only [quotedAfter, List.count_cons_self, Nat.even_add_one, decide_not, Bool.xor_not,
    Bool.not_xor, Bool.not_not]

/-- Any other character leaves the state as it is. -/
theorem quotedAfter_cons {c : Char} (h : c ≠ '"') (quoted : Bool) (t : Text) :
    quotedAfter quoted (c :: t) = quotedAfter quoted t := by
  simp only [quotedAfter, List.count_cons_of_ne h]

theorem quotedAfter_append (quoted : Bool) (t u : Text) :
    quotedAfter quoted (t ++ u) = quotedAfter (quotedAfter quoted t) u := by
  induction t generalizing quoted with
  | nil => rw [List.nil_append, quotedAfter_nil]
  | cons c t ih =>
    rw [List.cons_append]
    by_cases hc : c = '"'
    · rw [hc, quotedAfter_quote, quotedAfter_quote, ih]
    · rw [quotedAfter_cons hc, quotedAfter_cons hc, ih]

/-- Behind a text that starts unquoted one is quoted if the number of double quotes is odd. -/
theorem quotedAfter_false_iff (t : Text) :
    quotedAfter false t = true ↔ ¬ Even (t.count '"') := by
  simp only [quotedAfter, Bool.false_xor, decide_eq_true_eq]

theorem not_quotedAfter_iff (t : Text) : quotedAfter false t = false ↔ Even (t.count '"') := by
  simp only [quotedAfter, Bool.false_xor, decide_eq_false_iff_not, Classical.not_not]

/-! ### Texts that are nowhere cut -/

/-- A text behind a place that is quoted or not is nowhere cut: every space in it is quoted. -/
def Whole (quoted : Bool) (t : Text) : Prop :=
  ∀ before after, t = before ++ ' ' :: after → quotedAfter quoted before = true

theorem whole_nil (quoted : Bool) : Whole quoted [] := by
  intro before after h
  simp at h

/-- A text is nowhere cut if the space that it may start with is quoted and the rest is not cut. -/
theorem whole_cons_iff {quoted : Bool} {c : Char} {t : Text} :
    Whole quoted (c :: t) ↔ (c = ' ' → quoted = true) ∧ Whole (quotedAfter quoted [c]) t := by
  constructor
  · intro h
    refine ⟨?_, ?_⟩
    · rintro rfl
      simpa using h [] t rfl
    · rintro before after rfl
      have hwhole := h (c :: before) after rfl
      rwa [show c :: before = [c] ++ before from rfl, quotedAfter_append] at hwhole
  · rintro ⟨hfirst, hrest⟩ before after h
    cases before with
    | nil =>
      cases h
      rw [quotedAfter_nil]
      exact hfirst rfl
    | cons first before =>
      cases h
      rw [show c :: before = [c] ++ before from rfl, quotedAfter_append]
      exact hrest before after rfl

theorem whole_append_iff {quoted : Bool} {t u : Text} :
    Whole quoted (t ++ u) ↔ Whole quoted t ∧ Whole (quotedAfter quoted t) u := by
  induction t generalizing quoted with
  | nil => simp [whole_nil]
  | cons c t ih =>
    have happend : quotedAfter (quotedAfter quoted [c]) t = quotedAfter quoted (c :: t) := by
      rw [← quotedAfter_append]
      rfl
    rw [List.cons_append, whole_cons_iff, whole_cons_iff, ih, happend, and_assoc]

/-- A text without a space is nowhere cut. -/
theorem whole_of_not_mem {t : Text} (h : ' ' ∉ t) (quoted : Bool) : Whole quoted t := by
  rintro before after rfl
  exact absurd (List.mem_append_right before List.mem_cons_self) h

/-- Every text is cut nowhere, or it has a first cut. -/
theorem whole_or_cut (quoted : Bool) (t : Text) :
    Whole quoted t ∨ ∃ piece rest, t = piece ++ ' ' :: rest ∧ Whole quoted piece ∧
      quotedAfter quoted piece = false := by
  -- By induction on the text, with the state of the quotes in front of it as what changes.
  induction t generalizing quoted with
  | nil => exact Or.inl (whole_nil quoted)
  | cons c t ih =>
    by_cases hcut : c = ' ' ∧ quoted = false
    · obtain ⟨rfl, rfl⟩ := hcut
      exact Or.inr ⟨[], t, rfl, whole_nil false, rfl⟩
    · have hfirst : c = ' ' → quoted = true := by
        intro hc
        cases quoted with
        | true => rfl
        | false => exact absurd ⟨hc, rfl⟩ hcut
      rcases ih (quotedAfter quoted [c]) with hwhole | ⟨piece, rest, rfl, hwhole, hopen⟩
      · exact Or.inl (whole_cons_iff.mpr ⟨hfirst, hwhole⟩)
      · refine Or.inr ⟨c :: piece, rest, rfl, whole_cons_iff.mpr ⟨hfirst, hwhole⟩, ?_⟩
        rwa [← quotedAfter_append] at hopen

/-- Walking through a text that is nowhere cut, one stays in the argument that one is in. -/
theorem spansFrom_append {quoted : Bool} {piece : Text} (h : Whole quoted piece)
    (here start : Nat) (t : Text) :
    spansFrom here start quoted (piece ++ t) =
      spansFrom (here + piece.length) start (quotedAfter quoted piece) t := by
  induction piece generalizing here quoted with
  | nil => rw [quotedAfter_nil]; rfl
  | cons c piece ih =>
    obtain ⟨hfirst, hrest⟩ := whole_cons_iff.mp h
    have hlength : here + (c :: piece).length = here + 1 + piece.length := by
      rw [List.length_cons]
      omega
    rw [List.cons_append, hlength]
    by_cases hc : c = '"'
    · subst hc
      rw [quotedAfter_quote, quotedAfter_nil] at hrest
      rw [quotedAfter_quote, ← ih hrest]
      exact if_pos rfl
    · rw [quotedAfter_cons hc, quotedAfter_nil] at hrest
      rw [quotedAfter_cons hc, ← ih hrest]
      -- A space is quoted here, so it is a character like any other.
      have hstay : (decide (c = ' ') && !quoted) = false := by
        by_cases hspace : c = ' '
        · simp [hfirst hspace]
        · simp [hspace]
      simp only [spansFrom, hc, hstay, if_false, Bool.false_eq_true]

/-! ### Divisions -/

/-- **The pieces that a line divides into**: they give the line back, none but the last leaves a
double quote open, and none of them has a space outside double quotes. -/
structure Division (t : Text) (pieces : List Text) : Prop where
  ne_nil : pieces ≠ []
  join : Text.join ' ' pieces = t
  closed : ∀ piece ∈ pieces.dropLast, Even (piece.count '"')
  whole : ∀ piece ∈ pieces, ∀ before after, piece = before ++ ' ' :: after →
    ¬ Even (before.count '"')

variable {t : Text} {pieces : List Text}

theorem whole_false_iff : Whole false t ↔
    ∀ before after, t = before ++ ' ' :: after → ¬ Even (before.count '"') := by
  simp only [Whole, quotedAfter_false_iff]

theorem Division.singleton (h : Whole false t) : Division t [t] := by
  refine ⟨List.cons_ne_nil t [], rfl, ?_, ?_⟩
  · intro piece hpiece
    simp at hpiece
  · intro piece hpiece
    rw [List.mem_singleton.mp hpiece]
    exact whole_false_iff.mp h

theorem Division.cons {piece : Text} (h : Division t pieces) (hwhole : Whole false piece)
    (hclosed : Even (piece.count '"')) : Division (piece ++ ' ' :: t) (piece :: pieces) := by
  refine ⟨List.cons_ne_nil piece pieces, ?_, ?_, ?_⟩
  · rw [Text.join_cons h.ne_nil, h.join]
  · rw [List.dropLast_cons_of_ne_nil h.ne_nil, List.forall_mem_cons]
    exact ⟨hclosed, h.closed⟩
  · rw [List.forall_mem_cons]
    exact ⟨whole_false_iff.mp hwhole, h.whole⟩

/-- **Every line divides**: at its first cut, and then the rest of it does. -/
theorem exists_division (t : Text) : ∃ pieces, Division t pieces := by
  -- The first piece is cut off, and the rest is shorter.
  rcases whole_or_cut false t with hwhole | ⟨piece, rest, rfl, hwhole, hopen⟩
  · exact ⟨[t], .singleton hwhole⟩
  · obtain ⟨pieces, hrest⟩ := exists_division rest
    exact ⟨piece :: pieces, hrest.cons hwhole ((not_quotedAfter_iff piece).mp hopen)⟩
termination_by t.length
decreasing_by
  rename_i heq _
  rw [heq, List.length_append, List.length_cons]
  omega

/-! ### Pieces laid out one behind the other -/

/-- The spans of pieces with single spaces between them, the first of which starts at `here`. -/
def laid (here : Nat) : List Text → List Span
  | [] => []
  | piece :: rest => ⟨here, here + piece.length⟩ :: laid (here + piece.length + 1) rest

/-- The spans of a line that divides are those of its pieces. -/
theorem spansFrom_join (hne : pieces ≠ [])
    (hclosed : ∀ piece ∈ pieces.dropLast, Even (piece.count '"'))
    (hwhole : ∀ piece ∈ pieces, Whole false piece) (here : Nat) :
    spansFrom here here false (Text.join ' ' pieces) = laid here pieces := by
  induction pieces generalizing here with
  | nil => exact absurd rfl hne
  | cons piece rest ih =>
    obtain ⟨hpiece, hrest⟩ := List.forall_mem_cons.mp hwhole
    by_cases hlast : rest = []
    · subst hlast
      have hwalk := spansFrom_append hpiece here here []
      rw [List.append_nil] at hwalk
      rw [Text.join_singleton, hwalk]
      rfl
    · rw [List.dropLast_cons_of_ne_nil hlast, List.forall_mem_cons] at hclosed
      rw [Text.join_cons hlast, spansFrom_append hpiece here here,
        (not_quotedAfter_iff piece).mpr hclosed.1]
      -- The space between two pieces is a cut, since the first of them leaves no quote open.
      simp only [spansFrom, laid, Char.reduceEq, if_false, decide_true, Bool.not_false,
        Bool.and_true, if_true]
      rw [ih hlast hclosed.2 hrest]

/-- The texts of the spans are the pieces that were laid out. -/
theorem map_of_laid (before : Text) (pieces : List Text) :
    (laid before.length pieces).map (fun span => span.of (before ++ Text.join ' ' pieces)) =
      pieces := by
  induction pieces generalizing before with
  | nil => rfl
  | cons piece rest ih =>
    have hfirst : ∀ behind : Text,
        Span.of ⟨before.length, before.length + piece.length⟩ (before ++ (piece ++ behind)) =
          piece := by
      intro behind
      simp [Span.of, Text.between, ← List.append_assoc, ← List.length_append]
    by_cases hlast : rest = []
    · subst hlast
      have := hfirst []
      rw [List.append_nil] at this
      simp only [laid, Text.join_singleton, List.map_cons, List.map_nil, this]
    · rw [Text.join_cons hlast]
      simp only [laid, List.map_cons, hfirst]
      -- Behind the first piece and its space the others are laid out.
      have hlength : before.length + piece.length + 1 = (before ++ piece ++ [' ']).length := by
        simp only [List.length_append, List.length_singleton]
      have hrest : before ++ (piece ++ ' ' :: Text.join ' ' rest) =
          before ++ piece ++ [' '] ++ Text.join ' ' rest := by
        simp only [List.append_assoc, List.singleton_append]
      rw [hlength, hrest, ih]

/-- Every piece starts one place behind the end of the one before it. -/
theorem isChain_laid (here : Nat) (pieces : List Text) :
    (laid here pieces).IsChain fun span next => next.start = span.stop + 1 := by
  induction pieces generalizing here with
  | nil => exact .nil
  | cons piece rest ih =>
    cases rest with
    | nil => exact .singleton _
    | cons next rest => exact .cons_cons rfl (ih _)

/-! ### The arguments of a line -/

theorem Division.spans_eq (h : Division t pieces) (hne : t ≠ []) : spans t = laid 0 pieces := by
  have hwhole : ∀ piece ∈ pieces, Whole false piece :=
    fun piece hpiece => whole_false_iff.mpr (h.whole piece hpiece)
  rw [spans, if_neg hne, ← h.join]
  exact spansFrom_join h.ne_nil h.closed hwhole 0

theorem Division.arguments_eq (h : Division t pieces) (hne : t ≠ []) : arguments t = pieces := by
  have hmap := map_of_laid [] pieces
  rw [List.nil_append, h.join] at hmap
  rw [arguments, h.spans_eq hne]
  exact hmap

/-- **The arguments of a line are its one division.** -/
theorem division_iff (hne : t ≠ []) : Division t pieces ↔ pieces = arguments t := by
  constructor
  · intro h
    exact (h.arguments_eq hne).symm
  · rintro rfl
    obtain ⟨pieces, h⟩ := exists_division t
    rw [h.arguments_eq hne]
    exact h

theorem division_arguments (hne : t ≠ []) : Division t (arguments t) := (division_iff hne).mpr rfl

/-- The arguments of a line with single spaces between them are the line, an empty one too. -/
theorem join_arguments (t : Text) : Text.join ' ' (arguments t) = t := by
  by_cases hne : t = []
  · rw [hne]
    rfl
  · exact (division_arguments hne).join

/-- The spans of a line are those of its arguments laid out one behind the other. -/
theorem spans_eq_laid (hne : t ≠ []) : spans t = laid 0 (arguments t) :=
  (division_arguments hne).spans_eq hne

theorem head?_start_spans (hne : t ≠ []) : (spans t).head?.map Span.start = some 0 := by
  have hpieces := (division_arguments hne).ne_nil
  rw [spans_eq_laid hne]
  cases hcases : arguments t with
  | nil => exact absurd hcases hpieces
  | cons piece rest => rfl

theorem getLast?_stop_spans (hne : t ≠ []) :
    (spans t).getLast?.map Span.stop = some t.length := by
  rw [← List.getLast?_map, stops_eq hne, List.getLast?_concat]

end Line

end Typeahead
