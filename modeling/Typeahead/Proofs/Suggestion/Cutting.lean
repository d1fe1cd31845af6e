import Typeahead.Proofs.Suggestion.Target

/-!
# Where a path argument is cut

A path argument is cut behind its last slash.  What is put before a slash changes nothing behind it,
and a double quote around the argument changes neither of the two parts.

## Main definitions

* `Target.closing` — the double quote at the end of a text.
* `Target.Divides` — the three parts of an argument.
* `Target.later` — a target one character farther on.

## Main results

* `Target.skip_split_le` — what stands before the name is a part of its argument.
* `Target.divides_split` — **an argument is what is passed over, the name being typed and perhaps a
  double quote.**
* `Target.splitBehind_append` — what stands before a slash names more of the directory.
* `Target.resolve_opened`, `Target.resolve_enclosed` — **double quotes around an argument make no
  difference** but for the one that is passed over.
-/

namespace Typeahead

namespace Target

variable {p : Platform} {c : Char} {t u : Text} {n : Nat}

/-! ### Behind the last separator -/

theorem cut_cons (p : Platform) (c : Char) (t : Text) :
    cut p (c :: t) = if 0 < cut p t then cut p t + 1 else if p.isSeparator c then 1 else 0 := by
  cases hlast : Text.lastIndexWhere p.isSeparator t with
  | some i =>
    have hcons : Text.lastIndexWhere p.isSeparator (c :: t) = some (i + 1) := by
      simp only [Text.lastIndexWhere, hlast]
    simp only [cut, hcons, hlast, Nat.zero_lt_succ, if_true]
  | none =>
    have hcons : Text.lastIndexWhere p.isSeparator (c :: t) =
        if p.isSeparator c then some 0 else none := by
      simp only [Text.lastIndexWhere, hlast]
    simp only [cut, hcons, hlast, Nat.lt_irrefl, if_false]
    cases p.isSeparator c <;> rfl

/-- No separator stands behind the last one. -/
theorem isSeparator_of_mem_drop_cut (h : c ∈ t.drop (cut p t)) : p.isSeparator c = false := by
  induction t with
  | nil => cases h
  | cons d t ih =>
    rw [cut_cons] at h
    split at h
    · exact ih h
    next hnone =>
      rw [Nat.eq_zero_of_not_pos hnone, List.drop_zero] at ih
      split at h
      · exact ih h
      next hd =>
        rcases List.mem_cons.mp h with rfl | h
        · exact eq_false_of_ne_true hd
        · exact ih h

/-- What stands before a separator does not matter for the last one. -/
theorem cut_append (hc : p.isSeparator c = true) (t u : Text) :
    cut p (t ++ c :: u) = t.length + 1 + cut p u := by
  induction t with
  | nil =>
    rw [List.nil_append, cut_cons, if_pos hc, List.length_nil]
    split <;> omega
  | cons d t ih =>
    rw [List.cons_append, cut_cons, ih, if_pos (by omega), List.length_cons]
    omega

/-- What stands before the place where a text is cut ends in a separator, if there is anything. -/
theorem getLast?_take_cut (p : Platform) (t : Text) :
    t.take (cut p t) = [] ∨
      ∃ c, (t.take (cut p t)).getLast? = some c ∧ p.isSeparator c = true := by
  -- By induction on the text; the last separator is that of the rest if it has one.
  induction t with
  | nil => exact .inl (List.take_nil)
  | cons d t ih =>
    rw [cut_cons]
    split
    next hsome =>
      rcases ih with hnil | ⟨c, hlast, hc⟩
      · -- The rest of the text is cut behind one of its characters.
        have hlength := congrArg List.length hnil
        rw [List.length_take, Nat.min_eq_left (cut_le p t), List.length_nil] at hlength
        omega
      · refine .inr ⟨c, ?_, hc⟩
        rw [List.take_succ_cons, List.getLast?_cons, hlast]
        rfl
    next =>
      split
      next hd => exact .inr ⟨d, rfl, hd⟩
      next => exact .inl rfl

/-! ### A double quote at the end -/

/-- The double quote at the end of a text, if there is one. -/
def closing (t : Text) : Text := if Text.endsIn '"' t then ['"'] else []

theorem closing_eq (t : Text) : closing t = [] ∨ closing t = ['"'] := by
  unfold closing
  split
  · exact .inr rfl
  · exact .inl rfl

theorem unclosed_append_closing (t : Text) : unclosed t ++ closing t = t := by
  rcases List.eq_nil_or_concat t with rfl | ⟨u, d, rfl⟩
  · rfl
  · rw [List.concat_eq_append, unclosed_concat]
    simp only [closing, Text.endsIn_concat, beq_iff_eq]
    by_cases hd : d = '"'
    · rw [if_pos hd, if_pos hd, hd]
    · rw [if_neg hd, if_neg hd, List.append_nil]

theorem length_unclosed_le (t : Text) : (unclosed t).length ≤ t.length := by
  unfold unclosed
  split
  · rw [List.length_dropLast]
    exact Nat.sub_le _ _
  · exact Nat.le_refl _

/-- Only the end of a text is looked at. -/
theorem unclosed_append_cons (hc : c ≠ '"') (t u : Text) :
    unclosed (t ++ c :: u) = t ++ c :: unclosed u := by
  rcases List.eq_nil_or_concat u with rfl | ⟨v, d, rfl⟩
  · rw [unclosed_concat, if_neg hc, unclosed_nil]
  · rw [List.concat_eq_append, ← List.cons_append, ← List.append_assoc, unclosed_concat,
      unclosed_concat]
    split
    · rfl
    · rw [List.append_assoc, List.cons_append]

theorem unclosed_of_getLast? (h : t.getLast? ≠ some '"') : unclosed t = t := by
  rcases List.eq_nil_or_concat t with rfl | ⟨u, d, rfl⟩
  · rfl
  · rw [List.concat_eq_append, List.getLast?_concat] at h
    rw [List.concat_eq_append, unclosed_concat, if_neg fun hd => h (congrArg some hd)]

/-! ### The parts of an argument -/

/-- **What stands before the name is a part of its argument**, a double quote at the start counted
in. -/
theorem skip_split_le (argument : Text) : (split argument).skip ≤ argument.length := by
  have hcut : ∀ t : Text, cut .posix (unclosed t) ≤ t.length :=
    fun t => Nat.le_trans (cut_le .posix (unclosed t)) (length_unclosed_le t)
  unfold split
  split
  next t =>
    have := hcut t
    simp only [splitBehind, List.length_cons]
    omega
  next =>
    have := hcut argument
    simp only [splitBehind]
    omega

/-- **The three parts of an argument**: what is passed over, the name being typed, in which there is
no slash, and a double quote at the end or nothing. -/
structure Divides (argument : Text) (skip : Nat) (typed closing : Text) : Prop where
  eq : argument = argument.take skip ++ typed ++ closing
  skip_le : skip ≤ argument.length
  noSlash : '/' ∉ typed
  closing : closing = [] ∨ closing = ['"']

theorem slash_not_mem_typed (n : Nat) (t : Text) : '/' ∉ (splitBehind n t).typed := by
  intro h
  have hnone : Platform.posix.isSeparator '/' = false := isSeparator_of_mem_drop_cut h
  cases hnone

/-- **An argument is what is passed over, the name being typed and perhaps a double quote.** -/
theorem divides_split (argument : Text) :
    Divides argument (split argument).skip (split argument).typed
      (closing (argument.drop (split argument).skip)) := by
  refine ⟨?_, skip_split_le argument, ?_, closing_eq _⟩
  · rw [typed_split, List.append_assoc, unclosed_append_closing, List.take_append_drop]
  · unfold split
    split
    · exact slash_not_mem_typed 1 _
    · exact slash_not_mem_typed 0 _

/-- **What stands before a slash names more of the directory**, and the rest is cut as if it stood
alone. -/
theorem splitBehind_append (n : Nat) (t u : Text) :
    splitBehind n (t ++ '/' :: u) =
      { splitBehind (n + t.length + 1) u with
        lead := t ++ '/' :: (splitBehind (n + t.length + 1) u).lead } := by
  have hcut : cut .posix (t ++ '/' :: unclosed u) = t.length + (cut .posix (unclosed u) + 1) := by
    rw [cut_append rfl]
    omega
  simp only [splitBehind, unclosed_append_cons (by decide : '/' ≠ '"'), hcut, Parts.mk.injEq]
  refine ⟨?_, by omega, ?_⟩
  · rw [List.take_length_add_append, List.take_succ_cons]
  · rw [List.drop_length_add_append, List.drop_succ_cons]

/-! ### Double quotes around an argument -/

/-- The parts of an argument with one more character before it. -/
def Parts.later (parts : Parts) : Parts := { parts with skip := parts.skip + 1 }

/-- The target of an argument with one more character before it. -/
def later (target : Target) : Target := { target with skip := target.skip + 1 }

theorem splitBehind_succ (n : Nat) (t : Text) : splitBehind (n + 1) t = (splitBehind n t).later := by
  simp only [splitBehind, Parts.later, Parts.mk.injEq, true_and, and_true]
  omega

theorem splitBehind_closed (h : t.getLast? ≠ some '"') (n : Nat) :
    splitBehind n (t ++ ['"']) = splitBehind n t := by
  simp only [splitBehind, unclosed_concat, if_true, unclosed_of_getLast? h]

theorem split_of_head? (h : t.head? ≠ some '"') : split t = splitBehind 0 t := by
  unfold split
  split
  · exact absurd rfl h
  · rfl

/-- The directory that is found for what names it: itself or, if it is not there, the one above. -/
def found (w : World) (here : Path) (lead : Text) : Except PathFault (Option Path) :=
  (ofParts w here ⟨lead, 0, []⟩).map (Option.map Target.directory)

/-- The directory of a target depends on what names it and on nothing else of the argument. -/
theorem ofParts_eq (w : World) (here : Path) (parts : Parts) :
    ofParts w here parts =
      (found w here parts.lead).map (Option.map (⟨·, parts.skip, parts.typed⟩)) := by
  simp only [found, ofParts]
  generalize directoryOf (Path.ofText w.environment.home) here parts.lead = directory
  cases w.isDirectory directory.toText with
  | error fault => rfl
  | ok there =>
    cases there with
    | true => rfl
    | false =>
      cases w.isDirectory directory.parent.toText with
      | error fault => rfl
      | ok there => cases there <;> rfl

theorem ofParts_later (w : World) (here : Path) (parts : Parts) :
    ofParts w here parts.later = (ofParts w here parts).map (Option.map later) := by
  rw [ofParts_eq, ofParts_eq, Parts.later]
  cases found w here parts.lead with
  | error fault => rfl
  | ok directory => cases directory <;> rfl

variable {w : World} {here : Path}

/-- A double quote before an argument is passed over. -/
theorem resolve_opened (h : t.head? ≠ some '"') :
    resolve w here ('"' :: t) = (resolve w here t).map (Option.map later) := by
  have hsplit : split ('"' :: t) = (split t).later := by
    rw [split_of_head? h]
    exact splitBehind_succ 0 t
  rw [resolve, hsplit, ofParts_later, resolve]

/-- A double quote behind it as well makes no difference to that. -/
theorem resolve_enclosed (h : t.getLast? ≠ some '"') :
    resolve w here ('"' :: (t ++ ['"'])) = resolve w here ('"' :: t) :=
  congrArg (ofParts w here) (splitBehind_closed h 1)

end Target

end Typeahead
