import Typeahead.Proofs.Line.Parts

/-!
# Grammars that rename nothing

In a grammar without substitutes every name stands for itself.  An argument that is read as a flag
is the name of the flag that it was read as, so that every argument of a line contributes itself to
the command.

## Main definitions

* `Grammar.Plain` — a grammar that renames nothing.

## Main results

* `Reading.words_ofArguments` — **with a grammar that renames nothing, the words of a line are its
  arguments.**
-/

namespace Typeahead

/-- Neither the name of the command nor that of a flag stands for anything but itself. -/
structure Grammar.Plain (g : Grammar) : Prop where
  command : g.substitute = [] ∨ g.substitute = g.name
  flags : ∀ flag ∈ g.flags, flag.substitute = [] ∨ flag.substitute = flag.name
  valueFlags : ∀ flag ∈ g.valueFlags, flag.substitute = [] ∨ flag.substitute = flag.name

theorem substituteOr_eq {substitute name : Text} (h : substitute = [] ∨ substitute = name) :
    substituteOr substitute name = name := by
  unfold substituteOr
  rcases h with rfl | rfl
  · exact if_pos rfl
  · exact ite_self substitute

variable {g : Grammar} {u u' : Used} {argument : Text} {r : Reading} {parts : List Part}

/-- An argument that was read as an entry has the name of the entry, and contributes itself. -/
theorem Used.Reads.word_eq {part : Part} (h : Reads g u argument r u') (hplain : g.Plain)
    (hpart : g.Contributes argument r part) : part.word = argument := by
  -- An entry is found under the name that was typed, and without a substitute it says the same.
  cases hpart with
  | command role => cases h <;> cases role
  | flag role entry found =>
    cases h with
    | @flag k flag idle spent hentry name unused =>
      cases entry
      rw [hentry] at found
      cases found
      exact (substituteOr_eq (hplain.flags _ (List.mem_of_getElem? hentry))).trans name
    | _ => cases role
  | valueFlag role entry found =>
    cases h with
    | @valueFlag k flag idle hentry name unused =>
      cases entry
      rw [hentry] at found
      cases found
      exact (substituteOr_eq (hplain.valueFlags _ (List.mem_of_getElem? hentry))).trans name
    | _ => cases role
  | plain role => rfl

namespace Reading

theorem words_readAll (hplain : g.Plain) {arguments : List Text}
    (h : g.ContributesAll (arguments.zip (readAll g u arguments)) parts) :
    parts.map Part.word = arguments := by
  induction arguments generalizing u parts with
  | nil =>
    cases h
    rfl
  | cons argument rest ih =>
    cases h with
    | cons hfirst hrest =>
      rw [List.map_cons, (u.reads_read g argument).word_eq hplain hfirst, ih hrest]

/-- **With a grammar that renames nothing, the words of a line are its arguments**, if the line
starts with the name of the grammar. -/
theorem words_ofArguments (hplain : g.Plain) {arguments : List Text}
    (hname : arguments.head? = some g.name)
    (h : g.ContributesAll (arguments.zip (ofArguments (some g) arguments)) parts) :
    parts.map Part.word = arguments := by
  cases arguments with
  | nil => cases hname
  | cons name rest =>
    cases hname
    cases h with
    | cons hfirst hrest =>
      rw [List.map_cons, words_readAll hplain hrest]
      cases hfirst with
      | command role => rw [Grammar.target, substituteOr_eq hplain.command]
      | flag role => cases role
      | valueFlag role => cases role
      | plain role => rfl

end Reading

end Typeahead
