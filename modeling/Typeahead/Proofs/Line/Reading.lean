import Typeahead.Line.Reading

/-!
# The readings of a line

Every argument of a line has a reading.  A reading shows a text as long as nothing is typed, or
nothing at all; it never shows an empty text.

## Main results

* `Reading.placeholder_ne_of_mem` — no reading of a line shows the empty text.
* `Reading.length_ofArguments` — there are as many readings as arguments.
-/

namespace Typeahead

theorem shown_ne (t : Text) : shown t ≠ some [] := by
  unfold shown
  split
  · intro h
    cases h
  next hne =>
    intro h
    exact hne (Option.some.inj h)

theorem Used.placeholder_read_ne (g : Grammar) (u : Used) (argument : Text) :
    (u.read g argument).1.placeholder ≠ some [] := by
  unfold read
  split
  · exact shown_ne _
  · split
    · intro h
      cases h
    · split
      · intro h
        cases h
      · split
        · exact shown_ne _
        · intro h
          cases h

namespace Reading

theorem placeholder_ne_of_mem_readAll {g : Grammar} {u : Used} {arguments : List Text} {r : Reading}
    (h : r ∈ readAll g u arguments) : r.placeholder ≠ some [] := by
  induction arguments generalizing u with
  | nil => cases h
  | cons argument rest ih =>
    rcases List.mem_cons.mp h with rfl | h
    · exact u.placeholder_read_ne g argument
    · exact ih h

/-- No reading of a line shows the empty text. -/
theorem placeholder_ne_of_mem {grammar : Option Grammar} {arguments : List Text} {r : Reading}
    (h : r ∈ ofArguments grammar arguments) : r.placeholder ≠ some [] := by
  cases arguments with
  | nil => cases h
  | cons argument rest =>
    rcases List.mem_cons.mp h with rfl | h
    · intro h
      cases h
    · cases grammar with
      | none =>
        obtain ⟨-, -, rfl⟩ := List.mem_map.mp h
        intro h
        cases h
      | some g => exact placeholder_ne_of_mem_readAll h

theorem length_readAll (g : Grammar) (u : Used) (arguments : List Text) :
    (readAll g u arguments).length = arguments.length := by
  induction arguments generalizing u with
  | nil => rfl
  | cons argument rest ih => simp only [readAll, List.length_cons, ih]

/-- Every argument of a line has a reading. -/
theorem length_ofArguments (grammar : Option Grammar) (arguments : List Text) :
    (ofArguments grammar arguments).length = arguments.length := by
  cases arguments with
  | nil => rfl
  | cons argument rest =>
    simp only [ofArguments, List.length_cons]
    cases grammar with
    | none => rw [List.length_map]
    | some g => rw [length_readAll]

end Reading

end Typeahead
