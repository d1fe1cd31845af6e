import Typeahead.Proofs.World.Dots

/-!
# Normal paths

A path is normal if there is no `..` in it.  Normalising leaves a normal path as it is, and it can be
done on the way: a path behind another comes to the same whether the other is normalised before or
not.

## Main definitions

* `Path.Normal` — an absolute path of names without `..`.

## Main results

* `Path.append_assoc` — three paths one behind the other.
* `Path.normalize_of_ne_dots` — a path without `..` is normal as it is.
* `Path.normalize_append` — **normalising on the way makes no difference.**
-/

namespace Typeahead

namespace Path

variable {p q : Path} {root : Root} {names stack : List Text}

/-! ### One path behind another -/

theorem append_of_absolute (p : Path) (h : q.isAbsolute = true) : p.append q = q := if_pos h

theorem append_of_relative (p : Path) (h : ¬ q.isAbsolute = true) :
    p.append q = ⟨p.root, p.names ++ q.names⟩ := if_neg h

theorem isAbsolute_append (hp : p.isAbsolute = true) (q : Path) :
    (p.append q).isAbsolute = true := by
  by_cases hq : q.isAbsolute = true
  · rwa [append_of_absolute p hq]
  · rwa [append_of_relative p hq]

/-- **Three paths one behind the other** are the same path whichever two are put together first. -/
theorem append_assoc (p q r : Path) : p.append (q.append r) = (p.append q).append r := by
  by_cases hr : r.isAbsolute = true
  · rw [append_of_absolute q hr, append_of_absolute p hr, append_of_absolute _ hr]
  · by_cases hq : q.isAbsolute = true
    · rw [append_of_absolute p hq, append_of_absolute p (isAbsolute_append hq r)]
    · have hqr : ¬ (q.append r).isAbsolute = true := by rwa [append_of_relative q hr]
      rw [append_of_relative p hqr, append_of_relative q hr, append_of_relative p hq,
        append_of_relative _ hr, List.append_assoc]

/-! ### Without two dots -/

/-- Names without `..` are pushed one after the other. -/
theorem foldl_push_of_ne_dots (h : ∀ name ∈ names, name ≠ ['.', '.']) (stack : List Text) :
    names.foldl (push root) stack = names.reverse ++ stack := by
  induction names generalizing stack with
  | nil => rfl
  | cons name rest ih =>
    obtain ⟨hname, hrest⟩ := List.forall_mem_cons.mp h
    rw [List.foldl_cons, push_name hname, ih hrest, List.reverse_cons, List.append_assoc,
      List.singleton_append]

/-- Normalising leaves a path without `..` as it is. -/
theorem normalize_of_ne_dots (h : ∀ name ∈ p.names, name ≠ ['.', '.']) : p.normalize = p := by
  rw [normalize, foldl_push_of_ne_dots h, List.append_nil, List.reverse_reverse]

/-- **Normalising on the way makes no difference.**  What is left of the first path is pushed name
by name again before the names of the second one come, and so they find the same names before
them. -/
theorem normalize_append (p q : Path) :
    (p.normalize.append q).normalize = (p.append q).normalize := by
  by_cases hq : q.isAbsolute = true
  · rw [append_of_absolute _ hq, append_of_absolute _ hq]
  · have hagain : p.normalize.names.foldl (push p.root) [] = p.names.foldl (push p.root) [] := by
      rw [foldl_push_of_ne_dots p.normalize_ne_dots, List.append_nil]
      exact List.reverse_reverse _
    rw [append_of_relative _ hq, append_of_relative _ hq]
    simp only [normalize, List.foldl_append] at hagain ⊢
    rw [hagain]

/-! ### Normal paths -/

/-- **A normal path** starts at a root, and behind that there are names only: no component that is
empty, none with a slash in it, and no dots. -/
structure Normal (p : Path) : Prop where
  absolute : p.isAbsolute = true
  proper : p.Proper
  noDots : ∀ name ∈ p.names, name ≠ ['.'] ∧ name ≠ ['.', '.']

theorem Proper.ne_dot (h : p.Proper) : ∀ name ∈ p.names, name ≠ ['.'] := by
  rintro name hname rfl
  exact absurd (h _ hname).1 (by decide)

/-- Normalising an absolute path leaves a normal one. -/
theorem normal_normalize (h : p.Proper) (habsolute : p.isAbsolute = true) : p.normalize.Normal :=
  ⟨habsolute, h.normalize, fun name hname => ⟨h.normalize.ne_dot name hname,
    p.normalize_ne_dots name hname⟩⟩

/-- The text of an absolute path starts with a slash. -/
theorem head?_toText (h : p.isAbsolute = true) : p.toText.head? = some '/' := by
  obtain ⟨root, names⟩ := p
  cases root with
  | relative => cases h
  | single => rfl
  | double => rfl

end Path

end Typeahead
