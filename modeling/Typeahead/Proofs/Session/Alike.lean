import Typeahead.Session.Context

/-!
# Contexts that look alike

Suggesting something for an argument writes notices and may list the programs for the first time.
Neither can be told from outside: the world, the directory that paths are seen from, the grammars
and the answer to the question for the programs stay as they were.  Contexts that agree in these
suggest the same.

## Main definitions

* `Context.Alike` — two contexts that cannot be told apart by what they suggest.

## Main results

* `Context.alike_programs`, `Context.alike_suggest`, `Context.alike_renew` — asking a context for
  something leaves one that looks alike.
* `Context.Alike.suggest_eq` — alike contexts suggest the same.
-/

namespace Typeahead

namespace Catalog

/-- A catalog that was asked for its names gives the same answer when asked again. -/
theorem names_names (c : Catalog) (w : World) :
    ((c.names w).1.names w).2.2 = (c.names w).2.2 := by
  unfold names
  cases hknown : c.known with
  | some known => simp [hknown]
  | none =>
    rcases hfound : c.gather w with ⟨notices, fault | found⟩ <;> simp [hknown, hfound]

end Catalog

namespace Context

/-- `c.Alike d` says that `d` suggests what `c` does: they may differ in the notices written so far
and in whether the programs are listed already. -/
structure Alike (c d : Context) : Prop where
  world : d.world = c.world
  here : d.here = c.here
  grammars : d.grammars = c.grammars
  programs : d.programs.2 = c.programs.2

namespace Alike

variable {c d e : Context}

@[refl] protected theorem refl (c : Context) : Alike c c := ⟨rfl, rfl, rfl, rfl⟩

protected theorem symm (h : Alike c d) : Alike d c :=
  ⟨h.world.symm, h.here.symm, h.grammars.symm, h.programs.symm⟩

protected theorem trans (h : Alike c d) (h' : Alike d e) : Alike c e :=
  ⟨h'.world.trans h.world, h'.here.trans h.here, h'.grammars.trans h.grammars,
    h'.programs.trans h.programs⟩

theorem target_eq (h : Alike c d) (argument : Text) : d.target argument = c.target argument := by
  simp only [target, h.world, h.here]

theorem grammarFor_eq (h : Alike c d) (name : Text) : d.grammarFor name = c.grammarFor name := by
  simp only [grammarFor, h.grammars]

end Alike

/-! ### Asking a context leaves one that looks alike -/

theorem alike_note (c : Context) (notices : List Notice) : Alike c (c.note notices) :=
  ⟨rfl, rfl, rfl, rfl⟩

theorem alike_programs (c : Context) : Alike c c.programs.1 :=
  ⟨rfl, rfl, rfl, c.catalog.names_names c.world⟩

/-- What asking for the programs comes to. -/
theorem programs_eq (c : Context) : c.programs = (c.programs.1, c.programs.2) := rfl

theorem alike_suggest (c : Context) (argument : Text) (r : Reading) :
    Alike c (c.suggest argument r).1 := by
  unfold suggest
  cases r.kind with
  | program =>
    rw [programs_eq]
    cases c.programs.2 <;> exact c.alike_programs
  | path =>
    cases c.target argument with
    | error fault => exact .refl c
    | ok target => exact c.alike_note _
  | text => exact .refl c

theorem alike_renew (c : Context) (argument : Text) (r : Reading) (s : Suggestion) :
    Alike c (c.renew argument r s).context := by
  unfold renew
  cases r.kind with
  | program =>
    dsimp only
    split
    · exact .refl c
    · rw [programs_eq]
      cases c.programs.2 <;> exact c.alike_programs
  | path =>
    cases c.target argument with
    | error fault => exact .refl c
    | ok target => exact c.alike_note _
  | text => exact .refl c

/-! ### Alike contexts suggest the same -/

/-- The suggestion of a context, its notices apart. -/
theorem suggest_snd (c : Context) (argument : Text) (r : Reading) :
    (c.suggest argument r).2 =
      match r.kind with
      | .program => c.programs.2.map fun names => .forProgram names argument r.placeholder
      | .path => (c.target argument).map fun target =>
          (Suggestion.forTarget c.world r.placeholder target).2
      | .text => .ok (.forText argument r.placeholder) := by
  unfold suggest
  cases r.kind with
  | program =>
    rw [programs_eq]
    cases c.programs.2 <;> rfl
  | path => cases c.target argument <;> rfl
  | text => rfl

/-- A path's suggestion is renewed for the target that its argument has. -/
theorem renew_path {c : Context} {argument : Text} {r : Reading} (hkind : r.kind = .path)
    {target : Option Target} (htarget : c.target argument = .ok target) (s : Suggestion) :
    c.renew argument r s =
      let renewed := { s with placeholder := r.placeholder }.renewTarget c.world target
      ⟨c.note renewed.1, renewed.2, none⟩ := by
  simp only [renew, hkind, htarget]

theorem Alike.suggest_eq {c d : Context} (h : Alike c d) (argument : Text) (r : Reading) :
    (d.suggest argument r).2 = (c.suggest argument r).2 := by
  rw [suggest_snd, suggest_snd, h.programs, h.target_eq, h.world]

end Context

end Typeahead
