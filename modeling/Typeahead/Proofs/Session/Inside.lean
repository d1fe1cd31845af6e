import Typeahead.Proofs.Session.Event
import Typeahead.Proofs.Suggestion.Nested

/-!
# Typing on inside a directory

A path that leads through a directory is completed like the rest of it once paths are seen from
there: the same names are listed in the same scope, the same one fits best, and if there is a fault
it is the same.  Only what is passed over is shorter.  This holds of a new suggestion and of one that
is kept while the path is being typed.

## Main definitions

* `Context.Agree` — two arguments with the same suggestions but for what is passed over.

## Main results

* `Context.agree_of_target` — arguments with the same target agree.
* `Context.agree_nested` — **a path through a directory is a path seen from there**, as it is named
  and as it is completed.
-/

namespace Typeahead

namespace Suggestion

/-- The suggestion with nothing passed over. -/
def unplaced (s : Suggestion) : Suggestion := { s with skip := 0 }

theorem unplaced_forTarget (w : World) (placeholder : Option Text) (target : Option Target) :
    (forTarget w placeholder target).2.unplaced =
      (forTarget w placeholder (target.map Target.unplaced)).2 := by
  cases target <;> rfl

theorem unplaced_renewTarget (w : World) (s : Suggestion) (target : Option Target) :
    (s.renewTarget w target).2.unplaced =
      (s.renewTarget w (target.map Target.unplaced)).2 := by
  cases target with
  | none => rfl
  | some target =>
    simp only [renewTarget, Option.map_some, Target.unplaced]
    split <;> rfl

end Suggestion

namespace Context

variable {c d : Context} {x y : Text} {r : Reading}

/-- **Two arguments agree**, each in a context of its own: they have the same suggestion but for
what is passed over, be it a new one or one that is brought up to date, and the same fault. -/
structure Agree (c d : Context) (x y : Text) (r : Reading) : Prop where
  suggest : (c.suggest x r).2.map Suggestion.unplaced = (d.suggest y r).2.map Suggestion.unplaced
  renew : ∀ s, (c.renew x r s).suggestion.unplaced = (d.renew y r s).suggestion.unplaced
  fault : ∀ s, (c.renew x r s).fault = (d.renew y r s).fault

theorem target_congr
    (h : (Target.resolve c.world c.here x).map (Option.map Target.unplaced) =
      (Target.resolve d.world d.here y).map (Option.map Target.unplaced)) :
    (c.target x).map (Option.map Target.unplaced) =
      (d.target y).map (Option.map Target.unplaced) := by
  unfold target
  cases hx : Target.resolve c.world c.here x with
  | error fault =>
    cases hy : Target.resolve d.world d.here y with
    | error fault' =>
      rw [hx, hy] at h
      cases h
      rfl
    | ok other => rw [hx, hy] at h; cases h
  | ok target =>
    cases hy : Target.resolve d.world d.here y with
    | error fault' => rw [hx, hy] at h; cases h
    | ok other =>
      rw [hx, hy] at h
      exact congrArg Except.ok (Except.ok.inj h)

/-- Arguments for paths with the same target agree. -/
theorem agree_of_target (hkind : r.kind = .path) (hworld : d.world = c.world)
    (htarget : (c.target x).map (Option.map Target.unplaced) =
      (d.target y).map (Option.map Target.unplaced)) : Agree c d x y r := by
  -- The two targets are refused alike, or they differ in nothing but what is passed over.
  cases hx : c.target x with
  | error fault =>
    cases hy : d.target y with
    | ok other => rw [hx, hy] at htarget; cases htarget
    | error fault' =>
      rw [hx, hy] at htarget
      cases htarget
      refine ⟨?_, ?_, ?_⟩
      · simp only [suggest_snd, hkind, hx, hy, Except.map]
      · intro s
        simp only [renew, hkind, hx, hy]
      · intro s
        simp only [renew, hkind, hx, hy]
  | ok target =>
    cases hy : d.target y with
    | error fault' => rw [hx, hy] at htarget; cases htarget
    | ok other =>
      rw [hx, hy] at htarget
      have hsame : target.map Target.unplaced = other.map Target.unplaced := Except.ok.inj htarget
      refine ⟨?_, ?_, ?_⟩
      · simp only [suggest_snd, hkind, hx, hy, Except.map, hworld, Suggestion.unplaced_forTarget,
          hsame]
      · intro s
        rw [renew_path hkind hx, renew_path hkind hy]
        simp only [hworld, Suggestion.unplaced_renewTarget, hsame]
      · intro s
        rw [renew_path hkind hx, renew_path hkind hy]

/-- **A path through a directory is a path seen from there.**  Let a text that does not end in a
slash name a directory, seen from an absolute path, and let a slash and another text stand behind it
that starts neither at a root nor at the home directory.  Together they name what the second text
names, seen from that directory: a normal path, whose text names it again from anywhere.  An argument
with the two of them agrees with one that has the second text only, once paths are seen from there. -/
theorem agree_nested (home here : Path) (a b : Text) (hhome : home.Proper) (hne : home.names ≠ [])
    (hhere : here.Proper) (habsolute : here.isAbsolute = true) (ha : Target.Leading a)
    (hb : Target.Trailing b) :
    let inner := Target.directoryOf home here a
    let place := Target.directoryOf home here (a ++ '/' :: b)
    place = Target.directoryOf home inner b ∧ place.Normal ∧
      (∀ seen, Target.directoryOf home seen place.toText = place) ∧
      ∀ (c : Context) (x y : Text) (r : Reading), c.here = here →
        Path.ofText c.world.environment.home = home → r.kind = .path →
          Target.Spells x (a ++ '/' :: b) → Target.Spells y b →
            Agree c { c with here := inner } x y r := by
  intro inner place
  have hnormal : place.Normal := Target.normal_directoryOf home hhere habsolute _
  refine ⟨Target.directoryOf_append hhome hne here ha hb, hnormal, ?_, ?_⟩
  · intro seen
    exact Target.directoryOf_toText hnormal home seen
  · rintro c x y r rfl heq hkind hx hy
    refine agree_of_target hkind rfl (target_congr ?_)
    exact Target.resolve_append heq hne c.here ha hb hx hy

/-- From the home directory up and into another: `~/../b/l` as `../b/l`. -/
theorem agree_nested_sample :
    let home : Path := ⟨.single, [['d']]⟩
    let here : Path := ⟨.single, [['b']]⟩
    let b := ['.', '.', '/', 'b', '/', 'l']
    home.Proper ∧ here.Proper ∧ Target.Leading ['~'] ∧ Target.Trailing b ∧
      Target.directoryOf home here ('~' :: '/' :: b) = ⟨.single, [['b'], ['l']]⟩ ∧
      Target.directoryOf home home b = ⟨.single, [['b'], ['l']]⟩ ∧
      Agree { Context.sample with here } { Context.sample with here := home } ('~' :: '/' :: b) b
        .plainPath := by
  intro home here b
  have hhome : home.Proper := Path.ofText_proper ['/', 'd']
  have hhere : here.Proper := Path.ofText_proper ['/', 'b']
  have ha : Target.Leading ['~'] := ⟨by decide, by decide⟩
  have hb : Target.Trailing b := ⟨by decide, by decide, by decide⟩
  obtain ⟨heq, -, -, hagree⟩ := agree_nested home here ['~'] b hhome (by decide) hhere rfl ha hb
  have hplace : Target.directoryOf home here ('~' :: '/' :: b) = ⟨.single, [['b'], ['l']]⟩ := rfl
  exact ⟨hhome, hhere, ha, hb, hplace, heq.symm.trans hplace,
    hagree { Context.sample with here } _ _ .plainPath rfl rfl rfl (.inr ⟨rfl, by decide⟩)
      (.inr ⟨rfl, by decide⟩)⟩

end Context

end Typeahead
