import Typeahead.Proofs.Session.Event
import Typeahead.Proofs.Session.Rebuild

/-!
# When choices were listed

A directory is listed when a suggestion comes to point into it and not again as long as it does.
Meanwhile the line, the world and the directory that paths are seen from may change, and updates may
fail half way.  Nevertheless the choices of a suggestion for a directory are always the names that
this directory had at one time: when the suggestion last came to point into it.  Every update that
went well since then found the argument of that index in the same directory and did not look at it.

## Main definitions

* `Table.Offers`, `Session.Offers` — there are choices from a directory for an argument.
* `Context.PointsInto`, `Session.PointsInto` — an argument points into a directory.
* `Session.Revisits` — an argument is found in its directory without a look at it.
* `Session.Lists` — an action brings choices in.
* `Session.Keeps`, `Session.KeepsAll` — an event, and some events, leave them as they are.

## Main results

* `Context.renew_in_place`, `Context.renew_listed` — bringing a suggestion up to date lists the
  directory exactly if it is another one than before, of which a notice tells.
* `Table.offers_treat` — the treatment of an argument lists its directory or keeps its choices.
* `Session.offers_after` — choices were there before an event and are kept, or it brings them in.
* `Session.listed_follow` — **the choices for a directory were listed by one action and have been
  kept by all that happened since.**
-/

namespace Typeahead

namespace Suggestion

/-- The suggestion brought up to date with a target in the directory that its choices are from. -/
def inPlace (s : Suggestion) (placeholder : Option Text) (target : Target) : Suggestion :=
  { s with placeholder, skip := target.skip }.focus target.typed

/-- What fitted best before does not matter. -/
theorem inPlace_congr {s t : Suggestion} (h : s.unfocused = t.unfocused)
    (placeholder : Option Text) (target : Target) :
    s.inPlace placeholder target = t.inPlace placeholder target := by
  obtain ⟨hchoices, -, hscope, -⟩ := Suggestion.mk.inj h
  simp only [inPlace, focus, bestFor, hchoices, hscope]

end Suggestion

namespace Context

variable {c d : Context} {argument : Text} {r : Reading} {s : Suggestion} {target : Target}
  {directory : Path}

/-- An argument is read as a path and points into a directory. -/
def PointsInto (c : Context) (argument : Text) (r : Reading) (directory : Path) : Prop :=
  r.kind = .path ∧ ∃ target, c.target argument = .ok (some target) ∧ target.directory = directory

theorem Alike.pointsInto (halike : c.Alike d) (h : c.PointsInto argument r directory) :
    d.PointsInto argument r directory := by
  simpa only [PointsInto, halike.target_eq] using h

/-- A path's suggestion brought up to date in the directory that its choices are from: nothing is
asked of the world but where the argument points, and not even a notice is written. -/
theorem renew_in_place (hkind : r.kind = .path) (htarget : c.target argument = .ok (some target))
    (hscope : s.scope = some (.directory target.directory)) :
    c.renew argument r s = ⟨c, s.inPlace r.placeholder target, none⟩ := by
  rw [renew_path hkind htarget]
  simp [Suggestion.renewTarget, hscope, note, Suggestion.inPlace]

/-- A path's suggestion brought up to date in another directory: it is listed, and a notice is
written. -/
theorem renew_listed (hkind : r.kind = .path) (htarget : c.target argument = .ok (some target))
    (hscope : s.scope ≠ some (.directory target.directory)) :
    (c.renew argument r s).suggestion.scope = some (.directory target.directory) ∧
      (c.renew argument r s).suggestion.choices = (c.world.choices target.directory).2 ∧
      ⟨.debug, .directories⟩ ∈ (c.renew argument r s).context.journal.drop c.journal.length := by
  rw [renew_path hkind htarget]
  simp [Suggestion.renewTarget, hscope, note, Suggestion.focus]

/-- Either way its choices are from the directory of the target then. -/
theorem scope_renew (hkind : r.kind = .path) (htarget : c.target argument = .ok (some target)) :
    (c.renew argument r s).suggestion.scope = some (.directory target.directory) := by
  by_cases hscope : s.scope = some (.directory target.directory)
  · rw [renew_in_place hkind htarget hscope]
    exact hscope
  · exact (renew_listed hkind htarget hscope).1

end Context

namespace Table

/-- An entry of a table, if it is there, has these choices from a directory. -/
def Offers (entry : Option (ArgumentKind × Suggestion)) (directory : Path) (choices : List Text) :
    Prop :=
  ∃ s, entry = some (.path, s) ∧ s.scope = some (.directory directory) ∧ s.choices = choices

variable {c : Context} {argument : Text} {r : Reading} {table table' : Table} {i : Nat}
  {before : Option (ArgumentKind × Suggestion)} {directory : Path} {choices : List Text}

theorem getElem?_of_unfocused (h : table'.unfocused = table.unfocused) {kind : ArgumentKind}
    {s : Suggestion} (hs : table'[i]? = some (kind, s)) :
    ∃ old, table[i]? = some (kind, old) ∧ s.unfocused = old.unfocused := by
  have hi : table'.unfocused[i]? = table.unfocused[i]? := by rw [h]
  simp only [unfocused, List.getElem?_map, hs, Option.map_some] at hi
  obtain ⟨⟨kind', old⟩, hold, heq⟩ := Option.map_eq_some_iff.mp hi.symm
  obtain ⟨hkind, hunfocused⟩ := Prod.mk.inj heq
  exact ⟨old, hkind ▸ hold, hunfocused.symm⟩

theorem Offers.of_unfocused (h : table'.unfocused = table.unfocused)
    (hoffers : Offers table'[i]? directory choices) : Offers table[i]? directory choices := by
  obtain ⟨s, hs, hscope, hchoices⟩ := hoffers
  obtain ⟨old, hold, heq⟩ := getElem?_of_unfocused h hs
  obtain ⟨hchoices', -, hscope', -⟩ := Suggestion.mk.inj heq
  exact ⟨old, hold, hscope' ▸ hscope, hchoices' ▸ hchoices⟩

/-- A new entry has choices from a directory because its argument points there, or it could not be
had and the one before stays. -/
theorem offers_treatAnew (h : Offers (treatAnew c argument r before).entry directory choices) :
    (c.PointsInto argument r directory ∧ choices = (c.world.choices directory).2) ∨
      ((treatAnew c argument r before).fault ≠ none ∧ Offers before directory choices) := by
  unfold treatAnew at h ⊢
  cases hs : (c.suggest argument r).2 with
  | error fault =>
    rw [hs] at h
    exact Or.inr ⟨nofun, h⟩
  | ok s =>
    left
    rw [hs] at h
    obtain ⟨s', heq, hscope, hchoices⟩ := h
    -- The suggestion has a directory as its scope, so it is one for a path with a target.
    obtain ⟨hkind, rfl⟩ := Prod.mk.inj (Option.some.inj heq)
    rw [Context.suggest_snd, hkind] at hs
    dsimp only at hs
    cases htarget : c.target argument with
    | error fault => rw [htarget] at hs; cases hs
    | ok target =>
      rw [htarget] at hs
      cases hs
      cases target with
      | none => cases hscope
      | some target =>
        obtain rfl : target.directory = directory := by cases hscope; rfl
        exact ⟨⟨hkind, target, htarget, rfl⟩, hchoices.symm⟩

/-- A path's suggestion that was brought up to date and has choices from a directory belongs to an
argument that points there. -/
theorem target_of_renew {s : Suggestion} (hkind : r.kind = .path)
    (hfault : (c.renew argument r s).fault = none)
    (hscope : (c.renew argument r s).suggestion.scope = some (.directory directory)) :
    ∃ target, c.target argument = .ok (some target) ∧ target.directory = directory := by
  cases htarget : c.target argument with
  | error fault =>
    simp only [Context.renew, hkind, htarget] at hfault
    cases hfault
  | ok target =>
    cases target with
    | none =>
      rw [Context.renew_path hkind htarget] at hscope
      cases hscope
    | some target =>
      rw [Context.scope_renew hkind htarget] at hscope
      cases hscope
      exact ⟨target, rfl, rfl⟩

/-- **The treatment of an argument lists its directory or keeps its choices.**  The choices that it
leaves are the names in the directory that the argument points into, and there were none from it
before; or they were there before, and if there was no fault the argument points into that directory
and its suggestion was brought up to date in place. -/
theorem offers_treat (h : Offers (treat c argument r before).entry directory choices) :
    (c.PointsInto argument r directory ∧ choices = (c.world.choices directory).2 ∧
      ∀ old, ¬ Offers before directory old) ∨
    (Offers before directory choices ∧
      ((treat c argument r before).fault = none →
        r.kind = .path ∧ ∃ target old, c.target argument = .ok (some target) ∧
          target.directory = directory ∧ before = some (.path, old) ∧
          old.scope = some (.directory directory) ∧
          (treat c argument r before).entry = some (.path, old.inPlace r.placeholder target))) := by
  rcases before with _ | ⟨kind, s⟩
  · rcases offers_treatAnew h with ⟨hpoints, hlisted⟩ | ⟨-, hnone⟩
    · exact Or.inl ⟨hpoints, hlisted, fun old ⟨_, hold, _⟩ => nomatch hold⟩
    · obtain ⟨_, hold, -⟩ := hnone
      cases hold
  · by_cases hkind : kind = r.kind
    · have hrenewed : treat c argument r (some (kind, s)) = ⟨(c.renew argument r s).context,
          some (kind, (c.renew argument r s).suggestion), (c.renew argument r s).fault⟩ :=
        if_pos hkind
      rw [hrenewed] at h ⊢
      obtain ⟨s', heq, hscope, hchoices⟩ := h
      obtain ⟨rfl, rfl⟩ := Prod.mk.inj (Option.some.inj heq)
      cases hfault : (c.renew argument r s).fault with
      | some fault =>
        rw [Suggestion.renew_of_fault hfault] at hscope hchoices
        exact Or.inr ⟨⟨s, rfl, hscope, hchoices⟩, nofun⟩
      | none =>
        obtain ⟨target, htarget, rfl⟩ := target_of_renew hkind.symm hfault hscope
        by_cases hold : s.scope = some (.directory target.directory)
        · right
          rw [Context.renew_in_place hkind.symm htarget hold] at hchoices ⊢
          exact ⟨⟨s, rfl, hold, hchoices⟩, fun _ =>
            ⟨hkind.symm, target, s, htarget, rfl, rfl, hold, rfl⟩⟩
        · left
          obtain ⟨-, hlisted, -⟩ := Context.renew_listed hkind.symm htarget hold
          refine ⟨⟨hkind.symm, target, htarget, rfl⟩, hchoices.symm.trans hlisted, ?_⟩
          rintro old ⟨s', heq', hscope', -⟩
          cases heq'
          exact hold hscope'
    · have hanew : treat c argument r (some (kind, s)) = treatAnew c argument r (some (kind, s)) :=
        if_neg hkind
      rw [hanew] at h ⊢
      rcases offers_treatAnew h with ⟨hpoints, hlisted⟩ | ⟨hfault, hold⟩
      · refine Or.inl ⟨hpoints, hlisted, ?_⟩
        rintro old ⟨s', hold, -⟩
        -- An entry for a path would have been brought up to date.
        cases hold
        exact hkind hpoints.1.symm
      · exact Or.inr ⟨hold, fun hnone => absurd hnone hfault⟩

end Table

namespace Session

/-- The line has these choices from a directory for its argument of an index. -/
def Offers (s : Session) (i : Nat) (directory : Path) (choices : List Text) : Prop :=
  Table.Offers s.analysis.table[i]? directory choices

/-- The argument of an index is read as a path and points into a directory. -/
def PointsInto (s : Session) (i : Nat) (directory : Path) : Prop :=
  ∃ argument r, s.items[i]? = some (argument, r) ∧ s.context.PointsInto argument r directory

/-- The argument of an index of the line `t` is found in a directory without a look at it: its
suggestion is that of the line `s` brought up to date, and that leaves no trace in the context. -/
def Revisits (s t : Session) (i : Nat) (directory : Path) : Prop :=
  ∃ argument r old new, t.items[i]? = some (argument, r) ∧
    s.context.PointsInto argument r directory ∧ s.analysis.table[i]? = some (.path, old) ∧
    t.analysis.table[i]? = some (.path, new) ∧
    s.context.renew argument r old = ⟨s.context, new, none⟩

/-- An action brings in choices from a directory for the argument of an index. -/
structure Lists (s : Session) (a : Action) (i : Nat) (directory : Path) (choices : List Text) :
    Prop where
  updated : (s.draft? a).isSome
  /-- There were no choices from that directory for the argument of that index. -/
  before : ∀ old, ¬ s.Offers i directory old
  pointsInto : (s.perform a).session.PointsInto i directory
  /-- The choices are the names in the directory at that time. -/
  listed : choices = (s.context.world.choices directory).2
  offers : (s.perform a).session.Offers i directory choices

/-- An event leaves choices as they are. -/
structure Keeps (s : Session) (e : Event) (i : Nat) (directory : Path) (choices : List Text) :
    Prop where
  offers : (s.after e).Offers i directory choices
  /-- An action whose update goes well finds the argument in the same directory. -/
  revisits : ∀ a, e = .act a → (s.draft? a).isSome → (s.perform a).answer.isOk →
    s.Revisits (s.perform a).session i directory

/-- Some events leave choices as they are, one after the other. -/
def KeepsAll (s : Session) (i : Nat) (directory : Path) (choices : List Text) : List Event → Prop
  | [] => True
  | e :: rest => s.Keeps e i directory choices ∧ (s.after e).KeepsAll i directory choices rest

variable {s t : Session} {i : Nat} {directory : Path} {choices : List Text}

theorem analysis_insertAll (s : Session) (t : Text) : (s.insertAll t).analysis = s.analysis := by
  unfold insertAll
  split <;> rfl

/-- A draft has the table of the line, up to what fits best, or it is empty. -/
theorem table_of_draft (h : Draft s t) :
    t.analysis.table.unfocused = s.analysis.table.unfocused ∨ t.text = [] := by
  cases h with
  | insert text =>
    left
    rw [analysis_insertAll]
    unfold freed
    split <;> rfl
  | clear => exact Or.inr rfl
  | deleteSelection => exact Or.inl rfl
  | delete position => exact Or.inl rfl
  | move position selecting =>
    left
    unfold moved
    split
    · split <;> rfl
    · rfl
  | complete spared position text =>
    left
    rw [analysis_insertAll]
    exact spared.table

/-- An update of an empty line leaves no suggestions. -/
theorem table_update_of_nil (h : t.text = []) : t.update.session.analysis.table = [] := by
  have hitems : t.items = [] := by simp only [items, h, Line.arguments, Line.spans]; rfl
  rw [update_session]
  simp only [analysisWith, refreshed, hitems, Table.refresh_nil]

/-- The choices that the update of a draft leaves were listed by it or kept. -/
theorem offers_update (hdraft : Draft s t) (h : t.update.session.Offers i directory choices) :
    ((∀ old, ¬ s.Offers i directory old) ∧ t.update.session.PointsInto i directory ∧
      choices = (s.context.world.choices directory).2) ∨
    (s.Offers i directory choices ∧
      (t.update.answer = .ok () → s.Revisits t.update.session i directory)) := by
  obtain ⟨new, hnew, hscope, hchoices⟩ := h
  have htable : t.analysis.table.unfocused = s.analysis.table.unfocused := by
    refine (table_of_draft hdraft).resolve_right ?_
    intro hnil
    rw [table_update_of_nil hnil] at hnew
    cases hnew
  have hitems : t.update.session.items = t.items := items_congr t.alike_update rfl
  have hdrafted := (Drafted.of_draft hdraft).context
  rcases Table.entry_refresh hnew with
    ⟨argument, r, d, hitem, halike, htreated, hgood⟩ | ⟨hfault, hold⟩
  · have halike' : s.context.Alike d := hdrafted.trans (t.alike_noticed.trans halike)
    have hoffers : Table.Offers (Table.treat d argument r t.analysis.table[i]?).entry directory
        choices := ⟨new, htreated, hscope, hchoices⟩
    rcases Table.offers_treat hoffers with ⟨hpoints, hlisted, hbefore⟩ | ⟨hbefore, hkept⟩
    · left
      have hpoints' := (halike'.symm.trans (hdrafted.trans t.alike_update)).pointsInto hpoints
      refine ⟨?_, ⟨argument, r, hitems ▸ hitem, hpoints'⟩, ?_⟩
      · intro old hold
        exact hbefore old (hold.of_unfocused htable.symm)
      · rw [hlisted, halike'.world]
    · right
      refine ⟨hbefore.of_unfocused htable, ?_⟩
      intro hok
      obtain ⟨hkind, target, old, htarget, rfl, hold, hscope', hentry⟩ :=
        hkept (hgood (update_answer_eq_ok_iff.mp hok))
      rw [halike'.target_eq] at htarget
      -- The draft may have set what fits best by hand, which is looked up anew.
      obtain ⟨before, hbefore', hunfocused⟩ := Table.getElem?_of_unfocused htable hold
      obtain ⟨-, -, hscope'', -⟩ := Suggestion.mk.inj hunfocused
      obtain ⟨-, rfl⟩ := Prod.mk.inj (Option.some.inj (htreated.symm.trans hentry))
      refine ⟨argument, r, before, _, hitems ▸ hitem, ⟨hkind, target, htarget, rfl⟩, hbefore', hnew,
        ?_⟩
      rw [Suggestion.inPlace_congr hunfocused]
      exact Context.renew_in_place hkind htarget (hscope''.symm.trans hscope')
  · right
    exact ⟨Table.Offers.of_unfocused htable ⟨new, hold, hscope, hchoices⟩,
      fun hok => absurd (update_answer_eq_ok_iff.mp hok) hfault⟩

/-- **Choices were there before an event and are kept, or it brings them in.** -/
theorem offers_after {e : Event} (h : (s.after e).Offers i directory choices) :
    (s.Offers i directory choices ∧ s.Keeps e i directory choices) ∨
      ∃ a, e = .act a ∧ s.Lists a i directory choices := by
  -- A change of the world or of the place leaves the table as it is.
  cases e with
  | change w => exact Or.inl ⟨h, h, nofun⟩
  | visit here => exact Or.inl ⟨h, h, nofun⟩
  | act a =>
    cases hdraft : s.draft? a with
    | none =>
      left
      have hspared := spared_of_no_draft hdraft
      refine ⟨Table.Offers.of_unfocused hspared.table h, h, ?_⟩
      rintro a' ha' hupdated
      cases ha'
      rw [hdraft] at hupdated
      cases hupdated
    | some t =>
      have hfollows := perform_of_draft hdraft
      have hsession : s.after (.act a) = t.update.session := hfollows.1
      have hupdated : (s.draft? a).isSome := by rw [hdraft]; rfl
      -- The entry was listed in this update, or it is one that the update kept.
      rcases offers_update (.of_draft hdraft) (hsession ▸ h) with
        ⟨hbefore, hpoints, hlisted⟩ | ⟨hbefore, hkept⟩
      · exact Or.inr ⟨a, rfl, hupdated, hbefore, hfollows.1 ▸ hpoints, hlisted, h⟩
      · refine Or.inl ⟨hbefore, h, ?_⟩
        rintro a' ha' - hok
        cases ha'
        rw [hfollows.1]
        exact hkept (hfollows.update_of_isOk hok)

/-- Choices that are there after some events were there before and have been kept, or one of the
events brought them in and those behind it have kept them. -/
theorem offers_follow {events : List Event} (h : (s.follow events).Offers i directory choices) :
    (s.Offers i directory choices ∧ s.KeepsAll i directory choices events) ∨
      ∃ earlier a later, events = earlier ++ .act a :: later ∧
        (s.follow earlier).Lists a i directory choices ∧
        ((s.follow earlier).perform a).session.KeepsAll i directory choices later := by
  induction events generalizing s with
  | nil => exact Or.inl ⟨h, trivial⟩
  | cons e rest ih =>
    rcases ih h with ⟨hoffers, hkeeps⟩ | ⟨earlier, a, later, rfl, hlists, hkeeps⟩
    · rcases offers_after hoffers with ⟨hbefore, hkept⟩ | ⟨a, rfl, hlists⟩
      · exact Or.inl ⟨hbefore, hkept, hkeeps⟩
      · exact Or.inr ⟨[], a, rest, rfl, hlists, hkeeps⟩
    · exact Or.inr ⟨e :: earlier, a, later, rfl, hlists, hkeeps⟩

/-- **The choices for a directory were listed by one action and have been kept by all that happened
since.**  Whatever the events were, failed actions and changes of the world among them, choices from
a directory are the names that it had when one of the actions came to its update, and before that
action there were no choices from that directory for the argument of that index.  They were there
after every event since, and every update since that went well found the argument of that index in
the same directory and did not list it again. -/
theorem listed_follow (context : Context) (capacity : Int) (events : List Event) (i : Nat)
    (directory : Path) (choices : List Text)
    (h : ((start context capacity).follow events).Offers i directory choices) :
    ∃ earlier a later, events = earlier ++ .act a :: later ∧
      let s := (start context capacity).follow earlier
      s.Lists a i directory choices ∧ (s.perform a).session.KeepsAll i directory choices later := by
  rcases offers_follow h with ⟨⟨_, hentry, -⟩, -⟩ | hlisted
  · -- A line that was just started has no suggestions.
    cases hentry
  · exact hlisted

/-- A name is still offered that is no longer there. -/
theorem listed_follow_sample :
    let emptied : World := { World.sample with files := ⟨[([['d']], .directory .free)]⟩ }
    let directory : Path := ⟨.single, [['d']]⟩
    let events := [.act (.insert ['a', ' ', '/', 'd', '/']), .change emptied, .act (.insert ['y'])]
    ((start .sample 80).follow events).Offers 1 directory [['x']] ∧
      (emptied.choices directory).2 = [] ∧
      ∃ earlier a later, events = earlier ++ .act a :: later ∧
        ((start .sample 80).follow earlier).Lists a 1 directory [['x']] := by
  intro emptied directory events
  have hentry : ((start .sample 80).follow events).analysis.table[1]? =
      some (.path, ⟨[['x']], none, some (.directory directory), 3, none⟩) := by decide +kernel
  have hoffers : ((start .sample 80).follow events).Offers 1 directory [['x']] :=
    ⟨_, hentry, rfl, rfl⟩
  obtain ⟨earlier, a, later, hevents, hlists, -⟩ :=
    listed_follow .sample 80 events 1 directory [['x']] hoffers
  exact ⟨hoffers, by decide +kernel, earlier, a, later, hevents, hlists⟩

end Session

end Typeahead
