import Typeahead.Proofs.Grammar.Find
import Typeahead.Proofs.Json.Depth
import Typeahead.Proofs.Session.Event
import Typeahead.Proofs.Session.Same
import Typeahead.Session.Opening

/-!
# Descriptions that are set aside

A description that gives no grammar is set aside with a warning.  If the warning can be given, the
description has no other effect: what is found for a name is the grammar of the last good
description of that name, and a line that is typed cannot be told from one that is typed without the
descriptions that were set aside.  But a warning that is written out spells its label, and a label
that lies too deep ends the loading, with nothing left of the good descriptions either.

None of this depends on how descriptions are read, only on which of them give a grammar.

## Main definitions

* `Checked.good?` — the value of a good description.
* `Sink.Overflows`, `Sink.HasRoom` — the warning of a description cannot be written, and there is
  room for its label.
* `Grammar.Ends` — a description that ends the loading, if it comes to it.
* `Grammar.LastDescribed` — the grammar of the last good description of a name.
* `Grammar.Padded` — some descriptions with others put in that give no grammar.

## Main results

* `Sink.overflows_iff` — when a warning cannot be written.
* `Grammar.loadInto_eq`, `Grammar.loadInto_fault_iff` — what a list of descriptions comes to.
* `Grammar.find?_good_eq_some_iff` — what is found for a name.
* `Grammar.loading_isolates` — **descriptions that are set aside have no effect but a warning each,
  unless one of the warnings cannot be written.**
-/

namespace Typeahead

/-- The value of a good description. -/
def Checked.good? {α : Type} : Checked α → Option α
  | .good a => some a
  | .bad _ => none

theorem Checked.good?_eq_some_iff {α : Type} {c : Checked α} {a : α} :
    c.good? = some a ↔ c = .good a := by
  cases c with
  | good b => simp only [good?, Option.some.injEq, good.injEq]
  | bad issues => exact iff_of_false nofun nofun

namespace Sink

variable {sink : Sink} {room : Nat} {v : Json}

/-! ### Warnings -/

/-- The warning of a description cannot be written, because its label lies too deep. -/
def Overflows : Sink → Json → Prop
  | .kept, _ => False
  | .written room, v => Json.obstacle? room (Grammar.label v) = some .tooDeep

instance (sink : Sink) (v : Json) : Decidable (sink.Overflows v) :=
  match sink with
  | .kept => .isFalse not_false
  | .written room => inferInstanceAs (Decidable (Json.obstacle? room (Grammar.label v) = _))

/-- The warning of a description where it can be given. -/
def warning : Sink → Json → Warning
  | .kept, v => ⟨v, none⟩
  | .written room, v =>
    let label := Grammar.label v
    ⟨v, if Json.obstacle? room label = none then some label.spell else none⟩

theorem warn_of_overflows (h : sink.Overflows v) : sink.warn v = .error ⟨Grammar.label v⟩ := by
  cases sink with
  | kept => exact h.elim
  | written room =>
    have hdeep : Json.obstacle? room (Grammar.label v) = some .tooDeep := h
    simp only [warn, hdeep]

theorem warn_of_fits (h : ¬ sink.Overflows v) : sink.warn v = .ok (sink.warning v) := by
  cases sink with
  | kept => rfl
  | written room =>
    have hdeep : Json.obstacle? room (Grammar.label v) ≠ some .tooDeep := h
    simp only [warn, warning]
    cases hobstacle : Json.obstacle? room (Grammar.label v) with
    | none => rfl
    | some obstacle =>
      cases obstacle with
      | tooDeep => exact absurd hobstacle hdeep
      | longInteger => rfl

/-- Whatever becomes of warnings, they come to the same notices. -/
theorem map_notice_warning (sink : Sink) (vs : List Json) :
    (vs.map sink.warning).map Warning.notice =
      List.replicate vs.length ⟨.warning, .grammar⟩ := by
  rw [List.map_map]
  exact List.map_const'

theorem under_kept (threshold : Nat) : kept.under threshold = .kept := by
  unfold under
  split <;> rfl

/-- There is room to write a value. -/
def HasRoom : Sink → Json → Prop
  | .kept, _ => True
  | .written room, v => v.Within room

theorem not_overflows (h : sink.HasRoom (Grammar.label v)) : ¬ sink.Overflows v := by
  cases sink with
  | kept => exact not_false
  | written room => exact Json.Within.obstacle?_ne h

/-- **A warning cannot be written exactly if its label lies deeper than there is room**, unless an
integer in the label is in the way before that. -/
theorem overflows_iff (h : Json.obstacle? room (Grammar.label v) ≠ some .longInteger) :
    (written room).Overflows v ↔ ¬ (written room).HasRoom (Grammar.label v) := by
  refine ⟨fun hoverflows hroom => not_overflows hroom hoverflows, fun hdeep => ?_⟩
  cases hobstacle : Json.obstacle? room (Grammar.label v) with
  | none => exact absurd (Json.within_of_obstacle?_eq_none hobstacle) hdeep
  | some obstacle =>
    cases obstacle with
    | tooDeep => exact hobstacle
    | longInteger => exact absurd hobstacle h

end Sink

namespace Grammar

variable {sink : Sink} {read : Json → Checked Grammar} {name : Text} {g : Grammar}
  {vs us : List Json} {fault : LabelFault}

/-! ### What some descriptions come to -/

/-- The description gives no grammar, and the warning of it cannot be written. -/
def Ends (sink : Sink) (read : Json → Checked Grammar) (v : Json) : Prop :=
  (read v).good? = none ∧ sink.Overflows v

instance (sink : Sink) (read : Json → Checked Grammar) (v : Json) : Decidable (Ends sink read v) :=
  inferInstanceAs (Decidable (_ ∧ _))

theorem ends_of_bad {issues : List Issue} {v : Json} (hread : read v = .bad issues) :
    Ends sink read v ↔ sink.Overflows v := by
  rw [Ends, hread]
  exact and_iff_right rfl

theorem not_ends_of_good {v : Json} (hread : read v = .good g) : ¬ Ends sink read v := by
  rintro ⟨hbad, -⟩
  rw [hread] at hbad
  cases hbad

/-- **Descriptions none of which ends the loading** come to the grammars of the good ones and a
warning for each of the others. -/
theorem loadInto_eq (h : ∀ v ∈ vs, ¬ Ends sink read v) : loadInto sink read vs =
    ⟨vs.filterMap fun v => (read v).good?,
      (vs.filter fun v => (read v).good?.isNone).map sink.warning, none⟩ := by
  induction vs with
  | nil => rfl
  | cons v rest ih =>
    obtain ⟨hv, hrest⟩ := List.forall_mem_cons.mp h
    rw [loadInto, List.filterMap_cons, List.filter_cons]
    cases hread : read v with
    | good g =>
      simp only [ih hrest, Checked.good?, Option.isNone_some, Bool.false_eq_true, if_false]
    | bad issues =>
      rw [ends_of_bad hread] at hv
      simp only [Sink.warn_of_fits hv, ih hrest, Checked.good?, Option.isNone_none, if_true,
        List.map_cons]

/-- Two loads that nothing ends come to the same, except for what has been written. -/
theorem loadInto_agree {sink' : Sink} (h : ∀ v ∈ vs, ¬ Ends sink read v)
    (h' : ∀ v ∈ vs, ¬ Ends sink' read v) :
    (loadInto sink read vs).grammars = (loadInto sink' read vs).grammars ∧
      (loadInto sink read vs).notices = (loadInto sink' read vs).notices := by
  rw [loadInto_eq h, loadInto_eq h']
  exact ⟨rfl, by simp only [Loaded.notices, Sink.map_notice_warning]⟩

/-- The loading ends at the first of some descriptions or comes to what the others come to. -/
theorem fault_loadInto_cons (v : Json) (rest : List Json) :
    (loadInto sink read (v :: rest)).fault =
      if Ends sink read v then some ⟨label v⟩ else (loadInto sink read rest).fault := by
  rw [loadInto]
  cases hread : read v with
  | good g => rw [if_neg (not_ends_of_good hread)]
  | bad issues =>
    by_cases hoverflows : sink.Overflows v
    · rw [if_pos ((ends_of_bad hread).mpr hoverflows)]
      simp only [Sink.warn_of_overflows hoverflows]
    · rw [if_neg (mt (ends_of_bad hread).mp hoverflows)]
      simp only [Sink.warn_of_fits hoverflows]

theorem loadInto_fault_eq_none_iff :
    (loadInto sink read vs).fault = none ↔ ∀ v ∈ vs, ¬ Ends sink read v := by
  induction vs with
  | nil => exact iff_of_true rfl nofun
  | cons v rest ih =>
    rw [fault_loadInto_cons, List.forall_mem_cons, ← ih]
    split <;> simp [*]

/-- Warnings that are only kept do not end the loading. -/
theorem fault_load (vs : List Json) : (load vs).fault = none :=
  loadInto_fault_eq_none_iff.mpr fun _ _ hends => hends.2

/-- **The loading comes to a fault** at the first description that ends it. -/
theorem loadInto_fault_iff : (loadInto sink read vs).fault = some fault ↔
    ∃ before v after, vs = before ++ v :: after ∧ (∀ u ∈ before, ¬ Ends sink read u) ∧
      Ends sink read v ∧ fault = ⟨label v⟩ := by
  induction vs with
  | nil => simp [loadInto]
  | cons v rest ih =>
    rw [fault_loadInto_cons]
    split
    next hends =>
      -- Nothing comes before the first description.
      constructor
      · intro h
        exact ⟨[], v, rest, rfl, nofun, hends, (Option.some.inj h).symm⟩
      · rintro ⟨before, u, after, heq, hbefore, -, rfl⟩
        cases before with
        | nil => rw [(List.cons.inj heq).1]
        | cons first before =>
          cases heq
          exact absurd hends (hbefore v List.mem_cons_self)
    next hgoes =>
      rw [ih]
      constructor
      · rintro ⟨before, u, after, rfl, hbefore, hu, hfault⟩
        exact ⟨v :: before, u, after, rfl, List.forall_mem_cons.mpr ⟨hgoes, hbefore⟩, hu, hfault⟩
      · rintro ⟨before, u, after, heq, hbefore, hu, hfault⟩
        cases before with
        | nil =>
          cases heq
          exact absurd hu hgoes
        | cons first before =>
          cases heq
          exact ⟨before, u, after, rfl, (List.forall_mem_cons.mp hbefore).2, hu, hfault⟩

/-- `g` is the grammar of a description in the list and has the name, and no good description behind
that one gives a grammar of the name. -/
def LastDescribed (read : Json → Checked Grammar) (name : Text) (vs : List Json) (g : Grammar) :
    Prop :=
  ∃ before v after, vs = before ++ v :: after ∧ read v = .good g ∧ g.name = name ∧
    ∀ u ∈ after, ∀ other, read u = .good other → other.name ≠ name

theorem mem_filterMap_good?_iff {g : Grammar} :
    g ∈ (vs.filterMap fun v => (read v).good?) ↔ ∃ v ∈ vs, read v = .good g := by
  simp only [List.mem_filterMap, Checked.good?_eq_some_iff]

/-- **What is found for a name is the grammar of its last good description.** -/
theorem find?_good_eq_some_iff :
    find? name (vs.filterMap fun v => (read v).good?) = some g ↔ LastDescribed read name vs g := by
  rw [find?_eq_some_iff]
  constructor
  · rintro ⟨before, after, hsplit, hname, hafter⟩
    obtain ⟨first, second, rfl, -, hsecond⟩ := List.filterMap_eq_append_iff.mp hsplit
    obtain ⟨skipped, v, rest, rfl, -, hv, rfl⟩ := List.filterMap_eq_cons_iff.mp hsecond
    refine ⟨first ++ skipped, v, rest, by simp, Checked.good?_eq_some_iff.mp hv, hname, ?_⟩
    intro u hu other hother
    exact hafter other (mem_filterMap_good?_iff.mpr ⟨u, hu, hother⟩)
  · rintro ⟨before, v, after, rfl, hv, hname, hafter⟩
    refine ⟨before.filterMap fun v => (read v).good?, after.filterMap fun v => (read v).good?,
      ?_, hname, ?_⟩
    · rw [List.filterMap_append, List.filterMap_cons, Checked.good?_eq_some_iff.mpr hv]
    · intro other hother
      obtain ⟨u, hu, hgood⟩ := mem_filterMap_good?_iff.mp hother
      exact hafter u hu other hgood

theorem find?_good_eq_none_iff : find? name (vs.filterMap fun v => (read v).good?) = none ↔
    ∀ v ∈ vs, ∀ g, read v = .good g → g.name ≠ name := by
  rw [find?_eq_none_iff]
  constructor
  · intro h v hv g hg
    exact h g (mem_filterMap_good?_iff.mpr ⟨v, hv, hg⟩)
  · intro h g hg
    obtain ⟨v, hv, hgood⟩ := mem_filterMap_good?_iff.mp hg
    exact h v hv g hgood

/-! ### Descriptions put in -/

/-- The second list is the first one with descriptions put in that give no grammar. -/
inductive Padded (read : Json → Checked Grammar) : List Json → List Json → Prop
  | nil : Padded read [] []
  | keep (v : Json) {vs us : List Json} (rest : Padded read vs us) :
      Padded read (v :: vs) (v :: us)
  | pad {v : Json} {issues : List Issue} (bad : read v = .bad issues) {vs us : List Json}
      (rest : Padded read vs us) : Padded read vs (v :: us)

theorem Padded.filterMap_eq (h : Padded read vs us) :
    (us.filterMap fun v => (read v).good?) = vs.filterMap fun v => (read v).good? := by
  induction h with
  | nil => rfl
  | keep v _ ih => rw [List.filterMap_cons, List.filterMap_cons, ih]
  | pad hbad _ ih => rw [List.filterMap_cons, hbad, ← ih]; rfl

end Grammar

namespace Context

variable {sink : Sink} {read : Json → Checked Grammar} {w : World} {s : Settings}
  {here : Option Path} {c : Context} {fault : LabelFault}

/-! ### Opening a context -/

theorem openInto_eq_error_iff : openInto sink read w s here = .error fault ↔
    (Grammar.loadInto sink read s.commands).fault = some fault := by
  unfold openInto
  dsimp only
  cases (Grammar.loadInto sink read s.commands).fault <;> simp

/-- A context is opened with the grammars of the good descriptions if no description ends it. -/
theorem openInto_eq_ok_iff : openInto sink read w s here = .ok c ↔
    (∀ v ∈ s.commands, ¬ Grammar.Ends sink read v) ∧
      ofLoaded w s here (Grammar.loadInto sink read s.commands) = c := by
  rw [← Grammar.loadInto_fault_eq_none_iff]
  unfold openInto
  dsimp only
  cases (Grammar.loadInto sink read s.commands).fault <;> simp

/-- The context of some settings is the one that is opened if warnings are only kept. -/
theorem openInto_kept : openInto .kept Grammar.ofJson w s here = .ok (ofSettings w s here) :=
  openInto_eq_ok_iff.mpr ⟨fun _ _ hends => hends.2, rfl⟩

end Context

namespace Grammar

/-- **Descriptions that are set aside have no effect but a warning each, unless one of the warnings
cannot be written.**  Opening a context comes to a fault exactly at the first description whose
warning cannot be; it never does if there is room for the labels.  Otherwise the grammars are those
of the good descriptions, in order, there is one warning for each of the others, and what is found
for a name is the grammar of its last good description.  If descriptions are put in anywhere that
give no grammar, and whose warnings can be written, lines on which the same is done stay the same
and run the same. -/
theorem loading_isolates (sink : Sink) (read : Json → Checked Grammar) (w : World) (s : Settings)
    (here : Option Path) :
    (∀ fault, Context.openInto sink read w s here = .error fault ↔
      ∃ before v after, s.commands = before ++ v :: after ∧ (∀ u ∈ before, ¬ Ends sink read u) ∧
        Ends sink read v ∧ fault = ⟨label v⟩) ∧
    ((∀ v ∈ s.commands, (read v).good? = none → sink.HasRoom (label v)) →
      ∃ c, Context.openInto sink read w s here = .ok c) ∧
    ∀ c, Context.openInto sink read w s here = .ok c →
      (loadInto sink read s.commands).warnings =
        (s.commands.filter fun v => (read v).good?.isNone).map sink.warning ∧
      c.grammars = (s.commands.filterMap fun v => (read v).good?) ∧
      c.journal = List.replicate (s.commands.countP fun v => (read v).good?.isNone)
        ⟨.warning, .grammar⟩ ∧
      (∀ name g, find? name c.grammars = some g ↔ LastDescribed read name s.commands g) ∧
      (∀ name, find? name c.grammars = none ↔
        ∀ v ∈ s.commands, ∀ g, read v = .good g → g.name ≠ name) ∧
      ∀ commands, Padded read s.commands commands → (∀ v ∈ commands, ¬ Ends sink read v) →
        ∃ d, Context.openInto sink read w { s with commands } here = .ok d ∧
          d.grammars = c.grammars ∧
          ∀ actions,
            let t := (Session.start c s.capacity).run actions
            let u := (Session.start d s.capacity).run actions
            t.Same u ∧ u.command = t.command := by
  refine ⟨fun fault => Context.openInto_eq_error_iff.trans loadInto_fault_iff, ?_, fun c hc => ?_⟩
  · intro hroom
    refine ⟨_, Context.openInto_eq_ok_iff.mpr ⟨fun v hv hends => ?_, rfl⟩⟩
    exact Sink.not_overflows (hroom v hv hends.1) hends.2
  -- Nothing ends the loading from here on, so that the lists can be written down as a whole.
  obtain ⟨hgoes, rfl⟩ := Context.openInto_eq_ok_iff.mp hc
  have hloaded := loadInto_eq hgoes
  rw [hloaded]
  refine ⟨rfl, rfl, ?_, fun _ _ => find?_good_eq_some_iff, fun _ => find?_good_eq_none_iff, ?_⟩
  · rw [Context.ofLoaded, Loaded.notices, Sink.map_notice_warning, List.countP_eq_length_filter]
  intro commands hpadded hothers
  have hgrammars := hpadded.filterMap_eq
  refine ⟨_, Context.openInto_eq_ok_iff.mpr ⟨hothers, rfl⟩, ?_⟩
  rw [loadInto_eq hothers]
  refine ⟨hgrammars, fun actions => ?_⟩
  intro t u
  -- The two lines differ in the journal of their contexts only.
  have hsame : t.Same u := by
    refine Session.Same.run ?_ actions
    exact ⟨rfl, rfl, rfl, rfl, rfl, rfl, rfl, hgrammars, rfl⟩
  exact ⟨hsame, hsame.value_eq (·.command) fun _ _ => rfl⟩

/-- Warnings are written with room for a thousand values.  A description with one position for two
slots does not hide the good one of its name before it, and neither it nor nothing at all is too
much to write. -/
theorem loading_isolates_sample :
    let good : Json := .object [("name".toList, .text "c".toList)]
    let bad : Json := .object [("name".toList, .text "c".toList),
      ("singleArg".toList, .list [pathSlot "x" 1, pathSlot "y" 1])]
    let s : Settings := { Settings.default with commands := [good] }
    ∃ c d, Context.openInto (.written 1000) ofJson .sample s none = .ok c ∧
      find? "c".toList c.grammars = some ⟨"c".toList, [], ⟨none, none⟩, [], [], []⟩ ∧
      Padded ofJson [good] [.null, good, bad] ∧
      Context.openInto (.written 1000) ofJson .sample { s with commands := [.null, good, bad] }
        none = .ok d ∧
      let t := (Session.start c s.capacity).run [.insert "c a".toList]
      let u := (Session.start d s.capacity).run [.insert "c a".toList]
      t.Same u ∧ u.command = t.command := by
  intro good bad s
  obtain ⟨_, hnull⟩ : ∃ issues, ofJson .null = .bad issues := ⟨_, rfl⟩
  obtain ⟨_, hbad⟩ : ∃ issues, ofJson bad = .bad issues := ⟨_, rfl⟩
  have hpadded : Padded ofJson [good] [.null, good, bad] := .pad hnull (.keep good (.pad hbad .nil))
  obtain ⟨-, hopens, hopened⟩ := loading_isolates (.written 1000) ofJson .sample s none
  obtain ⟨c, hc⟩ := hopens (List.forall_mem_singleton.mpr fun _ => Json.Within.text _)
  obtain ⟨-, -, -, hfound, -, hpad⟩ := hopened c hc
  -- The labels are nothing and the name of the command.
  have hgoes : ∀ v ∈ [.null, good, bad], ¬ Ends (.written 1000) ofJson v := by
    have hfits (v : Json) (h : (Sink.written 1000).HasRoom (label v)) :
        ¬ Ends (.written 1000) ofJson v := fun hends => Sink.not_overflows h hends.2
    simp only [List.forall_mem_cons]
    exact ⟨hfits .null Json.Within.null, hfits good (Json.Within.text _),
      hfits bad (Json.Within.text _), nofun⟩
  obtain ⟨d, hd, -, hlines⟩ := hpad _ hpadded hgoes
  refine ⟨c, d, hc, (hfound _ _).mpr ?_, hpadded, hd, hlines [.insert "c a".toList]⟩
  exact ⟨[], good, [], rfl, rfl, rfl, nofun⟩

/-- **A list in a list, and so on, stops the loading**: it gives no grammar, and writing its warning
takes more room than there is.  There is no context, although the other description is good. -/
theorem loading_stopped :
    let good : Json := .object [("name".toList, .text "c".toList)]
    (∃ g, ofJson good = .good g) ∧ (∃ issues, ofJson (Json.nested 1000) = .bad issues) ∧
      Context.openInto (.written 1000) ofJson .sample
        { Settings.default with commands := [good, Json.nested 1000] } none =
          .error ⟨Json.nested 1000⟩ := by
  intro good
  have hlabel : label (Json.nested 1000) = Json.nested 1000 := rfl
  have hbad : ∃ issues, ofJson (Json.nested 1000) = .bad issues := ⟨_, rfl⟩
  obtain ⟨issues, hread⟩ := hbad
  refine ⟨⟨_, rfl⟩, ⟨issues, hread⟩, Context.openInto_eq_error_iff.mpr ?_⟩
  refine loadInto_fault_iff.mpr ⟨[good], _, [], rfl, ?_, ?_, by rw [hlabel]⟩
  -- The good description does not end the loading; the other one does.
  · exact List.forall_mem_singleton.mpr (not_ends_of_good rfl)
  · refine (ends_of_bad hread).mpr ?_
    exact Json.obstacle?_nested 1000

end Grammar

end Typeahead
