import Typeahead.Proofs.Session.Completion
import Typeahead.Proofs.Suggestion.Best

/-!
# Suggestions are in order

The choices of a suggestion are listed in order and then kept, handed on from one argument to
another, or given up; none of this puts them out of order.  So whatever was done to a line before,
an update that goes well finds for every argument the least choice that starts with what is being
typed of it.

## Main definitions

* `Context.typing` — what is being typed of an argument.
* `Context.Ordered`, `Table.Ordered`, `Session.Ordered` — all choices are in order.

## Main results

* `Table.ordered_refresh` — a refresh keeps a table in order, also one that went wrong.
* `Session.suggestions_perform` — **after an update that went well every argument has a suggestion
  of its kind, with choices in order and with what fits best of them.**
-/

namespace Typeahead

namespace Context

/-- What is being typed of an argument: of a path the name behind its directory, and nothing if it
points nowhere; of any other argument all of it. -/
def typing (c : Context) (kind : ArgumentKind) (argument : Text) : Text :=
  match kind with
  | .path =>
    match c.target argument with
    | .ok (some target) => target.typed
    | _ => []
  | _ => argument

/-- The programs are in order, if they can be told. -/
def Ordered (c : Context) : Prop := ∀ names, c.programs.2 = .ok names → names.Pairwise (· < ·)

variable {c d : Context} {argument : Text} {r : Reading} {s : Suggestion}

theorem Alike.typing_eq (h : Alike c d) (kind : ArgumentKind) (argument : Text) :
    d.typing kind argument = c.typing kind argument := by
  simp only [typing, h.target_eq]

theorem programs_answer (c : Context) :
    c.programs.2 =
      match c.catalog.known with
      | some known => .ok known
      | none => (c.catalog.gather c.world).2 :=
  c.catalog.names_answer c.world

theorem ordered_of_gathered (h : c.catalog.Gathered) : c.Ordered := by
  intro names hnames
  rw [programs_answer] at hnames
  cases hknown : c.catalog.known with
  | some known =>
    rw [hknown] at hnames
    cases hnames
    obtain ⟨w, hgather⟩ := h names hknown
    exact Catalog.pairwise_gather hgather
  | none =>
    rw [hknown] at hnames
    exact Catalog.pairwise_gather hnames

theorem Ordered.of_alike (h : c.Ordered) (halike : c.Alike d) : d.Ordered := by
  intro names hnames
  rw [halike.programs] at hnames
  exact h names hnames

/-- In another world the programs are those known from before, or they are gathered there. -/
theorem Ordered.inWorld (h : c.Ordered) (w : World) : Ordered { c with world := w } := by
  intro names hnames
  rw [programs_answer] at hnames
  cases hknown : c.catalog.known with
  | some known =>
    rw [hknown] at hnames
    apply h names
    rw [programs_answer, hknown]
    exact hnames
  | none =>
    rw [hknown] at hnames
    exact Catalog.pairwise_gather hnames

/-- A new suggestion has choices in order, and what fits best was looked up among them. -/
theorem focused_of_suggest (hc : c.Ordered) (h : (c.suggest argument r).2 = .ok s) :
    ∃ u : Suggestion, u.choices.Pairwise (· < ·) ∧ s = u.focus (c.typing r.kind argument) := by
  rw [suggest_snd] at h
  -- The choices are those of the catalog, of a directory, or none.
  cases hkind : r.kind with
  | program =>
    simp only [hkind] at h
    cases hnames : c.programs.2 with
    | error fault => rw [hnames] at h; cases h
    | ok names =>
      rw [hnames] at h
      cases h
      exact ⟨_, hc names hnames, rfl⟩
  | path =>
    simp only [hkind] at h
    simp only [typing]
    cases htarget : c.target argument with
    | error fault => rw [htarget] at h; cases h
    | ok target =>
      rw [htarget] at h
      cases h
      cases target with
      | none => exact ⟨_, List.Pairwise.nil, rfl⟩
      | some target => exact ⟨_, c.world.pairwise_choices target.directory, rfl⟩
  | text =>
    simp only [hkind] at h
    cases h
    exact ⟨_, List.Pairwise.nil, rfl⟩

/-- A suggestion brought up to date without a fault has choices in order if it had before, and what
fits best was looked up among them. -/
theorem focused_of_renew (hc : c.Ordered) (hs : s.choices.Pairwise (· < ·))
    (h : (c.renew argument r s).fault = none) :
    ∃ u : Suggestion, u.choices.Pairwise (· < ·) ∧
      (c.renew argument r s).suggestion = u.focus (c.typing r.kind argument) := by
  cases hkind : r.kind with
  | program =>
    simp only [renew, hkind] at h ⊢
    split at h
    next hscope =>
      rw [if_pos hscope]
      refine ⟨_, ?_, rfl⟩
      simpa only [hscope, if_true] using hs
    next hscope =>
      rw [if_neg hscope]
      rw [programs_eq] at h ⊢
      cases hnames : c.programs.2 with
      | error fault => rw [hnames] at h; cases h
      | ok names =>
        refine ⟨_, ?_, rfl⟩
        simpa only [hscope, if_false] using hc names hnames
  | path =>
    cases htarget : c.target argument with
    | error fault =>
      simp only [renew, hkind, htarget] at h
      cases h
    | ok target =>
      rw [renew_path hkind htarget]
      simp only [typing, htarget]
      cases target with
      | none => exact ⟨_, List.Pairwise.nil, rfl⟩
      | some target =>
        -- The choices are kept, or the directory is listed.
        simp only [Suggestion.renewTarget]
        split
        · exact ⟨{ s with placeholder := r.placeholder, skip := target.skip }, hs, rfl⟩
        · refine ⟨_, ?_, rfl⟩
          exact c.world.pairwise_choices target.directory
  | text =>
    simp only [renew, hkind]
    exact ⟨{ s with placeholder := r.placeholder }, hs, rfl⟩

end Context

namespace Table

/-- A table in which all choices are in order. -/
def Ordered (table : Table) : Prop := ∀ entry ∈ table, entry.2.choices.Pairwise (· < ·)

variable {c : Context} {items : List (Text × Reading)} {table : Table} {argument : Text}
  {r : Reading} {before : Option (ArgumentKind × Suggestion)} {entry : ArgumentKind × Suggestion}

/-- A treatment without a fault leaves an entry of the argument's kind with what fits best. -/
theorem bestOf_treat (hc : c.Ordered) (hbefore : ∀ e ∈ before, e.2.choices.Pairwise (· < ·))
    (hfault : (treat c argument r before).fault = none)
    (hentry : (treat c argument r before).entry = some entry) :
    entry.1 = r.kind ∧ entry.2.choices.Pairwise (· < ·) ∧
      entry.2.BestOf (c.typing r.kind argument) := by
  -- Made anew or kept from before, it has been focused on what is typed.
  have hfocused : ∃ u : Suggestion, u.choices.Pairwise (· < ·) ∧
      entry = (r.kind, u.focus (c.typing r.kind argument)) := by
    rcases treat_eq c argument r before with hanew | ⟨s, hold, hrenewed⟩
    · rw [hanew] at hfault hentry
      unfold treatAnew at hfault hentry
      cases hs : (c.suggest argument r).2 with
      | error fault => rw [hs] at hfault; cases hfault
      | ok s =>
        rw [hs] at hentry
        cases hentry
        obtain ⟨u, hu, rfl⟩ := Context.focused_of_suggest hc hs
        exact ⟨u, hu, rfl⟩
    · rw [hrenewed] at hfault hentry
      cases hentry
      obtain ⟨u, hu, heq⟩ := Context.focused_of_renew hc (hbefore _ hold) hfault
      exact ⟨u, hu, by rw [heq]⟩
  obtain ⟨u, hu, rfl⟩ := hfocused
  exact ⟨rfl, hu, Suggestion.bestOf_focus hu _⟩

/-- A treatment leaves choices in order, also if there was a fault. -/
theorem ordered_treat (hc : c.Ordered) (hbefore : ∀ e ∈ before, e.2.choices.Pairwise (· < ·))
    (hentry : (treat c argument r before).entry = some entry) :
    entry.2.choices.Pairwise (· < ·) := by
  cases hfault : (treat c argument r before).fault with
  | none => exact (bestOf_treat hc hbefore hfault hentry).2.1
  | some fault =>
    -- Behind a fault the choices are those of the entry before.
    rcases treat_eq c argument r before with hanew | ⟨s, hold, hrenewed⟩
    · rw [hanew] at hfault hentry
      unfold treatAnew at hfault hentry
      cases hs : (c.suggest argument r).2 with
      | ok s => rw [hs] at hfault; cases hfault
      | error fault =>
        rw [hs] at hentry
        exact hbefore entry hentry
    · rw [hrenewed] at hfault hentry
      cases hentry
      rw [Suggestion.renew_of_fault hfault]
      exact hbefore (r.kind, s) hold

theorem Ordered.getElem? {i : Nat} (h : Ordered table) :
    ∀ e ∈ table[i]?, e.2.choices.Pairwise (· < ·) :=
  fun e he => h e (List.mem_of_getElem? he)

/-- **A refresh keeps a table in order**, also one that went wrong. -/
theorem ordered_refresh (hc : c.Ordered) (h : Ordered table) :
    Ordered (refresh c items table).table := by
  intro entry hentry
  obtain ⟨i, hi⟩ := List.getElem?_of_mem hentry
  rcases entry_refresh hi with ⟨argument, r, d, -, halike, htreated, -⟩ | ⟨-, hold⟩
  · exact ordered_treat (hc.of_alike halike) h.getElem? htreated
  · exact h entry (List.mem_of_getElem? hold)

theorem ordered_unfocused_iff : Ordered table.unfocused ↔ Ordered table := by
  simp only [Ordered, unfocused, List.forall_mem_map]
  rfl

end Table

namespace Session

/-- The programs and all choices of the line are in order. -/
structure Ordered (s : Session) : Prop where
  context : s.context.Ordered
  table : s.analysis.table.Ordered

variable {s t : Session}

theorem Ordered.of_drafted (h : Ordered s) (hdrafted : Drafted s t) : Ordered t := by
  refine ⟨h.context.of_alike hdrafted.context, ?_⟩
  rcases hdrafted.table with htable | hnone
  · rw [← Table.ordered_unfocused_iff, htable, Table.ordered_unfocused_iff]
    exact h.table
  · rw [hnone]
    exact fun _ hentry => nomatch hentry

theorem Ordered.noticed (h : Ordered s) : s.noticed.Ordered := h.context.of_alike s.alike_noticed

protected theorem Ordered.update (h : Ordered s) : Ordered s.update.session :=
  ⟨h.context.of_alike s.alike_update, Table.ordered_refresh h.noticed h.table⟩

/-- **Whatever happens to a line, its choices stay in order.** -/
theorem ordered_follow {context : Context} (h : context.catalog.Gathered) (capacity : Int)
    (events : List Event) : Ordered ((start context capacity).follow events) := by
  have hstart : Ordered (start context capacity) :=
    ⟨Context.ordered_of_gathered h, fun _ hentry => nomatch hentry⟩
  refine follow_induction hstart ?_ ?_ ?_ ?_ events
  · intro s t hs hdraft
    exact (hs.of_drafted (.of_draft hdraft)).update
  · intro s t hs hspared
    exact hs.of_drafted hspared.drafted
  · intro s w hs
    exact ⟨hs.context.inWorld w, hs.table⟩
  · intro s here hs
    exact ⟨hs.context, hs.table⟩

/-- The items of a line are its arguments with their readings. -/
theorem getElem?_items_update {i : Nat} {argument : Text} {r : Reading}
    (h : s.items[i]? = some (argument, r)) :
    s.update.session.arguments[i]? = some argument ∧
      s.update.session.analysis.readings[i]? = some r :=
  List.getElem?_zip_eq_some.mp h

/-- **After an update that went well every argument has a suggestion of its kind, with choices in
order and with what fits best of them.**  This is so after any events, failed actions among them,
with a catalog that knows no programs yet or those of some world: what fits best is the placeholder
as long as nothing is being typed and there is one, and otherwise the least of the choices that
start with what is being typed. -/
theorem suggestions_perform (context : Context) (capacity : Int) (events : List Event) (a : Action)
    (h : context.catalog.Gathered)
    (hupdated : (((start context capacity).follow events).draft? a).isSome)
    (hok : (((start context capacity).follow events).perform a).answer.isOk) :
    let t := (((start context capacity).follow events).perform a).session
    t.analysis.table.length = t.count ∧ t.analysis.readings.length = t.count ∧
      ∀ (i : Nat) (argument : Text) (r : Reading) (kind : ArgumentKind) (suggestion : Suggestion),
        t.arguments[i]? = some argument → t.analysis.readings[i]? = some r →
          t.analysis.table[i]? = some (kind, suggestion) →
            kind = r.kind ∧ suggestion.choices.Pairwise (· < ·) ∧
            suggestion.BestOf (t.context.typing kind argument) := by
  intro t
  obtain ⟨draft, hdraft⟩ := Option.isSome_iff_exists.mp hupdated
  have hfollows := perform_of_draft hdraft
  have hsession : t = draft.update.session := hfollows.1
  -- The update came to an end, so that every entry was treated in it.
  have hfault := update_answer_eq_ok_iff.mp (hfollows.update_of_isOk hok)
  have hordered : Ordered draft :=
    (ordered_follow h capacity events).of_drafted (.of_draft (.of_draft hdraft))
  refine ⟨length_table_of_perform hdraft hok, ?_, ?_⟩
  · rw [hsession]
    exact (Reading.length_ofArguments _ _).trans (List.length_map _)
  · rw [hsession]
    intro i argument r kind suggestion hargument hreading hentry
    -- An entry that was treated belongs to the argument and the reading at its place.
    rcases Table.entry_refresh hentry with ⟨argument', r', d, hitem, halike, htreated, hgood⟩ | hold
    · obtain ⟨hargument', hreading'⟩ := getElem?_items_update hitem
      rw [hargument] at hargument'
      rw [hreading] at hreading'
      cases hargument'
      cases hreading'
      obtain ⟨hkind, hchoices, hbest⟩ := Table.bestOf_treat (hordered.noticed.of_alike halike)
        hordered.table.getElem? (hgood hfault) htreated
      have halike' : d.Alike draft.update.session.context :=
        halike.symm.trans (draft.alike_noticed.symm.trans draft.alike_update)
      change kind = r.kind at hkind
      rw [halike'.typing_eq, hkind]
      exact ⟨rfl, hchoices, hbest⟩
    · exact absurd hfault hold.1

/-- A name is typed on behind a directory that was listed before paths were seen from another. -/
theorem suggestions_perform_sample :
    let s := (start .sample 80).follow
      [.act (.insert ['a', ' ', '/', 'd', '/']), .visit ⟨.single, [['b']]⟩]
    let t := (s.perform (.insert ['x'])).session
    let suggestion : Suggestion :=
      ⟨[['x']], none, some (.directory ⟨.single, [['d']]⟩), 3, some ['x']⟩
    t.analysis.table[1]? = some (.path, suggestion) ∧ suggestion.BestOf ['x'] := by
  intro s t suggestion
  have hentry : t.analysis.table[1]? = some (.path, suggestion) := by decide +kernel
  obtain ⟨-, -, hall⟩ := suggestions_perform .sample 80
    [.act (.insert ['a', ' ', '/', 'd', '/']), .visit ⟨.single, [['b']]⟩] (.insert ['x'])
    nofun (by decide +kernel) (by decide +kernel)
  have hargument : t.arguments[1]? = some ['/', 'd', '/', 'x'] := by decide +kernel
  have hreading : t.analysis.readings[1]? = some .plainPath := by decide +kernel
  exact ⟨hentry, (hall 1 _ _ _ _ hargument hreading hentry).2.2⟩

end Session

end Typeahead
