import Typeahead.Proofs.Line.Reading
import Typeahead.Proofs.Session.Bounds
import Typeahead.Proofs.Session.Build

/-!
# An updated line and a new one

Suggestions are kept from one update to the next while arguments appear, vanish and change their
kind, and an update that fails leaves some of them behind that belong to another text.  None of this
can be told from the line once an update went well: as long as the world stays the same, all that is
known about it is what a new line with that text and that caret would be known by.

## Main definitions

* `Session.items` — the arguments of a line with their readings.
* `Session.typed` — a new line that is given a text at once.

## Main results

* `Session.table_update` — an update of a line with a settled table builds the table of its items.
* `Session.perform_eq_typed` — **an action leaves what a new line would have, and fails exactly
  where a new line would.**
-/

namespace Typeahead

namespace Session

/-- The arguments of a line with their readings. -/
def items (s : Session) : List (Text × Reading) :=
  let arguments := Line.arguments s.text
  arguments.zip (Reading.ofArguments (s.context.grammarFor (arguments.headD [])) arguments)

/-- A new line in a context that is given a text at once and has its caret placed. -/
def typed (context : Context) (capacity : Int) (t : Text) (caret : Nat) : Session :=
  ((start context capacity).insertAll t).place caret

theorem shown_items (s : Session) : Table.Shown s.items := fun _ hitem =>
  Reading.placeholder_ne_of_mem (List.of_mem_zip hitem).2

/-- The context in which an update refreshes the table: a change of the grammar is noticed first. -/
def noticed (s : Session) : Context :=
  s.context.note
    (grammarNotice s.analysis.grammar (s.context.grammarFor ((Line.arguments s.text).headD [])))

/-- The refresh that an update of a line makes. -/
def refreshed (s : Session) : Refreshed := Table.refresh s.noticed s.items s.analysis.table

/-- The analysis of a line with a given table. -/
def analysisWith (s : Session) (table : Table) : Analysis :=
  let arguments := Line.arguments s.text
  let grammar := s.context.grammarFor (arguments.headD [])
  { spans := Line.spans s.text
    quotes := Line.quotes s.text
    current := Line.indexAt s.text s.caret
    grammar, table
    readings := Reading.ofArguments grammar arguments }

/-- **What an update does**: it sets the analysis and the context and leaves the line alone. -/
theorem update_session (s : Session) :
    s.update.session =
      { s with context := s.refreshed.context, analysis := s.analysisWith s.refreshed.table } := rfl

theorem update_answer (s : Session) : s.update.answer = unlessFault s.refreshed.fault () := rfl

/-- An update goes well exactly if its refresh has no fault. -/
theorem update_answer_eq_ok_iff {s : Session} :
    s.update.answer = .ok () ↔ s.refreshed.fault = none := by
  simp only [update_answer, unlessFault_eq_ok_iff, and_true]

theorem alike_noticed (s : Session) : s.context.Alike s.noticed := s.context.alike_note _

/-- An update leaves a context that looks alike. -/
theorem alike_update (s : Session) : s.context.Alike s.update.session.context :=
  s.alike_noticed.trans (Table.alike_refresh _ _ _)

theorem analysisWith_congr {s t : Session} (halike : s.context.Alike t.context)
    (htext : t.text = s.text) (hcaret : t.caret = s.caret) (table : Table) :
    t.analysisWith table = s.analysisWith table := by
  have hgrammar : ∀ name, t.context.grammarFor name = s.context.grammarFor name :=
    halike.grammarFor_eq
  simp only [analysisWith, htext, hcaret, hgrammar]

theorem items_congr {s t : Session} (halike : s.context.Alike t.context)
    (htext : t.text = s.text) : t.items = s.items := by
  have hgrammar : ∀ name, t.context.grammarFor name = s.context.grammarFor name :=
    halike.grammarFor_eq
  simp only [items, htext, hgrammar]

/-! ### Settled lines -/

/-- Every suggestion of the line has the choices of its scope. -/
def Settled (s : Session) : Prop := Table.Settled s.context s.analysis.table

theorem Settled.noticed {s : Session} (h : Settled s) :
    Table.Settled s.noticed s.analysis.table := h.of_alike s.alike_noticed

theorem Settled.update {s : Session} (h : Settled s) : Settled s.update.session :=
  Table.settled_refresh h.noticed s.shown_items

theorem Settled.of_drafted {s t : Session} (h : Settled s) (hdrafted : Drafted s t) :
    Settled t := by
  rcases hdrafted.table with htable | hnone
  · exact Table.Settled.of_unfocused (Table.Settled.of_alike h hdrafted.context) htable
  · unfold Settled
    rw [hnone]
    exact Table.settled_nil _

/-- An update of a settled line builds the table of its items, and fails where that cannot be
done. -/
theorem table_update {s : Session} (h : Settled s) :
    unlessFault s.refreshed.fault s.refreshed.table = Table.build s.context s.items := by
  rw [← Table.build_of_alike s.alike_noticed]
  exact Table.refresh_eq_build h.noticed s.shown_items

/-- **Two settled lines of one text in alike contexts become the same by an update**, or fail with
the same fault. -/
theorem update_congr {s t : Session} (hs : Settled s) (ht : Settled t)
    (halike : s.context.Alike t.context) (htext : t.text = s.text) (hcaret : t.caret = s.caret) :
    t.update.answer = s.update.answer ∧
      (s.update.answer = .ok () → t.update.session.analysis = s.update.session.analysis) := by
  have htable : unlessFault t.refreshed.fault t.refreshed.table =
      unlessFault s.refreshed.fault s.refreshed.table := by
    rw [table_update hs, table_update ht, items_congr halike htext, Table.build_of_alike halike]
  rw [update_answer, update_answer, update_session, update_session]
  dsimp only
  rw [analysisWith_congr halike htext hcaret]
  cases hfault : s.refreshed.fault <;> cases hfault' : t.refreshed.fault <;>
    rw [hfault, hfault'] at htable
  next => exact ⟨rfl, fun _ => by rw [Except.ok.inj htable]⟩
  next => cases htable
  next => cases htable
  next => exact ⟨by rw [Except.error.inj htable], fun h => nomatch h⟩

/-! ### Lines that come about -/

/-- What every line that comes about in an unchanging world is: settled, within its bounds, of the
given capacity, and in a context alike the one it started in. -/
structure Steady (context : Context) (capacity : Int) (s : Session) : Prop where
  settled : Settled s
  bounds : InBounds s
  context : context.Alike s.context
  capacity : s.capacity = capacity

variable {context : Context} {capacity : Int}

theorem Steady.of_drafted {s t : Session} (h : Steady context capacity s) (hdrafted : Drafted s t)
    (hbounds : InBounds t) : Steady context capacity t :=
  ⟨h.settled.of_drafted hdrafted, hbounds, h.context.trans hdrafted.context,
    hdrafted.capacity.trans h.capacity⟩

theorem Steady.of_draft {s t : Session} (h : Steady context capacity s) (hdraft : Draft s t) :
    Steady context capacity t :=
  h.of_drafted (.of_draft hdraft) (h.bounds.of_draft hdraft)

theorem Steady.update {s : Session} (h : Steady context capacity s) :
    Steady context capacity s.update.session :=
  ⟨h.settled.update, h.bounds.update, h.context.trans s.alike_update, h.capacity⟩

theorem steady_start (context : Context) (capacity : Int) :
    Steady context capacity (start context capacity) :=
  ⟨Table.settled_nil _, .start context capacity, .refl context, rfl⟩

theorem steady_run (context : Context) (capacity : Int) (actions : List Action) :
    Steady context capacity ((start context capacity).run actions) :=
  run_induction (steady_start context capacity) (fun _ _ h hdraft => (h.of_draft hdraft).update)
    (fun _ _ h hspared => h.of_drafted hspared.drafted (h.bounds.of_spared hspared)) actions

/-- A new line takes every text that fits and places the caret in it as asked. -/
theorem typed_of_inBounds {s : Session} (h : InBounds s) (context : Context) :
    (typed context s.capacity s.text s.caret).text = s.text ∧
      (typed context s.capacity s.text s.caret).caret = s.caret := by
  have hfits := h.fits
  have hcaret := h.caret
  have htext : ((start context s.capacity).insertAll s.text).text = s.text := by
    unfold insertAll
    split
    next hfull =>
      -- Only the empty text can be too long for a new line, and it is there already.
      have hnil : s.text.length = 0 := by
        simp only [start, List.length_nil] at hfull
        omega
      exact (List.length_eq_zero_iff.mp hnil).symm
    next => simp [splice, start]
  refine ⟨htext, ?_⟩
  simp only [typed, place, clamp, htext]
  omega

theorem steady_typed (context : Context) (capacity : Int) (t : Text) (caret : Nat) :
    Steady context capacity (typed context capacity t caret) :=
  (steady_start context capacity).of_drafted ((Drafted.insertAll _ t).trans (.place _ _))
    (((InBounds.start context capacity).insertAll t).place caret)

/-- **An action leaves what a new line would have.**  After any actions in a world that stays the
same, failed ones among them, let an action with a draft be carried out.  It fails exactly with the
faults with which updating a new line of the resulting text and caret fails; and if it does not
fail, the whole analysis is that of the new line, in a context that has not been used before as well
as in the one at hand. -/
theorem perform_eq_typed (context : Context) (capacity : Int) (actions : List Action) (a : Action)
    (draft : Session) (h : ((start context capacity).run actions).draft? a = some draft) :
    let outcome := ((start context capacity).run actions).perform a
    ∀ c ∈ [context, draft.context],
      let fresh := typed c capacity outcome.session.text outcome.session.caret
      fresh.text = outcome.session.text ∧ fresh.caret = outcome.session.caret ∧
        (∀ fault, outcome.answer = .error fault ↔ fresh.update.answer = .error fault) ∧
          (outcome.answer.isOk → outcome.session.analysis = fresh.update.session.analysis) := by
  intro outcome c hc fresh
  have hdraft := (steady_run context capacity actions).of_draft (.of_draft h)
  have hfollows := perform_of_draft h
  have hsession : outcome.session = draft.update.session := hfollows.1
  have htext : outcome.session.text = draft.text := by simp only [outcome, hsession, update_session]
  have hcaret : outcome.session.caret = draft.caret := by
    simp only [outcome, hsession, update_session]
  have hfresh : fresh = typed c draft.capacity draft.text draft.caret := by
    simp only [fresh, htext, hcaret, hdraft.capacity]
  have halike : draft.context.Alike c := by
    simp only [List.mem_cons, List.not_mem_nil, or_false] at hc
    rcases hc with rfl | rfl
    · exact hdraft.context.symm
    · exact .refl _
  -- The new line is settled too, so the two updates build the same table.
  have hnew := steady_typed c draft.capacity draft.text draft.caret
  obtain ⟨htext', hcaret'⟩ := typed_of_inBounds hdraft.bounds c
  obtain ⟨hsame, hanalysis⟩ := update_congr hdraft.settled hnew.settled
    (halike.trans hnew.context) htext' hcaret'
  rw [hfresh, htext, hcaret]
  refine ⟨htext', hcaret', ?_, ?_⟩
  · intro fault
    rw [hsame]
    exact hfollows.error_iff
  · intro hok
    rw [hsession]
    exact (hanalysis (hfollows.update_of_isOk hok)).symm

/-- A word is taken out behind which an update failed and left the table too short. -/
theorem perform_eq_typed_sample :
    let s := (start .sample 80).run
      [.insert ['l', ' ', 'd', '/'], .insert [' ', '/', 'p', '/', 'q', '/']]
    let outcome := s.perform (.delete .left .word)
    s.analysis.table.length < s.count ∧
      ∃ draft, s.draft? (.delete .left .word) = some draft ∧ outcome.answer.isOk ∧
        ∀ c ∈ [Context.sample, draft.context],
          outcome.session.analysis =
            (typed c 80 outcome.session.text outcome.session.caret).update.session.analysis := by
  refine ⟨by decide +kernel, _, rfl, rfl, ?_⟩
  intro c hc
  exact (perform_eq_typed _ _ _ _ _ rfl c hc).2.2.2 rfl

end Session

end Typeahead
