import Typeahead.Proofs.Session.Answer
import Typeahead.Proofs.Session.Same

/-!
# A choice that is refused

A choice made from a list is set as what fits the current argument best before it is known whether
it can be put in.  If it cannot, the answer is no and the action ends there, without an update that
would work out anew what fits best.  So the choice stays set.  Everything else is as it was; but the
next attempt to complete the argument is refused for the choice that was, and not for what fits.

## Main results

* `Session.same_of_refused` — a refused choice leaves the line with the choice set.
* `Session.refused_unchanged_iff` — **a refused choice leaves no trace exactly if it was what fitted
  best already**, or if there was no suggestion to set it in.
-/

namespace Typeahead

/-- Setting what fits best changes nothing exactly if it is that already. -/
theorem Table.setBest_eq_self_iff {table : Table} {i : Nat} {best : Option Text} :
    table.setBest i best = table ↔ ∀ entry ∈ table[i]?, entry.2.best = best := by
  have hset : (table.setBest i best)[i]? =
      table[i]?.map fun entry => (entry.1, { entry.2 with best }) := by
    simp only [setBest, List.getElem?_modify, if_true, Option.map_eq_map]
  constructor
  · intro hsame entry hentry
    rw [Option.mem_def] at hentry
    rw [hsame, hentry, Option.map_some, Option.some.injEq] at hset
    exact congrArg (·.2.best) hset
  · intro hbest
    refine List.ext_getElem? fun j => ?_
    by_cases hj : i = j
    · subst hj
      rw [hset]
      cases hentry : table[i]? with
      | none => rfl
      | some entry => rw [Option.map_some, ← hbest entry hentry]
    · simp only [setBest, List.getElem?_modify, hj, if_false, id_map']

namespace Session

variable {s t : Session} {choice : Text} {i : Nat}

/-- Setting by hand what fits best is setting it in the table, also where there is no entry for
it. -/
theorem same_setBest (s : Session) (i : Nat) (best : Option Text) :
    Same { s with analysis := { s.analysis with table := s.analysis.table.setBest i best } }
      (s.setBest i best) := by
  unfold setBest
  split
  · exact .refl _
  next habsent =>
    have hnone : s.analysis.table[i]? = none := List.getElem?_eq_none (by simpa using habsent)
    have hsame : s.analysis.table.setBest i best = s.analysis.table := by
      rw [Table.setBest_eq_self_iff, hnone]
      exact nofun
    rw [hsame]
    exact .noteLine s

/-- An attempt to complete that was refused has left the line the same. -/
theorem same_of_accept_refused (h : s.accept.answer = .ok false) : Same s s.accept.session := by
  rw [accept_eq] at h ⊢
  cases hdraft : s.completed? with
  | none => exact .currentArgument s
  | some t =>
    rw [hdraft] at h
    simp only [updateWith] at h
    cases hupdate : t.update.answer with
    | error fault => rw [hupdate] at h; cases h
    | ok _ => rw [hupdate] at h; cases h

/-- In an empty line no choice is refused. -/
theorem exists_index_of_refused (h : (s.choose choice).answer = .ok false) :
    ∃ i, s.currentIndex? = some i ∧ s.choose choice = (s.setBest i (some choice)).accept := by
  unfold choose at h ⊢
  cases hindex : s.currentIndex? with
  | some i => exact ⟨i, rfl, rfl⟩
  | none =>
    rw [hindex] at h
    dsimp only at h
    cases hanswer : (s.insert choice).answer with
    | error fault => rw [hanswer] at h; cases h
    | ok _ => rw [hanswer] at h; cases h

/-- **A refused choice leaves the line with the choice set** as what fits best. -/
theorem same_of_refused (h : (s.perform (.choose choice)).answer = .ok (some false)) :
    ∃ i, s.currentIndex? = some i ∧
      Same (s.setBest i (some choice)) (s.perform (.choose choice)).session ∧
      (s.setBest i (some choice)).accept.answer = .ok false := by
  have hanswer : (s.choose choice).answer = .ok false := answer_of_told h
  obtain ⟨i, hindex, hchoose⟩ := exists_index_of_refused hanswer
  have hrefused : (s.setBest i (some choice)).accept.answer = .ok false := hchoose ▸ hanswer
  refine ⟨i, hindex, ?_, hrefused⟩
  have hsession : (s.perform (.choose choice)).session =
      (s.setBest i (some choice)).accept.session := congrArg Outcome.session hchoose
  rw [hsession]
  exact same_of_accept_refused hrefused

/-- **A refused choice leaves no trace exactly if it was what fitted best already**, or if there was
no suggestion to set it in.  Of any line let a choice be refused.  Then there is a current argument,
and the line is as it was with the choice set in its suggestion, so that completing the argument is
refused too and leaves the line the same.  That is the line of before exactly if nothing had to be
set; and then whatever is done next is answered as if no choice had been made, and leaves the same
line. -/
theorem refused_unchanged_iff (s : Session) (choice : Text)
    (h : (s.perform (.choose choice)).answer = .ok (some false)) :
    let t := (s.perform (.choose choice)).session
    ∃ i, s.currentIndex? = some i ∧
      Same { s with
          analysis := { s.analysis with table := s.analysis.table.setBest i (some choice) } } t ∧
      (t.perform .accept).answer = .ok (some false) ∧ Same t (t.perform .accept).session ∧
      (Same s t ↔ ∀ entry ∈ s.analysis.table[i]?, entry.2.best = some choice) ∧
      (Same s t → ∀ (actions : List Action) (a : Action),
        Outcome.Same ((s.run actions).perform a) ((t.run actions).perform a)) := by
  intro t
  obtain ⟨i, hindex, hset, hrefused⟩ := same_of_refused h
  have htable := (same_setBest s i (some choice)).trans hset
  -- Completing after the refusal is completing where the choice is set, which was refused.
  obtain ⟨hanswer, -⟩ := hset.accept
  have hagain : t.accept.answer = .ok false := hanswer.trans hrefused
  refine ⟨i, hindex, htable, ?_, same_of_accept_refused hagain, ?_, ?_⟩
  · simp only [perform, told, hagain]
    rfl
  · rw [← Table.setBest_eq_self_iff]
    constructor
    · intro hsame
      have hanalysis := htable.analysis.symm.trans hsame.analysis
      exact congrArg Analysis.table hanalysis
    · intro htable'
      rw [htable'] at htable
      exact htable
  · intro hsame actions a
    exact (hsame.run actions).perform a

/-- A program whose name is complete is refused, and everything goes on as before. -/
theorem refused_unchanged_iff_sample :
    let s := (start .sample 80).run [.insert ['l', 's']]
    let t := (s.perform (.choose ['l', 's'])).session
    (s.perform (.choose ['l', 's'])).answer = .ok (some false) ∧ Same s t ∧
      ((s.run [.insert ['x']]).perform (.delete .left .character)).session.text = ['l', 's'] ∧
      Outcome.Same ((s.run [.insert ['x']]).perform (.delete .left .character))
        ((t.run [.insert ['x']]).perform (.delete .left .character)) := by
  intro s t
  have hrefused : (s.perform (.choose ['l', 's'])).answer = .ok (some false) := by decide +kernel
  have hindex' : s.currentIndex? = some 0 := by decide +kernel
  have hbest : (s.analysis.table[0]?).map (·.2.best) = some (some ['l', 's']) := by decide +kernel
  obtain ⟨i, hindex, -, -, -, hiff, hnext⟩ := refused_unchanged_iff s ['l', 's'] hrefused
  obtain rfl : i = 0 := Option.some.inj (hindex.symm.trans hindex')
  have hsame : Same s t := hiff.mpr fun entry hentry => by
    rw [Option.mem_def.mp hentry, Option.map_some] at hbest
    exact Option.some.inj hbest
  exact ⟨hrefused, hsame, by decide +kernel, hnext hsame _ _⟩

/-- A choice that does not go on what was typed stays set after its refusal, and the argument is not
completed any more. -/
theorem refused_stays :
    let s := (start .sample 80).run [.insert ['l']]
    let t := (s.perform (.choose ['z'])).session
    (s.perform (.choose ['z'])).answer = .ok (some false) ∧
      (s.analysis.table.map (·.2.best), t.analysis.table.map (·.2.best)) =
        ([some ['l', 's']], [some ['z']]) ∧
      ((s.perform .accept).answer, (s.perform .accept).session.text) =
        (.ok (some true), ['l', 's']) ∧
      ((t.perform .accept).answer, (t.perform .accept).session.text) =
        (.ok (some false), ['l']) := by
  refine ⟨?_, ?_, ?_, ?_⟩ <;> decide +kernel

end Session

end Typeahead
