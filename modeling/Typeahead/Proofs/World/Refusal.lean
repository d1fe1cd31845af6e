import Typeahead.Suggestion.Target

/-!
# Refused lookups

Whether a path names a directory is answered with a no if there is nothing of the kind.  But the
question is refused where access is denied on the way, and where a component or the whole path is
too long; then there is no answer at all.

## Main definitions

* `World.Refuses` — the lookup of a path is refused.
* `Target.Refused` — the lookup that the target of an argument needs is refused.

## Main results

* `FileTree.walk_fault` — the faults that a walk can meet.
* `World.isDirectory_eq_error_iff` — the question for a directory fails exactly if it is refused.
* `Target.resolve_eq_error_iff` — the same for the target of an argument.
-/

namespace Typeahead

/-- The faults that a walk along existing and missing components can meet. -/
def PathFault.OnTheWay (fault : PathFault) : Prop :=
  fault = .missing ∨ fault = .notDirectory ∨ fault = .denied ∨ fault = .tooLong ∨ fault = .linkLoop

/-- The faults by which a question about a path is refused. -/
def PathFault.IsRefusal (fault : PathFault) : Prop := fault = .denied ∨ fault = .tooLong

namespace FileTree

open PathFault

variable {files : FileTree} {here : Location} {fault : PathFault}

theorem stride_fault {component : Text} (h : files.stride here component = .error fault) :
    fault.OnTheWay := by
  -- Of the branches of a stride each ends in a fault of the list or does not end in one.
  unfold stride at h
  unfold OnTheWay
  repeat' split at h
  all_goals first
    | (cases h; simp)
    | cases h

theorem walkWith_fault {purpose : Purpose}
    {follow : Location → List Text → Except PathFault Location}
    (hfollow : ∀ {here rest fault}, follow here rest = .error fault → fault.OnTheWay)
    {components : List Text}
    (h : files.walkWith purpose follow here components = .error fault) : fault.OnTheWay := by
  -- By induction on the components; behind a link the walk that follows it answers for the rest.
  induction components generalizing here with
  | nil => cases h
  | cons component rest ih =>
    simp only [walkWith] at h
    cases hstride : files.stride here component with
    | error met =>
      rw [hstride] at h
      cases h
      exact stride_fault hstride
    | ok stride =>
      rw [hstride] at h
      cases stride with
      | arrive next => exact ih h
      | follow target => exact hfollow h
      | vacant place =>
        dsimp only at h
        split at h
        · cases h
        · cases h
          exact Or.inl rfl

/-- A walk can only meet the faults on the way. -/
theorem walk_fault {purpose : Purpose} {links : Nat} {components : List Text}
    (h : files.walk purpose links here components = .error fault) : fault.OnTheWay := by
  induction links generalizing here components fault with
  | zero =>
    -- No link may be followed any more.
    refine walkWith_fault ?_ h
    intro here rest fault hfollow
    cases hfollow
    simp [OnTheWay]
  | succ links ih => exact walkWith_fault ih h

end FileTree

namespace World

variable {w : World} {t : Text} {fault : PathFault}

/-- Looking up a path fails by a fault on the way, or the path holds the null character. -/
theorem locate_fault (h : w.locate t = .error fault) :
    fault.OnTheWay ∨ fault = .nullCharacter ∧ '\x00' ∈ t := by
  unfold locate locateFor at h
  split at h
  next hnull =>
    cases h
    exact Or.inr ⟨rfl, List.contains_iff_mem.mp hnull⟩
  next =>
    left
    split at h
    · cases h; simp [PathFault.OnTheWay]
    · split at h
      · cases h; simp [PathFault.OnTheWay]
      · split at h
        · exact FileTree.walk_fault h
        · cases hstart : w.start with
          | error met => rw [hstart] at h; cases h; exact FileTree.walk_fault hstart
          | ok here => rw [hstart] at h; exact FileTree.walk_fault h

/-- The lookup of a path is refused. -/
def Refuses (w : World) (t : Text) (fault : PathFault) : Prop :=
  w.locate t = .error fault ∧ fault.IsRefusal

/-- Of the faults of a lookup those that do not count as absence are the refusals. -/
theorem isAbsence_eq_false_iff (h : w.locate t = .error fault) :
    isAbsence fault = false ↔ fault.IsRefusal := by
  rcases locate_fault h with (rfl | rfl | rfl | rfl | rfl) | ⟨rfl, -⟩ <;>
    simp [isAbsence, PathFault.IsRefusal]

/-- **A question about what a path names fails exactly if the lookup is refused.** -/
theorem test_eq_error_iff {kind : Entry → Bool} :
    w.test kind t = .error fault ↔ w.Refuses t fault := by
  unfold test entry? Refuses
  cases hlocate : w.locate t with
  | ok here => cases hat : w.files.at? here <;> simp [hat, isAbsence]
  | error met =>
    dsimp only
    have habsence := isAbsence_eq_false_iff hlocate
    -- What stands for absence is an answer, and every other fault is a refusal.
    cases hmet : isAbsence met with
    | true =>
      have hnot : ¬ met.IsRefusal := fun hrefusal => by
        rw [habsence.mpr hrefusal] at hmet
        cases hmet
      simp only [if_true, reduceCtorEq, Except.error.injEq, false_iff, not_and]
      rintro rfl
      exact hnot
    | false =>
      simp only [Bool.false_eq_true, if_false, Except.error.injEq]
      constructor
      · rintro rfl
        exact ⟨rfl, habsence.mp hmet⟩
      · exact And.left

theorem isDirectory_eq_error_iff : w.isDirectory t = .error fault ↔ w.Refuses t fault :=
  test_eq_error_iff

theorem isPresent_eq_error_iff : w.isPresent t = .error fault ↔ w.Refuses t fault :=
  test_eq_error_iff

end World

namespace Target

/-- The directory that the lead of an argument names. -/
def named (w : World) (here : Path) (argument : Text) : Path :=
  directoryOf (Path.ofText w.environment.home) here (split argument).lead

/-- The target of an argument cannot be told: the lookup of the directory that its lead names is
refused or, where there is no such directory, that of the one above. -/
def Refused (w : World) (here : Path) (argument : Text) (fault : PathFault) : Prop :=
  w.Refuses (named w here argument).toText fault ∨
    w.isDirectory (named w here argument).toText = .ok false ∧
      w.Refuses (named w here argument).parent.toText fault

variable {w : World} {here : Path} {argument : Text} {fault : PathFault}

/-- **The target of an argument cannot be had exactly if a lookup is refused.** -/
theorem resolve_eq_error_iff :
    resolve w here argument = .error fault ↔ Refused w here argument fault := by
  simp only [resolve, ofParts, Refused, named, ← World.isDirectory_eq_error_iff]
  generalize directoryOf (Path.ofText w.environment.home) here (split argument).lead = directory
  cases w.isDirectory directory.toText with
  | error met => simp
  | ok found =>
    cases found with
    | true => simp
    | false =>
      cases w.isDirectory directory.parent.toText with
      | error met => simp
      | ok found => cases found <;> simp

theorem Refused.isRefusal (h : Refused w here argument fault) : fault.IsRefusal := by
  rcases h with h | ⟨-, h⟩ <;> exact h.2

end Target

end Typeahead
