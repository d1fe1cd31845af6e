import Typeahead.Console.Run
import Typeahead.Proofs.Grammar.Isolation
import Typeahead.Proofs.Settings.Loading

/-!
# Runs that write their warnings

A run may write the warnings about its grammars out or only keep them.  The descriptions of the
grammars come out of a settings file, where nothing lies deeper than is read; so if there is more
room for writing than there may be lists and objects open while reading, every warning can be
written, and the run is the same.

## Main results

* `Settings.within_of_load` — what is read from a settings file lies no deeper than is allowed.
* `Console.runInto_written` — **where there is room enough, writing the warnings changes no run.**
-/

namespace Typeahead

namespace Settings

variable {w : World} {path : Path} {s : Settings} {v : Json}

/-! ### The descriptions in a settings file -/

theorem find?_within {room : Nat} {key : Text} {members : List (Text × Json)}
    (h : ∀ member ∈ members, Json.Within room member.2) (hv : Json.find? key members = some v) :
    v.Within room := by
  induction members with
  | nil => cases hv
  | cons member rest ih =>
    obtain ⟨hmember, hrest⟩ := List.forall_mem_cons.mp h
    simp only [Json.find?] at hv
    split at hv
    next =>
      cases hv
      exact hmember
    next => exact ih hrest hv

/-- What a description is called by lies no deeper than the description. -/
theorem label_within {room : Nat} (h : v.Within room) : (Grammar.label v).Within room := by
  cases v with
  | object members =>
    cases h with
    | @object room _ inside =>
      change ((Json.find? "name".toList members).getD .null).Within (room + 1)
      cases hname : Json.find? "name".toList members with
      | none => exact .null
      | some name => exact (find?_within inside hname).mono (Nat.le_succ room)
  -- Any other description is called by itself.
  | _ => exact h

theorem default_within {room : Nat} : ∀ v ∈ default.commands, (Grammar.label v).Within (room + 1) :=
  List.forall_mem_singleton.mpr (.text _)

/-- The descriptions in the description of some settings lie no deeper than that. -/
theorem commands_within {room : Nat} (h : v.Within (room + 1)) (hs : (ofJson v).2 = .ok s) :
    ∀ u ∈ s.commands, (Grammar.label u).Within (room + 1) := by
  cases h with
  | @object room members inside =>
    rw [(ofJson_object_eq_ok_iff.mp hs).2.1]
    unfold commandsOf
    -- The commands are the ones that come with the program, or the items of the list that was
    -- given.
    split
    · exact default_within
    · exact default_within
    next items hfound =>
      intro u hu
      cases find?_within inside hfound with
      | list items => exact label_within ((items u hu).mono (by omega))
    · exact default_within
  | _ => cases hs

/-- **What is read from a settings file lies no deeper than is allowed.** -/
theorem within_of_load (h : (load w path).2 = .ok s) :
    ∀ v ∈ s.commands, (Grammar.label v).Within (Json.depthLimit + 1) := by
  rcases load_cases w path with ⟨refusal, -, hload⟩ | ⟨-, hload⟩ | ⟨-, -, hload⟩ |
    ⟨content, -, hload⟩ <;> rw [hload] at h
  · cases h
  · cases h
    exact default_within
  · cases h
    exact default_within
  · rcases ofText_eq_ok h with ⟨v, hv, hs⟩ | ⟨-, rfl, -⟩
    · exact commands_within (Json.within_of_read hv) hs
    · exact default_within

end Settings

namespace Console

variable {room threshold : Nat} {w : World} {s : Settings} {loaded loaded' : Grammar.Loaded}

/-! ### Runs -/

/-- Of what was loaded a task only sees the grammars and the notices. -/
theorem perform_congr (hgrammars : loaded.grammars = loaded'.grammars)
    (hnotices : loaded.notices = loaded'.notices) (task : Task) :
    perform w s loaded task = perform w s loaded' task := by
  have hcontext (here : Option Path) :
      Context.ofLoaded w s here loaded = Context.ofLoaded w s here loaded' := by
    simp only [Context.ofLoaded, hgrammars, hnotices]
  cases task <;> simp only [perform, opened, hcontext]

theorem not_overflows_under (threshold : Nat) {v : Json} (h : ¬ (Sink.written room).Overflows v) :
    ¬ ((Sink.written room).under threshold).Overflows v := by
  unfold Sink.under
  split
  · exact h
  · exact not_false

/-- **Where there is more room for writing than for reading, writing the warnings changes no
run.** -/
theorem runInto_written (hroom : Json.depthLimit < room) (w : World) (arguments : List Text) :
    runInto (.written room) w arguments = run w arguments := by
  have htask (asked : Option Nat) (task : Task) :
      runTask (.written room) w asked task = runTask .kept w asked task := by
    unfold runTask
    dsimp only
    rcases hload : Settings.load w (configPath w task.config) with ⟨notices, fault | s⟩
    · rfl
    dsimp only
    cases thresholdFor asked s with
    | error fault => rfl
    | ok threshold =>
      have hgoes : ∀ v ∈ s.commands,
          ¬ Grammar.Ends ((Sink.written room).under threshold) Grammar.ofJson v := by
        intro v hv hends
        have hwithin := Settings.within_of_load (congrArg Prod.snd hload) v hv
        have hfits : (Sink.written room).HasRoom (Grammar.label v) := hwithin.mono hroom
        exact not_overflows_under threshold (Sink.not_overflows hfits) hends.2
      have hkept : ∀ v ∈ s.commands,
          ¬ Grammar.Ends (Sink.kept.under threshold) Grammar.ofJson v := by
        rw [Sink.under_kept]
        exact fun _ _ hends => hends.2
      -- No warning ends either load, so both come to the same grammars and notices.
      obtain ⟨hgrammars, hnotices⟩ := Grammar.loadInto_agree hgoes hkept
      dsimp only
      rw [perform_congr hgrammars hnotices, Grammar.loadInto_fault_eq_none_iff.mpr hgoes,
        Grammar.loadInto_fault_eq_none_iff.mpr hkept]
  unfold run runInto
  simp only [htask]

end Console

end Typeahead
