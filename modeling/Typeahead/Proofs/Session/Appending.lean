import Typeahead.Proofs.Line.Appending
import Typeahead.Proofs.Session.InStep

/-!
# Typing on at the end of a line

What an argument was taken for, and what is shown for it, does not change when further arguments are
typed behind it: the grammar is that of the first argument, and every reading is settled by the
arguments before it.  Only the last argument of the line may still become something else, as long as
it is being typed.

## Main results

* `Session.prefix_readings` — readings of arguments that stay are the same in both lines.
* `Session.readings_append` — **typing on at the end of a line changes no reading of an argument
  before.**
-/

namespace Typeahead

namespace Session

variable {s t : Session}

/-- An action leaves a context that looks alike. -/
theorem alike_perform (s : Session) (a : Action) : s.context.Alike (s.perform a).session.context :=
  perform_induction (P := fun t => s.context.Alike t.context) a
    (fun t hdraft => (Drafted.of_draft hdraft).context.trans t.alike_update)
    (fun _ hspared => hspared.context)

/-- Text that is typed at the end of a line stands behind it, or it is dropped. -/
theorem text_insert_end (hcaret : s.caret = s.text.length) (hanchor : s.anchor.active = false)
    (u : Text) :
    (s.perform (.insert u)).session.text = s.text ∨
      (s.perform (.insert u)).session.text = s.text ++ u := by
  have hfreed : s.freed = s := by
    rw [freed, hanchor]
    rfl
  rw [perform, insert_eq, hfreed]
  split
  · exact Or.inl rfl
  · change (s.insertAll u).text = _ ∨ (s.insertAll u).text = _
    unfold insertAll
    split
    · exact Or.inl rfl
    · right
      rw [splice, hcaret, List.take_length, List.drop_length, List.append_nil]

namespace InStep

/-- Two lines in step that start with one argument have the same grammar. -/
theorem grammar_eq (hs : InStep s) (ht : InStep t) (halike : s.context.Alike t.context)
    (h : (Line.arguments t.text).headD [] = (Line.arguments s.text).headD []) :
    t.analysis.grammar = s.analysis.grammar := by
  rw [ht.grammar, hs.grammar, halike.grammarFor_eq, h]

/-- The readings of the first arguments of a line. -/
theorem take_readings (h : InStep s) {kept : List Text} (hkept : kept <+: Line.arguments s.text) :
    s.analysis.readings.take kept.length = Reading.ofArguments s.analysis.grammar kept := by
  obtain ⟨more, hmore⟩ := hkept
  rw [h.readings, ← hmore, Reading.take_ofArguments]

theorem length_readings (h : InStep s) :
    s.analysis.readings.length = (Line.arguments s.text).length := by
  rw [h.readings, Reading.length_ofArguments]

end InStep

/-- **The first arguments that two lines have in common are read alike in both.** -/
theorem prefix_readings (hs : InStep s) (ht : InStep t) (halike : s.context.Alike t.context)
    {kept : List Text} (hs' : kept <+: Line.arguments s.text)
    (ht' : kept <+: Line.arguments t.text) :
    s.analysis.readings.take kept.length <+: t.analysis.readings := by
  cases kept with
  | nil => exact List.nil_prefix
  | cons first rest =>
    obtain ⟨behind, hbehind⟩ := hs'
    obtain ⟨behind', hbehind'⟩ := ht'
    have hgrammar : t.analysis.grammar = s.analysis.grammar :=
      hs.grammar_eq ht halike (by rw [← hbehind, ← hbehind']; rfl)
    rw [hs.take_readings ⟨behind, hbehind⟩, ← hgrammar, ← ht.take_readings ⟨behind', hbehind'⟩]
    exact List.take_prefix _ _

/-- **Typing on at the end of a line changes no reading of an argument before.**  The readings of
the first arguments are the same whatever arguments follow, with a grammar and without one.  So let
a text be typed at the end of a line after any events: the readings of all arguments but the last
stay as they are; and the last one stays too if the text starts with a space and the line leaves no
double quote open, for then it opens another argument. -/
theorem readings_append :
    (∀ (grammar : Option Grammar) (arguments more : List Text),
      (Reading.ofArguments grammar (arguments ++ more)).take arguments.length =
        Reading.ofArguments grammar arguments) ∧
    ∀ (context : Context) (capacity : Int) (events : List Event) (u : Text),
      let s := (start context capacity).follow events
      let t := (s.perform (.insert u)).session
      s.caret = s.text.length → s.anchor.active = false →
        s.analysis.readings.dropLast <+: t.analysis.readings ∧
        (u.head? = some ' ' → Even (s.text.count '"') →
          s.analysis.readings <+: t.analysis.readings) := by
  refine ⟨Reading.take_ofArguments, ?_⟩
  intro context capacity events u s t hcaret hanchor
  have hs : InStep s := inStep_follow context capacity events
  have ht : InStep t := hs.perform (.insert u)
  have halike : s.context.Alike t.context := s.alike_perform (.insert u)
  -- The text goes in at the end, or there is no room for it and nothing changes.
  have htext : t.text = s.text ∨ t.text = s.text ++ u := text_insert_end hcaret hanchor u
  -- Any text may go on the last argument, so only those before it are sure to stay.
  constructor
  · have hinit : (Line.arguments s.text).dropLast <+: Line.arguments s.text :=
      List.dropLast_prefix _
    have hkept : (Line.arguments s.text).dropLast <+: Line.arguments t.text := by
      rcases htext with htext | htext
      · rw [htext]
        exact hinit
      · rw [htext]
        exact Line.dropLast_prefix_arguments s.text u
    have hprefix := prefix_readings hs ht halike hinit hkept
    rwa [List.length_dropLast, ← hs.length_readings, ← List.dropLast_eq_take] at hprefix
  -- A space outside quotes starts a new argument, so the last one stays as well.
  · intro hspace hclosed
    obtain ⟨more, rfl⟩ := List.head?_eq_some_iff.mp hspace
    have hkept : Line.arguments s.text <+: Line.arguments t.text := by
      rcases htext with htext | htext
      · exact htext ▸ List.prefix_rfl
      · rw [htext]
        exact Line.prefix_arguments_space hclosed more
    have hprefix := prefix_readings hs ht halike List.prefix_rfl hkept
    rwa [← hs.length_readings, List.take_length] at hprefix

/-- The value of a flag is typed behind the flag, which stays one. -/
theorem readings_append_sample :
    let s := (start .schooled 80).follow [.act (.insert ['c', 'c', ' ', '-', 'o'])]
    let t := (s.perform (.insert [' ', 'x'])).session
    s.analysis.readings.map Reading.role = [.command, .valueFlag] ∧
      t.analysis.readings.map Reading.role = [.command, .valueFlag, .value] ∧
      s.analysis.readings <+: t.analysis.readings := by
  intro s t
  refine ⟨rfl, rfl, ?_⟩
  exact (readings_append.2 .schooled 80 [.act (.insert ['c', 'c', ' ', '-', 'o'])] [' ', 'x']
    rfl rfl).2 rfl ⟨0, rfl⟩

end Session

end Typeahead
