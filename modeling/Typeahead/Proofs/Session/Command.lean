import Typeahead.Proofs.Line.Plain
import Typeahead.Proofs.Session.InStep

/-!
# The command of an updated line

What a line runs is put together from its readings, whose indices point into the tables of the
grammar, one index for each argument.  As an update makes both together, the indices are always
there and a command can fail only by the hooks in it.  If nothing in the grammar stands for anything
else, the command is the line without its superfluous spaces, as it is without a grammar; only the
hooks may get in the way of it.

## Main results

* `Session.command_update` — **what an updated line runs, and why it may run nothing.**
* `Session.plain_command_iff` — **a grammar that renames nothing does not show in the command line
  exactly if all hooks can be filled in.**
* `Session.plain_command_stopped` — a hook that keeps a line from being run.
-/

namespace Typeahead

namespace Session

/-- The readings of a line in step are those of its arguments. -/
theorem InStep.readings_eq {s : Session} (h : InStep s) :
    s.analysis.readings = Reading.ofArguments s.analysis.grammar s.arguments := by
  rw [h.arguments_eq]
  exact h.readings

/-- **What an updated line runs.**  Without a grammar these are its non-empty arguments with single
spaces between them.  With one, every argument contributes a part, no entry of the grammar
contributes twice, and the command is put together from the parts and the hooks of the grammar.  No
index leads out of a table: if there is no command, a numeral in one of the hooks is to blame. -/
theorem command_update (s : Session) :
    let t := s.update.session
    (t.analysis.grammar = none →
      t.command = .ok ⟨Text.join ' ' (t.arguments.filter (· ≠ [])), [], []⟩) ∧
    ∀ g, t.analysis.grammar = some g → ∃ parts,
      g.ContributesAll (t.arguments.zip t.analysis.readings) parts ∧
      parts.length = t.arguments.length ∧
      (t.analysis.readings.Pairwise fun r r' =>
        r'.role ∈ [Role.valueFlag, .flag, .positional] → r.role = r'.role → r.entry ≠ r'.entry) ∧
      (∀ c, t.command = .ok c → c.MadeOf g t.arguments parts) ∧
      ∀ fault, t.command = .error fault →
        (∃ why, fault = .numeral why) ∧
          ∃ template ∈ Hooks.allTemplates (g.hooks :: parts.map Part.hooks),
            Hook.expand template t.arguments = .error fault := by
  intro t
  have hreadings := (InStep.update s).readings_eq
  constructor
  · intro hnone
    rw [command, hnone]
    rfl
  · intro g hg
    rw [hg] at hreadings
    -- Parts can be found for any arguments, and here for the readings of the update.
    obtain ⟨parts, hparts⟩ := Reading.exists_parts g t.arguments
    have hpairwise := Reading.pairwise_entries g t.arguments
    rw [← hreadings] at hparts hpairwise
    have hlength : parts.length = t.arguments.length := by
      rw [← hparts.length_eq, List.length_zip, hreadings, Reading.length_ofArguments, Nat.min_self]
    have hcommand : t.command = Command.ofReadings (some g) t.arguments t.analysis.readings := by
      rw [command, hg]
    rw [hcommand]
    refine ⟨parts, hparts, hlength, hpairwise, ?_, ?_⟩
    · intro c hc
      exact Command.madeOf_of_ofReadings hparts hc
    · intro fault hfault
      exact Command.blame_of_ofReadings hparts hfault

/-- A flag that is named twice is replaced and hooked once, behind the hook of the grammar. -/
theorem command_update_sample :
    let force : Flag := ⟨['-', 'f'], ['-', 'F'], ⟨some ['b'], none⟩⟩
    let g : Grammar := ⟨['m'], ['m', 'v'], ⟨some ['a', ' ', '$', '1'], none⟩, [], [force], []⟩
    let s := (start { Context.sample with grammars := [g] } 80).insertAll "m -f  -f".toList
    let t := s.update.session
    t.analysis.grammar = some g ∧
      t.command = .ok ⟨"mv -F -f".toList, ["a -f".toList, ['b']], []⟩ ∧
      ∃ parts, Command.MadeOf g t.arguments parts
        ⟨"mv -F -f".toList, ["a -f".toList, ['b']], []⟩ := by
  intro force g s t
  have hcommand : t.command = .ok ⟨"mv -F -f".toList, ["a -f".toList, ['b']], []⟩ := rfl
  obtain ⟨parts, -, -, -, hmade, -⟩ := (command_update s).2 g rfl
  exact ⟨rfl, hcommand, parts, hmade _ hcommand⟩

/-- **A grammar that renames nothing does not show in the command line.**  If such a grammar belongs
to the first argument, what the line runs is what it runs without a grammar, its hooks apart, unless
it runs nothing because one of these cannot be filled in. -/
theorem plain_command_iff (s : Session) {g : Grammar}
    (hgrammar : s.update.session.analysis.grammar = some g) (hplain : g.Plain) :
    let t := s.update.session
    let bare := Command.ofReadings none t.arguments (Reading.ofArguments none t.arguments)
    ∃ parts, g.ContributesAll (t.arguments.zip t.analysis.readings) parts ∧
      (∀ c, t.command = .ok c → bare.map Command.line = .ok c.line) ∧
      (t.command.map Command.line = bare.map Command.line ↔
        ∀ template ∈ Hooks.allTemplates (g.hooks :: parts.map Part.hooks),
          ∃ text, Hook.expand template t.arguments = .ok text) := by
  intro t bare
  have h : InStep t := .update s
  have hreadings := h.readings_eq
  rw [hgrammar] at hreadings
  -- The grammar goes by the first argument, so the command word is its name.
  have hname : t.arguments.head? = some g.name := by
    have hfound := h.grammar.symm.trans hgrammar
    obtain ⟨name, rest, heq, -, before, after, -, rfl, -⟩ := grammarFor_eq_some_iff.mp hfound
    rw [h.arguments_eq, heq, List.head?_cons]
  obtain ⟨parts, hparts⟩ := Reading.exists_parts g t.arguments
  have hwords := Reading.words_ofArguments hplain hname hparts
  rw [← hreadings] at hparts
  have hcommand : t.command = Command.ofReadings (some g) t.arguments t.analysis.readings := by
    rw [command, hgrammar]
  -- A command that comes about has the words of the line, since no entry has another word for it.
  have hline : ∀ c, t.command = .ok c → bare.map Command.line = .ok c.line := by
    intro c hc
    rw [hcommand] at hc
    rw [(Command.madeOf_of_ofReadings hparts hc).line, hwords]
    rfl
  refine ⟨parts, hparts, hline, ?_⟩
  -- It remains that a command comes about exactly if all templates can be filled.
  rw [← Command.exists_ofReadings_iff hparts, ← hcommand]
  constructor
  · intro heq
    cases hc : t.command with
    | ok c => exact ⟨c, rfl⟩
    | error fault =>
      rw [hc] at heq
      cases heq
  · rintro ⟨c, hc⟩
    rw [hline c hc, hc]
    rfl

/-- With a flag, its value, the flag once more and something left over. -/
theorem plain_command_iff_sample :
    let s := (start .schooled 80).insertAll "cc -o x -o y z".toList
    let t := s.update.session
    Grammar.sample.Plain ∧ t.analysis.grammar = some .sample ∧
      t.command.map Command.line = .ok "cc -o x -o y z".toList := by
  intro s t
  have hplain : Grammar.sample.Plain := by
    refine ⟨.inl rfl, by simp [Grammar.sample], ?_⟩
    intro flag hflag
    cases List.mem_singleton.mp hflag
    exact .inl rfl
  obtain ⟨parts, -, hline, -⟩ := plain_command_iff s rfl hplain
  obtain ⟨c, hc⟩ : ∃ c, t.command = .ok c := ⟨_, rfl⟩
  exact ⟨hplain, rfl, hc ▸ (hline c hc).symm⟩

/-- **A hook keeps a line from being run**, though the grammar renames nothing: the index in it is a
digit sign of no decimal place. -/
theorem plain_command_stopped :
    let g : Grammar := ⟨['x'], [], ⟨some ['$', '²'], none⟩, [], [], []⟩
    let s := (start { Context.sample with grammars := [g] } 80).insertAll ['x', ' ', 'a']
    let t := s.update.session
    g.Plain ∧ t.analysis.grammar = some g ∧
      t.command = .error (.numeral (.malformed ['²'])) ∧
      Command.ofReadings none t.arguments (Reading.ofArguments none t.arguments) =
        .ok ⟨['x', ' ', 'a'], [], []⟩ := by
  intro g s t
  exact ⟨⟨.inl rfl, nofun, nofun⟩, rfl, rfl, rfl⟩

end Session

end Typeahead
