import Mathlib.Data.List.Forall2
import Typeahead.Line.Command
import Typeahead.Proofs.Grammar.Hook
import Typeahead.Proofs.Line.Entries

/-!
# What a command is put together from

Every argument of a line contributes a word to the command, and a flag also its hooks: the name of
the command and the flags contribute their targets, all other arguments themselves.  A command is
put together from these parts and from the hooks of its grammar, and putting it together fails only
where a hook cannot be filled in.

## Main definitions

* `Part` — a word with the hooks of an entry.
* `Grammar.Contributes` — the part that an argument with its reading contributes.
* `Pieces.ofParts` — the pieces of a command from its parts.
* `Command.MadeOf` — a command is put together from some parts and the hooks of a grammar.

## Main results

* `Reading.exists_parts` — every argument of a line contributes a part.
* `Command.ofReadings_eq_ofParts` — the command of a line in terms of its parts.
* `Command.madeOf_of_ofReadings`, `Command.exists_ofReadings_iff` — what the command of a line is
  put together from, and when there is one.
* `Pieces.made_of_ofParts`, `Pieces.blame_of_ofParts` — what parts come to, and what can go wrong.
* `Pieces.uniform_ofParts` — the arguments that the hooks refer to have no part in that.
-/

namespace Typeahead

/-- No hooks. -/
def Hooks.absent : Hooks := ⟨none, none⟩

/-- What an argument contributes to a command: a word, and the hooks of an entry. -/
structure Part where
  word : Text
  hooks : Hooks

/-- The part that an argument contributes, by its reading. -/
inductive Grammar.Contributes (g : Grammar) (argument : Text) (r : Reading) : Part → Prop
  /-- The name of the command stands for the target of the grammar. -/
  | command (role : r.role = .command) : Contributes g argument r ⟨g.target, .absent⟩
  /-- A flag stands for its target and comes with its hooks. -/
  | flag {k : Nat} {flag : Flag} (role : r.role = .flag) (entry : r.entry = some (k : Int))
    (found : g.flags[k]? = some flag) : Contributes g argument r ⟨flag.target, flag.hooks⟩
  /-- So does a flag that takes a value. -/
  | valueFlag {k : Nat} {flag : ValueFlag} (role : r.role = .valueFlag)
    (entry : r.entry = some (k : Int)) (found : g.valueFlags[k]? = some flag) :
    Contributes g argument r ⟨flag.target, flag.hooks⟩
  /-- Anything else stands for itself. -/
  | plain (role : r.role ∉ [Role.command, .flag, .valueFlag]) :
    Contributes g argument r ⟨argument, .absent⟩

/-- The parts that some arguments contribute, each with its reading. -/
abbrev Grammar.ContributesAll (g : Grammar) (read : List (Text × Reading)) (parts : List Part) :
    Prop :=
  List.Forall₂ (fun p part => g.Contributes p.1 p.2 part) read parts

/-! ### The parts of a line -/

namespace Used.Reads

variable {g : Grammar} {u u' : Used} {argument : Text} {r : Reading}

/-- An argument that was read contributes a part. -/
theorem exists_part (h : Reads g u argument r u') : ∃ part, g.Contributes argument r part := by
  cases h with
  | value waiting => exact ⟨_, .plain (by simp)⟩
  | valueFlag idle entry name unused => exact ⟨_, .valueFlag rfl rfl entry⟩
  | flag idle spent entry name unused => exact ⟨_, .flag rfl rfl entry⟩
  | positional idle spent gone entry position => exact ⟨_, .plain (by simp)⟩
  | other idle spent gone full => exact ⟨_, .plain (by simp)⟩

end Used.Reads

namespace Reading

theorem exists_parts_readAll (g : Grammar) (u : Used) (arguments : List Text) :
    ∃ parts, g.ContributesAll (arguments.zip (readAll g u arguments)) parts := by
  induction arguments generalizing u with
  | nil => exact ⟨[], .nil⟩
  | cons argument rest ih =>
    obtain ⟨part, hpart⟩ := (u.reads_read g argument).exists_part
    obtain ⟨parts, hparts⟩ := ih (u.read g argument).2
    exact ⟨part :: parts, .cons hpart hparts⟩

/-- **Every argument of a line contributes a part.** -/
theorem exists_parts (g : Grammar) (arguments : List Text) :
    ∃ parts, g.ContributesAll (arguments.zip (ofArguments (some g) arguments)) parts := by
  cases arguments with
  | nil => exact ⟨[], .nil⟩
  | cons name rest =>
    obtain ⟨parts, hparts⟩ := exists_parts_readAll g .initial rest
    exact ⟨_ :: parts, .cons (.command rfl) hparts⟩

end Reading

/-! ### The templates of some hooks -/

namespace Hooks

/-- The templates of some hooks that are there and not empty, those to run before or those to run
after. -/
def templates (side : Hooks → Option Text) (hooks : List Hooks) : List Text :=
  (hooks.filterMap side).filter (· ≠ [])

theorem templates_append (side : Hooks → Option Text) (hooks more : List Hooks) :
    templates side (hooks ++ more) = templates side hooks ++ templates side more := by
  rw [templates, List.filterMap_append, List.filter_append, templates, templates]

theorem templates_none {side : Hooks → Option Text} {h : Hooks} (hside : side h = none) :
    templates side [h] = [] := by
  rw [templates, List.filterMap_cons_none hside]
  rfl

theorem templates_some {side : Hooks → Option Text} {h : Hooks} {template : Text}
    (hside : side h = some template) : templates side [h] = [template].filter (· ≠ []) := by
  rw [templates, List.filterMap_cons_some hside]
  rfl

/-- All templates of some hooks that are there and not empty. -/
def allTemplates (hooks : List Hooks) : List Text :=
  templates Hooks.before hooks ++ templates Hooks.after hooks

theorem mem_allTemplates_append {hooks more : List Hooks} {template : Text} :
    template ∈ allTemplates (hooks ++ more) ↔
      template ∈ allTemplates hooks ∨ template ∈ allTemplates more := by
  simp only [allTemplates, templates_append, List.mem_append]
  exact or_or_or_comm

end Hooks

/-- The text that a template comes to with the arguments of a line. -/
def Hook.Expands (arguments : List Text) (template text : Text) : Prop :=
  expand template arguments = .ok text

namespace Pieces

variable {arguments : List Text}

/-- The pieces that parts come to, one behind the other. -/
def ofParts (arguments : List Text) : List Part → Except Fault Pieces
  | [] => pure nothing
  | part :: rest => do
    let first ← ofEntry arguments part.word part.hooks
    let others ← ofParts arguments rest
    pure (first.append others)

theorem ofArgument_eq {g : Grammar} {argument : Text} {r : Reading} {part : Part}
    (h : g.Contributes argument r part) :
    ofArgument g arguments argument r = ofEntry arguments part.word part.hooks := by
  obtain ⟨kind, role, entry, placeholder⟩ := r
  -- What is built goes by the role, and the part says which entry the role refers to.
  cases h with
  | command hrole =>
    cases hrole
    rfl
  | @flag k flag hrole hentry found =>
    cases hrole
    cases hentry
    obtain ⟨hlt, rfl⟩ := List.getElem?_eq_some_iff.mp found
    simp only [ofArgument, entryAt_natCast hlt]
    rfl
  | @valueFlag k flag hrole hentry found =>
    cases hrole
    cases hentry
    obtain ⟨hlt, rfl⟩ := List.getElem?_eq_some_iff.mp found
    simp only [ofArgument, entryAt_natCast hlt]
    rfl
  | plain hrole =>
    cases role with
    | command | flag | valueFlag => simp at hrole
    | positional | value | other => rfl

/-- **What some arguments come to is what their parts come to.** -/
theorem ofArguments_eq_ofParts {g : Grammar} {read : List (Text × Reading)} {parts : List Part}
    (h : g.ContributesAll read parts) : ofArguments g arguments read = ofParts arguments parts := by
  induction h with
  | nil => rfl
  | cons hfirst _ ih => rw [ofArguments, ofParts, ofArgument_eq hfirst, ih]

/-! ### What parts come to -/

/-- The pieces that some parts have come to: their words, and their hooks filled in. -/
structure Made (arguments : List Text) (parts : List Part) (p : Pieces) : Prop where
  words : p.words = parts.map Part.word
  before : List.Forall₂ (Hook.Expands arguments)
    (Hooks.templates Hooks.before (parts.map Part.hooks)) p.before
  after : List.Forall₂ (Hook.Expands arguments)
    (Hooks.templates Hooks.after (parts.map Part.hooks)) p.after

theorem expands_of_expand {side : Hooks → Option Text} {hooks : Hooks} {texts : List Text}
    (h : expand arguments (side hooks) = .ok texts) :
    List.Forall₂ (Hook.Expands arguments) (Hooks.templates side [hooks]) texts := by
  cases hside : side hooks with
  | none =>
    rw [hside] at h
    cases h
    rw [Hooks.templates_none hside]
    exact .nil
  | some template =>
    rw [hside] at h
    rw [Hooks.templates_some hside]
    cases template with
    | nil =>
      cases h
      exact .nil
    | cons c rest =>
      obtain ⟨text, htext, h⟩ := Fault.bind_eq_ok_iff.mp h
      cases h
      exact .cons htext .nil

theorem made_of_ofEntry {part : Part} {p : Pieces}
    (h : ofEntry arguments part.word part.hooks = .ok p) : Made arguments [part] p := by
  obtain ⟨hooked, hhooked, h⟩ := Fault.bind_eq_ok_iff.mp h
  obtain ⟨before, hbefore, hhooked⟩ := Fault.bind_eq_ok_iff.mp hhooked
  obtain ⟨after, hafter, hhooked⟩ := Fault.bind_eq_ok_iff.mp hhooked
  cases hhooked
  cases h
  exact ⟨rfl, expands_of_expand hbefore, expands_of_expand hafter⟩

theorem Made.append {parts more : List Part} {p q : Pieces} (hp : Made arguments parts p)
    (hq : Made arguments more q) : Made arguments (parts ++ more) (p.append q) := by
  refine ⟨?_, ?_, ?_⟩
  · rw [List.map_append, Pieces.append, hp.words, hq.words]
  · rw [List.map_append, Hooks.templates_append]
    exact List.rel_append hp.before hq.before
  · rw [List.map_append, Hooks.templates_append]
    exact List.rel_append hp.after hq.after

/-- **What parts come to are their words, with all their hooks filled in.** -/
theorem made_of_ofParts {parts : List Part} {p : Pieces} (h : ofParts arguments parts = .ok p) :
    Made arguments parts p := by
  induction parts generalizing p with
  | nil =>
    cases h
    exact ⟨rfl, .nil, .nil⟩
  | cons part rest ih =>
    obtain ⟨first, hfirst, h⟩ := Fault.bind_eq_ok_iff.mp h
    obtain ⟨others, hothers, h⟩ := Fault.bind_eq_ok_iff.mp h
    cases h
    exact (made_of_ofEntry hfirst).append (ih hothers)

/-! ### What can go wrong -/

theorem blame_of_expand {side : Hooks → Option Text} {hooks : Hooks} {fault : Fault}
    (h : expand arguments (side hooks) = .error fault) :
    ∃ template ∈ Hooks.templates side [hooks], Hook.expand template arguments = .error fault := by
  cases hside : side hooks with
  | none =>
    rw [hside] at h
    cases h
  | some template =>
    rw [hside] at h
    rw [Hooks.templates_some hside]
    cases template with
    | nil => cases h
    | cons c rest =>
      rcases Fault.bind_eq_error_iff.mp h with h | ⟨text, -, h⟩
      · exact ⟨_, List.mem_singleton_self _, h⟩
      · cases h

theorem blame_of_ofEntry {word : Text} {hooks : Hooks} {fault : Fault}
    (h : ofEntry arguments word hooks = .error fault) :
    ∃ template ∈ Hooks.allTemplates [hooks], Hook.expand template arguments = .error fault := by
  rcases Fault.bind_eq_error_iff.mp h with h | ⟨hooked, -, h⟩
  · rcases Fault.bind_eq_error_iff.mp h with h | ⟨before, -, h⟩
    · obtain ⟨template, hmem, hfault⟩ := blame_of_expand h
      exact ⟨template, List.mem_append_left _ hmem, hfault⟩
    · rcases Fault.bind_eq_error_iff.mp h with h | ⟨after, -, h⟩
      · obtain ⟨template, hmem, hfault⟩ := blame_of_expand h
        exact ⟨template, List.mem_append_right _ hmem, hfault⟩
      · cases h
  · cases h

/-- **If parts come to nothing, one of their hooks cannot be filled in.** -/
theorem blame_of_ofParts {parts : List Part} {fault : Fault}
    (h : ofParts arguments parts = .error fault) :
    ∃ template ∈ Hooks.allTemplates (parts.map Part.hooks),
      Hook.expand template arguments = .error fault := by
  induction parts with
  | nil => cases h
  | cons part rest ih =>
    have hmem : ∀ template, template ∈ Hooks.allTemplates ((part :: rest).map Part.hooks) ↔
        template ∈ Hooks.allTemplates [part.hooks] ∨
          template ∈ Hooks.allTemplates (rest.map Part.hooks) :=
      fun _ => @Hooks.mem_allTemplates_append [part.hooks] (rest.map Part.hooks) _
    rcases Fault.bind_eq_error_iff.mp h with h | ⟨first, -, h⟩
    · obtain ⟨template, htemplate, hfault⟩ := blame_of_ofEntry h
      exact ⟨template, (hmem template).mpr (.inl htemplate), hfault⟩
    · rcases Fault.bind_eq_error_iff.mp h with h | ⟨others, -, h⟩
      · obtain ⟨template, htemplate, hfault⟩ := ih h
        exact ⟨template, (hmem template).mpr (.inr htemplate), hfault⟩
      · cases h

theorem uniform_hook (template? : Option Text) :
    Hook.Uniform fun arguments => expand arguments template? := by
  rcases template? with _ | _ | ⟨c, rest⟩
  · exact .of_pure fun _ => []
  · exact .of_pure fun _ => []
  · exact (Hook.uniform_expand (c :: rest)).bind (.of_pure fun p : List Text × Text => [p.2])

theorem uniform_ofEntry (word : Text) (hooks : Hooks) :
    Hook.Uniform fun arguments => ofEntry arguments word hooks := by
  refine Hook.Uniform.bind (f := fun arguments => ofHooks arguments hooks) ?_
    (.of_pure fun p : List Text × Pieces => Pieces.mk [word] p.2.before p.2.after)
  refine (uniform_hook hooks.before).bind ?_
  refine ((uniform_hook hooks.after).comp Prod.fst).bind ?_
  exact .of_pure fun p : (List Text × List Text) × List Text => Pieces.mk [] p.1.2 p.2

/-- **Parts come to something with all arguments or with none.** -/
theorem uniform_ofParts (parts : List Part) :
    Hook.Uniform fun arguments => ofParts arguments parts := by
  induction parts with
  | nil => exact .of_pure fun _ => nothing
  | cons part rest ih =>
    refine (uniform_ofEntry part.word part.hooks).bind ?_
    refine (ih.comp Prod.fst).bind ?_
    exact .of_pure fun p : (List Text × Pieces) × Pieces => p.1.2.append p.2

end Pieces

/-! ### The command -/

namespace Command

variable {g : Grammar} {arguments : List Text} {readings : List Reading} {parts : List Part}

theorem words_of_ofHooks {hooks : Hooks} {p : Pieces} (h : Pieces.ofHooks arguments hooks = .ok p) :
    p.words = [] := by
  obtain ⟨before, -, h⟩ := Fault.bind_eq_ok_iff.mp h
  obtain ⟨after, -, h⟩ := Fault.bind_eq_ok_iff.mp h
  cases h
  rfl

/-- **The command of a line in terms of its parts.**  The hooks of the grammar come first, with a
word that is empty and so is not seen. -/
theorem ofReadings_eq_ofParts (h : g.ContributesAll (arguments.zip readings) parts) :
    ofReadings (some g) arguments readings =
      (Pieces.ofParts arguments (⟨[], g.hooks⟩ :: parts)).map Pieces.command := by
  simp only [ofReadings, Pieces.ofParts, Pieces.ofEntry, Pieces.ofArguments_eq_ofParts h]
  cases haround : Pieces.ofHooks arguments g.hooks with
  | error fault => rfl
  | ok around =>
    cases Pieces.ofParts arguments parts with
    | error fault => rfl
    | ok pieces =>
      change Except.ok (around.append pieces).command = Except.ok (Pieces.command _)
      simp [Pieces.command, Pieces.append, words_of_ofHooks haround]

/-- The command put together from some parts and the hooks of a grammar: the non-empty words with
single spaces between them, and the hooks that are there and not empty, those of the grammar first,
filled in with the arguments. -/
structure MadeOf (g : Grammar) (arguments : List Text) (parts : List Part) (c : Command) :
    Prop where
  line : c.line = Text.join ' ' ((parts.map Part.word).filter (· ≠ []))
  before : List.Forall₂ (Hook.Expands arguments)
    (Hooks.templates Hooks.before (g.hooks :: parts.map Part.hooks)) c.before
  after : List.Forall₂ (Hook.Expands arguments)
    (Hooks.templates Hooks.after (g.hooks :: parts.map Part.hooks)) c.after

/-- **A command is put together from the parts of its line.** -/
theorem madeOf_of_ofReadings {c : Command} (h : g.ContributesAll (arguments.zip readings) parts)
    (hc : ofReadings (some g) arguments readings = .ok c) : MadeOf g arguments parts c := by
  rw [ofReadings_eq_ofParts h] at hc
  cases hpieces : Pieces.ofParts arguments (⟨[], g.hooks⟩ :: parts) with
  | error fault =>
    rw [hpieces] at hc
    cases hc
  | ok p =>
    rw [hpieces] at hc
    cases hc
    have hmade := Pieces.made_of_ofParts hpieces
    exact ⟨by simp [Pieces.command, hmade.words], hmade.before, hmade.after⟩

/-- A hook whose template is there and not empty has been filled in. -/
theorem MadeOf.exists_text {c : Command} (h : MadeOf g arguments parts c) {template : Text}
    (htemplate : template ∈ Hooks.allTemplates (g.hooks :: parts.map Part.hooks)) :
    ∃ text, Hook.expand template arguments = .ok text := by
  rcases List.mem_append.mp htemplate with htemplate | htemplate
  · obtain ⟨i, hi, rfl⟩ := List.getElem_of_mem htemplate
    exact ⟨_, h.before.get hi (h.before.length_eq ▸ hi)⟩
  · obtain ⟨i, hi, rfl⟩ := List.getElem_of_mem htemplate
    exact ⟨_, h.after.get hi (h.after.length_eq ▸ hi)⟩

/-- **If there is no command, one of the hooks cannot be filled in**, and a numeral in it is to
blame. -/
theorem blame_of_ofReadings {fault : Fault} (h : g.ContributesAll (arguments.zip readings) parts)
    (hfault : ofReadings (some g) arguments readings = .error fault) :
    (∃ why, fault = .numeral why) ∧
      ∃ template ∈ Hooks.allTemplates (g.hooks :: parts.map Part.hooks),
        Hook.expand template arguments = .error fault := by
  rw [ofReadings_eq_ofParts h] at hfault
  cases hpieces : Pieces.ofParts arguments (⟨[], g.hooks⟩ :: parts) with
  | error other =>
    rw [hpieces] at hfault
    cases hfault
    exact ⟨((Pieces.uniform_ofParts _).of_error hpieces).1, Pieces.blame_of_ofParts hpieces⟩
  | ok p =>
    rw [hpieces] at hfault
    cases hfault

/-- **There is a command exactly if all hooks can be filled in.** -/
theorem exists_ofReadings_iff (h : g.ContributesAll (arguments.zip readings) parts) :
    (∃ c, ofReadings (some g) arguments readings = .ok c) ↔
      ∀ template ∈ Hooks.allTemplates (g.hooks :: parts.map Part.hooks),
        ∃ text, Hook.expand template arguments = .ok text := by
  constructor
  · rintro ⟨c, hc⟩ template htemplate
    exact (madeOf_of_ofReadings h hc).exists_text htemplate
  · intro hall
    cases hc : ofReadings (some g) arguments readings with
    | ok c => exact ⟨c, rfl⟩
    | error fault =>
      obtain ⟨-, template, htemplate, hfault⟩ := blame_of_ofReadings h hc
      obtain ⟨text, htext⟩ := hall template htemplate
      rw [htext] at hfault
      cases hfault

end Command

end Typeahead
