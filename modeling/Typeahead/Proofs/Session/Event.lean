import Typeahead.Proofs.Session.Draft

/-!
# What happens to a line

While a line is being typed the files may change and the directory that paths are seen from may be
set anew.  An event is an action or one of these, and the lines that can come about are those that
follow an empty line by some events, failed actions counted in.

## Main definitions

* `Event`, `Session.after`, `Session.follow` — events and the line after them.
* `Context.sample` — a small context in which lines can go right and wrong.
* `Context.schooled` — the same with a grammar.

## Main results

* `Session.perform_induction` — what holds after an action, from updates of drafts and from lines
  that are spared.
* `Session.run_induction`, `Session.follow_induction` — what holds after some actions, and after
  some events.
-/

namespace Typeahead

/-- What may happen while a line is being typed. -/
inductive Event
  /-- A key is hit. -/
  | act (a : Action)
  /-- The world is another one from now on. -/
  | change (w : World)
  /-- Paths are seen from another directory from now on. -/
  | visit (here : Path)

namespace Session

variable {s : Session}

/-- The line in another world. -/
def inWorld (s : Session) (w : World) : Session :=
  { s with context := { s.context with world := w } }

/-- The line with paths seen from another directory. -/
def seenFrom (s : Session) (here : Path) : Session :=
  { s with context := { s.context with here } }

/-- The line after an event, whether an action failed or not. -/
def after (s : Session) : Event → Session
  | .act a => (s.perform a).session
  | .change w => s.inWorld w
  | .visit here => s.seenFrom here

/-- The line after some events. -/
def follow (s : Session) : List Event → Session
  | [] => s
  | e :: rest => follow (s.after e) rest

/-- What holds of every updated draft and of every line that is spared holds after an action. -/
theorem perform_induction {P : Session → Prop} (a : Action)
    (update : ∀ t, Draft s t → P t.update.session) (spared : ∀ t, Spared s t → P t) :
    P (s.perform a).session := by
  cases hdraft : s.draft? a with
  | some t =>
    rw [(perform_of_draft hdraft).1]
    exact update t (.of_draft hdraft)
  | none => exact spared _ (spared_of_no_draft hdraft)

/-- **What every action keeps holds after some actions.** -/
theorem run_induction {P : Session → Prop} (start : P s)
    (update : ∀ s t, P s → Draft s t → P t.update.session)
    (spared : ∀ s t, P s → Spared s t → P t) (actions : List Action) : P (s.run actions) := by
  induction actions generalizing s with
  | nil => exact start
  | cons a rest ih => exact ih (perform_induction a (update s · start) (spared s · start))

/-- **What every event keeps holds after some events.** -/
theorem follow_induction {P : Session → Prop} (start : P s)
    (update : ∀ s t, P s → Draft s t → P t.update.session)
    (spared : ∀ s t, P s → Spared s t → P t) (change : ∀ s w, P s → P (s.inWorld w))
    (visit : ∀ s here, P s → P (s.seenFrom here)) (events : List Event) : P (s.follow events) := by
  induction events generalizing s with
  | nil => exact start
  | cons e rest ih =>
    refine ih ?_
    cases e with
    | act a => exact perform_induction a (update s · start) (spared s · start)
    | change w => exact change s w start
    | visit here => exact visit s here start

end Session

/-! ### A context to try things in -/

/-- A world with a program, a directory with a file in it, and a locked directory. -/
def World.sample : World where
  files := ⟨[([['b']], .directory .free), ([['l', 's'], ['b']], .file ⟨true, true, []⟩),
    ([['d']], .directory .free), ([['x'], ['d']], .file ⟨false, true, []⟩),
    ([['p']], .directory .locked)]⟩
  workingDirectory := ['/']
  environment := ⟨['/', 'd'], none, none, none⟩

/-- The sample world seen from its root, with its one program on the search path. -/
def Context.sample : Context where
  world := .sample
  here := ⟨.single, []⟩
  grammars := []
  catalog := .ofTexts .posix ['/', 'b'] []
  journal := []

/-- A grammar with a flag that takes a path and a slot for a path, which shows a path. -/
def Grammar.sample : Grammar where
  name := ['c', 'c']
  substitute := []
  hooks := ⟨none, none⟩
  slots := [⟨.path, ['q', '/', 'r', '/', 's'], 1⟩]
  flags := []
  valueFlags := [⟨['-', 'o'], [], .path, ['o', 'u', 't'], ⟨none, none⟩⟩]

/-- The sample context with that grammar. -/
def Context.schooled : Context := { Context.sample with grammars := [.sample] }

end Typeahead
