import Typeahead.Proofs.Line.Filling
import Typeahead.Proofs.Line.Parts

/-!
# Superfluous spaces

A space too many in a line opens an empty argument.  Unless a flag waits for its value there, the
empty argument is a free one: it may fill a slot and move the free arguments behind it on by one,
but it is no flag and no value.  So the line is read twice, without the empty argument and with it,
and behind the empty argument the two readings agree on the flags all along.  The command does not
show its empty word, and so it is the same.

## Main definitions

* `Used.behind` — what is used up behind some arguments.
* `Used.Agrees` — two states that differ in the slots only.
* `Reading.Shifts` — two readings of an argument that differ only if it is free in both.
* `Grammar.Named` — a grammar whose flags have names.

## Main results

* `Used.Agrees.read`, `Used.Agrees.shifts_readAll` — arguments that are read in two states that
  agree, one by one and all of them.
* `Reading.ofArguments_insert` — how a line is read with an empty argument in it.
* `Pieces.line_ofParts_insert` — an empty part does not show in the command line.
* `Command.line_insert_empty` — **a superfluous space does not change the command line, unless it
  takes the place of a value.**
-/

namespace Typeahead

/-! ### Reading a line from the middle -/

namespace Used

/-- What is used up behind some arguments. -/
def behind (g : Grammar) (u : Used) : List Text → Used
  | [] => u
  | argument :: rest => behind g (u.read g argument).2 rest

open Reading

/-- The record accounts for all the arguments that were read. -/
theorem Accounts.behind {g : Grammar} {u : Used} {before : List Reading} (h : Accounts g u before)
    (arguments : List Text) :
    Accounts g (u.behind g arguments) (before ++ readAll g u arguments) := by
  induction arguments generalizing u before with
  | nil =>
    rw [readAll, List.append_nil]
    exact h
  | cons argument rest ih =>
    have hrest := ih (h.step (u.reads_read g argument))
    rwa [List.append_assoc] at hrest

/-- No flag waits for its value if the last argument was none that takes one. -/
theorem Accounts.waiting_eq_none {g : Grammar} {u : Used} {before : List Reading} {last : Reading}
    (h : Accounts g u before) (hlast : before.getLast? = some last)
    (hrole : last.role ≠ .valueFlag) : u.waiting = none := by
  cases hwaiting : u.waiting with
  | none => rfl
  | some waiting =>
    obtain ⟨-, r, hr, hvalueFlag, -⟩ := h.waiting waiting.1 waiting.2 hwaiting
    rw [hlast, Option.some.injEq] at hr
    exact absurd (hr ▸ hvalueFlag) hrole

end Used

namespace Reading

theorem readAll_append (g : Grammar) (u : Used) (before behind : List Text) :
    readAll g u (before ++ behind) = readAll g u before ++ readAll g (u.behind g before) behind := by
  induction before generalizing u with
  | nil => rfl
  | cons argument rest ih => simp only [List.cons_append, readAll, Used.behind, ih]

theorem ofArguments_append (g : Grammar) (name : Text) (before behind : List Text) :
    ofArguments (some g) (name :: before ++ behind) =
      ofArguments (some g) (name :: before) ++
        readAll g (Used.initial.behind g before) behind := by
  simp only [List.cons_append, ofArguments, readAll_append]

end Reading

/-! ### Two states that agree on the flags -/

/-- Two readings of an argument are the same, or it is free in both. -/
inductive Reading.Shifts : Reading → Reading → Prop
  | same (r : Reading) : Shifts r r
  | free {r r' : Reading} (h : r.isFree = true) (h' : r'.isFree = true) : Shifts r r'

/-- Every flag has a name that is not empty. -/
structure Grammar.Named (g : Grammar) : Prop where
  flags : ∀ flag ∈ g.flags, flag.name ≠ []
  valueFlags : ∀ flag ∈ g.valueFlags, flag.name ≠ []

namespace Used

open Reading

/-- The same flags are used up, and the same one waits for its value. -/
structure Agrees (u u' : Used) : Prop where
  waiting : u.waiting = u'.waiting
  valueFlags : u.valueFlags = u'.valueFlags
  flags : u.flags = u'.flags

variable {g : Grammar} {u u' v v' : Used} {argument : Text}

/-- Slots do not matter, so that two states agree if they do with others that agree. -/
theorem Agrees.congr (h : Agrees u u') (hv : Agrees u v) (hv' : Agrees u' v') : Agrees v v' :=
  ⟨(hv.waiting.symm.trans h.waiting).trans hv'.waiting,
    (hv.valueFlags.symm.trans h.valueFlags).trans hv'.valueFlags,
    (hv.flags.symm.trans h.flags).trans hv'.flags⟩

/-- An argument that no flag waits for and that is no flag is free and leaves the flags as they
are. -/
theorem read_free (idle : u.waiting = none)
    (hvalueFlag : firstUnused ValueFlag.name u.valueFlags argument 0 g.valueFlags = none)
    (hflag : firstUnused Flag.name u.flags argument 0 g.flags = none) :
    (u.read g argument).1.isFree = true ∧ Agrees u (u.read g argument).2 := by
  simp only [read, idle, hvalueFlag, hflag]
  cases slotAt (u.slots + 1) 0 g.slots with
  | some found => exact ⟨rfl, idle, rfl, rfl⟩
  | none => exact ⟨rfl, rfl, rfl, rfl⟩

/-- **An argument read in two states that agree** is read as the same, or it is free in both, and
the states behind it agree. -/
theorem Agrees.read (h : Agrees u u') (g : Grammar) (argument : Text) :
    Shifts (u.read g argument).1 (u'.read g argument).1 ∧
      Agrees (u.read g argument).2 (u'.read g argument).2 := by
  obtain ⟨waiting, valueFlags, flags, slots⟩ := u
  obtain ⟨waiting', valueFlags', flags', slots'⟩ := u'
  obtain ⟨rfl, rfl, rfl⟩ := h
  -- Whether slots are filled matters only where nothing else takes the argument.
  cases waiting with
  | some waiting => exact ⟨.same _, rfl, rfl, rfl⟩
  | none =>
    cases hvalueFlag : firstUnused ValueFlag.name valueFlags argument 0 g.valueFlags with
    | some found =>
      simp only [Used.read, hvalueFlag]
      exact ⟨.same _, rfl, rfl, rfl⟩
    | none =>
      cases hflag : firstUnused Flag.name flags argument 0 g.flags with
      | some found =>
        simp only [Used.read, hvalueFlag, hflag]
        exact ⟨.same _, rfl, rfl, rfl⟩
      | none =>
        obtain ⟨hfree, hagrees⟩ :=
          read_free (u := ⟨none, valueFlags, flags, slots⟩) rfl hvalueFlag hflag
        obtain ⟨hfree', hagrees'⟩ :=
          read_free (u := ⟨none, valueFlags, flags, slots'⟩) rfl hvalueFlag hflag
        have hslots : Agrees ⟨none, valueFlags, flags, slots⟩ ⟨none, valueFlags, flags, slots'⟩ :=
          ⟨rfl, rfl, rfl⟩
        exact ⟨.free hfree hfree', hslots.congr hagrees hagrees'⟩

/-- **Arguments read in two states that agree.** -/
theorem Agrees.shifts_readAll (h : Agrees u u') (g : Grammar) (arguments : List Text) :
    List.Forall₂ Shifts (readAll g u arguments) (readAll g u' arguments) := by
  induction arguments generalizing u u' with
  | nil => exact .nil
  | cons argument rest ih =>
    obtain ⟨hfirst, hrest⟩ := h.read g argument
    exact .cons hfirst (ih hrest)

theorem firstUnused_of_forall_ne {α : Type} {name : α → Text} {entries : List α} (used : List Nat)
    (h : ∀ entry ∈ entries, name entry ≠ argument) :
    firstUnused name used argument 0 entries = none := by
  cases hfound : firstUnused name used argument 0 entries with
  | none => rfl
  | some found =>
    obtain ⟨j, -, hentry, hname, -⟩ := firstUnused_eq_some hfound
    exact absurd hname (h _ (List.mem_of_getElem? hentry))

/-- An empty argument that no flag waits for is free and leaves the flags as they are. -/
theorem read_empty (hnamed : g.Named) (idle : u.waiting = none) :
    (u.read g []).1.isFree = true ∧ Agrees u (u.read g []).2 :=
  read_free idle (firstUnused_of_forall_ne _ hnamed.valueFlags)
    (firstUnused_of_forall_ne _ hnamed.flags)

end Used

namespace Reading

variable {g : Grammar} {argument : Text} {r r' : Reading}

/-- **An empty argument where no flag waits for its value** is free, and each argument behind it is
read as it is without the empty one, or it is free in both. -/
theorem ofArguments_insert (hnamed : g.Named) {name : Text} {before : List Text}
    (hlast : (ofArguments (some g) (name :: before)).getLast? = some r)
    (hrole : r.role ≠ .valueFlag) (back : List Text) :
    ∃ gap behind, ofArguments (some g) (name :: before ++ [] :: back) =
        ofArguments (some g) (name :: before) ++ gap :: behind ∧ gap.isFree = true ∧
      List.Forall₂ Shifts (readAll g (Used.initial.behind g before) back) behind := by
  have hidle : (Used.initial.behind g before).waiting = none :=
    ((Used.Accounts.initial g).behind before).waiting_eq_none hlast hrole
  obtain ⟨hfree, hagrees⟩ := Used.read_empty hnamed hidle
  exact ⟨_, _, ofArguments_append g name before ([] :: back), hfree, hagrees.shifts_readAll g back⟩

/-! ### The parts of the two lines -/

theorem role_of_isFree (h : r.isFree = true) : r.role ∉ [Role.command, .flag, .valueFlag] := by
  have hrole : r.role ∉ [Role.command, .flag, .valueFlag, .value] := of_decide_eq_true h
  intro hmem
  exact hrole (List.mem_append_left [Role.value] hmem)

/-- What an argument contributes does not change, as a free one contributes itself. -/
theorem Shifts.contributes {part : Part} (h : Shifts r r') (hpart : g.Contributes argument r part) :
    g.Contributes argument r' part := by
  cases h with
  | same => exact hpart
  | free hfree hfree' =>
    cases hpart with
    | command role => exact absurd (role ▸ role_of_isFree hfree) (by simp)
    | flag role => exact absurd (role ▸ role_of_isFree hfree) (by simp)
    | valueFlag role => exact absurd (role ▸ role_of_isFree hfree) (by simp)
    | plain _ => exact .plain (role_of_isFree hfree')

theorem contributesAll_of_shifts {arguments : List Text} {readings shifted : List Reading}
    {parts : List Part} (h : List.Forall₂ Shifts readings shifted)
    (hparts : g.ContributesAll (arguments.zip readings) parts) :
    g.ContributesAll (arguments.zip shifted) parts := by
  induction h generalizing arguments parts with
  | nil => exact hparts
  | cons hfirst _ ih =>
    cases arguments with
    | nil => exact hparts
    | cons argument rest =>
      cases hparts with
      | cons hpart hrest => exact .cons (hfirst.contributes hpart) (ih hrest)

end Reading

namespace Pieces

/-- The words of a command line do not depend on the arguments that its hooks refer to. -/
theorem line_ofParts (arguments arguments' : List Text) (parts : List Part) :
    ((ofParts arguments parts).map command).map Command.line =
      ((ofParts arguments' parts).map command).map Command.line := by
  have huniform := uniform_ofParts parts
  cases h : ofParts arguments parts with
  | error fault => rw [(huniform.of_error h).2 arguments']
  | ok p =>
    cases h' : ofParts arguments' parts with
    | error fault =>
      rw [(huniform.of_error h').2 arguments] at h
      cases h
    | ok q =>
      have hwords : p.words = q.words :=
        (made_of_ofParts h).words.trans (made_of_ofParts h').words.symm
      simp only [Except.map, command, hwords]

/-- Parts in front of others come to what both come to, one behind the other. -/
theorem ofParts_append (arguments : List Text) (front back : List Part) :
    ofParts arguments (front ++ back) = (do
      let first ← ofParts arguments front
      let others ← ofParts arguments back
      pure (first.append others)) := by
  -- By induction on the parts in front; whichever of them fails first fails on both sides.
  induction front with
  | nil =>
    rw [List.nil_append]
    cases ofParts arguments back with
    | error fault => rfl
    | ok others => rfl
  | cons part rest ih =>
    simp only [List.cons_append, ofParts, ih]
    cases ofEntry arguments part.word part.hooks with
    | error fault => rfl
    | ok first =>
      cases ofParts arguments rest with
      | error fault => rfl
      | ok others =>
        cases ofParts arguments back with
        | error fault => rfl
        | ok last =>
          change Except.ok _ = Except.ok _
          simp only [append, List.append_assoc]

/-- **An empty part does not show in the command line.** -/
theorem line_ofParts_insert (arguments : List Text) (front back : List Part) :
    ((ofParts arguments (front ++ ⟨[], .absent⟩ :: back)).map command).map Command.line =
      ((ofParts arguments (front ++ back)).map command).map Command.line := by
  have hback : ofParts arguments (⟨[], .absent⟩ :: back) =
      (ofParts arguments back).map (Pieces.append ⟨[[]], [], []⟩) := by
    cases h : ofParts arguments back <;> simp only [ofParts, h] <;> rfl
  rw [ofParts_append, ofParts_append, hback]
  cases ofParts arguments front with
  | error fault => rfl
  | ok first =>
    cases ofParts arguments back with
    | error fault => rfl
    | ok others =>
      change Except.ok _ = Except.ok _
      simp [command, append]

end Pieces

namespace Command

open Reading

variable {g : Grammar}

/-- An argument that is free and empty does not show in the command line. -/
theorem line_insert {front back : List Text} {before readings shifted : List Reading} {r : Reading}
    {parts parts' : List Part} (hlength : front.length = before.length)
    (hfront : g.ContributesAll (front.zip before) parts)
    (hback : g.ContributesAll (back.zip readings) parts') (hfree : r.isFree = true)
    (hshifts : List.Forall₂ Shifts readings shifted) :
    (ofReadings (some g) (front ++ [] :: back) (before ++ r :: shifted)).map line =
      (ofReadings (some g) (front ++ back) (before ++ readings)).map line := by
  -- The line without the empty argument, and the line with it, whose part says nothing.
  have hparts : g.ContributesAll ((front ++ back).zip (before ++ readings)) (parts ++ parts') := by
    rw [List.zip_append hlength]
    exact List.rel_append hfront hback
  have hspaced : g.ContributesAll ((front ++ [] :: back).zip (before ++ r :: shifted))
      (parts ++ ⟨[], .absent⟩ :: parts') := by
    rw [List.zip_append hlength]
    refine List.rel_append hfront (.cons ?_ (contributesAll_of_shifts hshifts hback))
    exact .plain (role_of_isFree hfree)
  calc
    _ = ((Pieces.ofParts (front ++ [] :: back)
          ((⟨[], g.hooks⟩ :: parts) ++ ⟨[], .absent⟩ :: parts')).map Pieces.command).map line := by
        rw [ofReadings_eq_ofParts hspaced, List.cons_append]
    _ = ((Pieces.ofParts (front ++ [] :: back)
          ((⟨[], g.hooks⟩ :: parts) ++ parts')).map Pieces.command).map line :=
        Pieces.line_ofParts_insert _ _ _
    _ = ((Pieces.ofParts (front ++ back)
          ((⟨[], g.hooks⟩ :: parts) ++ parts')).map Pieces.command).map line :=
        Pieces.line_ofParts _ _ _
    _ = _ := by rw [ofReadings_eq_ofParts hparts, List.cons_append]

/-- **A superfluous space does not change the command line, unless it takes the place of a value.**
Let all flags of the grammar have names, and put an empty argument behind one that is no flag that
takes a value.  Then the command line is the same, or there is none for the same reason.  The
arguments up to there are read as before, the empty one is free, and each of those behind it is read
as before or is free as before: the same flags are found in the same arguments. -/
theorem line_insert_empty (hnamed : g.Named) {arguments : List Text} {j : Nat} {r : Reading}
    (hr : (ofArguments (some g) arguments)[j]? = some r) (hrole : r.role ≠ .valueFlag) :
    let readings := ofArguments (some g) arguments
    let spaced := arguments.insertIdx (j + 1) []
    let readings' := ofArguments (some g) spaced
    (ofReadings (some g) spaced readings').map line =
        (ofReadings (some g) arguments readings).map line ∧
      ∃ gap behind, readings' = readings.take (j + 1) ++ gap :: behind ∧ gap.isFree = true ∧
        List.Forall₂ Shifts (readings.drop (j + 1)) behind := by
  intro readings spaced readings'
  have hlt : j < arguments.length := by
    rw [← length_ofArguments (some g)]
    exact (List.getElem?_eq_some_iff.mp hr).1
  -- The place in front of which it is put in splits the arguments, and with them the readings.
  obtain ⟨front, back, rfl, hlength, hinsert⟩ :=
    List.exists_of_modifyTailIdx (List.cons []) (Nat.succ_le_of_lt hlt)
  cases front with
  | nil => cases hlength
  | cons name before =>
    have hfront : (ofArguments (some g) (name :: before)).length = j + 1 :=
      (length_ofArguments _ _).trans hlength
    have hreadings : readings = ofArguments (some g) (name :: before) ++
        readAll g (Used.initial.behind g before) back := ofArguments_append g name before back
    have hlast : (ofArguments (some g) (name :: before)).getLast? = some r := by
      rw [List.getLast?_eq_getElem?, hfront, Nat.add_sub_cancel, ← hr]
      change _ = readings[j]?
      rw [hreadings, List.getElem?_append_left (by omega)]
    -- What is read of those in front is the same; behind them only slots may shift.
    obtain ⟨gap, behind, hgap, hfree, hshifts⟩ := ofArguments_insert hnamed hlast hrole back
    have hspaced : spaced = name :: before ++ [] :: back := hinsert
    have hreadings' : readings' = ofArguments (some g) (name :: before) ++ gap :: behind := by
      change ofArguments (some g) spaced = _
      rw [hspaced, hgap]
    constructor
    · obtain ⟨parts, hparts⟩ := exists_parts g (name :: before)
      obtain ⟨parts', hparts'⟩ := exists_parts_readAll g (Used.initial.behind g before) back
      rw [hreadings, hreadings', hspaced]
      exact line_insert (length_ofArguments _ _).symm hparts hparts' hfree hshifts
    · refine ⟨gap, behind, ?_, hfree, ?_⟩
      · rw [hreadings', hreadings, ← hfront, List.take_left]
      · rw [hreadings, ← hfront, List.drop_left]
        exact hshifts

/-- The empty argument fills the slot, and what filled it is left over; the flag and its value
stay. -/
theorem line_insert_empty_sample :
    let output : ValueFlag := ⟨['-', 'o'], [], .text, [], ⟨none, none⟩⟩
    let g : Grammar := ⟨['c', 'c'], [], ⟨none, none⟩, [⟨.path, [], 1⟩], [], [output]⟩
    let arguments : List Text := [['c', 'c'], ['x'], ['-', 'o'], ['y']]
    let readings := ofArguments (some g) arguments
    let spaced : List Text := [['c', 'c'], [], ['x'], ['-', 'o'], ['y']]
    let readings' := ofArguments (some g) spaced
    g.Named ∧
      readings.map Reading.role = [.command, .positional, .valueFlag, .value] ∧
      readings'.map Reading.role = [.command, .positional, .other, .valueFlag, .value] ∧
      (ofReadings (some g) spaced readings').map line =
        (ofReadings (some g) arguments readings).map line := by
  intro output g arguments readings spaced readings'
  have hnamed : g.Named := by
    refine ⟨nofun, ?_⟩
    intro flag hflag
    cases List.mem_singleton.mp hflag
    decide
  have hfirst : readings[0]? = some Reading.command := rfl
  obtain ⟨hline, -⟩ := line_insert_empty hnamed hfirst nofun
  exact ⟨hnamed, rfl, rfl, hline⟩

end Command

end Typeahead
