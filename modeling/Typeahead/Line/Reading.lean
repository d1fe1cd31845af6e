import Typeahead.Grammar.Basic

/-!
# Reading the arguments of a line

The first argument of a line is the command.  Without a grammar for it every other argument is taken
for a path.  With one, the arguments are read from left to right: an argument that is the name of a
flag with a value is that flag, and the argument behind it is the value; else one that is the name
of a flag is that flag; else it fills the next slot; and what is left over is plain text.  Each
entry of the grammar is used at most once in a line.

## Main definitions

* `Role`, `Reading` — what an argument was taken for.
* `Used` — which entries of the grammar are used up, with `Used.read` for one argument.
* `Reading.ofArguments` — the readings of a line.
-/

namespace Typeahead

/-- What an argument does in its line. -/
inductive Role
  /-- The name of the command. -/
  | command
  /-- The filling of a slot. -/
  | positional
  /-- A flag that stands alone. -/
  | flag
  /-- A flag that takes the next argument as its value. -/
  | valueFlag
  /-- The value of a flag. -/
  | value
  /-- Anything else. -/
  | other
  deriving DecidableEq, Repr

/-- What an argument was taken for. -/
structure Reading where
  kind : ArgumentKind
  role : Role
  /-- The index of the slot, the flag or the flag with a value in its table of the grammar. -/
  entry : Option Int
  /-- What is shown as long as nothing is typed. -/
  placeholder : Option Text
  deriving DecidableEq, Repr

/-- A text that may be shown: nothing if it is empty. -/
def shown (t : Text) : Option Text := if t = [] then none else some t

/-- Which entries of a grammar a line has used up so far. -/
structure Used where
  /-- The flag with a value that waits for the next argument, with its index. -/
  waiting : Option (Nat × ValueFlag)
  valueFlags : List Nat
  flags : List Nat
  /-- How many slots are filled. -/
  slots : Nat
  deriving DecidableEq, Repr

namespace Used

/-- The state behind the name of the command. -/
def initial : Used := ⟨none, [], [], 0⟩

/-- The first entry of a name that is not used up, and its index; `k` is the index of the first
entry of the list. -/
def firstUnused {α : Type} (name : α → Text) (used : List Nat) (argument : Text) (k : Nat) :
    List α → Option (Nat × α)
  | [] => none
  | entry :: rest =>
    if name entry = argument && !used.contains k then some (k, entry)
    else firstUnused name used argument (k + 1) rest

/-- The slot of a position, and its index; `k` is the index of the first slot of the list. -/
def slotAt (position : Nat) (k : Nat) : List Slot → Option (Nat × Slot)
  | [] => none
  | slot :: rest =>
    if slot.position = position then some (k, slot) else slotAt position (k + 1) rest

/-- The reading of the next argument and what is used up behind it. -/
def read (g : Grammar) (u : Used) (argument : Text) : Reading × Used :=
  match u.waiting with
  | some (k, flag) =>
    (⟨flag.kind, .value, some k, shown flag.placeholder⟩, { u with waiting := none })
  | none =>
    match firstUnused ValueFlag.name u.valueFlags argument 0 g.valueFlags with
    | some (k, flag) =>
      (⟨.text, .valueFlag, some k, none⟩,
        { u with waiting := some (k, flag), valueFlags := k :: u.valueFlags })
    | none =>
      match firstUnused Flag.name u.flags argument 0 g.flags with
      | some (k, _) => (⟨.text, .flag, some k, none⟩, { u with flags := k :: u.flags })
      | none =>
        match slotAt (u.slots + 1) 0 g.slots with
        | some (k, slot) =>
          (⟨slot.kind, .positional, some k, shown slot.placeholder⟩,
            { u with slots := u.slots + 1 })
        | none => (⟨.text, .other, none, none⟩, u)

end Used

namespace Reading

/-- The reading of the name of the command. -/
def command : Reading := ⟨.program, .command, none, none⟩

/-- The reading of an argument of a command without a grammar. -/
def plainPath : Reading := ⟨.path, .other, none, none⟩

/-- The readings of the arguments behind those that used up `u`. -/
def readAll (g : Grammar) : Used → List Text → List Reading
  | _, [] => []
  | u, argument :: rest => (u.read g argument).1 :: readAll g (u.read g argument).2 rest

/-- The readings of the arguments of a line. -/
def ofArguments (grammar : Option Grammar) : List Text → List Reading
  | [] => []
  | _ :: rest =>
    command ::
      match grammar with
      | none => rest.map fun _ => plainPath
      | some g => readAll g Used.initial rest

end Reading

end Typeahead
