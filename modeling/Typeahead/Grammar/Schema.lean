import Typeahead.Grammar.Basic
import Typeahead.Grammar.Position

/-!
# Grammars from descriptions

A grammar is described by an object.  Every key has two spellings, of which the one with capitals
goes first; keys that mean nothing are passed over.  Everything that is wrong is reported, in the
order of the keys below.  Slots come to stand in order of position, no two of which may be equal,
and flags in order of name.

How a single value is read, and which ones are let pass, is a matter of its own: the schema takes
the readers of texts, kinds and integers as given, and reads the items of a list one by one.

## Main definitions

* `Readers` — how single values are read, with `Readers.standard` for the readers in use.
* `Readers.slot`, `Readers.flag`, `Readers.valueFlag`, `Readers.grammar` — the schema.
* `Grammar.inOrder` — the slots by position.
* `Slot.ofJson`, `Flag.ofJson`, `ValueFlag.ofJson`, `Grammar.ofJson` — the schema with the readers
  in use.
* `Grammar.standard` — the descriptions in use where none are given.
-/

namespace Typeahead

open Checked

/-- How the single values of a description are read. -/
structure Readers where
  /-- A text. -/
  text : Json → Checked Text
  /-- A text or nothing. -/
  textOrNull : Json → Checked (Option Text)
  /-- The kind of an argument. -/
  kind : Json → Checked ArgumentKind
  /-- An integer. -/
  integer : Json → Except IssueKind Int

/-- The kind of an argument from its word. -/
def ArgumentKind.ofJson : Json → Checked ArgumentKind
  | .text word =>
    match ArgumentKind.ofWord? word with
    | some kind => .good kind
    | none => .wrong .unknownKind
  | _ => .wrong .unknownKind

/-- The readers in use. -/
def Readers.standard : Readers where
  text := ofText
  textOrNull := ofTextOrNull
  kind := ArgumentKind.ofJson
  integer := Position.integer

/-- The slots by position, which has to differ from slot to slot. -/
def Grammar.inOrder (slots : List Slot) : Checked (List Slot) :=
  let sorted := stableSort Slot.position slots
  match firstRepeat? (sorted.map Slot.position) with
  | some position => .wrong (.repeatedPosition position)
  | none => .good sorted

namespace Readers

variable (r : Readers)

/-- The hooks among the members of an object. -/
def hooks (members : List (Text × Json)) : Checked Hooks :=
  Hooks.mk <$> optionalField members "executeBefore" "execute_before" none r.textOrNull
    <*> optionalField members "executeAfter" "execute_after" none r.textOrNull

/-- A slot from its description. -/
def slot : Json → Checked Slot
  | .object members =>
    Slot.mk <$> field members "argType" "arg_type" r.kind
      <*> optionalField members "argHint" "arg_hint" [] r.text
      <*> field members "argPos" "arg_pos" (Position.read r.integer)
  | _ => .wrong .objectWanted

/-- A flag from its description. -/
def flag : Json → Checked Flag
  | .object members =>
    Flag.mk <$> field members "flagName" "flag_name" r.text
      <*> optionalField members "flagTo" "flag_to" [] r.text
      <*> r.hooks members
  | _ => .wrong .objectWanted

/-- A flag with a value from its description. -/
def valueFlag : Json → Checked ValueFlag
  | .object members =>
    ValueFlag.mk <$> field members "flagName" "flag_name" r.text
      <*> optionalField members "flagTo" "flag_to" [] r.text
      <*> field members "argType" "arg_type" r.kind
      <*> optionalField members "argHint" "arg_hint" [] r.text
      <*> r.hooks members
  | _ => .wrong .objectWanted

/-- The slots of a description. -/
def slots (v : Json) : Checked (List Slot) := (listOf r.slot v).andThen Grammar.inOrder

/-- The flags of a description. -/
def flags (v : Json) : Checked (List Flag) := stableSort Flag.name <$> listOf r.flag v

/-- The flags with a value of a description. -/
def valueFlags (v : Json) : Checked (List ValueFlag) :=
  stableSort ValueFlag.name <$> listOf r.valueFlag v

/-- A grammar from its description. -/
def grammar : Json → Checked Grammar
  | .object members =>
    Grammar.mk <$> field members "name" "name" r.text
      <*> optionalField members "exeTo" "exe_to" [] r.text
      <*> r.hooks members
      <*> optionalField members "singleArg" "args" [] r.slots
      <*> optionalField members "flag" "flags" [] r.flags
      <*> optionalField members "flagArgPair" "arg_flags" [] r.valueFlags
  | _ => .wrong .objectWanted

end Readers

/-- A slot from its description. -/
def Slot.ofJson : Json → Checked Slot := Readers.standard.slot

/-- A flag from its description. -/
def Flag.ofJson : Json → Checked Flag := Readers.standard.flag

/-- A flag with a value from its description. -/
def ValueFlag.ofJson : Json → Checked ValueFlag := Readers.standard.valueFlag

namespace Grammar

/-- A grammar from its description. -/
def ofJson : Json → Checked Grammar := Readers.standard.grammar

/-- A slot for a path in a description. -/
def pathSlot (placeholder : String) (position : Int) : Json :=
  .object [("argType".toList, .text "path".toList), ("argHint".toList, .text placeholder.toList),
    ("argPos".toList, .int position)]

/-- The descriptions in use where none are given: that of a command to move files. -/
def standard : List Json :=
  [.object [("name".toList, .text "mv".toList), ("exeTo".toList, .text "move".toList),
    ("singleArg".toList, .list [pathSlot "src" 1, pathSlot "dst" 2])]]

end Grammar

end Typeahead
