import Typeahead.Json.Basic

/-!
# Checked values

Checking a description reports everything that is wrong with it and not only the first thing, so a
checked value is either good or a list of issues, and checking two parts joins the issues of both.

## Main definitions

* `Issue` — what is wrong and where.
* `Checked` — a value or the issues; the parts of a description are checked together by `<*>`.
* `Checked.field`, `Checked.optionalField` — the value at one of two keys.
* `Checked.listOf` — a list of checked items.
-/

namespace Typeahead

/-- A step on the way into a description. -/
inductive Step
  | key (name : Text)
  | index (i : Nat)
  deriving DecidableEq, Repr

/-- What is wrong. -/
inductive IssueKind
  /-- A key is missing. -/
  | missing
  /-- A text is wanted. -/
  | textWanted
  /-- A list is wanted. -/
  | listWanted
  /-- An object is wanted. -/
  | objectWanted
  /-- The kind of an argument is none of the words for it. -/
  | unknownKind
  /-- An integer is wanted. -/
  | integerWanted
  /-- A text does not spell an integer. -/
  | unreadableInteger
  /-- An integer is too great to be taken over. -/
  | oversizedInteger
  /-- A number has a fraction. -/
  | fraction
  /-- A number is infinite or not a number. -/
  | notFinite
  /-- A position is below one. -/
  | belowOne
  /-- Two slots have one position. -/
  | repeatedPosition (position : Nat)
  deriving DecidableEq, Repr

/-- What is wrong and where. -/
structure Issue where
  place : List Step
  kind : IssueKind
  deriving DecidableEq, Repr

/-- A value, or the issues that keep it from being one. -/
inductive Checked (α : Type)
  | good (a : α)
  | bad (issues : List Issue)
  deriving DecidableEq, Repr

namespace Checked

variable {α β : Type}

/-- A single issue, with the description itself. -/
def wrong (kind : IssueKind) : Checked α := .bad [⟨[], kind⟩]

/-- A function and an argument checked together; the issues of both are reported. -/
def apply : Checked (α → β) → Checked α → Checked β
  | .good f, .good a => .good (f a)
  | .good _, .bad issues => .bad issues
  | .bad issues, .good _ => .bad issues
  | .bad issues, .bad more => .bad (issues ++ more)

instance : Applicative Checked where
  pure := .good
  seq f a := apply f (a ())

/-- A check of a value that is good so far. -/
def andThen : Checked α → (α → Checked β) → Checked β
  | .good a, f => f a
  | .bad issues, _ => .bad issues

/-- The issues seen from one step further out. -/
def within (step : Step) : Checked α → Checked α
  | .good a => .good a
  | .bad issues => .bad (issues.map fun issue => ⟨step :: issue.place, issue.kind⟩)

/-- The value at the first of two keys that is there, with its key. -/
def either? (members : List (Text × Json)) (key other : String) : Option (Text × Json) :=
  match Json.find? key.toList members with
  | some v => some (key.toList, v)
  | none => (Json.find? other.toList members).map fun v => (other.toList, v)

/-- The value at a key that has to be there. -/
def field (members : List (Text × Json)) (key other : String) (read : Json → Checked α) :
    Checked α :=
  match either? members key other with
  | some (k, v) => within (.key k) (read v)
  | none => within (.key key.toList) (wrong .missing)

/-- The value at a key that may be left out. -/
def optionalField (members : List (Text × Json)) (key other : String) (absent : α)
    (read : Json → Checked α) : Checked α :=
  match either? members key other with
  | some (k, v) => within (.key k) (read v)
  | none => .good absent

/-- The items of a list, counted from an index. -/
def itemsFrom (read : Json → Checked α) : Nat → List Json → Checked (List α)
  | _, [] => .good []
  | i, v :: rest =>
    apply (apply (.good List.cons) (within (.index i) (read v))) (itemsFrom read (i + 1) rest)

/-- A list of items. -/
def listOf (read : Json → Checked α) : Json → Checked (List α)
  | .list items => itemsFrom read 0 items
  | _ => wrong .listWanted

/-- A text. -/
def ofText : Json → Checked Text
  | .text t => .good t
  | _ => wrong .textWanted

/-- A text or nothing. -/
def ofTextOrNull : Json → Checked (Option Text)
  | .text t => .good (some t)
  | .null => .good none
  | _ => wrong .textWanted

end Checked

end Typeahead
