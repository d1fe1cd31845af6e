import Typeahead.Number.Binary64

/-!
# JSON values

Numbers keep apart whether they were written as integers or with a fraction or an exponent, and the
members of an object keep the order in which their keys first appeared.

## Main definitions

* `Json` — the values.
* `Json.put` — a member added to an object's members; a key that is there keeps its place and gets
  the new value.
* `Json.member?` — the value at a key.
-/

namespace Typeahead

/-- A JSON value. -/
inductive Json
  | null
  | bool (b : Bool)
  | int (n : Int)
  | float (x : Binary64)
  | text (t : Text)
  | list (items : List Json)
  | object (members : List (Text × Json))
  deriving Inhabited

namespace Json

/-- The members with one more; a key that is there keeps its place and gets the new value. -/
def put (key : Text) (value : Json) : List (Text × Json) → List (Text × Json)
  | [] => [(key, value)]
  | (k, v) :: rest => if k = key then (k, value) :: rest else (k, v) :: put key value rest

/-- The value at a key among members. -/
def find? (key : Text) : List (Text × Json) → Option Json
  | [] => none
  | (k, v) :: rest => if k = key then some v else find? key rest

/-- The value at a key of an object; `none` for any other value. -/
def member? (key : Text) : Json → Option Json
  | .object members => find? key members
  | _ => none

end Json

end Typeahead
