import Typeahead.Json.Token

/-!
# Reading JSON

The tokens are read as they come by a machine with a stack: for every list and object that is still
open, its contents so far.  No token is looked at twice and none is looked ahead at, so of several
defects the first one in the text is found.  Lists and objects may lie inside each other only down
to a certain depth.

## Main definitions

* `Json.Defect` — why a text has no value.
* `Json.Frame` — an open list or object.
* `Json.Reader` — what has to come next, with `Reader.step`.
* `Json.read` — the value of a text.
-/

namespace Typeahead

namespace Json

/-- The values that have other values inside them. -/
inductive Container
  | list
  | object
  deriving DecidableEq, Repr

/-- Why a text has no value. -/
inductive Defect
  /-- It is not the text of one value and nothing else. -/
  | malformed
  /-- A list or an object in it has too many others around it. -/
  | tooDeep (container : Container)
  deriving DecidableEq, Repr

/-- How many lists and objects may be open at a time. -/
def depthLimit : Nat := 980

/-- A list or an object that is still open; the items of a list are kept last first. -/
inductive Frame
  | list (items : List Json)
  /-- The members so far and the key whose value is being read. -/
  | object (members : List (Text × Json)) (key : Text)

/-- What has to come next, inside the frames that are open. -/
inductive Reader
  /-- A value. -/
  | value (stack : List Frame)
  /-- A first item or the end of a list. -/
  | itemOrEnd (stack : List Frame)
  /-- A first key or the end of an object. -/
  | keyOrEnd (stack : List Frame)
  /-- Another key. -/
  | key (members : List (Text × Json)) (stack : List Frame)
  /-- The colon behind a key. -/
  | colon (members : List (Text × Json)) (key : Text) (stack : List Frame)
  /-- What follows a value that is complete. -/
  | after (v : Json) (stack : List Frame)

/-- The start of a list or an object, unless there are too many around it. -/
def Reader.enter (container : Container) (stack : List Frame) (next : Reader) :
    Except Defect Reader :=
  if stack.length < depthLimit then .ok next else .error (.tooDeep container)

/-- The start of a value. -/
def Reader.begin (stack : List Frame) : Token → Except Defect Reader
  | .scalar v => .ok (.after v stack)
  | .text t => .ok (.after (.text t) stack)
  | .openList => Reader.enter .list stack (.itemOrEnd stack)
  | .openObject => Reader.enter .object stack (.keyOrEnd stack)
  | _ => .error .malformed

/-- One token. -/
def Reader.step : Reader → Token → Except Defect Reader
  | .value stack, token => Reader.begin stack token
  | .itemOrEnd stack, .closeList => .ok (.after (.list []) stack)
  | .itemOrEnd stack, token => Reader.begin (.list [] :: stack) token
  | .keyOrEnd stack, .closeObject => .ok (.after (.object []) stack)
  | .keyOrEnd stack, .text k => .ok (.colon [] k stack)
  | .key members stack, .text k => .ok (.colon members k stack)
  | .colon members k stack, .colon => .ok (.value (.object members k :: stack))
  | .after v (.list items :: stack), .comma => .ok (.value (.list (v :: items) :: stack))
  | .after v (.list items :: stack), .closeList => .ok (.after (.list (v :: items).reverse) stack)
  | .after v (.object members k :: stack), .comma => .ok (.key (put k v members) stack)
  | .after v (.object members k :: stack), .closeObject =>
    .ok (.after (.object (put k v members)) stack)
  | _, _ => .error .malformed

/-- Some tokens one after the other. -/
def Reader.run : Reader → List Token → Except Defect Reader
  | r, [] => .ok r
  | r, token :: rest =>
    match r.step token with
    | .error defect => .error defect
    | .ok next => next.run rest

/-- The value that was read, if nothing is missing. -/
def Reader.result : Reader → Except Defect Json
  | .after v [] => .ok v
  | _ => .error .malformed

/-- The rest of a text, read from the states of the two machines. -/
def readFrom : Scanner → Reader → Text → Except Defect Json
  | s, r, [] =>
    match s.finish with
    | none => .error .malformed
    | some tokens => (r.run tokens).bind Reader.result
  | s, r, c :: t =>
    match s.step c with
    | none => .error .malformed
    | some (s, tokens) =>
      match r.run tokens with
      | .error defect => .error defect
      | .ok r => readFrom s r t

/-- The value of a text. -/
def read (t : Text) : Except Defect Json := readFrom .between (.value []) t

end Json

end Typeahead
