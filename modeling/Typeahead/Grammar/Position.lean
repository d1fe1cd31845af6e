import Typeahead.Grammar.Checked
import Typeahead.Json.Token
import Typeahead.Number.Word

/-!
# Positions in a description

A position is a positive integer.  It may be given as a number without a fraction, as one of the two
truth values, or as a text that spells an integer.

A text is read in two attempts.  As it stands, it may be digits without a leading zero, with or
without a minus sign.  If that fails, the frills are taken off and what is left is read in the same
way: white space around it, a sign, leading zeros, a tail of a point and zeros, and single low lines
between digits.  Only the digits of ASCII count.  The steps are kept in their order, since together
they decide the odd cases: after a leading zero any number of low lines is passed over, and even a
minus sign may follow.  Too many digits are an issue of their own in the first attempt alone.

## Main definitions

* `Position.ofText` — the integer that a text spells.
* `Position.integer` — the integer of a description.
* `Position.read` — a position from its description.
-/

namespace Typeahead

namespace Position

/-- The rest of a text behind leading zeros; `last` is the character passed over last. -/
def skipZeros (last : Char) : Text → Option Text
  | [] => some [last]
  | c :: t =>
    if c = '0' || c = '_' then skipZeros c t
    else if c = '.' then some (last :: '.' :: t)
    else if c = '-' || c.isDigit then some (c :: t)
    else none

/-- A text without its leading zeros; it has to start with a digit or a minus sign. -/
def withoutZeros : Text → Option Text
  | [] => none
  | c :: t =>
    if c = '0' then skipZeros '0' t else if c = '-' || c.isDigit then some (c :: t) else none

/-- A text without a point and at least one zero at its end; no other point is allowed. -/
def withoutTail (t : Text) : Option Text :=
  match t.dropWhile (· != '.') with
  | [] => some t
  | _ :: tail =>
    if tail ≠ [] && tail.all (· == '0') then some (t.takeWhile (· != '.')) else none

/-- Whether every low line stands between two other characters. -/
def linesApart : Text → Bool
  | [] => true
  | ['_'] => false
  | '_' :: '_' :: _ => false
  | _ :: t => linesApart t

/-- A text without its low lines, each of which has to stand between two other characters. -/
def withoutLines (t : Text) : Option Text :=
  if t.head? = some '_' || !linesApart t then none else some (t.filter (· != '_'))

/-- A text that has no sign without zeros and low lines that do not matter. -/
def withoutFrills (t : Text) : Option Text :=
  ((withoutZeros t).bind withoutTail).bind withoutLines

/-- A text without its frills; a plus sign is one of them unless a minus sign follows. -/
def cleaned (t : Text) : Option Text :=
  match t.trim isSpace with
  | '-' :: rest => (withoutFrills rest).map ('-' :: ·)
  | '+' :: '-' :: _ => none
  | '+' :: rest => withoutFrills rest
  | rest => withoutFrills rest

/-- An integer of digits, with a minus sign if it is negative and without leading zeros.  That there
are too many digits is known before it is known what follows them. -/
def plain (t : Text) : Except IssueKind Int :=
  let (negative, digits) := match t with
    | '-' :: digits => (true, digits)
    | digits => (false, digits)
  let (run, rest) := Json.takeDigits digits
  if !Json.isWhole run then .error .unreadableInteger
  else if Numeral.digitLimit < run.length then .error .oversizedInteger
  else if rest ≠ [] then .error .unreadableInteger
  else .ok (if negative then -(Json.digitsValue run : Int) else Json.digitsValue run)

/-- The integer that a text spells. -/
def ofText (t : Text) : Except IssueKind Int :=
  match plain t with
  | .ok n => .ok n
  | .error .oversizedInteger => .error .oversizedInteger
  | .error _ =>
    match (cleaned t).map plain with
    | some (.ok n) => .ok n
    | _ => .error .unreadableInteger

/-- The integer of a floating-point number: it may have no fraction and has to be a machine word,
the least of them excepted. -/
def ofFloat (x : Binary64) : Except IssueKind Int :=
  match x.truncate? with
  | none => .error .notFinite
  | some (n, cut) =>
    if cut then .error .fraction
    else if n.natAbs < wordBound then .ok n
    else .error .oversizedInteger

/-- The integer of a description. -/
def integer : Json → Except IssueKind Int
  | .int n => .ok n
  | .bool b => .ok (if b then 1 else 0)
  | .float x => ofFloat x
  | .text t => ofText t
  | _ => .error .integerWanted

/-- A position from its description, by a reader of integers: the integer has to be positive. -/
def read (integer : Json → Except IssueKind Int) (v : Json) : Checked Nat :=
  match integer v with
  | .error kind => .wrong kind
  | .ok n => if n < 1 then .wrong .belowOne else .good n.toNat

end Position

end Typeahead
