/-!
# Text

A text is the list of its code points, so that positions, lengths and slices all count code points
and every operation is a recursion on the list.

## Main definitions

* `Text` — a list of characters.
* `Text.splitOn`, `Text.join` — cutting at a separator and gluing the pieces back; `join_splitOn`
  says that nothing is lost.
* `Text.slice` — the part between two positions that may count from the end.
* `Text.lastIndexOf` — the position of the last occurrence of a character.
-/

namespace Typeahead

/-- A text: its code points in order. -/
abbrev Text := List Char

namespace Text

/-! ### Cutting and gluing -/

/-- The pieces of a text between the occurrences of `sep`; always at least one piece. -/
def splitOn (sep : Char) : Text → List Text
  | [] => [[]]
  | c :: t =>
    if c = sep then [] :: splitOn sep t
    else
      match splitOn sep t with
      | [] => [[c]]
      | piece :: pieces => (c :: piece) :: pieces

/-- The texts one after the other with one `sep` between neighbours. -/
def join (sep : Char) : List Text → Text
  | [] => []
  | [piece] => piece
  | piece :: pieces => piece ++ sep :: join sep pieces

@[simp] theorem join_nil (sep : Char) : join sep [] = [] := rfl

@[simp] theorem join_singleton (sep : Char) (piece : Text) : join sep [piece] = piece := rfl

theorem join_cons {sep : Char} {piece : Text} {pieces : List Text} (h : pieces ≠ []) :
    join sep (piece :: pieces) = piece ++ sep :: join sep pieces := by
  cases pieces with
  | nil => exact absurd rfl h
  | cons next rest => rfl

theorem splitOn_ne_nil (sep : Char) (t : Text) : splitOn sep t ≠ [] := by
  cases t with
  | nil => simp [splitOn]
  | cons c t =>
    simp only [splitOn]
    split
    · simp
    · split <;> simp

/-- Gluing the pieces of a text gives the text back. -/
theorem join_splitOn (sep : Char) (t : Text) : join sep (splitOn sep t) = t := by
  induction t with
  | nil => rfl
  | cons c t ih =>
    simp only [splitOn]
    split
    next h => rw [join_cons (splitOn_ne_nil sep t), ih, h]; rfl
    next h =>
      split
      next hnil => exact absurd hnil (splitOn_ne_nil sep t)
      next piece pieces hcons =>
        rw [hcons] at ih
        cases pieces with
        | nil => simp_all
        | cons next rest => simpa [join] using ih

/-- The texts one after the other with `glue` between neighbours. -/
def joinWith (glue : Text) : List Text → Text
  | [] => []
  | [piece] => piece
  | piece :: pieces => piece ++ glue ++ joinWith glue pieces

/-! ### Parts of a text -/

/-- A position that may count from the end, as an offset: a negative one has the length added to
it, and what is still outside goes to the nearest end. -/
def offset (length : Nat) (position : Int) : Nat :=
  if 0 ≤ position then min position.toNat length else (position + length).toNat

/-- The part between two positions, either of which may count from the end; empty if they cross. -/
def slice (t : Text) (start stop : Int) : Text :=
  (t.take (offset t.length stop)).drop (offset t.length start)

/-- The part from `start` up to `stop`. -/
def between (t : Text) (start stop : Nat) : Text := (t.take stop).drop start

/-- Whether the last character is `c`. -/
def endsIn (c : Char) : Text → Bool
  | [] => false
  | [d] => d == c
  | _ :: t => endsIn c t

/-- The position of the last occurrence of a character that satisfies `p`. -/
def lastIndexWhere (p : Char → Bool) : Text → Option Nat
  | [] => none
  | c :: t =>
    match lastIndexWhere p t with
    | some i => some (i + 1)
    | none => if p c then some 0 else none

/-- The position of the last `c`. -/
def lastIndexOf (c : Char) (t : Text) : Option Nat := lastIndexWhere (· == c) t

/-- The text without the characters at its end that satisfy `p`. -/
def trimRight (p : Char → Bool) : Text → Text
  | [] => []
  | c :: t =>
    match trimRight p t with
    | [] => if p c then [] else [c]
    | kept => c :: kept

/-- The text without the characters at its two ends that satisfy `p`. -/
def trim (p : Char → Bool) (t : Text) : Text := trimRight p (t.dropWhile p)

/-- What stands before and after the first occurrence of `mark`. -/
def partition? (mark : Text) : Text → Option (Text × Text)
  | [] => if mark = [] then some ([], []) else none
  | c :: t =>
    if mark.isPrefixOf (c :: t) then some ([], (c :: t).drop mark.length)
    else (partition? mark t).map fun (before, after) => (c :: before, after)

/-! ### Columns and figures -/

/-- The text with blanks added behind it up to `width` characters. -/
def padRight (width : Nat) (t : Text) : Text := t ++ List.replicate (width - t.length) ' '

/-- The text with blanks added before it up to `width` characters. -/
def padLeft (width : Nat) (t : Text) : Text := List.replicate (width - t.length) ' ' ++ t

/-- A natural number in decimal. -/
def ofNat (n : Nat) : Text := Nat.toDigits 10 n

/-- An integer in decimal, with a minus sign if it is negative. -/
def ofInt : Int → Text
  | .ofNat n => ofNat n
  | .negSucc n => '-' :: ofNat (n + 1)

end Text

end Typeahead
