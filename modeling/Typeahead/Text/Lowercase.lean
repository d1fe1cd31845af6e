import Typeahead.Text.Letter

/-!
# Small and capital letters

The text in small letters, for comparing names whatever their case.  Every capital letter goes to
its small letter; the dotted capital I goes to an i with a dot above; and a capital sigma goes to
the final form if it ends a word, that is if a letter stands before it and none after it, marks and
signs that do not matter being passed over on both sides.

## Main definitions

* `smallLetter` — the small letter of one character.
* `Text.toSmall` — the text in small letters.
* `Text.toCapital` — the text in capital letters, as far as plain capitals go.
-/

namespace Typeahead

/-- The small letter of a character, itself if it has none. -/
def smallLetter (c : Char) : Char :=
  match smallLetterRuns.find? fun (first, last, step, _) =>
      first ≤ c.toNat && c.toNat ≤ last && (c.toNat - first) % step == 0 with
  | some (_, _, _, shift) => Char.ofNat (c.toNat + shift).toNat
  | none => c

/-- Whether a letter comes first once the ignorable characters are passed over. -/
def meetsLetter : Text → Bool
  | [] => false
  | c :: t =>
    if inRanges ignorableRanges c.toNat then meetsLetter t else inRanges casedRanges c.toNat

namespace Text

/-- The rest of a text in small letters; `before` is what precedes it, last character first. -/
def toSmallFrom (before : Text) : Text → Text
  | [] => []
  | c :: t =>
    let small :=
      if c = '\u0130' then ['i', '\u0307']
      else if c = '\u03a3' then
        if meetsLetter before && !meetsLetter t then ['\u03c2'] else ['\u03c3']
      else [smallLetter c]
    small ++ toSmallFrom (c :: before) t

/-- The text in small letters. -/
def toSmall (t : Text) : Text := toSmallFrom [] t

/-- The plain capital letters of a character: those of a plain letter, of a letter that has a plain
one for its capital, and of the letters that stand for several.  Any other character stays. -/
def plainCapitals (c : Char) : Text :=
  if c = '\u0131' then ['I']
  else if c = '\u017f' then ['S']
  else if c = '\u00df' then ['S', 'S']
  else if c = '\ufb00' then ['F', 'F']
  else if c = '\ufb01' then ['F', 'I']
  else if c = '\ufb02' then ['F', 'L']
  else if c = '\ufb03' then ['F', 'F', 'I']
  else if c = '\ufb04' then ['F', 'F', 'L']
  else if c = '\ufb05' || c = '\ufb06' then ['S', 'T']
  else [c.toUpper]

/-- The text in capital letters, as far as plain capitals go: it is a given text of plain characters
exactly if the text in capital letters of every script is. -/
def toCapital (t : Text) : Text := t.flatMap plainCapitals

end Text

end Typeahead
