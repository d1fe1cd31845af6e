import Typeahead.Json.Reader
import Typeahead.Json.Writer

/-!
# Numbers and names read back

An integer and the names are written as bare words.  A bare word ends where a delimiter follows it
or where the text ends, and only then is it looked at; so it is read back wherever it stands before
one of the two.

## Main definitions

* `Json.isDelimiter` — the characters that end a bare word.
* `Json.Ends` — a bare word ends where this text follows.

## Main results

* `Json.scalar?_ofInt` — an integer with not too many digits is read back.
* `Json.readFrom_word` — a bare word with a value is one token.
-/

namespace Typeahead

namespace Text

theorem ofNat_ne_nil (n : Nat) : ofNat n ≠ [] := Nat.toDigits_ne_nil

theorem isDigit_of_mem_ofNat {n : Nat} {c : Char} (h : c ∈ ofNat n) : c.isDigit = true :=
  Nat.isDigit_of_mem_toDigits (by decide) (by decide) h

/-- No zero leads the digits of a positive number. -/
theorem head?_ofNat_ne_zero {n : Nat} (h : n ≠ 0) : (ofNat n).head? ≠ some '0' := by
  induction n using Nat.strongRecOn with
  | ind n ih =>
    unfold ofNat at ih ⊢
    by_cases hsmall : n < 10
    · rw [Nat.toDigits_of_lt_base hsmall]
      simpa [Nat.digitChar_eq_zero] using h
    · rw [Nat.toDigits_of_base_le (by decide) (by omega)]
      have hhead := ih (n / 10) (by omega) (by omega)
      cases hdigits : Nat.toDigits 10 (n / 10) with
      | nil => exact absurd hdigits Nat.toDigits_ne_nil
      | cons c rest => simpa [hdigits] using hhead

end Text

namespace Json

/-! ### Numbers -/

theorem digitsValue_ofNat (n : Nat) : digitsValue (Text.ofNat n) = n := by
  have h := Nat.ofDigitChars_toDigits (b := 10) (n := n) (by decide) (by decide)
  simpa only [digitsValue, Text.ofNat, Nat.ofDigitChars, Nat.mul_comm] using h

theorem isWhole_ofNat (n : Nat) : isWhole (Text.ofNat n) = true := by
  by_cases hzero : n = 0
  · rw [hzero]
    rfl
  · have hhead := Text.head?_ofNat_ne_zero hzero
    unfold isWhole
    split
    next hnil => exact absurd hnil (Text.ofNat_ne_nil n)
    next => rfl
    next c rest _ hcons =>
      rw [hcons] at hhead
      simpa using hhead

theorem takeDigits_ofNat (n : Nat) : takeDigits (Text.ofNat n) = (Text.ofNat n, []) := by
  have hdigits : ∀ c ∈ Text.ofNat n, c.isDigit = true := fun c hc => Text.isDigit_of_mem_ofNat hc
  have htake : (Text.ofNat n ++ []).takeWhile Char.isDigit = Text.ofNat n ++ [] :=
    List.takeWhile_append_of_pos hdigits
  have hdrop : (Text.ofNat n ++ []).dropWhile Char.isDigit = [] :=
    List.dropWhile_append_of_pos hdigits
  rw [List.append_nil] at htake hdrop
  rw [takeDigits, htake, hdrop]

theorem magnitude?_ofNat (negative : Bool) {n : Nat}
    (h : (Text.ofNat n).length ≤ Numeral.digitLimit) :
    magnitude? negative (Text.ofNat n) = some (.int (if negative then -n else n)) := by
  have hlimit : ¬ Numeral.digitLimit < (Text.ofNat n).length := by omega
  simp only [magnitude?, takeDigits_ofNat, isWhole_ofNat, Bool.not_true, Bool.false_eq_true,
    if_false, hlimit, digitsValue_ofNat]

/-- How the digits of a number begin. -/
theorem exists_ofNat_eq_cons (n : Nat) :
    ∃ c rest, Text.ofNat n = c :: rest ∧ c.isDigit = true := by
  cases h : Text.ofNat n with
  | nil => exact absurd h (Text.ofNat_ne_nil n)
  | cons c rest => exact ⟨c, rest, rfl, Text.isDigit_of_mem_ofNat (h ▸ List.mem_cons_self)⟩

theorem number?_ofInt {n : Int} (h : (Text.ofNat n.natAbs).length ≤ Numeral.digitLimit) :
    number? (Text.ofInt n) = some (.int n) := by
  cases n with
  | ofNat n =>
    obtain ⟨c, rest, hcons, hdigit⟩ := exists_ofNat_eq_cons n
    have hminus : c ≠ '-' := by
      rintro rfl
      exact absurd hdigit (by decide)
    have hnumber : number? (c :: rest) = magnitude? false (c :: rest) := by
      unfold number?
      split
      next heq => exact absurd (List.cons.inj heq).1 hminus
      next => rfl
    rw [Text.ofInt, hcons, hnumber, ← hcons]
    exact magnitude?_ofNat false h
  | negSucc n =>
    rw [Text.ofInt, number?]
    exact magnitude?_ofNat true h

/-- **An integer with not too many digits is read back.** -/
theorem scalar?_ofInt {n : Int} (h : (Text.ofNat n.natAbs).length ≤ Numeral.digitLimit) :
    scalar? (Text.ofInt n) = some (.int n) := by
  have hname : scalar? (Text.ofInt n) = number? (Text.ofInt n) := by
    -- No name starts with a digit, or with a minus sign and a digit.
    cases n with
    | ofNat n =>
      obtain ⟨c, rest, hcons, hdigit⟩ := exists_ofNat_eq_cons n
      rw [Text.ofInt, hcons]
      unfold scalar?
      repeat rw [if_neg (by rintro heq; cases heq; exact absurd hdigit (by decide))]
    | negSucc n =>
      obtain ⟨c, rest, hcons, hdigit⟩ := exists_ofNat_eq_cons (n + 1)
      rw [Text.ofInt, hcons]
      unfold scalar?
      repeat rw [if_neg (by rintro heq; cases heq; try exact absurd hdigit (by decide))]
  rw [hname, number?_ofInt h]

/-! ### Bare words in a text -/

/-- Whether a character ends a bare word before it. -/
def isDelimiter (c : Char) : Bool := isGap c || c == '"' || (punctuation? c).isSome

/-- A bare word before the text ends where the text starts. -/
def Ends (t : Text) : Prop := ∀ c ∈ t.head?, isDelimiter c = true

theorem ends_nil : Ends [] := by simp [Ends]

theorem ends_cons {c : Char} {t : Text} (h : isDelimiter c = true) : Ends (c :: t) := by
  simpa [Ends] using h

theorem isDelimiter_of_isDigit {c : Char} (h : c.isDigit = true) : isDelimiter c = false := by
  rw [Char.isDigit_iff_toNat] at h
  unfold isDelimiter isGap punctuation?
  split
  case h_7 =>
    simp only [Option.isSome_none, Bool.or_false, Bool.or_eq_false_iff, beq_eq_false_iff_ne]
    refine ⟨⟨⟨⟨?_, ?_⟩, ?_⟩, ?_⟩, ?_⟩ <;> (rintro rfl; exact absurd h (by decide))
  all_goals exact absurd h (by decide)

theorem start_of_not_isDelimiter {c : Char} (h : isDelimiter c = false) :
    Scanner.start c = (.word [c], []) := by
  simp only [isDelimiter, Bool.or_eq_false_iff, beq_eq_false_iff_ne,
    Option.isSome_eq_false_iff, Option.isNone_iff_eq_none] at h
  simp only [Scanner.start, h.1.1, h.1.2, h.2, Bool.false_eq_true, if_false]

variable {r r' : Reader} {v : Json} {word t : Text}

/-- The end of a bare word, which is where the text behind it is read on. -/
theorem readFrom_word_end (hvalue : scalar? word.reverse = some v)
    (hstep : r.step (.scalar v) = .ok r') (hend : Ends t) :
    readFrom (.word word) r t = readFrom .between r' t := by
  cases t with
  | nil => simp only [readFrom, Scanner.finish, hvalue, Option.map_some, Reader.run, hstep]
  | cons c t =>
    have hc : isDelimiter c = true := hend c rfl
    unfold isDelimiter at hc
    simp only [readFrom, Scanner.step, hc, if_true, hvalue, Option.map_some, Reader.run, hstep]

/-- The inside of a bare word. -/
theorem readFrom_word_append {gathered : Text} (hword : ∀ c ∈ word, isDelimiter c = false) :
    readFrom (.word gathered) r (word ++ t) = readFrom (.word (word.reverse ++ gathered)) r t := by
  induction word generalizing gathered with
  | nil => rfl
  | cons c word ih =>
    have hc := hword c List.mem_cons_self
    unfold isDelimiter at hc
    simp only [List.cons_append, readFrom, Scanner.step, hc, Bool.false_eq_true, if_false,
      Reader.run]
    rw [ih fun d hd => hword d (List.mem_cons_of_mem c hd)]
    simp

/-- **A bare word with a value is one token.** -/
theorem readFrom_word (hne : word ≠ []) (hword : ∀ c ∈ word, isDelimiter c = false)
    (hvalue : scalar? word = some v) (hstep : r.step (.scalar v) = .ok r') (hend : Ends t) :
    readFrom .between r (word ++ t) = readFrom .between r' t := by
  cases word with
  | nil => exact absurd rfl hne
  | cons c word =>
    have hstart := start_of_not_isDelimiter (hword c List.mem_cons_self)
    simp only [List.cons_append, readFrom, Scanner.step, hstart, Reader.run]
    rw [readFrom_word_append fun d hd => hword d (List.mem_cons_of_mem c hd)]
    exact readFrom_word_end (by simpa using hvalue) hstep hend

end Json

end Typeahead
