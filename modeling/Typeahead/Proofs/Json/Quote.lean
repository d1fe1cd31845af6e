import Typeahead.Json.Reader
import Typeahead.Json.Writer

/-!
# Quoted texts read back

What is written for a character is read back as that character: as it is, by an escape of one
letter, by one numbered escape, or by two of them that make a surrogate pair.  Since no character is
a surrogate, a numbered escape that stands alone is never taken for half a pair.

## Main results

* `Json.readFrom_unitEscape` — a numbered escape is read as its unit.
* `Json.readFrom_escapeChar` — a written character is read as that character.
* `Json.readFrom_quote` — a text between double quotes is one token.
-/

namespace Typeahead

namespace Json

variable {r r' : Reader} {gathered t : Text}

/-! ### Numbered escapes -/

theorem hexDigit?_digitChar (n : Nat) : hexDigit? (Nat.digitChar (n % 16)) = some (n % 16) := by
  have hall : ∀ d < 16, hexDigit? (Nat.digitChar d) = some d := by decide
  exact hall (n % 16) (Nat.mod_lt n (by decide))

/-- A digit of a numbered escape that is not the last. -/
theorem readFrom_digit {high : Option Nat} {owed value n : Nat} :
    readFrom (.numbered gathered high (owed + 2) value) r (Nat.digitChar (n % 16) :: t) =
      readFrom (.numbered gathered high (owed + 1) (value * 16 + n % 16)) r t := by
  simp only [readFrom, Scanner.step, hexDigit?_digitChar, Option.map_some, Reader.run]

/-- The last digit of a numbered escape. -/
theorem readFrom_lastDigit {high : Option Nat} {value n : Nat} :
    readFrom (.numbered gathered high 1 value) r (Nat.digitChar (n % 16) :: t) =
      readFrom (endNumbered gathered high (value * 16 + n % 16)) r t := by
  simp only [readFrom, Scanner.step, hexDigit?_digitChar, Option.map_some, Reader.run]

/-- A numbered escape is read as its unit. -/
theorem readFrom_unitEscape {high : Option Nat} {unit : Nat} (hunit : unit < 0x10000) :
    readFrom (.quote gathered high) r (unitEscape unit ++ t) =
      readFrom (endNumbered gathered high unit) r t := by
  have hstart : readFrom (.quote gathered high) r (unitEscape unit ++ t) =
      readFrom (.numbered gathered high 4 0) r (hexDigits 4 unit ++ t) := by
    simp only [unitEscape, List.cons_append]
    rfl
  have hvalue : (((0 * 16 + unit / 16 / 16 / 16 % 16) * 16 + unit / 16 / 16 % 16) * 16 +
      unit / 16 % 16) * 16 + unit % 16 = unit := by omega
  simp only [hstart, hexDigits, List.nil_append, List.cons_append]
  rw [readFrom_digit, readFrom_digit, readFrom_digit, readFrom_lastDigit, hvalue]

/-! ### Characters -/

/-- No character is a surrogate. -/
theorem toNat_lt_or_lt (c : Char) : c.toNat < 0xd800 ∨ 0xdfff < c.toNat := by
  have h : c.toNat < 0xd800 ∨ 0xdfff < c.toNat ∧ c.toNat < 0x110000 := c.valid
  omega

theorem toNat_lt (c : Char) : c.toNat < 0x110000 := by
  have h : c.toNat < 0xd800 ∨ 0xdfff < c.toNat ∧ c.toNat < 0x110000 := c.valid
  omega

/-- A character of the first plane, behind its numbered escape. -/
theorem endNumbered_toNat (c : Char) :
    endNumbered gathered none c.toNat = .quote (c :: gathered) none := by
  have hlow : (0xdc00 ≤ c.toNat && c.toNat < 0xe000) = false := by
    have := toNat_lt_or_lt c
    simp only [Bool.and_eq_false_iff, decide_eq_false_iff_not]
    omega
  have hhigh : (0xd800 ≤ c.toNat && c.toNat < 0xdc00) = false := by
    have := toNat_lt_or_lt c
    simp only [Bool.and_eq_false_iff, decide_eq_false_iff_not]
    omega
  simp only [endNumbered, hlow, hhigh, Bool.false_eq_true, if_false, settle, Char.ofNat_toNat]

/-- The first half of a surrogate pair waits for the second. -/
theorem endNumbered_high {n : Nat} (hn : n < 0x400) :
    endNumbered gathered none (0xd800 + n) = .quote gathered (some (0xd800 + n)) := by
  have hlow : (0xdc00 ≤ 0xd800 + n && 0xd800 + n < 0xe000) = false := by
    simp only [Bool.and_eq_false_iff, decide_eq_false_iff_not]
    omega
  have hhigh : (0xd800 ≤ 0xd800 + n && 0xd800 + n < 0xdc00) = true := by
    simp only [Bool.and_eq_true, decide_eq_true_eq]
    omega
  simp only [endNumbered, hlow, hhigh, Bool.false_eq_true, if_false, if_true, settle]

/-- The second half of a surrogate pair joins the first. -/
theorem endNumbered_low {first n : Nat} (hn : n < 0x400) :
    endNumbered gathered (some first) (0xdc00 + n) =
      .quote (pairChar first (0xdc00 + n) :: gathered) none := by
  have hlow : (0xdc00 ≤ 0xdc00 + n && 0xdc00 + n < 0xe000) = true := by
    simp only [Bool.and_eq_true, decide_eq_true_eq]
    omega
  simp only [endNumbered, hlow, if_true]

theorem pairChar_toNat {c : Char} (hc : 0x10000 ≤ c.toNat) :
    pairChar (0xd800 + (c.toNat - 0x10000) / 0x400) (0xdc00 + (c.toNat - 0x10000) % 0x400) = c := by
  have hnumber : 0x10000 + (0xd800 + (c.toNat - 0x10000) / 0x400 - 0xd800) * 0x400 +
      (0xdc00 + (c.toNat - 0x10000) % 0x400 - 0xdc00) = c.toNat := by omega
  rw [pairChar, hnumber, Char.ofNat_toNat]

/-- An escape of one letter. -/
theorem readFrom_escape {letter c : Char} (h : escaped? letter = some c) :
    readFrom (.quote gathered none) r ('\\' :: letter :: t) =
      readFrom (.quote (c :: gathered) none) r t := by
  have hletter : letter ≠ 'u' := by
    rintro rfl
    cases h
  simp only [readFrom, Scanner.step, Char.reduceEq, if_false, if_true, Reader.run, hletter, h,
    Option.map_some, settle]

/-- A character that stands for itself. -/
theorem readFrom_plain {c : Char} (hquote : c ≠ '"') (hbackslash : c ≠ '\\') (hplain : ¬ c < ' ') :
    readFrom (.quote gathered none) r (c :: t) = readFrom (.quote (c :: gathered) none) r t := by
  simp only [readFrom, Scanner.step, hquote, hbackslash, hplain, if_false, Reader.run, settle]

/-- The ways in which a character is written. -/
theorem escapeChar_cases (c : Char) :
    (∃ letter, escaped? letter = some c ∧ escapeChar c = ['\\', letter]) ∨
      (c ≠ '"' ∧ c ≠ '\\' ∧ ¬ c < ' ' ∧ escapeChar c = [c]) ∨
      (c.toNat < 0x10000 ∧ escapeChar c = unitEscape c.toNat) ∨
      (0x10000 ≤ c.toNat ∧ escapeChar c =
        unitEscape (0xd800 + (c.toNat - 0x10000) / 0x400) ++
          unitEscape (0xdc00 + (c.toNat - 0x10000) % 0x400)) := by
  by_cases hletter : c = '"' ∨ c = '\\' ∨ c = '\n' ∨ c = '\r' ∨ c = '\t' ∨ c = '\x0c' ∨ c = '\x08'
  -- The characters with a letter of their own after the backslash.
  · left
    rcases hletter with rfl | rfl | rfl | rfl | rfl | rfl | rfl <;> exact ⟨_, rfl, rfl⟩
  · right
    simp only [not_or] at hletter
    obtain ⟨hquote, hbackslash, hfeed, hreturn, htab, hform, hback⟩ := hletter
    simp only [escapeChar, hquote, hbackslash, hfeed, hreturn, htab, hform, hback, if_false]
    -- The rest goes by the code of the character: printed as it is, one unit, or a pair of
    -- surrogates.
    by_cases hplain : (' ' ≤ c && c ≤ '~') = true
    · rw [if_pos hplain]
      simp only [Bool.and_eq_true, decide_eq_true_eq] at hplain
      exact .inl ⟨hquote, hbackslash, Char.not_lt.mpr hplain.1, rfl⟩
    · rw [if_neg hplain]
      right
      by_cases hfirst : c.toNat < 0x10000
      · exact .inl ⟨hfirst, if_pos hfirst⟩
      · exact .inr ⟨Nat.le_of_not_lt hfirst, if_neg hfirst⟩

/-- **A written character is read as that character.** -/
theorem readFrom_escapeChar (c : Char) :
    readFrom (.quote gathered none) r (escapeChar c ++ t) =
      readFrom (.quote (c :: gathered) none) r t := by
  rcases escapeChar_cases c with ⟨letter, hletter, h⟩ | ⟨hquote, hbackslash, hplain, h⟩ |
    ⟨hfirst, h⟩ | ⟨hlater, h⟩ <;> rw [h]
  · exact readFrom_escape hletter
  · exact readFrom_plain hquote hbackslash hplain
  · rw [readFrom_unitEscape hfirst, endNumbered_toNat]
  · have := toNat_lt c
    have hhalf : (c.toNat - 0x10000) / 0x400 < 0x400 := by omega
    have hrest : (c.toNat - 0x10000) % 0x400 < 0x400 := by omega
    rw [List.append_assoc, readFrom_unitEscape (by omega), endNumbered_high hhalf,
      readFrom_unitEscape (by omega), endNumbered_low hrest, pairChar_toNat hlater]

/-! ### Texts -/

/-- The inside of a quoted text and the quote that ends it. -/
theorem readFrom_quote_end {inside : Text}
    (hstep : r.step (.text (gathered.reverse ++ inside)) = .ok r') :
    readFrom (.quote gathered none) r (inside.flatMap escapeChar ++ '"' :: t) =
      readFrom .between r' t := by
  induction inside generalizing gathered with
  | nil =>
    rw [List.append_nil] at hstep
    simp only [List.flatMap_nil, List.nil_append, readFrom, Scanner.step, if_true, settle,
      Reader.run, hstep]
  | cons c inside ih =>
    rw [List.flatMap_cons, List.append_assoc, readFrom_escapeChar]
    exact ih (by simpa using hstep)

/-- **A text between double quotes is one token.** -/
theorem readFrom_quote {inside : Text} (hstep : r.step (.text inside) = .ok r') :
    readFrom .between r (quote inside ++ t) = readFrom .between r' t := by
  have hopen : readFrom .between r (quote inside ++ t) =
      readFrom (.quote [] none) r (inside.flatMap escapeChar ++ '"' :: t) := by
    simp only [quote, List.cons_append, List.append_assoc, List.nil_append]
    rfl
  rw [hopen]
  exact readFrom_quote_end hstep

end Json

end Typeahead
