import Mathlib.Data.List.Forall2
import Typeahead.Proofs.Grammar.Hook
import Typeahead.Proofs.Number.Numeral
import Typeahead.Proofs.Text.Words

/-!
# What the words of a hook stand for

A word of a hook is a reference if it is a dollar sign with an index behind it or with two optional
indices around two full stops, and an index is a text of decimal digits.  A reference stands for
arguments of the line, where an index past the end counts as the number of arguments; any other word
stands for itself.

What is looked up is not quite this.  A text is taken for an index if it consists of digit signs,
and is read as a number then, which goes wrong if one of the signs stands for no decimal place or if
there are too many.  Such a word stops the whole hook, and nothing else does.

## Main definitions

* `Hook.Reference` — the words that refer to arguments.
* `Hook.Stands` — what a word stands for.
* `Hook.Jams` — the words with an index that cannot be read.

## Main results

* `Hook.index?_of_not_garbled` — what a text comes to as an index.
* `Hook.Stands.unique` — a word stands for one text only.
* `Hook.exists_stands`, `Hook.expandWord_of_jams` — a word is replaced by what it stands for, unless
  it has an index that cannot be read.
* `Hook.expand_fills_iff` — **a hook is filled in exactly if all its indices can be read.**
* `Hook.expand_stopped` — two words that stop a hook.
-/

namespace Typeahead

namespace Hook

open Numeral

variable {arguments : List Text} {absent limit : Nat} {t first last word : Text}

/-! ### Indices -/

/-- The place that one end of a range leads to: that of its index, but not past the end, and a given
one if there is no index. -/
inductive End (absent limit : Nat) : Text → Nat → Prop
  | absent : End absent limit [] absent
  | index {t : Text} (decimal : t.Decimal) : End absent limit t (min (value t) limit)

theorem index?_of_garbled (h : Garbled t) (absent limit : Nat) :
    ∃ why, index? t absent limit = .error (.numeral why) := by
  obtain ⟨why, hread⟩ := read_garbled h
  refine ⟨why, ?_⟩
  rw [index?, if_neg h.ne_nil, List.all_eq_true.mpr h.signs, hread]
  rfl

/-- **What a text comes to as an index**, unless it looks like one and cannot be read: to a place if
it is an index or empty, and else to nothing. -/
theorem index?_of_not_garbled (h : ¬ Garbled t) (absent limit : Nat) :
    (∃ n, index? t absent limit = .ok (some n) ∧ End absent limit t n) ∨
      index? t absent limit = .ok none ∧ ¬ (t = [] ∨ t.Decimal) := by
  by_cases hnil : t = []
  · rw [hnil]
    exact .inl ⟨absent, rfl, .absent⟩
  by_cases hsigns : ∀ c ∈ t, isDigitSign c = true
  · -- Digit signs that can be read are decimal digits, and not too many.
    have hdecimal : t.Decimal := by
      refine ⟨hnil, fun c hc => ?_⟩
      by_contra hnone
      exact h ⟨hnil, hsigns, .inl ⟨c, hc, by simpa using hnone⟩⟩
    have hshort : t.length ≤ digitLimit := by
      by_contra hlong
      exact h ⟨hnil, hsigns, .inr (Nat.lt_of_not_le hlong)⟩
    refine .inl ⟨min (value t) limit, ?_, .index hdecimal⟩
    rw [index?, if_neg hnil, List.all_eq_true.mpr hsigns, read_decimal hdecimal hshort]
    rfl
  -- Another character in it: the text is no index, and is left as it is.
  · have hall : t.all isDigitSign = false :=
      Bool.not_eq_true _ ▸ mt List.all_eq_true.mp hsigns
    refine .inr ⟨?_, ?_⟩
    · rw [index?, if_neg hnil, hall]
      rfl
    · rintro (hempty | hdecimal)
      · exact hnil hempty
      · exact hsigns hdecimal.signs

/-- What leads to a place is an index or nothing. -/
theorem End.shape {n : Nat} (h : End absent limit t n) : t = [] ∨ t.Decimal := by
  cases h with
  | absent => exact .inl rfl
  | index decimal => exact .inr decimal

theorem End.unique {n n' : Nat} (h : End absent limit t n) (h' : End absent limit t n') :
    n = n' := by
  cases h with
  | absent =>
    cases h' with
    | absent => rfl
    | index decimal => exact absurd rfl decimal.ne_nil
  | index decimal =>
    cases h' with
    | absent => exact absurd rfl decimal.ne_nil
    | index => rfl

/-- There is no full stop in an index. -/
theorem stop_notMem (h : t = [] ∨ t.Decimal) : '.' ∉ t := by
  rcases h with rfl | h
  · exact List.not_mem_nil
  · intro hstop
    exact absurd (h.digits '.' hstop) (by decide)

/-! ### References -/

/-- **The words that refer to arguments**: a dollar sign before an index, or before a range of
optional indices. -/
inductive Reference : Text → Prop
  | index {t : Text} (decimal : t.Decimal) : Reference ('$' :: t)
  | range {first last : Text} (hfirst : first = [] ∨ first.Decimal)
    (hlast : last = [] ∨ last.Decimal) : Reference ('$' :: (first ++ '.' :: '.' :: last))

/-- **What a word stands for**: an index for the argument there, and for nothing past the end; a
range for the arguments from its first place up to its last, with single spaces between them; and a
word that is no reference for itself. -/
inductive Stands (arguments : List Text) : Text → Text → Prop
  | index {t : Text} (decimal : t.Decimal) :
    Stands arguments ('$' :: t) (arguments[min (value t) arguments.length]?.getD [])
  | range {first last : Text} {start stop : Nat} (hstart : End 0 arguments.length first start)
    (hstop : End arguments.length arguments.length last stop) :
    Stands arguments ('$' :: (first ++ '.' :: '.' :: last))
      (Text.join ' ' ((arguments.take stop).drop start))
  | verbatim {word : Text} (other : ¬ Reference word) : Stands arguments word word

theorem Stands.eq_of_not_reference {text : Text} (h : Stands arguments word text)
    (hother : ¬ Reference word) : text = word := by
  cases h with
  | index decimal => exact absurd (.index decimal) hother
  | range hstart hstop => exact absurd (.range hstart.shape hstop.shape) hother
  | verbatim => rfl

/-- A reference is an index or a range and not both. -/
theorem not_decimal_range (first last : Text) : ¬ Text.Decimal (first ++ '.' :: '.' :: last) := by
  intro hdecimal
  exact stop_notMem (.inr hdecimal) (List.mem_append_right first List.mem_cons_self)

/-- **A word stands for one text only.** -/
theorem Stands.unique {text text' : Text} (h : Stands arguments word text)
    (h' : Stands arguments word text') : text = text' := by
  cases h with
  | @index t decimal =>
    generalize hword : '$' :: t = word at h'
    cases h' with
    | index => cases hword; rfl
    | range => cases hword; exact absurd decimal (not_decimal_range _ _)
    | verbatim other => exact absurd (hword ▸ .index decimal) other
  | @range first last start stop hstart hstop =>
    generalize hword : '$' :: (first ++ '.' :: '.' :: last) = word at h'
    cases h' with
    | index decimal => cases hword; exact absurd decimal (not_decimal_range _ _)
    | @range first' last' start' stop' hstart' hstop' =>
      -- The first two full stops are the same ones.
      have hparts := Text.partition?_append (stop_notMem hstart.shape) last
      rw [(List.cons.inj hword).2, Text.partition?_append (stop_notMem hstart'.shape)] at hparts
      cases hparts
      rw [hstart.unique hstart', hstop.unique hstop']
    | verbatim other => exact absurd (hword ▸ .range hstart.shape hstop.shape) other
  | verbatim other => exact (h'.eq_of_not_reference other).symm

/-- The texts behind a dollar sign that may be indices: those before and behind the first two full
stops, or all of it. -/
def indices (t : Text) : List Text :=
  match Text.partition? ['.', '.'] t with
  | some (first, last) => [first, last]
  | none => [t]

/-- **The words with an index that cannot be read.** -/
def Jams (word : Text) : Prop := ∃ t, word = '$' :: t ∧ ∃ index ∈ indices t, Garbled index

/-- Around the first two full stops of a reference there are its indices. -/
theorem shape_of_partition? (hparts : Text.partition? ['.', '.'] t = some (first, last))
    (h : Reference ('$' :: t)) :
    (first = [] ∨ first.Decimal) ∧ (last = [] ∨ last.Decimal) := by
  cases h with
  | index decimal =>
    rw [Text.partition?_eq_none (stop_notMem (.inr decimal))] at hparts
    cases hparts
  | range hfirst hlast =>
    rw [Text.partition?_append (stop_notMem hfirst)] at hparts
    cases hparts
    exact ⟨hfirst, hlast⟩

theorem decimal_of_partition? (hparts : Text.partition? ['.', '.'] t = none)
    (h : Reference ('$' :: t)) : t.Decimal := by
  cases h with
  | index decimal => exact decimal
  | range hfirst hlast =>
    rw [Text.partition?_append (stop_notMem hfirst)] at hparts
    cases hparts

/-! ### Words -/

theorem expandWord_dollar (arguments : List Text) (hne : t ≠ []) :
    expandWord arguments ('$' :: t) = refer arguments ('$' :: t) t := by
  cases t with
  | nil => exact absurd rfl hne
  | cons c t => rfl

/-- A word that does not start with a dollar sign, or is one, stays. -/
theorem expandWord_other (arguments : List Text) (h : ∀ t ≠ [], word ≠ '$' :: t) :
    expandWord arguments word = .ok word := by
  unfold expandWord
  split
  next c rest => exact absurd rfl (h (c :: rest) (List.cons_ne_nil c rest))
  next => rfl

/-- Of a range both ends are read before either is looked at. -/
theorem refer_range (hparts : Text.partition? ['.', '.'] t = some (first, last)) :
    refer arguments word t =
      index? first 0 arguments.length >>= fun start =>
        index? last arguments.length arguments.length >>= fun stop =>
          match start, stop with
          | some start, some stop => .ok (Text.join ' ' ((arguments.take stop).drop start))
          | _, _ => .ok word := by
  rw [refer, hparts]
  rfl

theorem refer_index (hparts : Text.partition? ['.', '.'] t = none) :
    refer arguments word t =
      index? t 0 arguments.length >>= fun i =>
        match i with
        | some i => .ok (arguments[i]?.getD [])
        | none => .ok word := by
  rw [refer, hparts]
  rfl

/-- **A word with an index that cannot be read stops the hook.** -/
theorem expandWord_of_jams (arguments : List Text) (h : Jams word) :
    ∃ why, expandWord arguments word = .error (.numeral why) := by
  obtain ⟨t, rfl, index, hindex, hgarbled⟩ := h
  have hne : t ≠ [] := by
    rintro rfl
    rw [List.mem_singleton.mp hindex] at hgarbled
    exact hgarbled.ne_nil rfl
  rw [expandWord_dollar arguments hne]
  cases hparts : Text.partition? ['.', '.'] t with
  | none =>
    rw [indices, hparts, List.mem_singleton] at hindex
    subst hindex
    obtain ⟨why, hwhy⟩ := index?_of_garbled hgarbled 0 arguments.length
    rw [refer_index hparts, hwhy]
    exact ⟨why, rfl⟩
  | some parts =>
    obtain ⟨first, last⟩ := parts
    rw [refer_range hparts]
    by_cases hfirst : Garbled first
    · obtain ⟨why, hwhy⟩ := index?_of_garbled hfirst 0 arguments.length
      rw [hwhy]
      exact ⟨why, rfl⟩
    · have hlast : Garbled last := by
        rw [indices, hparts] at hindex
        rcases List.mem_cons.mp hindex with rfl | hindex
        · exact absurd hgarbled hfirst
        · exact List.mem_singleton.mp hindex ▸ hgarbled
      obtain ⟨why, hwhy⟩ := index?_of_garbled hlast arguments.length arguments.length
      rw [hwhy]
      -- Whatever the first index comes to, the last one is still read.
      rcases index?_of_not_garbled hfirst 0 arguments.length with ⟨n, hn, -⟩ | ⟨hnone, -⟩
      · rw [hn]
        exact ⟨why, rfl⟩
      · rw [hnone]
        exact ⟨why, rfl⟩

/-- What the reference behind a dollar sign stands for, if its indices can be read. -/
theorem exists_stands_refer (arguments : List Text) (hne : t ≠ [])
    (h : ∀ index ∈ indices t, ¬ Garbled index) :
    ∃ text, refer arguments ('$' :: t) t = .ok text ∧ Stands arguments ('$' :: t) text := by
  cases hparts : Text.partition? ['.', '.'] t with
  | none =>
    -- Without two dots the whole text is the index.
    rw [indices, hparts, List.forall_mem_singleton] at h
    rw [refer_index hparts]
    rcases index?_of_not_garbled h 0 arguments.length with ⟨n, hn, hend⟩ | ⟨hnone, hother⟩
    · rw [hn]
      cases hend with
      | absent => exact absurd rfl hne
      | index decimal => exact ⟨_, rfl, .index decimal⟩
    · rw [hnone]
      exact ⟨_, rfl, .verbatim fun href => hother (.inr (decimal_of_partition? hparts href))⟩
  | some parts =>
    obtain ⟨first, last⟩ := parts
    rw [indices, hparts, List.forall_mem_cons, List.forall_mem_singleton] at h
    obtain ⟨hfirst, hlast⟩ := h
    rw [refer_range hparts]
    have hshape := shape_of_partition? hparts
    have hrange : t = first ++ '.' :: '.' :: last := by
      rw [Text.eq_append_of_partition? hparts, List.append_assoc]
      rfl
    -- Two dots: the text is a range only if both ends are indices, and the first of them is read
    -- first.
    rcases index?_of_not_garbled hfirst 0 arguments.length with ⟨start, hstart, hbegin⟩ | hnone
    · rw [hstart]
      rcases index?_of_not_garbled hlast arguments.length arguments.length with
        ⟨stop, hstop, hend⟩ | ⟨hnone, hother⟩
      · rw [hstop, hrange]
        exact ⟨_, rfl, .range hbegin hend⟩
      · rw [hnone]
        exact ⟨_, rfl, .verbatim fun href => hother (hshape href).2⟩
    · obtain ⟨hnone, hother⟩ := hnone
      rw [hnone]
      have hverbatim : Stands arguments ('$' :: t) ('$' :: t) :=
        .verbatim fun href => hother (hshape href).1
      rcases index?_of_not_garbled hlast arguments.length arguments.length with
        ⟨stop, hstop, -⟩ | ⟨hnone', -⟩
      · rw [hstop]
        exact ⟨_, rfl, hverbatim⟩
      · rw [hnone']
        exact ⟨_, rfl, hverbatim⟩

/-- **A word is replaced by what it stands for**, unless it has an index that cannot be read. -/
theorem exists_stands (arguments : List Text) (h : ¬ Jams word) :
    ∃ text, expandWord arguments word = .ok text ∧ Stands arguments word text := by
  by_cases hdollar : ∃ t ≠ [], word = '$' :: t
  · obtain ⟨t, hne, rfl⟩ := hdollar
    rw [expandWord_dollar arguments hne]
    exact exists_stands_refer arguments hne
      fun index hindex hgarbled => h ⟨t, rfl, index, hindex, hgarbled⟩
  · have hother : ∀ t ≠ [], word ≠ '$' :: t := fun t hne heq => hdollar ⟨t, hne, heq⟩
    refine ⟨word, expandWord_other arguments hother, .verbatim ?_⟩
    intro href
    cases href with
    | index decimal => exact hother _ decimal.ne_nil rfl
    | range => exact hother _ (by simp) rfl

/-! ### Templates -/

theorem exists_stands_words (arguments : List Text) {words : List Text}
    (h : ∀ word ∈ words, ¬ Jams word) :
    ∃ texts, expandWords arguments words = .ok texts ∧
      List.Forall₂ (Stands arguments) words texts := by
  induction words with
  | nil => exact ⟨[], rfl, .nil⟩
  | cons word rest ih =>
    obtain ⟨hword, hrest⟩ := List.forall_mem_cons.mp h
    obtain ⟨text, htext, hstands⟩ := exists_stands arguments hword
    obtain ⟨texts, htexts, hall⟩ := ih hrest
    refine ⟨text :: texts, ?_, .cons hstands hall⟩
    rw [expandWords, htext, htexts]
    rfl

theorem expandWords_of_jams (arguments : List Text) {words : List Text}
    (h : ∃ word ∈ words, Jams word) :
    ∃ why, expandWords arguments words = .error (.numeral why) := by
  induction words with
  | nil =>
    obtain ⟨word, hword, -⟩ := h
    cases hword
  | cons word rest ih =>
    by_cases hjams : Jams word
    · obtain ⟨why, hwhy⟩ := expandWord_of_jams arguments hjams
      rw [expandWords, hwhy]
      exact ⟨why, rfl⟩
    · obtain ⟨text, htext, -⟩ := exists_stands arguments hjams
      have hrest : ∃ word ∈ rest, Jams word := by
        obtain ⟨other, hother, hstuck⟩ := h
        rcases List.mem_cons.mp hother with rfl | hother
        · exact absurd hstuck hjams
        · exact ⟨other, hother, hstuck⟩
      obtain ⟨why, hwhy⟩ := ih hrest
      rw [expandWords, htext, hwhy]
      exact ⟨why, rfl⟩

/-- A template with a word that stops it. -/
theorem expand_of_jams (arguments : List Text) {template : Text}
    (h : ∃ word ∈ template.words, Jams word) :
    ∃ why, expand template arguments = .error (.numeral why) := by
  obtain ⟨why, hwhy⟩ := expandWords_of_jams arguments h
  rw [expand, hwhy]
  exact ⟨why, rfl⟩

/-- **A hook is filled in exactly if all its indices can be read.**  Then each of its words is
replaced by what it stands for, indices past the end counted as the number of arguments and words
that are no references left as they are; and otherwise a numeral is to blame. -/
theorem expand_fills_iff (template : Text) (arguments : List Text) :
    ((∃ text, expand template arguments = .ok text) ↔ ∀ word ∈ template.words, ¬ Jams word) ∧
      (∀ text, expand template arguments = .ok text → ∃ texts,
        List.Forall₂ (Stands arguments) template.words texts ∧ text = Text.join ' ' texts) ∧
      ∀ fault, expand template arguments = .error fault → ∃ why, fault = .numeral why := by
  by_cases hjams : ∃ word ∈ template.words, Jams word
  -- One word that jams stops all of it, whichever words come before.
  · obtain ⟨why, hwhy⟩ := expand_of_jams arguments hjams
    obtain ⟨word, hword, hstuck⟩ := hjams
    rw [hwhy]
    refine ⟨iff_of_false nofun fun hall => hall word hword hstuck, nofun, ?_⟩
    intro fault hfault
    cases hfault
    exact ⟨why, rfl⟩
  · have hnone : ∀ word ∈ template.words, ¬ Jams word :=
      fun word hword hstuck => hjams ⟨word, hword, hstuck⟩
    -- Each word has a text of its own.
    obtain ⟨texts, htexts, hall⟩ := exists_stands_words arguments hnone
    have hexpand : expand template arguments = .ok (Text.join ' ' texts) := by
      rw [expand, htexts]
      rfl
    rw [hexpand]
    refine ⟨iff_of_true ⟨_, rfl⟩ hnone, ?_, nofun⟩
    intro text htext
    cases htext
    exact ⟨texts, hall, rfl⟩

/-- An index, a range past the end, and a word that is nearly a range. -/
theorem expand_fills_iff_sample :
    let arguments : List Text := [['m', 'v'], ['a'], []]
    let template : Text := "x $1 $1..99 $1..y".toList
    expand template arguments = .ok "x a a  $1..y".toList ∧
      (∀ word ∈ template.words, ¬ Jams word) ∧
      ∃ texts, List.Forall₂ (Stands arguments) template.words texts ∧
        "x a a  $1..y".toList = Text.join ' ' texts := by
  intro arguments template
  have hexpand : expand template arguments = .ok "x a a  $1..y".toList := rfl
  obtain ⟨hiff, hstands, -⟩ := expand_fills_iff template arguments
  exact ⟨hexpand, hiff.mp ⟨_, hexpand⟩, hstands _ hexpand⟩

/-- **Two words that stop a hook.**  The first one is no reference, since a superscript two is no
decimal digit; the second one is a reference past the end. -/
theorem expand_stopped :
    let raised : Text := ['$', '²']
    let long : Text := '$' :: List.replicate 4301 '9'
    (¬ Reference raised ∧ expand raised [] = .error (.numeral (.malformed ['²']))) ∧
      (Reference long ∧ ∃ why, expand long [['a']] = .error (.numeral why)) := by
  intro raised long
  have hdecimal : Text.Decimal (List.replicate 4301 '9') := by
    refine ⟨List.ne_nil_of_length_pos (by rw [List.length_replicate]; decide), fun c hc => ?_⟩
    rw [List.eq_of_mem_replicate hc]
    decide
  refine ⟨⟨?_, rfl⟩, .index hdecimal, ?_⟩
  -- Two words that stop it: a sign that is no decimal digit, and an index of one digit too many.
  · intro href
    have hraised : Text.Decimal ['²'] := decimal_of_partition? rfl href
    exact absurd (hraised.digits '²' (List.mem_singleton_self _)) (by decide)
  · refine expand_of_jams [['a']] ⟨long, ?_, _, rfl, List.replicate 4301 '9', ?_, ?_⟩
    · have hword : long.words = [long] := by
        refine Text.words_of_forall (List.cons_ne_nil _ _) fun c hc => ?_
        rcases List.mem_cons.mp hc with rfl | hc
        · decide
        · exact isBlank_of_isDigitSign (hdecimal.signs c hc)
      rw [hword]
      exact List.mem_singleton_self long
    · rw [indices, Text.partition?_eq_none (stop_notMem (.inr hdecimal))]
      exact List.mem_singleton_self _
    · refine ⟨hdecimal.ne_nil, hdecimal.signs, .inr ?_⟩
      rw [List.length_replicate]
      decide

end Hook

end Typeahead
