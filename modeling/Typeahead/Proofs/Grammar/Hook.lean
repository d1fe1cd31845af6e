import Typeahead.Grammar.Hook

/-!
# When a hook cannot be filled in

The only thing in a hook that can go wrong is an index that looks like one and cannot be read.
Whether it does is settled by the template: the arguments say what the references stand for, and not
whether they can be read.

## Main definitions

* `Hook.Uniform` — a computation that a numeral spoils always in the same way or never.

## Main results

* `Hook.uniform_expand` — **a template can be filled in with all arguments or with none.**
-/

namespace Typeahead

namespace Fault

variable {α β : Type} {x : Except Fault α} {f : α → Except Fault β}

/-- Two computations one after the other succeed if both do. -/
theorem bind_eq_ok_iff {b : β} : (x >>= f) = .ok b ↔ ∃ a, x = .ok a ∧ f a = .ok b := by
  cases x with
  | error fault => exact iff_of_false nofun nofun
  | ok a => simp only [Except.ok.injEq, exists_eq_left']; rfl

/-- Two computations one after the other fail if the first one does, or the second behind it. -/
theorem bind_eq_error_iff {fault : Fault} :
    (x >>= f) = .error fault ↔ x = .error fault ∨ ∃ a, x = .ok a ∧ f a = .error fault := by
  cases x with
  | error other =>
    constructor
    · intro h
      cases h
      exact .inl rfl
    · rintro (h | ⟨a, h, -⟩)
      · cases h
        rfl
      · cases h
  | ok a => simp only [reduceCtorEq, Except.ok.injEq, exists_eq_left', false_or]; rfl

end Fault

namespace Hook

variable {ι κ α β : Type}

/-- Some numeral spoils the computation whatever `i` is, or nothing ever does. -/
def Uniform (f : ι → Except Fault α) : Prop :=
  (∃ why, ∀ i, f i = .error (.numeral why)) ∨ ∀ i, ∃ a, f i = .ok a

namespace Uniform

/-- A computation that cannot go wrong. -/
theorem of_pure (f : ι → α) : Uniform fun i => (pure (f i) : Except Fault α) :=
  .inr fun i => ⟨f i, rfl⟩

theorem comp {f : ι → Except Fault α} (hf : Uniform f) (g : κ → ι) : Uniform fun i => f (g i) := by
  rcases hf with ⟨why, hf⟩ | hf
  · exact .inl ⟨why, fun i => hf (g i)⟩
  · exact .inr fun i => hf (g i)

/-- Of two computations one after the other, the first one that goes wrong spoils both. -/
theorem bind {f : ι → Except Fault α} {k : ι → α → Except Fault β} (hf : Uniform f)
    (hk : Uniform fun p : ι × α => k p.1 p.2) : Uniform fun i => f i >>= k i := by
  have hnext : ∀ {i a}, f i = .ok a → (f i >>= k i) = k i a := fun h => by rw [h]; rfl
  rcases hf with ⟨why, hf⟩ | hf
  · have hfirst : ∀ i, (f i >>= k i) = .error (.numeral why) := fun i => by rw [hf i]; rfl
    exact .inl ⟨why, hfirst⟩
  rcases hk with ⟨why, hk⟩ | hk
  · refine .inl ⟨why, fun i => ?_⟩
    obtain ⟨a, ha⟩ := hf i
    exact (hnext ha).trans (hk (i, a))
  · refine .inr fun i => ?_
    obtain ⟨a, ha⟩ := hf i
    obtain ⟨b, hb⟩ := hk (i, a)
    exact ⟨b, (hnext ha).trans hb⟩

/-- What goes wrong once goes wrong always, and a numeral is to blame. -/
theorem of_error {f : ι → Except Fault α} {i : ι} {fault : Fault} (hf : Uniform f)
    (h : f i = .error fault) : (∃ why, fault = .numeral why) ∧ ∀ j, f j = .error fault := by
  rcases hf with ⟨why, hf⟩ | hf
  · have hfault : fault = .numeral why := Except.error.inj (h.symm.trans (hf i))
    exact ⟨⟨why, hfault⟩, fun j => hfault ▸ hf j⟩
  · obtain ⟨a, ha⟩ := hf i
    rw [ha] at h
    cases h

end Uniform

/-- Whether an index can be read has nothing to do with what it is an index of. -/
theorem uniform_index? (t : Text) : Uniform fun p : Nat × Nat => index? t p.1 p.2 := by
  unfold index?
  split
  next => exact .inr fun p => ⟨some p.1, rfl⟩
  next =>
    split
    next => exact .inr fun p => ⟨none, rfl⟩
    next =>
      split
      next why _ => exact .inl ⟨why, fun _ => rfl⟩
      next n _ => exact .inr fun p => ⟨some (min n.toNat p.2), rfl⟩

theorem uniform_refer (word reference : Text) : Uniform fun args => refer args word reference := by
  unfold refer
  split
  next first last _ =>
    -- Both ends of a range are read before either is looked at.
    refine ((uniform_index? first).comp fun args : List Text => (0, args.length)).bind ?_
    refine ((uniform_index? last).comp fun p : List Text × Option Nat =>
      (p.1.length, p.1.length)).bind (.inr fun p => ?_)
    obtain ⟨⟨args, start⟩, stop⟩ := p
    cases start with
    | none => exact ⟨word, rfl⟩
    | some start =>
      cases stop with
      | none => exact ⟨word, rfl⟩
      | some stop => exact ⟨_, rfl⟩
  next =>
    refine ((uniform_index? reference).comp fun args : List Text => (0, args.length)).bind
      (.inr fun p => ?_)
    obtain ⟨args, i⟩ := p
    cases i with
    | none => exact ⟨word, rfl⟩
    | some i => exact ⟨_, rfl⟩

theorem uniform_expandWord (word : Text) : Uniform fun args => expandWord args word := by
  unfold expandWord
  split
  next c rest => exact uniform_refer ('$' :: c :: rest) (c :: rest)
  next => exact .of_pure fun _ => word

theorem uniform_expandWords (words : List Text) : Uniform fun args => expandWords args words := by
  induction words with
  | nil => exact .of_pure fun _ => []
  | cons word rest ih =>
    refine (uniform_expandWord word).bind ?_
    refine (ih.comp Prod.fst).bind ?_
    exact .of_pure fun p : (List Text × Text) × List Text => p.1.2 :: p.2

/-- **A template can be filled in with all arguments or with none**, and then a numeral is to
blame. -/
theorem uniform_expand (template : Text) : Uniform fun args => expand template args :=
  (uniform_expandWords template.words).bind
    (.of_pure fun p : List Text × List Text => Text.join ' ' p.2)

end Hook

end Typeahead
