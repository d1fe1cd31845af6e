import Typeahead.Proofs.World.Refusal

/-!
# Listing the search path never fails

A directory of the search path that cannot be listed is passed over, whatever the reason.  Only the
null character is not let pass, and a search path without it has no directory with it.

## Main definitions

* `Catalog.Clean` — there is a search path, and none of its directories holds the null character.

## Main results

* `Catalog.clean_ofTexts` — a search path without the null character makes a clean catalog.
* `Catalog.names_of_clean` — **a clean catalog has names in every world.**
-/

namespace Typeahead

/-- A piece of a text has only characters of the text. -/
theorem Text.mem_of_mem_splitOn {sep c : Char} {t piece : Text} (h : piece ∈ Text.splitOn sep t)
    (hc : c ∈ piece) : c ∈ t := by
  induction t generalizing piece with
  | nil =>
    simp only [Text.splitOn, List.mem_singleton] at h
    exact h ▸ hc
  | cons d t ih =>
    simp only [Text.splitOn] at h
    split at h
    · rcases List.mem_cons.mp h with rfl | h
      · cases hc
      · exact List.mem_cons_of_mem d (ih h hc)
    · split at h
      next hnil => exact absurd hnil (Text.splitOn_ne_nil sep t)
      next first pieces hsplit =>
        rcases List.mem_cons.mp h with rfl | h
        · -- The first piece is the first piece of the rest with `d` before it.
          rcases List.mem_cons.mp hc with rfl | hc
          · exact List.mem_cons_self
          · exact List.mem_cons_of_mem d (ih (hsplit ▸ List.mem_cons_self) hc)
        · exact List.mem_cons_of_mem d (ih (hsplit ▸ List.mem_cons_of_mem first h) hc)

/-- Listing a directory meets the null character only if its path holds it. -/
theorem World.list_ne_nullCharacter {w : World} {t : Text} (h : '\x00' ∉ t) :
    w.list t ≠ .error .nullCharacter := by
  intro hlist
  unfold World.list at hlist
  cases hlocate : w.locate t with
  | error fault =>
    rw [hlocate] at hlist
    cases hlist
    rcases locate_fault hlocate with hway | ⟨-, hnull⟩
    · simp [PathFault.OnTheWay] at hway
    · exact h hnull
  | ok here =>
    rw [hlocate] at hlist
    -- Once there is a location, a listing fails only for want of a directory or of permission.
    dsimp only at hlist
    split at hlist
    · split at hlist <;> cases hlist
    · cases hlist

namespace Catalog

/-- A catalog with a search path none of whose directories holds the null character. -/
def Clean (c : Catalog) : Prop :=
  ∃ directories, c.directories = some directories ∧ ∀ directory ∈ directories, '\x00' ∉ directory

theorem clean_ofTexts (platform : Platform) {searchPath : Text} (h : '\x00' ∉ searchPath)
    (extensions : Text) : (ofTexts platform searchPath extensions).Clean := by
  refine ⟨_, rfl, ?_⟩
  intro directory hdirectory hnull
  apply h
  exact Text.mem_of_mem_splitOn (List.mem_filter.mp hdirectory).1 hnull

theorem programsIn_of_clean (w : World) (extensions : List Text) {directory : Text}
    (h : '\x00' ∉ directory) : ∃ found, programsIn w extensions directory = .ok found := by
  unfold programsIn
  split
  next hlist => exact absurd hlist (World.list_ne_nullCharacter h)
  next => exact ⟨_, rfl⟩
  next => split <;> exact ⟨_, rfl⟩

theorem collect_of_clean (w : World) (extensions : List Text) {directories : List Text}
    (h : ∀ directory ∈ directories, '\x00' ∉ directory) :
    ∃ names, (collect w extensions directories).2 = .ok names := by
  induction directories with
  | nil => exact ⟨[], rfl⟩
  | cons directory rest ih =>
    obtain ⟨hdirectory, hrest⟩ := List.forall_mem_cons.mp h
    obtain ⟨found, hfound⟩ := programsIn_of_clean w extensions hdirectory
    obtain ⟨names, hnames⟩ := ih hrest
    simp only [collect, hfound]
    cases found with
    | none => exact ⟨names, hnames⟩
    | some here => exact ⟨here ++ names, by simp only [hnames, Except.map]⟩

/-- **A clean catalog has names in every world.** -/
theorem names_of_clean {c : Catalog} (h : c.Clean) (w : World) :
    ∃ names, (c.names w).2.2 = .ok names := by
  obtain ⟨directories, hdirectories, hclean⟩ := h
  unfold names
  cases c.known with
  | some known => exact ⟨known, rfl⟩
  | none =>
    obtain ⟨found, hfound⟩ := collect_of_clean w c.extensions hclean
    simp only [gather, hdirectories]
    rcases hcollect : collect w c.extensions directories with ⟨notices, answer⟩
    rw [hcollect] at hfound
    cases hfound
    exact ⟨_, rfl⟩

end Catalog

end Typeahead
