import Typeahead.Proofs.Suggestion.Cutting
import Typeahead.Proofs.Suggestion.Denoted
import Typeahead.Proofs.World.Normal

/-!
# A directory in a directory

Naming a directory and, behind a slash, one in it comes to the same as going to the first and naming
the second from there, whether `..` is among the names or the home directory is meant.

## Main definitions

* `Target.Leading`, `Target.Trailing` — texts that may stand before and behind the slash.
* `Target.Spells` — an argument that is a text, perhaps with a double quote before it.

## Main results

* `Target.directoryOf_append` — **a path through a directory is a path seen from there.**
* `Target.resolve_append` — so is where an argument points to.
-/

namespace Typeahead

namespace Target

variable {home here : Path} {root : Root} {names : List Text} {t u v x y : Text}

/-! ### Before and behind a slash -/

/-- A text that a slash may be put behind: there is none at its end yet. -/
structure Leading (t : Text) : Prop where
  ne_nil : t ≠ []
  noSlash : t.getLast? ≠ some '/'

/-- A text that may be put behind a slash: it starts neither at a root nor at the home directory. -/
structure Trailing (t : Text) : Prop where
  noRoot : t.head? ≠ some '/'
  notHome : t ≠ ['~']
  notInHome : ¬ ['~', '/'] <+: t

theorem leading_iff : Leading t ↔ ∃ u c, t = u ++ [c] ∧ c ≠ '/' := by
  rcases List.eq_nil_or_concat t with rfl | ⟨u, c, rfl⟩
  · simp [show Leading [] ↔ False from ⟨fun h => h.ne_nil rfl, False.elim⟩]
  · rw [List.concat_eq_append]
    constructor
    · intro h
      exact ⟨u, c, rfl, fun hc => h.noSlash (by rw [List.getLast?_concat, hc])⟩
    · rintro ⟨v, d, heq, hd⟩
      rw [heq]
      exact ⟨by simp, by simpa using hd⟩

/-- What stands before a text does not matter. -/
theorem Leading.append (h : Leading t) (u : Text) : Leading (u ++ t) := by
  obtain ⟨v, c, rfl, hc⟩ := leading_iff.mp h
  exact leading_iff.mpr ⟨u ++ v, c, (List.append_assoc u v [c]).symm, hc⟩

/-- Names glued together end in the last of them. -/
theorem leading_join (h : Path.Proper ⟨root, names⟩) (hne : names ≠ []) :
    Leading (Text.join '/' names) := by
  induction names with
  | nil => exact absurd rfl hne
  | cons name rest ih =>
    obtain ⟨⟨hname, hslash⟩, hrest⟩ := List.forall_mem_cons.mp h
    by_cases hlast : rest = []
    · subst hlast
      refine ⟨?_, ?_⟩
      · rintro rfl
        cases hname
      · intro hend
        exact hslash (List.mem_of_getLast? hend)
    · rw [Text.join_cons hlast]
      exact ((ih hrest hlast).append ['/']).append name

theorem leading_toText (h : home.Proper) (hne : home.names ≠ []) : Leading home.toText := by
  obtain ⟨root, names⟩ := home
  have hjoin := leading_join h hne
  cases root with
  | relative =>
    rw [Path.toText_relative hne]
    exact hjoin
  | single => exact hjoin.append ['/']
  | double => exact hjoin.append ['/', '/']

theorem Trailing.of_prefix (h : Trailing t) (hu : u <+: t) (hhome : u ≠ ['~']) : Trailing u := by
  refine ⟨?_, hhome, ?_⟩
  · intro hhead
    obtain ⟨v, rfl⟩ := List.head?_eq_some_iff.mp hhead
    obtain ⟨w, rfl⟩ := hu
    exact h.noRoot rfl
  · intro hin
    exact h.notInHome (hin.trans hu)

/-- What names the directory in a text that may be put behind a slash may be put there itself. -/
theorem Trailing.lead (h : Trailing t) (n : Nat) : Trailing (splitBehind n t).lead := by
  refine h.of_prefix ?_ ?_
  · have hunclosed : unclosed t <+: t := ⟨closing t, unclosed_append_closing t⟩
    exact (List.take_prefix _ _).trans hunclosed
  · -- It is cut behind a slash, and the tilde is none.
    intro htilde
    change (unclosed t).take (cut .posix (unclosed t)) = ['~'] at htilde
    rcases getLast?_take_cut .posix (unclosed t) with hnil | ⟨c, hlast, hc⟩
    · rw [htilde] at hnil
      cases hnil
    · rw [htilde] at hlast
      cases hlast
      cases hc

/-! ### The home directory for a tilde -/

theorem expandHome_of_ne (hhome : t ≠ ['~']) (hin : ¬ ['~', '/'] <+: t) :
    expandHome home t = t := by
  unfold expandHome
  split
  · exact absurd rfl hhome
  next u => exact absurd ⟨u, rfl⟩ hin
  · rfl

theorem expandHome_of_head? (h : t.head? = some '/') : expandHome home t = t := by
  obtain ⟨u, rfl⟩ := List.head?_eq_some_iff.mp h
  refine expandHome_of_ne (by simp) ?_
  rintro ⟨v, heq⟩
  cases heq

/-- What is put behind a slash changes nothing for the tilde before it. -/
theorem expandHome_append (home : Path) (t u : Text) :
    expandHome home (t ++ '/' :: u) = expandHome home t ++ '/' :: u := by
  by_cases hhome : t = ['~']
  · subst hhome
    rfl
  by_cases hin : ['~', '/'] <+: t
  · obtain ⟨v, rfl⟩ := hin
    exact (List.append_assoc home.toText ('/' :: v) ('/' :: u)).symm
  rw [expandHome_of_ne hhome hin]
  -- A tilde alone would be followed by the slash, and with one behind it the text starts the same.
  match t with
  | [] => rfl
  | [c] =>
    have hc : c ≠ '~' := fun heq => hhome (by rw [heq])
    exact expandHome_of_ne (by simp) (by simp [hc.symm])
  | c :: d :: v => exact expandHome_of_ne (by simp) (by simpa using hin)

theorem Leading.expandHome (hhome : home.Proper) (hne : home.names ≠ []) (h : Leading t) :
    Leading (expandHome home t) := by
  unfold Target.expandHome
  split
  · exact leading_toText hhome hne
  next u =>
    have hu : Leading u := by
      refine ⟨?_, ?_⟩
      · rintro rfl
        exact h.noSlash rfl
      · intro hlast
        apply h.noSlash
        rw [List.getLast?_cons, List.getLast?_cons, hlast]
        rfl
    exact (hu.append ['/']).append home.toText
  · exact h

/-! ### A path through a directory -/

/-- Two texts with a slash between them are the path of the one behind that of the other. -/
theorem ofText_append (ht : Leading t) (hu : u.head? ≠ some '/') :
    Path.ofText (t ++ '/' :: u) = (Path.ofText t).append (Path.ofText u) := by
  obtain ⟨v, c, rfl, hc⟩ := leading_iff.mp ht
  rw [← ofText_behind, behind, if_neg hu, if_neg]
  rw [Text.endsIn_concat]
  simp [hc]

/-- **A path through a directory is a path seen from there.** -/
theorem directoryOf_append (hhome : home.Proper) (hne : home.names ≠ []) (here : Path)
    (ht : Leading t) (hu : Trailing u) :
    directoryOf home here (t ++ '/' :: u) = directoryOf home (directoryOf home here t) u := by
  have hbehind : expandHome home u = u := expandHome_of_ne hu.notHome hu.notInHome
  have hlead : Leading (expandHome home t) := ht.expandHome hhome hne
  calc directoryOf home here (t ++ '/' :: u)
      = (here.append (Path.ofText (expandHome home t ++ '/' :: u))).normalize := by
        rw [directoryOf, expandHome_append]
    _ = ((here.append (Path.ofText (expandHome home t))).append (Path.ofText u)).normalize := by
        rw [ofText_append hlead hu.noRoot, Path.append_assoc]
    _ = ((directoryOf home here t).append (Path.ofText u)).normalize :=
        (Path.normalize_append _ _).symm
    _ = directoryOf home (directoryOf home here t) u := by
        rw [directoryOf, directoryOf, hbehind]

/-- What a text names from an absolute path is normal. -/
theorem normal_directoryOf (home : Path) (hhere : here.Proper) (habsolute : here.isAbsolute = true)
    (t : Text) : (directoryOf home here t).Normal :=
  Path.normal_normalize (hhere.append (Path.ofText_proper _)) (Path.isAbsolute_append habsolute _)

/-- The text of a normal path names that path, seen from anywhere. -/
theorem directoryOf_toText {p : Path} (h : p.Normal) (home seen : Path) :
    directoryOf home seen p.toText = p := by
  have hhead : p.toText.head? = some '/' := Path.head?_toText h.absolute
  rw [directoryOf, expandHome_of_head? hhead, Path.ofText_toText h.proper,
    Path.append_of_absolute seen h.absolute]
  exact Path.normalize_of_ne_dots fun name hname => (h.noDots name hname).2

/-! ### Where the arguments point to -/

/-- An argument that is a text, perhaps with a double quote before it. -/
def Spells (argument t : Text) : Prop := argument = '"' :: t ∨ argument = t ∧ t.head? ≠ some '"'

theorem Spells.exists_split (h : Spells x t) : ∃ n, split x = splitBehind n t := by
  rcases h with rfl | ⟨rfl, hhead⟩
  · exact ⟨1, rfl⟩
  · exact ⟨0, split_of_head? hhead⟩

/-- The target with nothing passed over. -/
def unplaced (target : Target) : Target := { target with skip := 0 }

theorem map_unplaced_ofParts (w : World) (here : Path) (parts : Parts) :
    (ofParts w here parts).map (Option.map unplaced) =
      (found w here parts.lead).map (Option.map (⟨·, 0, parts.typed⟩)) := by
  rw [ofParts_eq]
  cases found w here parts.lead with
  | error fault => rfl
  | ok directory => cases directory <;> rfl

variable {w : World}

/-- **An argument through a directory points to where the rest of it points from there.** -/
theorem resolve_append (hhome : Path.ofText w.environment.home = home) (hne : home.names ≠ [])
    (here : Path) (ht : Leading t) (hu : Trailing u) (hx : Spells x (t ++ '/' :: u))
    (hy : Spells y u) :
    (resolve w here x).map (Option.map unplaced) =
      (resolve w (directoryOf home here t) y).map (Option.map unplaced) := by
  obtain ⟨m, hsplit⟩ := hx.exists_split
  obtain ⟨n, hsplit'⟩ := hy.exists_split
  have hproper : home.Proper := hhome ▸ Path.ofText_proper _
  have hdirectory := directoryOf_append hproper hne here ht (hu.lead n)
  have hfound : found w here (t ++ '/' :: (splitBehind n u).lead) =
      found w (directoryOf home here t) (splitBehind n u).lead := by
    simp only [found, ofParts, hhome, hdirectory]
  rw [resolve, resolve, map_unplaced_ofParts, map_unplaced_ofParts, hsplit, hsplit',
    splitBehind_append]
  exact congrArg _ hfound

end Target

end Typeahead
