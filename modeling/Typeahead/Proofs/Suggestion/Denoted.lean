import Typeahead.Proofs.Session.Event
import Typeahead.Proofs.Suggestion.Target
import Typeahead.Proofs.World.Dots
import Typeahead.Proofs.World.Refusal

/-!
# The directory that an argument denotes

What stands before the name in a path argument denotes a directory, seen from another: the one where
a lookup of the two together ends.  The target of the argument is found by normalising the path
first.  In a world without links that finds the same directory from an absolute path.  From a
relative one it does not, if a `..` meets its first name or leads above the directory where the
process works.

## Main definitions

* `Target.behind` — one text as a path behind another.
* `Target.joined` — the path that is normalised.
* `Target.Denotes` — the directory that an argument denotes.

## Main results

* `Target.resolve_denoted_iff` — **the target of an argument is the directory that the argument
  denotes exactly if normalising follows each `..`**, or what is left is no directory and the one
  above it happens to be that directory.
-/

namespace Typeahead

namespace World

variable {w : World} {t : Text} {place : Location}

theorem linkFree_sample : World.sample.files.LinkFree :=
  FileTree.linkFree_of_entries (by simp [sample])

theorem isDirectory_of_locate (h : w.locate t = .ok place)
    (hplace : w.files.isDirectory place = true) : w.isDirectory t = .ok true := by
  obtain ⟨access, hat⟩ := FileTree.isDirectory_iff.mp hplace
  simp only [isDirectory, test, entry?, h, hat]

end World

namespace Target

/-- One text as a path behind another: with a slash between them unless there is one, and alone if
it starts at the root. -/
def behind (here t : Text) : Text :=
  if t.head? = some '/' then t
  else if here = [] ∨ Text.endsIn '/' here then here ++ t
  else here ++ '/' :: t

/-- What names the directory in an argument, with the home directory for a tilde. -/
def lead (w : World) (argument : Text) : Text :=
  expandHome (Path.ofText w.environment.home) (split argument).lead

/-- The path of the directory in an argument, before it is normalised. -/
def joined (w : World) (here : Path) (argument : Text) : Path :=
  here.append (Path.ofText (lead w argument))

/-- The directory that an argument denotes, seen from `here`: the one where the lookup of the two
together ends, be they put together as texts or as paths. -/
structure Denotes (w : World) (here argument : Text) (place : Location) : Prop where
  located : w.locate (behind here (lead w argument)) = .ok place ∨
    w.locate (joined w (Path.ofText here) argument).toText = .ok place
  directory : w.files.isDirectory place = true

theorem isAbsolute_ofText_iff {t : Text} :
    (Path.ofText t).isAbsolute = true ↔ t.head? = some '/' := by
  rw [Path.isAbsolute, decide_eq_true_iff, Path.ofText]
  rcases Path.rootOf_cases t with ⟨hroot, hhead⟩ | ⟨hroot, u, rfl⟩ | ⟨hroot, u, rfl⟩
  · simp [hroot, hhead]
  · simp [hroot]
  · simp [hroot]

/-- A text behind another is read as the one path seen from the other. -/
theorem ofText_behind (here t : Text) :
    Path.ofText (behind here t) = (Path.ofText here).append (Path.ofText t) := by
  unfold behind Path.append
  by_cases hhead : t.head? = some '/'
  · rw [if_pos hhead, if_pos (isAbsolute_ofText_iff.mpr hhead)]
  rw [if_neg hhead, if_neg (mt isAbsolute_ofText_iff.mp hhead)]
  -- What stands in front may be empty or end in a slash; otherwise one comes between the two.
  rcases List.eq_nil_or_concat here with rfl | ⟨u, c, rfl⟩
  · rw [if_pos (.inl rfl)]
    simp only [Path.ofText, List.nil_append, Path.rootOf_of_head? hhead]
    rfl
  · rw [List.concat_eq_append, Text.endsIn_concat]
    by_cases hc : c = '/'
    · subst hc
      rw [if_pos (.inr (beq_self_eq_true _)), Path.ofText, Path.ofText, Path.rootOf_append hhead,
        List.append_assoc, List.singleton_append, Text.splitOn_append, Text.splitOn_append]
      simp [Path.ofText, Text.splitOn, Path.isName]
    · have hother (v : Text) : (c :: v).head? ≠ some '/' := fun heq => hc (Option.some.inj heq)
      rw [if_neg (by simp [hc]), Path.ofText, Path.ofText, Text.splitOn_append,
        List.append_assoc, List.singleton_append, Path.rootOf_append (hother _),
        Path.rootOf_append (hother _), List.filter_append]
      rfl

variable {w : World} {here argument : Text} {place : Location}

/-- The directories that targets have. -/
theorem exists_resolve_iff {seen : Path} {P : Path → Prop} :
    (∃ target, resolve w seen argument = .ok (some target) ∧ P target.directory) ↔
      (w.isDirectory (named w seen argument).toText = .ok true ∧ P (named w seen argument)) ∨
        (w.isDirectory (named w seen argument).toText = .ok false ∧
          w.isDirectory (named w seen argument).parent.toText = .ok true ∧
            P (named w seen argument).parent) := by
  simp only [resolve, ofParts, named]
  generalize directoryOf (Path.ofText w.environment.home) seen (split argument).lead = directory
  cases w.isDirectory directory.toText with
  | error fault => simp
  | ok found =>
    cases found with
    | true => simp
    | false =>
      cases w.isDirectory directory.parent.toText with
      | error fault => simp
      | ok found => cases found <;> simp

/-- The directory of a target is there. -/
theorem isDirectory_of_resolve {seen : Path} {target : Target}
    (h : resolve w seen argument = .ok (some target)) :
    w.isDirectory target.directory.toText = .ok true := by
  have hfound := (exists_resolve_iff (P := (· = target.directory))).mp ⟨target, h, rfl⟩
  rcases hfound with ⟨hdirectory, heq⟩ | ⟨-, hdirectory, heq⟩
  · rwa [heq] at hdirectory
  · rwa [heq] at hdirectory

theorem joined_proper (w : World) (here argument : Text) :
    (joined w (Path.ofText here) argument).Proper :=
  (Path.ofText_proper here).append (Path.ofText_proper _)

/-- Put together as texts or as paths, a lookup ends at the same location. -/
theorem Denotes.locate_joined (hfree : w.files.LinkFree) (h : Denotes w here argument place) :
    w.locate (joined w (Path.ofText here) argument).toText = .ok place := by
  rcases h.located with hlocate | hlocate
  · have hspelled := World.locate_ofText hfree hlocate
    rwa [ofText_behind] at hspelled
  · exact hlocate

/-- **The target of an argument is the directory that the argument denotes exactly if normalising
follows each `..`.**  In a world without links let the argument denote a directory, seen from
another.  There is a target that is the same directory exactly if each `..` of their path is
followed, unless the normalised path is no directory and, by chance, the one above it is the
directory that was denoted. -/
theorem resolve_denoted_iff (hfree : w.files.LinkFree) (h : Denotes w here argument place) :
    (∃ target, resolve w (Path.ofText here) argument = .ok (some target) ∧
        w.locate target.directory.toText = .ok place) ↔
      w.Retraces (joined w (Path.ofText here) argument) ∨
        w.isDirectory (named w (Path.ofText here) argument).toText = .ok false ∧
          w.locate (named w (Path.ofText here) argument).parent.toText = .ok place := by
  have hnormal : w.locate (named w (Path.ofText here) argument).toText = .ok place ↔
      w.Retraces (joined w (Path.ofText here) argument) :=
    World.locate_normalize_iff hfree (joined_proper w here argument) (h.locate_joined hfree)
  rw [exists_resolve_iff (P := fun directory => w.locate directory.toText = .ok place), hnormal]
  constructor
  · rintro (⟨-, hretraces⟩ | ⟨hno, -, hparent⟩)
    · exact .inl hretraces
    · exact .inr ⟨hno, hparent⟩
  · rintro (hretraces | ⟨hno, hparent⟩)
    · exact .inl ⟨World.isDirectory_of_locate (hnormal.mpr hretraces) h.directory, hretraces⟩
    · exact .inr ⟨hno, World.isDirectory_of_locate hparent h.directory, hparent⟩

/-- From an absolute path the target is the directory that is denoted. -/
theorem resolve_denoted_iff_sample :
    let here := ['/', 'b']
    let argument := ['.', '.', '/', '/', 'd', '/', '.', '/', 'x']
    World.sample.files.LinkFree ∧ Denotes .sample here argument [['d']] ∧
      ∃ target, resolve .sample (Path.ofText here) argument = .ok (some target) ∧
        World.sample.locate target.directory.toText = .ok [['d']] := by
  intro here argument
  have hfree : World.sample.files.LinkFree := World.linkFree_sample
  have hdenotes : Denotes .sample here argument [['d']] := ⟨.inl rfl, rfl⟩
  exact ⟨hfree, hdenotes, (resolve_denoted_iff hfree hdenotes).mpr (.inl (.inl (by decide)))⟩

/-- From a relative path of one name `..` is not followed, and the target is another directory. -/
theorem resolve_misses :
    let here := ['b']
    let argument := ['.', '.', '/', 'd', '/', 'x']
    World.sample.files.LinkFree ∧ Denotes .sample here argument [['d']] ∧
      resolve .sample (Path.ofText here) argument =
        .ok (some ⟨⟨.relative, [['b']]⟩, 5, ['x']⟩) ∧
      ¬ ∃ target, resolve .sample (Path.ofText here) argument = .ok (some target) ∧
        World.sample.locate target.directory.toText = .ok [['d']] := by
  intro here argument
  have hresolve : resolve .sample (Path.ofText here) argument =
      .ok (some ⟨⟨.relative, [['b']]⟩, 5, ['x']⟩) := rfl
  have hlocate : World.sample.locate (Path.toText ⟨.relative, [['b']]⟩) = .ok [['b']] := rfl
  refine ⟨World.linkFree_sample, ⟨.inl rfl, rfl⟩, hresolve, ?_⟩
  rintro ⟨target, hresolve', hlocate'⟩
  rw [hresolve] at hresolve'
  cases hresolve'
  rw [hlocate, Except.ok.injEq] at hlocate'
  exact absurd hlocate' (by decide)

end Target

end Typeahead
