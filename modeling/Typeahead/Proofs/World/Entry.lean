import Typeahead.Proofs.Suggestion.Target
import Typeahead.Proofs.World.Dots
import Typeahead.World.Programs

/-!
# Looking up an entry of a directory

The path of an entry is the text of its directory with its name put behind it.  Looking it up goes
the way to the directory, by the same links, and then takes the name.  So for a file it only depends
on whether the directory may be searched and on the length of the path, since everything else was
found out on the way to the directory.

## Main definitions

* `FileTree.Searchable` — the names in a directory can be looked up.
* `World.Lists` — a text names a directory that can be listed.
* `Text.FileName` — a text that a file can have for its name.

## Main results

* `FileTree.exists_walk_append` — a walk behind a part that it can walk along.
* `World.entry?_pathIn_iff` — **a file in a directory is found by its path exactly if the directory
  may be searched and the path is short enough.**
-/

namespace Typeahead

namespace FileTree

variable {files : FileTree} {links : Nat} {here stop : Location} {component target : Text}
  {first second rest : List Text}

/-! ### Walks in two parts -/

theorem walk_of_follow (h : files.stride here component = .ok (.follow target)) :
    files.walk .find (links + 1) here (component :: rest) =
      files.walk .find links (origin here target) (Text.splitOn '/' target ++ rest) := by
  simp only [walk, walkWith, h]

/-- How a walk to something that is there goes on behind its first component. -/
theorem walk_cons_eq_ok (h : files.walk .find links here (component :: rest) = .ok stop) :
    (∃ next, files.stride here component = .ok (.arrive next) ∧
        files.walk .find links next rest = .ok stop) ∨
      ∃ target left, links = left + 1 ∧ files.stride here component = .ok (.follow target) ∧
        files.walk .find left (origin here target) (Text.splitOn '/' target ++ rest) =
          .ok stop := by
  obtain ⟨step, hstride⟩ := stride_of_walk h
  cases step with
  | arrive next =>
    rw [walk_of_arrive hstride] at h
    exact .inl ⟨next, hstride, h⟩
  | vacant place =>
    -- A walk that is to find something does not end at a gap.
    cases links <;> simp [walk, walkWith, hstride] at h
  | follow target =>
    cases links with
    | zero => simp [walk, walkWith, hstride] at h
    | succ left =>
      rw [walk_of_follow hstride] at h
      exact .inr ⟨target, left, rfl, hstride, h⟩

/-- **A walk that comes through a part of its components** goes on from where that part ends, with
the links that are left, whatever the other components are. -/
theorem exists_walk_append (h : files.walk .find links here (first ++ second) = .ok stop) :
    ∃ left mid, ∀ rest, files.walk .find links here (first ++ rest) =
      files.walk .find left mid rest := by
  -- A link starts over with one link less, and every other component is one component less.
  induction links using Nat.strongRecOn generalizing here first with
  | ind links ihlinks =>
    induction first generalizing here with
    | nil => exact ⟨links, here, fun rest => rfl⟩
    | cons component first ih =>
      rw [List.cons_append] at h
      rcases walk_cons_eq_ok h with ⟨next, hstride, hrest⟩ | ⟨target, left, rfl, hstride, hrest⟩
      · obtain ⟨left, mid, heq⟩ := ih hrest
        refine ⟨left, mid, fun rest => ?_⟩
        rw [List.cons_append, walk_of_arrive hstride, heq]
      · rw [← List.append_assoc] at hrest
        obtain ⟨left', mid, heq⟩ := ihlinks left (Nat.lt_succ_self left) hrest
        refine ⟨left', mid, fun rest => ?_⟩
        rw [List.cons_append, walk_of_follow hstride, ← List.append_assoc, heq]

end FileTree

/-! ### Names of files -/

/-- A text that a file can have for its name: it is neither empty nor one or two dots, has no slash
and no null character, and is not too long. -/
structure Text.FileName (name : Text) : Prop where
  isName : Path.isName name = true
  ne_dots : name ≠ ['.', '.']
  slash_notMem : '/' ∉ name
  null_notMem : '\x00' ∉ name
  short : name.byteSize ≤ 255

namespace FileTree

variable {files : FileTree} {here : Location} {name : Text} {f : File}

/-- The names in the directory at a location can be looked up. -/
def Searchable (files : FileTree) (here : Location) : Prop :=
  ∃ access, files.at? here = some (.directory access) ∧ access.searches = true

/-- A walk takes the name of a file where the names can be looked up. -/
theorem stride_of_file (h : files.Searchable here) (hname : name.FileName)
    (hentry : files.at? (name :: here) = some (.file f)) :
    files.stride here name = .ok (.arrive (name :: here)) := by
  obtain ⟨access, hhere, hsearches⟩ := h
  have hisName := hname.isName
  simp only [Path.isName, Bool.and_eq_true, decide_eq_true_eq] at hisName
  unfold stride
  rw [hhere]
  dsimp only
  rw [if_neg hisName.1, if_neg (by simp [hsearches]), if_neg (Nat.not_lt.mpr hname.short),
    if_neg hisName.2, if_neg hname.ne_dots, hentry]

/-- A walk takes a name only where the names can be looked up. -/
theorem searchable_of_stride {step : Stride} (hname : name.FileName)
    (h : files.stride here name = .ok step) : files.Searchable here := by
  obtain ⟨access, hhere, ⟨hempty, -⟩ | ⟨hsearches, -⟩⟩ := stride_eq_ok h
  · subst hempty
    cases hname.isName
  · exact ⟨access, hhere, hsearches⟩

end FileTree

namespace World

variable {w : World} {directory name : Text} {here : Location} {f : File}

/-- The text names a directory that can be listed, and `here` is its location. -/
def Lists (w : World) (directory : Text) (here : Location) : Prop :=
  w.locate directory = .ok here ∧
    ∃ access, w.files.at? here = some (.directory access) ∧ access.lists = true

theorem Lists.unique {there : Location} (h : w.Lists directory here)
    (hthere : w.Lists directory there) : there = here :=
  Except.ok.inj (hthere.1.symm.trans h.1)

theorem list_eq_ok_iff {names : List Text} :
    w.list directory = .ok names ↔ ∃ here, w.Lists directory here ∧ names = w.files.names here := by
  unfold list Lists
  cases w.locate directory with
  | error fault => simp
  | ok here =>
    simp only [Except.ok.injEq, exists_eq_left', and_assoc]
    rcases w.files.at? here with _ | ⟨⟨⟩⟩ | _ | _ <;> simp [Access.lists, eq_comm (a := names)]

/-! ### The path of an entry -/

/-- In the path of an entry there is one slash before the name: the last one of the directory's text
if it ends in a slash, and one more if it does not. -/
theorem pathIn_cases (directory name : Text) :
    ∃ lead, Catalog.pathIn directory name = lead ++ '/' :: name ∧
      (directory = lead ∨ directory = lead ++ ['/']) := by
  unfold Catalog.pathIn
  split
  next hends =>
    rcases List.eq_nil_or_concat directory with rfl | ⟨lead, c, rfl⟩
    · cases hends
    · rw [List.concat_eq_append, Text.endsIn_concat, beq_iff_eq] at hends
      subst hends
      exact ⟨lead, by simp, .inr (by simp)⟩
  next => exact ⟨directory, rfl, .inl rfl⟩

/-- A directory's path and the path of an entry in it start at one place. -/
theorem origin_pathIn (hne : directory ≠ []) : w.origin (Catalog.pathIn directory name) =
    w.origin directory := by
  have hhead : (Catalog.pathIn directory name).head? = directory.head? := by
    obtain ⟨c, t, rfl⟩ := List.exists_cons_of_ne_nil hne
    unfold Catalog.pathIn
    split <;> rfl
  rw [origin, origin, hhead]

/-- The walk along the path of an entry comes through the directory. -/
theorem walk_pathIn {start : Location} {links : Nat} (hname : '/' ∉ name)
    (h : w.files.walk .find links start (Text.splitOn '/' directory) = .ok here) :
    ∃ left, w.files.walk .find links start (Text.splitOn '/' (Catalog.pathIn directory name)) =
      w.files.walk .find left here [name] := by
  obtain ⟨lead, hpath, hlead⟩ := pathIn_cases directory name
  rw [hpath, Text.splitOn_append, Text.splitOn_of_not_mem hname]
  have hnil (links : Nat) (mid : Location) : w.files.walk .find links mid [] = .ok mid := by
    cases links <;> rfl
  rcases hlead with rfl | rfl
  · have h' := h
    rw [← List.append_nil (Text.splitOn '/' directory)] at h'
    obtain ⟨left, mid, heq⟩ := FileTree.exists_walk_append h'
    have hmid := (heq []).symm.trans h'
    rw [hnil] at hmid
    cases hmid
    exact ⟨left, heq [name]⟩
  · -- Behind the slash at its end the directory's text asks for a directory once more.
    rw [Text.splitOn_append] at h
    obtain ⟨left, mid, heq⟩ := FileTree.exists_walk_append h
    have hmid := (heq [[]]).symm.trans h
    obtain ⟨-, hmid⟩ := (FileTree.walk_still rfl).mp hmid
    rw [hnil] at hmid
    cases hmid
    exact ⟨left, heq [name]⟩

theorem short_of_lookup {entry : Entry} {t : Text} (h : w.entry? t = .ok entry) :
    t.byteSize < 4096 := by
  unfold entry? at h
  cases hlocate : w.locate t with
  | error fault =>
    rw [hlocate] at h
    cases h
  | ok place => exact (locateFor_eq_ok_iff.mp hlocate).2.2.1

/-- The path of an entry leads where the name leads behind the directory, if it is short enough. -/
theorem locate_pathIn_iff (h : w.locate directory = .ok here) (hname : name.FileName) :
    ∃ left, ∀ place, w.locate (Catalog.pathIn directory name) = .ok place ↔
      (Catalog.pathIn directory name).byteSize < 4096 ∧
        w.files.walk .find left here [name] = .ok place := by
  obtain ⟨hnull, hne, -, start, horigin, hwalk⟩ := locateFor_eq_ok_iff.mp h
  obtain ⟨left, hpath⟩ := walk_pathIn hname.slash_notMem hwalk
  -- The path itself can be looked up as far as its characters go.
  have hpathNull : '\x00' ∉ Catalog.pathIn directory name := by
    intro hmem
    unfold Catalog.pathIn at hmem
    split at hmem <;> simp [hnull, hname.null_notMem] at hmem
  have hpathNe : Catalog.pathIn directory name ≠ [] := by
    obtain ⟨c, t, rfl⟩ := List.exists_cons_of_ne_nil hne
    unfold Catalog.pathIn
    split <;> simp
  refine ⟨left, fun place => locateFor_eq_ok_iff.trans ?_⟩
  constructor
  · rintro ⟨-, -, hshort, start', horigin', hwalk'⟩
    rw [origin_pathIn hne, horigin] at horigin'
    cases horigin'
    exact ⟨hshort, hpath ▸ hwalk'⟩
  · rintro ⟨hshort, hrest⟩
    exact ⟨hpathNull, hpathNe, hshort, start, by rw [origin_pathIn hne, horigin], hpath ▸ hrest⟩

/-- **A file in a directory that can be listed is found by its path exactly if the directory may be
searched as well and the path is short enough.** -/
theorem entry?_pathIn_iff (h : w.Lists directory here) (hname : name.FileName)
    (hentry : w.files.at? (name :: here) = some (.file f)) :
    w.entry? (Catalog.pathIn directory name) = .ok (.file f) ↔
      w.files.Searchable here ∧ (Catalog.pathIn directory name).byteSize < 4096 := by
  obtain ⟨left, hplace⟩ := locate_pathIn_iff h.1 hname
  constructor
  · intro hlookup
    refine ⟨?_, short_of_lookup hlookup⟩
    -- A lookup that comes to a file has searched the directory it is in.
    unfold entry? at hlookup
    cases hlocate : w.locate (Catalog.pathIn directory name) with
    | error fault =>
      rw [hlocate] at hlookup
      cases hlookup
    | ok place =>
      obtain ⟨step, hstride⟩ := FileTree.stride_of_walk ((hplace place).mp hlocate).2
      exact FileTree.searchable_of_stride hname hstride
  · rintro ⟨hsearchable, hshort⟩
    have hlocate : w.locate (Catalog.pathIn directory name) = .ok (name :: here) := by
      -- The last component is the file, so that no link is followed behind the directory.
      refine (hplace _).mpr ⟨hshort, ?_⟩
      rw [FileTree.walk_of_arrive (FileTree.stride_of_file hsearchable hname hentry)]
      cases left <;> rfl
    unfold entry?
    rw [hlocate]
    dsimp only
    rw [hentry]

end World

end Typeahead
