import Mathlib.Data.List.Sort
import Typeahead.Proofs.Session.Event
import Typeahead.Proofs.Suggestion.Best
import Typeahead.Proofs.World.Entry
import Typeahead.Proofs.World.Programs

/-!
# What a search path offers

A catalog offers what the directories of its search path offer together, in order and each name
once.  So it does not matter in which order the directories are given, how often, and whether there
are others among them that cannot be listed.

Links are followed, and the right to execute a file is asked for, by the path of the entry.  A
directory can have a path that is still short enough while those of its entries are not, and it can
be one that may be listed and not searched: then what may be executed in it is not offered.

## Main definitions

* `Catalog.IsFile` — an entry of a directory that is a file, links followed.
* `Catalog.Presents` — the name that an entry is offered under.

## Main results

* `Text.extension_cases` — where a file name is cut before its extension.
* `Catalog.programName?_eq_some_iff`, `Catalog.mem_collect_iff` — what one entry presents, and what
  some directories offer.
* `Catalog.names_offered` — **the names of a catalog, and on what of the search path they depend.**
-/

namespace Typeahead

namespace Text

variable {c : Char} {t stem rest name : Text}

/-! ### Where a name is cut -/

theorem lastIndexOf_eq_none (h : c ∉ t) : lastIndexOf c t = none := by
  induction t with
  | nil => rfl
  | cons d t ih =>
    obtain ⟨hd, ht⟩ := not_or.mp (mt List.mem_cons.mpr h)
    have hrest : lastIndexWhere (· == c) t = none := ih ht
    have hne : (d == c) = false := beq_false_of_ne (Ne.symm hd)
    simp only [lastIndexOf, lastIndexWhere, hrest, hne, Bool.false_eq_true, if_false]

theorem lastIndexOf_append (h : c ∉ rest) :
    lastIndexOf c (stem ++ c :: rest) = some stem.length := by
  induction stem with
  | nil =>
    have hrest : lastIndexWhere (· == c) rest = none := lastIndexOf_eq_none h
    simp only [List.nil_append, lastIndexOf, lastIndexWhere, hrest, beq_self_eq_true, if_true,
      List.length_nil]
  | cons d stem ih =>
    have hstem : lastIndexWhere (· == c) (stem ++ c :: rest) = some stem.length := ih
    simp only [List.cons_append, lastIndexOf, lastIndexWhere, hstem, List.length_cons]

/-- A file name without a dot has no extension. -/
theorem extension_of_not_mem (h : '.' ∉ name) : extension name = (name, []) := by
  rw [extension, lastIndexOf_eq_none h]

/-- A file name is cut before its last dot, unless there are only dots before it. -/
theorem extension_append (h : '.' ∉ rest) :
    extension (stem ++ '.' :: rest) =
      if stem.all (· == '.') then (stem ++ '.' :: rest, []) else (stem, '.' :: rest) := by
  rw [extension, lastIndexOf_append h]
  dsimp only
  rw [List.take_left, List.drop_left]

theorem extension_of_start (h : '.' ∉ rest) (hstart : ∃ c ∈ stem, c ≠ '.') :
    extension (stem ++ '.' :: rest) = (stem, '.' :: rest) := by
  rw [extension_append h, if_neg]
  simpa using hstart

theorem exists_last_dot (h : '.' ∈ name) :
    ∃ stem rest, name = stem ++ '.' :: rest ∧ '.' ∉ rest := by
  -- The last dot is the first one from the end.
  obtain ⟨before, after, hreverse, hbefore⟩ :=
    List.eq_append_cons_of_mem (List.mem_reverse.mpr h)
  refine ⟨after.reverse, before.reverse, ?_, fun hrest => hbefore (List.mem_reverse.mp hrest)⟩
  rw [← List.reverse_reverse name, hreverse]
  simp

/-- A file name either has no extension, or one from its last dot on. -/
theorem extension_cases (name : Text) :
    extension name = (name, []) ∨
      ∃ stem rest, name = stem ++ '.' :: rest ∧ '.' ∉ rest ∧ (∃ c ∈ stem, c ≠ '.') ∧
        extension name = (stem, '.' :: rest) := by
  by_cases hdot : '.' ∈ name
  · obtain ⟨stem, rest, rfl, hrest⟩ := exists_last_dot hdot
    by_cases hstart : ∃ c ∈ stem, c ≠ '.'
    · exact .inr ⟨stem, rest, rfl, hrest, hstart, extension_of_start hrest hstart⟩
    · left
      rw [extension_append hrest, if_pos]
      simpa using hstart
  · exact .inl (extension_of_not_mem hdot)

/-- Small letters take the place of every character. -/
theorem toSmall_ne_nil (h : t ≠ []) : t.toSmall ≠ [] := by
  obtain ⟨c, t, rfl⟩ := List.exists_cons_of_ne_nil h
  intro hsmall
  have hfirst := (List.append_eq_nil_iff.mp hsmall).1
  repeat' split at hfirst
  all_goals cases hfirst

end Text

namespace Catalog

variable {w : World} {directory name n : Text} {here : Location} {f : File}
  {configured directories found : List Text}

/-! ### What an entry presents -/

/-- The entry of a name in a directory is a file: it is one itself, or it is a link and its path
leads to one. -/
inductive IsFile (w : World) (directory : Text) (here : Location) (name : Text) (f : File) : Prop
  /-- The entry is a file. -/
  | itself (entry : w.files.at? (name :: here) = some (.file f))
  /-- The entry is a link to a file. -/
  | linked {target : Text} (entry : w.files.at? (name :: here) = some (.link target))
      (lookup : w.entry? (pathIn directory name) = .ok (.file f))

/-- The name that an entry of a directory is offered under, by the configured extensions. -/
inductive Presents (w : World) (configured : List Text) (directory : Text) (here : Location) :
    Text → Text → Prop
  /-- Without extensions a file is offered under its name if a file that may be executed is found
  by its path. -/
  | executable {name : Text} {f g : File} (plain : configured = [])
      (file : IsFile w directory here name f)
      (lookup : w.entry? (pathIn directory name) = .ok (.file g))
      (executable : g.executable = true) :
      Presents w configured directory here name name
  /-- With extensions a file is offered under what stands before its last dot, unless that is
  nothing but dots, if one of them is the same but for the size of the letters as the rest. -/
  | extension {stem rest extension : Text} {f : File}
      (file : IsFile w directory here (stem ++ '.' :: rest) f) (last : '.' ∉ rest)
      (start : ∃ c ∈ stem, c ≠ '.') (known : extension ∈ configured)
      (same : extension.toSmall = Text.toSmall ('.' :: rest)) :
      Presents w configured directory here (stem ++ '.' :: rest) stem

theorem fileIn?_eq_some_iff :
    fileIn? w here directory name = some f ↔ IsFile w directory here name f := by
  unfold fileIn?
  constructor
  · intro h
    split at h
    next hat =>
      cases h
      exact .itself hat
    next target hat =>
      split at h
      next hlookup =>
        cases h
        exact .linked hat hlookup
      next => cases h
    next => cases h
  · rintro (hat | ⟨hat, hlookup⟩)
    · rw [hat]
    · rw [hat, hlookup]

theorem IsFile.exists_entry (h : IsFile w directory here name f) :
    ∃ entry, w.files.at? (name :: here) = some entry := by
  cases h with
  | itself entry => exact ⟨_, entry⟩
  | linked entry => exact ⟨_, entry⟩

theorem mayExecute_iff {t : Text} :
    mayExecute w t = true ↔ ∃ g, w.entry? t = .ok (.file g) ∧ g.executable = true := by
  unfold mayExecute
  split
  next g hlookup => simp [hlookup]
  next hno =>
    refine iff_of_false nofun ?_
    rintro ⟨g, hlookup, -⟩
    exact hno g hlookup

/-- **The name of a program is what its entry presents.** -/
theorem programName?_eq_some_iff (hne : [] ∉ configured) :
    programName? w (configured.map Text.toSmall) here directory name = some n ↔
      Presents w configured directory here name n := by
  unfold programName?
  cases hfile : fileIn? w here directory name with
  | none =>
    refine iff_of_false nofun ?_
    intro h
    have hno (f : File) : ¬ IsFile w directory here name f := fun h => by
      rw [fileIn?_eq_some_iff.mpr h] at hfile
      cases hfile
    cases h with
    | executable _ file => exact hno _ file
    | extension file => exact hno _ file
  | some f =>
    have hisFile := fileIn?_eq_some_iff.mp hfile
    dsimp only
    by_cases hplain : configured = []
    · -- No extension is configured, and the right to execute the file decides.
      subst hplain
      simp only [List.map_nil, if_true, Option.ite_none_right_eq_some, mayExecute_iff,
        Option.some.injEq]
      constructor
      · rintro ⟨⟨g, hlookup, hexecutable⟩, rfl⟩
        exact .executable rfl hisFile hlookup hexecutable
      · rintro (⟨-, -, hlookup, hexecutable⟩ | ⟨-, -, -, hknown, -⟩)
        · exact ⟨⟨_, hlookup, hexecutable⟩, rfl⟩
        · cases hknown
    -- Extensions are configured, and the last one of the name decides.
    · rw [if_neg (by simpa using hplain)]
      simp only [Bool.and_eq_true, List.contains_iff_mem, List.mem_map, decide_eq_true_eq,
        Option.ite_none_right_eq_some, Option.some.injEq]
      constructor
      · rintro ⟨⟨⟨known, hknown, hsame⟩, -⟩, rfl⟩
        rcases Text.extension_cases name with hcut | ⟨stem, rest, rfl, hlast, hstart, hcut⟩
        · -- The empty extension is not configured.
          rw [hcut] at hsame
          exact absurd hsame (Text.toSmall_ne_nil fun h => hne (h ▸ hknown))
        · rw [hcut] at hsame ⊢
          exact .extension hisFile hlast hstart hknown hsame
      · rintro (⟨plain, -, -, -⟩ | ⟨-, hlast, hstart, hknown, hsame⟩)
        · exact absurd plain hplain
        · rw [Text.extension_of_start hlast hstart]
          refine ⟨⟨⟨_, hknown, hsame⟩, ?_⟩, rfl⟩
          rintro rfl
          simp at hstart

/-! ### What some directories offer -/

/-- What stands in a directory is listed there. -/
theorem mem_names_of_at? {files : FileTree} {entry : Entry}
    (h : files.at? (name :: here) = some entry) : name ∈ files.names here := by
  unfold FileTree.at? at h
  split at h
  next hlookup =>
    have hmem := FileTree.mem_of_lookup hlookup
    exact List.mem_eraseDups.mpr (List.mem_filterMap.mpr ⟨_, hmem, if_pos rfl⟩)
  next => cases h

/-- A directory that can be listed gives the programs among its entries, and any other directory
gives nothing. -/
theorem programsIn_cases {extensions : List Text} {given : Option (List Text)}
    (h : programsIn w extensions directory = .ok given) :
    (given = none ∧ ∀ here, ¬ w.Lists directory here) ∨
      ∃ here, w.Lists directory here ∧ given =
        some ((w.files.names here).filterMap (programName? w extensions here directory)) := by
  unfold programsIn at h
  cases hlist : w.list directory with
  | error fault =>
    have hno (here : Location) : ¬ w.Lists directory here := fun hlists => by
      rw [World.list_eq_ok_iff.mpr ⟨here, hlists, rfl⟩] at hlist
      cases hlist
    rw [hlist] at h
    cases fault <;> cases h <;> exact .inl ⟨rfl, hno⟩
  | ok names =>
    obtain ⟨here, hlists, rfl⟩ := World.list_eq_ok_iff.mp hlist
    rw [hlist] at h
    dsimp only at h
    rw [hlists.1] at h
    cases h
    exact .inr ⟨here, hlists, rfl⟩

/-- Among the programs of a directory are the names that its entries present. -/
theorem mem_filterMap_programName?_iff (hne : [] ∉ configured) :
    n ∈ (w.files.names here).filterMap
        (programName? w (configured.map Text.toSmall) here directory) ↔
      ∃ name, Presents w configured directory here name n := by
  simp only [List.mem_filterMap, programName?_eq_some_iff hne]
  constructor
  · rintro ⟨name, -, hpresents⟩
    exact ⟨name, hpresents⟩
  · rintro ⟨name, hpresents⟩
    have hfile : ∃ f, IsFile w directory here name f := by
      cases hpresents with
      | executable _ file => exact ⟨_, file⟩
      | extension file => exact ⟨_, file⟩
    obtain ⟨f, hfile⟩ := hfile
    obtain ⟨entry, hentry⟩ := hfile.exists_entry
    exact ⟨name, mem_names_of_at? hentry, hpresents⟩

/-- **What some directories offer** is what the entries of those that can be listed present. -/
theorem mem_collect_iff (hne : [] ∉ configured)
    (h : (collect w (configured.map Text.toSmall) directories).2 = .ok found) :
    n ∈ found ↔ ∃ directory ∈ directories, ∃ here, w.Lists directory here ∧
      ∃ name, Presents w configured directory here name n := by
  -- By induction on the directories; one that cannot be listed is passed over.
  induction directories generalizing found with
  | nil =>
    cases h
    simp
  | cons directory rest ih =>
    simp only [collect] at h
    cases hgiven : programsIn w (configured.map Text.toSmall) directory with
    | error fault =>
      rw [hgiven] at h
      cases h
    | ok given =>
      rw [hgiven] at h
      rcases programsIn_cases hgiven with ⟨rfl, hno⟩ | ⟨here, hlists, rfl⟩
      · rw [ih h]
        simp [hno]
      · rcases hcollect : collect w (configured.map Text.toSmall) rest with
          ⟨notices, fault | names⟩ <;> rw [hcollect] at h <;> cases h
        rw [List.mem_append, mem_filterMap_programName?_iff hne, ih (by rw [hcollect]),
          List.exists_mem_cons_iff]
        refine or_congr_left ⟨fun hpresents => ⟨here, hlists, hpresents⟩, ?_⟩
        rintro ⟨there, hthere, hpresents⟩
        exact hlists.unique hthere ▸ hpresents

/-! ### The names of a catalog -/

/-- A search path leads to a directory: it is one of its parts, not the empty one, and can be
listed. -/
def Searched (platform : Platform) (searchPath : Text) (w : World) (directory : Text)
    (here : Location) : Prop :=
  directory ∈ Text.splitOn platform.listMark searchPath ∧ directory ≠ [] ∧ w.Lists directory here

theorem mem_names_ofTexts_iff {platform : Platform} {searchPath extensions : Text}
    (h : ((ofTexts platform searchPath extensions).names w).2.2 = .ok found) :
    n ∈ found ↔ ∃ directory here name, Searched platform searchPath w directory here ∧
      Presents w (parts ';' extensions) directory here name n := by
  have hne : [] ∉ parts ';' extensions := by simp [parts]
  rw [names_answer] at h
  simp only [ofTexts, gather] at h
  rcases hcollect : collect w ((parts ';' extensions).map Text.toSmall)
      (parts platform.listMark searchPath) with ⟨notices, fault | names⟩ <;>
    rw [hcollect] at h <;> cases h
  rw [Text.mem_sortDistinct, mem_collect_iff hne (by rw [hcollect])]
  simp only [parts, List.mem_filter, decide_eq_true_eq, Searched]
  constructor
  · rintro ⟨directory, ⟨hmem, hnonempty⟩, here, hlists, name, hpresents⟩
    exact ⟨directory, here, name, ⟨hmem, hnonempty, hlists⟩, hpresents⟩
  · rintro ⟨directory, here, name, ⟨hmem, hnonempty, hlists⟩, hpresents⟩
    exact ⟨directory, ⟨hmem, hnonempty⟩, here, hlists, name, hpresents⟩

theorem pairwise_names_ofTexts {platform : Platform} {searchPath extensions : Text}
    (h : ((ofTexts platform searchPath extensions).names w).2.2 = .ok found) :
    found.Pairwise (· < ·) := by
  rw [names_answer] at h
  exact pairwise_gather h

/-- **The names of a catalog** are in order and each is there once.  They are what the entries
present of the directories that the search path leads to, so nothing else of the search path
matters: not the order of its parts, not which of them are repeated, and not what cannot be listed.
A file that stands in a directory itself is found by its path if the directory may be searched and
the path has less than 4096 bytes. -/
theorem names_offered (platform : Platform) {searchPath : Text} (h : '\x00' ∉ searchPath)
    (extensions : Text) (w : World) :
    ∃ found, ((ofTexts platform searchPath extensions).names w).2.2 = .ok found ∧
      found.Pairwise (· < ·) ∧
      (∀ n, n ∈ found ↔ ∃ directory here name, Searched platform searchPath w directory here ∧
        Presents w (parts ';' extensions) directory here name n) ∧
      (∀ directory here name f, w.Lists directory here → name.FileName →
        w.files.at? (name :: here) = some (.file f) →
        (w.entry? (pathIn directory name) = .ok (.file f) ↔
          w.files.Searchable here ∧ (pathIn directory name).byteSize < 4096)) ∧
      ∀ other, '\x00' ∉ other →
        (∀ directory here, Searched platform other w directory here ↔
          Searched platform searchPath w directory here) →
        ((ofTexts platform other extensions).names w).2.2 = .ok found := by
  obtain ⟨found, hfound⟩ := names_of_clean (clean_ofTexts platform h extensions) w
  have hordered := pairwise_names_ofTexts hfound
  refine ⟨found, hfound, hordered, fun n => mem_names_ofTexts_iff hfound, ?_, ?_⟩
  · intro directory here name f hlists hname hentry
    exact World.entry?_pathIn_iff hlists hname hentry
  · intro other hother hsame
    obtain ⟨found', hfound'⟩ := names_of_clean (clean_ofTexts platform hother extensions) w
    -- Both lists are in order and have the same members.
    have hmem (n : Text) : n ∈ found' ↔ n ∈ found := by
      rw [mem_names_ofTexts_iff hfound', mem_names_ofTexts_iff hfound]
      simp only [hsame]
    have heq : found' = found := (pairwise_names_ofTexts hfound').eq_of_mem_iff hordered hmem
    rw [hfound', heq]

/-- In the sample world the one program is offered, and it makes no difference to give its directory
twice and a locked one before it. -/
theorem names_offered_sample : '\x00' ∉ ['/', 'b'] ∧ ∃ found,
    ((ofTexts .posix ['/', 'b'] []).names .sample).2.2 = .ok found ∧ ['l', 's'] ∈ found ∧
    ((ofTexts .posix ['/', 'p', ':', '/', 'b', ':', '/', 'b'] []).names .sample).2.2 =
      .ok found := by
  have hnull : '\x00' ∉ ['/', 'b'] := by decide
  obtain ⟨found, hfound, -, hmem, -, hsame⟩ := names_offered .posix hnull [] .sample
  have hlists : World.sample.Lists ['/', 'b'] [['b']] := ⟨by decide, .free, by decide, rfl⟩
  have hlocked (here : Location) : ¬ World.sample.Lists ['/', 'p'] here := by
    rintro ⟨hlocate, access, hhere, hlists⟩
    cases hlocate
    cases hhere
    cases hlists
  refine ⟨hnull, found, hfound, (hmem _).mpr ?_, hsame _ (by decide) ?_⟩
  · exact ⟨['/', 'b'], [['b']], ['l', 's'], ⟨by decide, by decide, hlists⟩,
      .executable rfl (.itself rfl) rfl rfl⟩
  · intro directory here
    -- The other search path has one part more, which cannot be listed.
    have hpart : directory ∈ Text.splitOn ':' ['/', 'p', ':', '/', 'b', ':', '/', 'b'] ↔
        directory = ['/', 'p'] ∨ directory ∈ Text.splitOn ':' ['/', 'b'] := by
      simp [Text.splitOn]
    unfold Searched Platform.listMark
    dsimp only
    rw [hpart, or_and_right, or_iff_right]
    rintro ⟨rfl, -, hlists⟩
    exact hlocked here hlists

end Catalog

/-! ### A path that is too long for the entries -/

namespace Text

theorem byteSize_append (t u : Text) : byteSize (t ++ u) = byteSize t + byteSize u := by
  induction t with
  | nil => exact (Nat.zero_add u.byteSize).symm
  | cons c t ih =>
    calc byteSize (c :: t ++ u)
      _ = c.utf8Size + byteSize (t ++ u) := rfl
      _ = c.utf8Size + (byteSize t + byteSize u) := by rw [ih]
      _ = byteSize (c :: t) + byteSize u := (Nat.add_assoc _ _ _).symm

theorem byteSize_replicate_slash (n : Nat) : byteSize (List.replicate n '/') = n := by
  induction n with
  | zero => rfl
  | succ n ih =>
    calc byteSize ('/' :: List.replicate n '/')
      _ = 1 + byteSize (List.replicate n '/') := rfl
      _ = n + 1 := by rw [ih, Nat.add_comm]

end Text

namespace World

variable {w : World} {t : Text} {here : Location}

/-- More slashes at the root lead to the same directory. -/
theorem Lists.replicate_slash (h : w.Lists ('/' :: t) here) (n : Nat)
    (hshort : Text.byteSize (List.replicate n '/' ++ '/' :: t) < 4096) :
    w.Lists (List.replicate n '/' ++ '/' :: t) here := by
  obtain ⟨hlocate, hhere⟩ := h
  obtain ⟨hnull, -, -, start, horigin, hwalk⟩ := locateFor_eq_ok_iff.mp hlocate
  refine ⟨locateFor_eq_ok_iff.mpr ⟨?_, by simp, hshort, start, ?_, ?_⟩, hhere⟩
  · simpa using hnull
  · cases n with
    | zero => exact horigin
    | succ n => exact horigin
  · -- Each slash more is one more empty component, where the walk stays.
    clear hshort
    induction n with
    | zero => exact hwalk
    | succ n ih =>
      rw [Text.splitOn_cons_self] at hwalk
      have hstay := (FileTree.walk_still rfl).mp hwalk
      rw [List.replicate_succ, List.cons_append, Text.splitOn_cons_self]
      exact (FileTree.walk_still rfl).mpr ⟨hstay.1, ih⟩

end World

namespace Catalog

/-- Without extensions the entries of a directory present nothing if their paths are too long. -/
theorem not_presents_of_long (hends : Text.endsIn '/' directory = false)
    (hlong : 4095 ≤ directory.byteSize) : ¬ Presents w [] directory here name n := by
  intro h
  cases h with
  | extension _ _ _ known => cases known
  | executable _ _ lookup =>
    have hshort := World.short_of_lookup lookup
    have hslash : Text.byteSize ('/' :: name) = 1 + name.byteSize := rfl
    rw [pathIn, if_neg (by simp [hends]), Text.byteSize_append, hslash] at hshort
    omega

/-- A directory that is given by 4095 bytes leads to its entries no more: the program in it, which
may be executed, is not offered. -/
theorem names_pass_over :
    '\x00' ∉ List.replicate 4093 '/' ++ ['/', 'b'] ∧
      Searched .posix (List.replicate 4093 '/' ++ ['/', 'b']) .sample
        (List.replicate 4093 '/' ++ ['/', 'b']) [['b']] ∧
      World.sample.files.at? [['l', 's'], ['b']] = some (.file ⟨true, true, []⟩) ∧
      ((ofTexts .posix (List.replicate 4093 '/' ++ ['/', 'b']) []).names .sample).2.2 = .ok [] := by
  -- The slashes are only counted, so their number stays a variable.
  obtain ⟨count, hcount⟩ : ∃ count, count = 4093 := ⟨4093, rfl⟩
  rw [← hcount]
  have hsize : Text.byteSize (List.replicate count '/' ++ ['/', 'b']) = count + 2 := by
    rw [Text.byteSize_append, Text.byteSize_replicate_slash]
    rfl
  have hnull : '\x00' ∉ List.replicate count '/' ++ ['/', 'b'] := by simp
  have hwhole : Text.splitOn ':' (List.replicate count '/' ++ ['/', 'b']) =
      [List.replicate count '/' ++ ['/', 'b']] := Text.splitOn_of_not_mem (by simp)
  have hends : Text.endsIn '/' (List.replicate count '/' ++ ['/', 'b']) = false := by
    rw [List.append_cons, Text.endsIn_concat]
    decide
  have hdirect : World.sample.Lists ['/', 'b'] [['b']] := ⟨by decide, .free, by decide, rfl⟩
  refine ⟨hnull, ⟨?_, by simp, hdirect.replicate_slash count (by omega)⟩, rfl, ?_⟩
  · rw [Platform.listMark, hwhole]
    exact List.mem_singleton_self _
  · obtain ⟨found, hfound⟩ := names_of_clean (clean_ofTexts .posix hnull []) .sample
    suffices h : found = [] by rw [hfound, h]
    refine List.eq_nil_iff_forall_not_mem.mpr fun n hn => ?_
    obtain ⟨directory, here, name, ⟨hpart, -, -⟩, hpresents⟩ := (mem_names_ofTexts_iff hfound).mp hn
    rw [Platform.listMark, hwhole, List.mem_singleton] at hpart
    subst hpart
    exact not_presents_of_long hends (by omega) hpresents

end Catalog

end Typeahead
