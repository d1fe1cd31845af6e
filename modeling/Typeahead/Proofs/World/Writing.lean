import Typeahead.World.Change

/-!
# What was written is read

Writing a file leaves the rest of the tree as it was, so the path by which the file was written
leads to it afterwards, by the same links and from the same working directory.  For that the walk
must not have ended at a link, which a path never does: every location that a walk comes to stands
in a directory that stands in a directory, up to the root.

## Main definitions

* `FileTree.Upright`, `FileTree.Settled` — a location below directories only, and one that is
  besides no link.
* `FileTree.Open` — a location where a file may be put.

## Main results

* `FileTree.walk_settled` — a path never ends at a link.
* `FileTree.walk_set` — a walk that ends at a new or rewritten file still ends there afterwards.
* `World.entry?_write`, `World.read_write` — **what was written is there and is read.**
-/

namespace Typeahead

/-- The outcome of a component when there is a file at `place`. -/
def Stride.filled (place : Location) : Stride → Stride
  | .vacant here => if here = place then .arrive here else .vacant here
  | step => step

namespace FileTree

variable {files : FileTree} {here place next : Location} {component : Text} {entry : Entry}

/-! ### One entry set -/

theorem lookup_append (first second : List (Location × Entry)) :
    lookup here (first ++ second) = (lookup here first).or (lookup here second) := by
  induction first with
  | nil => rfl
  | cons head first ih =>
    obtain ⟨place, entry⟩ := head
    simp only [List.cons_append, lookup]
    split
    · rfl
    · exact ih

theorem lookup_filter_self (entries : List (Location × Entry)) :
    lookup here (entries.filter fun (place, _) => place ≠ here) = none := by
  induction entries with
  | nil => rfl
  | cons head entries ih =>
    obtain ⟨place, entry⟩ := head
    by_cases hplace : place = here
    · simpa [List.filter_cons, hplace] using ih
    · simpa [List.filter_cons, hplace, lookup] using ih

theorem lookup_filter_of_ne (h : next ≠ here) (entries : List (Location × Entry)) :
    lookup next (entries.filter fun (place, _) => place ≠ here) = lookup next entries := by
  induction entries with
  | nil => rfl
  | cons head entries ih =>
    obtain ⟨place, entry⟩ := head
    by_cases hplace : place = here
    · simpa [List.filter_cons, hplace, lookup, h.symm] using ih
    · simp only [List.filter_cons, hplace, ne_eq, not_false_eq_true, decide_true, if_true, lookup]
      rw [ih]

theorem at?_set_self : (files.set here entry).at? here = some entry := by
  simp only [at?, set, lookup_append, lookup_filter_self, lookup, if_true, Option.none_or]

theorem at?_set_of_ne (h : next ≠ here) : (files.set here entry).at? next = files.at? next := by
  simp only [at?, set, lookup_append, lookup_filter_of_ne h, lookup, h.symm, if_false,
    Option.or_none]

theorem isDirectory_iff : files.isDirectory here = true ↔
    ∃ access, files.at? here = some (.directory access) := by
  unfold isDirectory
  split <;> simp_all

/-! ### What a stride does -/

/-- Everything that one component of a walk can do.  The walk stands at a directory, and stays,
goes up, goes down to what is no link, finds nothing, or finds a link. -/
theorem stride_cases {step : Stride} (h : files.stride here component = .ok step) :
    files.isDirectory here = true ∧
      (step = .arrive here ∨ step = .arrive here.tail ∨
        (∃ entry, files.at? (component :: here) = some entry ∧ (∀ target, entry ≠ .link target) ∧
          step = .arrive (component :: here)) ∨
        (files.at? (component :: here) = none ∧ step = .vacant (component :: here)) ∨
        ∃ target, files.at? (component :: here) = some (.link target) ∧ step = .follow target) := by
  unfold stride at h
  split at h
  case h_1 => cases h
  case h_3 => cases h
  case h_2 access hat =>
  refine ⟨isDirectory_iff.mpr ⟨access, hat⟩, ?_⟩
  -- The guards of a stride, in the order in which they stand.
  repeat' split at h
  all_goals cases h
  · simp
  · simp
  · simp
  next hnone => simp [hnone]
  next target hlink _ => simp [hlink]
  next entry hsome hlink => simp_all

theorem stride_vacant (h : files.stride here component = .ok (.vacant next)) :
    files.at? next = none := by
  obtain ⟨-, heq | heq | ⟨_, -, -, heq⟩ | ⟨hat, heq⟩ | ⟨_, -, heq⟩⟩ := stride_cases h
  all_goals cases heq
  exact hat

theorem stride_isDirectory {step : Stride} (h : files.stride here component = .ok step) :
    files.isDirectory here = true := (stride_cases h).1

/-! ### Where walks end -/

/-- Everything above a location is a directory. -/
def Upright (files : FileTree) (here : Location) : Prop :=
  ∀ name above, name :: above <:+ here → files.isDirectory above = true

/-- A location below directories only, at which there is no link. -/
structure Settled (files : FileTree) (here : Location) : Prop where
  upright : files.Upright here
  noLink : ∀ target, files.at? here ≠ some (.link target)

theorem upright_root : files.Upright [] := by
  intro name above h
  simp at h

theorem Upright.tail (h : files.Upright here) : files.Upright here.tail :=
  fun name above hsuffix => h name above (hsuffix.trans (List.tail_suffix here))

theorem Upright.child (h : files.Upright here) (hhere : files.isDirectory here = true) :
    files.Upright (component :: here) := by
  intro name above hsuffix
  rcases List.suffix_cons_iff.mp hsuffix with heq | hsuffix
  · rw [(List.cons.inj heq).2]
    exact hhere
  · exact h name above hsuffix

theorem Upright.origin (h : files.Upright here) (target : Text) :
    files.Upright (origin here target) := by
  unfold FileTree.origin
  split
  · exact upright_root
  · exact h

theorem Upright.settled (h : files.Upright here) (hhere : files.isDirectory here = true) :
    files.Settled here := by
  obtain ⟨access, hat⟩ := isDirectory_iff.mp hhere
  exact ⟨h, fun target => by simp [hat]⟩

/-- The directory above a directory, which for the root is the root. -/
theorem Upright.settled_tail (h : files.Upright here) (hhere : files.isDirectory here = true) :
    files.Settled here.tail := by
  cases here with
  | nil => exact h.settled hhere
  | cons name above => exact h.tail.settled (h name above List.suffix_rfl)

/-- Where a stride arrives, or finds nothing, there is no link. -/
theorem stride_settled (h : files.Upright here)
    (hstride : files.stride here component = .ok (.arrive next) ∨
      files.stride here component = .ok (.vacant next)) : files.Settled next := by
  rcases hstride with hstride | hstride
  · obtain ⟨hhere, heq | heq | ⟨entry, hat, hlink, heq⟩ | ⟨-, heq⟩ | ⟨target, -, heq⟩⟩ :=
      stride_cases hstride
    · cases heq
      exact h.settled hhere
    · cases heq
      exact h.settled_tail hhere
    · cases heq
      refine ⟨h.child hhere, fun target hat' => ?_⟩
      rw [hat, Option.some.injEq] at hat'
      exact hlink target hat'
    · cases heq
    · cases heq
  · obtain ⟨hhere, heq | heq | ⟨entry, hat, hlink, heq⟩ | ⟨hat, heq⟩ | ⟨target, -, heq⟩⟩ :=
      stride_cases hstride
    all_goals cases heq
    exact ⟨h.child hhere, fun target hat' => by simp [hat] at hat'⟩

section Walks

variable {purpose : Purpose} {links : Nat} {rest components : List Text} {stop : Location}
  {follow : Location → List Text → Except PathFault Location}

/-- How a walk goes on behind its first component. -/
theorem walkWith_cons_eq_ok
    (h : files.walkWith purpose follow here (component :: rest) = .ok stop) :
    (∃ next, files.stride here component = .ok (.arrive next) ∧
        files.walkWith purpose follow next rest = .ok stop) ∨
      (files.stride here component = .ok (.vacant stop) ∧ rest = []) ∨
      ∃ target, files.stride here component = .ok (.follow target) ∧
        follow (FileTree.origin here target) (Text.splitOn '/' target ++ rest) = .ok stop := by
  simp only [walkWith] at h
  cases hstride : files.stride here component with
  | error fault =>
    rw [hstride] at h
    cases h
  | ok step =>
    rw [hstride] at h
    cases step with
    | arrive next => exact .inl ⟨next, rfl, h⟩
    | follow target => exact .inr (.inr ⟨target, rfl, h⟩)
    -- Nothing there: a walk may come to an end with it at the last component only.
    | vacant vacancy =>
      dsimp only at h
      split at h
      next hlast =>
        simp only [Bool.and_eq_true, decide_eq_true_eq] at hlast
        cases h
        exact .inr (.inl ⟨rfl, hlast.2⟩)
      next => cases h

theorem walkWith_settled
    (hfollow : ∀ here rest, files.Upright here → rest ≠ [] → follow here rest = .ok stop →
      files.Settled stop)
    (hhere : files.Upright here)
    (hlink : components = [] → ∀ target, files.at? here ≠ some (.link target))
    (h : files.walkWith purpose follow here components = .ok stop) : files.Settled stop := by
  -- Whatever a stride comes to, it comes to a settled place; only a link leaves it to what follows.
  induction components generalizing here with
  | nil =>
    cases h
    exact ⟨hhere, hlink rfl⟩
  | cons component rest ih =>
    rcases walkWith_cons_eq_ok h with ⟨next, hstride, hrest⟩ | ⟨hstride, -⟩ |
      ⟨target, hstride, hrest⟩
    · have hnext := stride_settled hhere (.inl hstride)
      exact ih hnext.upright (fun _ => hnext.noLink) hrest
    · exact stride_settled hhere (.inr hstride)
    · refine hfollow _ _ (hhere.origin target) ?_ hrest
      simp [Text.splitOn_ne_nil]

/-- A path never ends at a link. -/
theorem walk_settled (hhere : files.Upright here) (hne : components ≠ [])
    (h : files.walk purpose links here components = .ok stop) : files.Settled stop := by
  induction links generalizing here components with
  | zero =>
    rw [walk] at h
    refine walkWith_settled ?_ hhere (fun hnil => absurd hnil hne) h
    intro next rest _ _ hfollow
    cases hfollow
  | succ links ih =>
    rw [walk] at h
    exact walkWith_settled (fun _ _ hup hrest hfollow => ih hup hrest hfollow) hhere
      (fun hnil => absurd hnil hne) h

theorem walkWith_isDirectory (hne : components ≠ [])
    (h : files.walkWith purpose follow here components = .ok stop) :
    files.isDirectory here = true := by
  cases components with
  | nil => exact absurd rfl hne
  | cons component rest =>
    rcases walkWith_cons_eq_ok h with ⟨_, hstride, -⟩ | ⟨hstride, -⟩ | ⟨_, hstride, -⟩ <;>
      exact stride_isDirectory hstride

/-- A walk that takes a step starts at a directory. -/
theorem walk_isDirectory (hne : components ≠ [])
    (h : files.walk purpose links here components = .ok stop) :
    files.isDirectory here = true := by
  cases links with
  | zero =>
    rw [walk] at h
    exact walkWith_isDirectory hne h
  | succ links =>
    rw [walk] at h
    exact walkWith_isDirectory hne h

/-! ### A file put at the end of a walk -/

/-- A location where a file may be put: there is nothing or a file. -/
def Open (files : FileTree) (place : Location) : Prop :=
  files.at? place = none ∨ ∃ f, files.at? place = some (.file f)

theorem Open.ne (h : files.Open place) (hhere : files.isDirectory here = true) : here ≠ place := by
  rintro rfl
  obtain ⟨access, hat⟩ := isDirectory_iff.mp hhere
  rcases h with h | ⟨f, h⟩ <;> simp [hat] at h

variable {f : File}

theorem stride_set {step : Stride} (hopen : files.Open place)
    (h : files.stride here component = .ok step) :
    (files.set place (.file f)).stride here component = .ok (step.filled place) := by
  have hhere := stride_isDirectory h
  have hsame : (files.set place (.file f)).at? here = files.at? here :=
    at?_set_of_ne (hopen.ne hhere)
  by_cases hplace : component :: here = place
  · -- The component leads to the place itself, where a file is now.
    subst hplace
    unfold stride at h ⊢
    rw [hsame]
    rcases hopen with hat | ⟨g, hat⟩ <;> rw [hat] at h
    all_goals
      split at h
      case h_1 => cases h
      case h_3 => cases h
      repeat' split at h
      all_goals cases h
      all_goals simp_all [Stride.filled, at?_set_self]
  -- Anywhere else the tree is what it was.
  · have heq : (files.set place (.file f)).stride here component =
        files.stride here component := by
      unfold stride
      rw [hsame, at?_set_of_ne hplace]
    rw [heq, h]
    obtain ⟨-, rfl | rfl | ⟨_, -, -, rfl⟩ | ⟨-, rfl⟩ | ⟨_, -, rfl⟩⟩ := stride_cases h
    all_goals simp [Stride.filled, hplace]

theorem walkWith_set {follow' : Location → List Text → Except PathFault Location}
    (hopen : files.Open place) (hstop : stop = place ∨ files.isDirectory stop = true)
    (hfollow : ∀ here rest, follow here rest = .ok stop → follow' here rest = .ok stop)
    (h : files.walkWith purpose follow here components = .ok stop) :
    (files.set place (.file f)).walkWith .find follow' here components = .ok stop := by
  induction components generalizing here with
  | nil => exact h
  | cons component rest ih =>
    rw [walkWith]
    rcases walkWith_cons_eq_ok h with ⟨next, hstride, hrest⟩ | ⟨hstride, hlast⟩ |
      ⟨target, hstride, hrest⟩
    · rw [stride_set hopen hstride]
      exact ih hrest
    · have hplace : stop = place := by
        -- A vacant location is no directory.
        refine hstop.resolve_right fun hdirectory => ?_
        obtain ⟨access, hat⟩ := isDirectory_iff.mp hdirectory
        rw [stride_vacant hstride] at hat
        cases hat
      rw [stride_set hopen hstride, hplace, hlast]
      simp only [Stride.filled, if_true, walkWith]
    · rw [stride_set hopen hstride]
      exact hfollow _ _ hrest

/-- A walk that ends at a file put there or at a directory still ends there afterwards. -/
theorem walk_set (hopen : files.Open place)
    (hstop : stop = place ∨ files.isDirectory stop = true)
    (h : files.walk purpose links here components = .ok stop) :
    (files.set place (.file f)).walk .find links here components = .ok stop := by
  induction links generalizing here components with
  | zero =>
    rw [walk] at h ⊢
    exact walkWith_set hopen hstop (fun _ _ hfollow => hfollow) h
  | succ links ih =>
    rw [walk] at h ⊢
    exact walkWith_set hopen hstop (fun _ _ hfollow => ih hfollow) h

end Walks

end FileTree

namespace World

open FileTree

variable {w w' : World} {purpose : Purpose} {t content : Text} {place : Location} {f : File}

/-- Where the walk along a path starts. -/
def origin (w : World) (t : Text) : Except PathFault Location :=
  if t.head? = some '/' then .ok [] else w.start

/-- The location of a path, when there is one. -/
theorem locateFor_eq_ok_iff : w.locateFor purpose t = .ok place ↔
    '\x00' ∉ t ∧ t ≠ [] ∧ t.byteSize < 4096 ∧
      ∃ here, w.origin t = .ok here ∧
        w.files.walk purpose linkLimit here (Text.splitOn '/' t) = .ok place := by
  -- The guards in their order; the walk starts where the first character says.
  unfold locateFor origin
  by_cases hnull : '\x00' ∈ t
  · rw [if_pos (List.contains_iff_mem.mpr hnull)]
    simp [hnull]
  rw [if_neg fun h => hnull (List.contains_iff_mem.mp h)]
  by_cases hempty : t = []
  · rw [if_pos hempty]
    simp [hempty]
  rw [if_neg hempty]
  by_cases hlong : 4096 ≤ t.byteSize
  · rw [if_pos hlong]
    simp [Nat.not_lt.mpr hlong]
  rw [if_neg hlong]
  by_cases hroot : t.head? = some '/'
  · rw [if_pos hroot, if_pos hroot]
    simp [hnull, hempty, Nat.lt_of_not_le hlong]
  · rw [if_neg hroot, if_neg hroot]
    cases w.start <;> simp [hnull, hempty, Nat.lt_of_not_le hlong]

theorem start_settled {here : Location} (h : w.start = .ok here) : w.files.Settled here :=
  walk_settled upright_root (Text.splitOn_ne_nil '/' w.workingDirectory) h

theorem origin_upright {here : Location} (h : w.origin t = .ok here) : w.files.Upright here := by
  unfold origin at h
  split at h
  · cases h
    exact upright_root
  · exact (start_settled h).upright

theorem locateFor_settled (h : w.locateFor purpose t = .ok place) : w.files.Settled place := by
  obtain ⟨-, -, -, here, horigin, hwalk⟩ := locateFor_eq_ok_iff.mp h
  exact walk_settled (origin_upright horigin) (Text.splitOn_ne_nil '/' t) hwalk

/-- The walk along a path starts where it did before a file was put somewhere. -/
theorem origin_set {here : Location} (hopen : w.files.Open place) (h : w.origin t = .ok here)
    (hdirectory : w.files.isDirectory here = true) :
    (w.withFiles (w.files.set place (.file f))).origin t = .ok here := by
  unfold origin at h ⊢
  split at h
  next hroot => rw [if_pos hroot, h]
  next hroot =>
    rw [if_neg hroot]
    exact walk_set hopen (.inr hdirectory) h

/-- A path that led to a place for a file leads to the file. -/
theorem locate_set (hopen : w.files.Open place) (h : w.locateFor purpose t = .ok place) :
    (w.withFiles (w.files.set place (.file f))).locate t = .ok place := by
  obtain ⟨hnull, hempty, hshort, here, horigin, hwalk⟩ := locateFor_eq_ok_iff.mp h
  have hdirectory := walk_isDirectory (Text.splitOn_ne_nil '/' t) hwalk
  exact locateFor_eq_ok_iff.mpr ⟨hnull, hempty, hshort, here, origin_set hopen horigin hdirectory,
    walk_set hopen (.inl rfl) hwalk⟩

/-- What a successful write does: it puts a readable file with the content where the path leads. -/
theorem write_eq_ok (h : w.write t content = .ok w') :
    ∃ place f, w.locateFor .create t = .ok place ∧ w.files.Open place ∧ f.readable = true ∧
      f.content = content ∧ w' = w.withFiles (w.files.set place (.file f)) := by
  unfold write at h
  cases hlocate : w.locateFor .create t with
  | error fault =>
    rw [hlocate] at h
    cases h
  | ok place =>
    have hsettled := locateFor_settled hlocate
    rw [hlocate] at h
    -- Only where nothing is, or a file that may be written, does writing come to an end.
    cases hat : w.files.at? place with
    | none =>
      simp only [hat] at h
      cases h
      exact ⟨place, _, rfl, .inl hat, rfl, rfl, rfl⟩
    | some entry =>
      cases entry with
      | directory access =>
        simp only [hat] at h
        cases h
      | link target => exact absurd hat (hsettled.noLink target)
      | file f =>
        simp only [hat] at h
        split at h
        next hreadable =>
          cases h
          exact ⟨place, { f with content }, rfl, .inr ⟨f, hat⟩, hreadable, rfl, rfl⟩
        next => cases h

/-- **What was written is there.** -/
theorem entry?_write (h : w.write t content = .ok w') :
    ∃ f : File, w'.entry? t = .ok (.file f) ∧ f.readable = true ∧ f.content = content := by
  obtain ⟨place, f, hlocate, hopen, hreadable, hcontent, rfl⟩ := write_eq_ok h
  refine ⟨f, ?_, hreadable, hcontent⟩
  unfold entry?
  rw [locate_set hopen hlocate]
  simp only [withFiles, at?_set_self]

theorem isPresent_write (h : w.write t content = .ok w') : w'.isPresent t = .ok true := by
  obtain ⟨f, hentry, -, -⟩ := entry?_write h
  rw [isPresent, test, hentry]

/-- **What was written is read.** -/
theorem read_write (h : w.write t content = .ok w') : w'.read t = .ok content := by
  obtain ⟨f, hentry, hreadable, rfl⟩ := entry?_write h
  rw [read, hentry]
  exact if_pos hreadable

end World

end Typeahead
