import Typeahead.Proofs.World.Writing

/-!
# Paths and how they are spelled

Many texts are read as one path: slashes may be repeated and `.` may stand anywhere.  The text that
a path has itself is one of them and no longer than the others.  It is looked up by standing where
the path starts and walking along its names.

## Main definitions

* `Path.Proper` — the names of a path are names and have no slash in them, as those that are read.
* `Text.Passable` — a text that no lookup turns down for itself.
* `World.Reaches` — a path leads to a location.

## Main results

* `Text.splitOn_join` — what was glued is cut into its pieces again.
* `Path.ofText_toText` — **the text of a path is read as the path.**
* `World.locate_toText_iff` — looking up the text of a path.
-/

namespace Typeahead

namespace Text

variable {sep c : Char} {t u piece : Text} {pieces more : List Text}

/-! ### Cutting what was glued -/

theorem splitOn_append (sep : Char) (t u : Text) :
    splitOn sep (t ++ sep :: u) = splitOn sep t ++ splitOn sep u := by
  induction t with
  | nil => simp [splitOn]
  | cons c t ih =>
    rw [List.cons_append, splitOn, splitOn, ih]
    split
    · rfl
    · cases hsplit : splitOn sep t with
      | nil => exact absurd hsplit (splitOn_ne_nil sep t)
      | cons first rest => rfl

theorem splitOn_cons_self (sep : Char) (t : Text) :
    splitOn sep (sep :: t) = [] :: splitOn sep t := splitOn_append sep [] t

theorem splitOn_of_not_mem (h : sep ∉ t) : splitOn sep t = [t] := by
  induction t with
  | nil => rfl
  | cons c t ih =>
    obtain ⟨hc, ht⟩ := not_or.mp (mt List.mem_cons.mpr h)
    rw [splitOn, if_neg (Ne.symm hc), ih ht]

/-- **What was glued is cut into its pieces again.** -/
theorem splitOn_join (hne : pieces ≠ []) (h : ∀ piece ∈ pieces, sep ∉ piece) :
    splitOn sep (join sep pieces) = pieces := by
  induction pieces with
  | nil => exact absurd rfl hne
  | cons piece rest ih =>
    obtain ⟨hpiece, hrest⟩ := List.forall_mem_cons.mp h
    by_cases hlast : rest = []
    · subst hlast
      exact splitOn_of_not_mem hpiece
    · rw [join_cons hlast, splitOn_append, splitOn_of_not_mem hpiece, ih hlast hrest]
      rfl

theorem not_mem_of_mem_splitOn (h : piece ∈ splitOn sep t) : sep ∉ piece := by
  induction t generalizing piece with
  | nil =>
    rw [splitOn, List.mem_singleton] at h
    simp [h]
  | cons c t ih =>
    rw [splitOn] at h
    split at h
    · rcases List.mem_cons.mp h with rfl | h
      · simp
      · exact ih h
    next hc =>
      cases hsplit : splitOn sep t with
      | nil => exact absurd hsplit (splitOn_ne_nil sep t)
      | cons first rest =>
        simp only [hsplit, List.mem_cons] at h ih
        rcases h with rfl | h
        · exact fun hmem => (List.mem_cons.mp hmem).elim (hc ·.symm) (ih (.inl rfl))
        · exact ih (.inr h)

/-- The first piece of a text is empty only if the text is, or starts with the separator. -/
theorem head_splitOn_ne_nil {first : Text} {rest : List Text} (hne : t ≠ [])
    (hhead : t.head? ≠ some sep) (h : splitOn sep t = first :: rest) : first ≠ [] := by
  cases t with
  | nil => exact absurd rfl hne
  | cons c t =>
    have hc : c ≠ sep := fun heq => hhead (congrArg some heq)
    rw [splitOn, if_neg hc] at h
    split at h <;> cases h <;> exact List.cons_ne_nil _ _

/-! ### What is left out -/

theorem join_sublist (h : List.Sublist pieces more) (sep : Char) :
    List.Sublist (join sep pieces) (join sep more) := by
  induction h with
  -- A separator is written between two pieces only, so the last piece has to be told apart.
  | slnil => exact List.Sublist.refl _
  | @cons pieces more piece h ih =>
    by_cases hlast : more = []
    · subst hlast
      rw [List.sublist_nil.mp h]
      exact List.nil_sublist _
    · rw [join_cons hlast]
      exact (ih.cons sep).trans (List.sublist_append_right _ _)
  | @cons_cons pieces more piece h ih =>
    by_cases hlast : more = []
    · subst hlast
      obtain rfl := List.sublist_nil.mp h
      exact List.Sublist.refl _
    · rw [join_cons hlast]
      by_cases hone : pieces = []
      · subst hone
        exact List.sublist_append_left _ _
      · rw [join_cons hone]
        exact (ih.cons_cons sep).append_left piece

theorem byteSize_le_of_sublist (h : List.Sublist t u) : t.byteSize ≤ u.byteSize := by
  unfold byteSize
  induction h with
  | slnil => exact Nat.le_refl _
  | cons c h ih => exact Nat.le_add_left_of_le ih
  | cons_cons c h ih => exact Nat.add_le_add_left ih _

/-- A text that no lookup turns down for itself: it does not hold the null character and is not too
long. -/
structure Passable (t : Text) : Prop where
  noNull : '\x00' ∉ t
  short : t.byteSize < 4096

theorem passable_dot : Passable ['.'] := ⟨by decide, by decide⟩

theorem Passable.of_sublist (hu : Passable u) (h : List.Sublist t u) : Passable t :=
  ⟨fun hnull => hu.noNull (h.subset hnull), Nat.lt_of_le_of_lt (byteSize_le_of_sublist h) hu.short⟩

end Text

namespace Path

variable {p q : Path} {root : Root} {names more : List Text} {t u : Text}

/-! ### The text of a path -/

/-- The slashes that a text starts with, as far as they make a root. -/
theorem rootOf_cases (t : Text) :
    (rootOf t = .relative ∧ t.head? ≠ some '/') ∨ (rootOf t = .single ∧ ∃ u, t = '/' :: u) ∨
      (rootOf t = .double ∧ ∃ u, t = '/' :: '/' :: u) := by
  unfold rootOf
  split
  · exact .inr (.inl ⟨rfl, _, rfl⟩)
  · exact .inr (.inr ⟨rfl, _, rfl⟩)
  · exact .inr (.inl ⟨rfl, _, rfl⟩)
  next hthree htwo hone =>
    refine .inl ⟨rfl, fun hhead => ?_⟩
    obtain ⟨u, rfl⟩ := List.head?_eq_some_iff.mp hhead
    exact hone u rfl

theorem toText_relative (h : names ≠ []) : toText ⟨.relative, names⟩ = Text.join '/' names := by
  cases names with
  | nil => exact absurd rfl h
  | cons name rest => rfl

theorem toText_single : toText ⟨.single, names⟩ = '/' :: Text.join '/' names := rfl

theorem toText_double : toText ⟨.double, names⟩ = '/' :: '/' :: Text.join '/' names := rfl

/-- Fewer names make a shorter text, but for the dot. -/
theorem toText_sublist (root : Root) (h : List.Sublist names more) :
    toText ⟨root, names⟩ = ['.'] ∨ List.Sublist (toText ⟨root, names⟩) (toText ⟨root, more⟩) := by
  have hjoin := Text.join_sublist h '/'
  cases root with
  | relative =>
    by_cases hnil : names = []
    · subst hnil
      exact .inl rfl
    · have hmore : more ≠ [] := by
        rintro rfl
        exact hnil (List.sublist_nil.mp h)
      rw [toText_relative hnil, toText_relative hmore]
      exact .inr hjoin
  | single => exact .inr (hjoin.cons_cons _)
  | double => exact .inr ((hjoin.cons_cons _).cons_cons _)

/-- A path has no longer text than those that are read as it, but for the dot. -/
theorem toText_ofText_sublist (t : Text) :
    (ofText t).toText = ['.'] ∨ List.Sublist (ofText t).toText t := by
  have hnames (u : Text) : List.Sublist (Text.join '/' ((Text.splitOn '/' u).filter isName)) u := by
    have hsub := Text.join_sublist (List.filter_sublist (p := isName) (l := Text.splitOn '/' u)) '/'
    rwa [Text.join_splitOn] at hsub
  unfold ofText
  rcases rootOf_cases t with ⟨hroot, -⟩ | ⟨hroot, u, rfl⟩ | ⟨hroot, u, rfl⟩
  · rw [hroot]
    by_cases hnil : (Text.splitOn '/' t).filter isName = []
    · rw [hnil]
      exact .inl rfl
    · rw [toText_relative hnil]
      exact .inr (hnames t)
  · rw [hroot]
    exact .inr ((hnames u).cons_cons _)
  · rw [hroot]
    exact .inr (((hnames u).cons_cons _).cons_cons _)

/-- The names of a path are names and have no slash in them. -/
def Proper (p : Path) : Prop := ∀ name ∈ p.names, isName name = true ∧ '/' ∉ name

theorem ofText_proper (t : Text) : (ofText t).Proper := by
  intro name hname
  obtain ⟨hpiece, hisName⟩ := List.mem_filter.mp hname
  exact ⟨hisName, Text.not_mem_of_mem_splitOn hpiece⟩

theorem Proper.append (hp : p.Proper) (hq : q.Proper) : (p.append q).Proper := by
  unfold Path.append
  split
  · exact hq
  · intro name hname
    exact (List.mem_append.mp hname).elim (hp name) (hq name)

theorem rootOf_of_head? (h : t.head? ≠ some '/') : rootOf t = .relative := by
  rcases rootOf_cases t with ⟨hroot, -⟩ | ⟨-, u, rfl⟩ | ⟨-, u, rfl⟩
  · exact hroot
  · exact absurd rfl h
  · exact absurd rfl h

theorem rootOf_slash (h : t.head? ≠ some '/') : rootOf ('/' :: t) = .single := by
  rcases rootOf_cases ('/' :: t) with ⟨-, hhead⟩ | ⟨hroot, -⟩ | ⟨-, u, heq⟩
  · exact absurd rfl hhead
  · exact hroot
  · cases heq
    exact absurd rfl h

theorem rootOf_slash_slash (h : t.head? ≠ some '/') : rootOf ('/' :: '/' :: t) = .double := by
  cases t with
  | nil => rfl
  | cons c t =>
    rw [rootOf]
    rintro u heq
    cases heq
    exact h rfl

/-- What is put behind a text does not change where its path starts, if it starts with no slash. -/
theorem rootOf_append (h : t.head? ≠ some '/') (u : Text) : rootOf (u ++ t) = rootOf u := by
  have hother {c : Char} (hc : c ≠ '/') (v : Text) : (c :: v).head? ≠ some '/' :=
    fun heq => hc (Option.some.inj heq)
  -- The first three characters tell, as long as they are slashes.
  match u with
  | [] => exact rootOf_of_head? h
  | c :: u =>
    by_cases hc : c ≠ '/'
    · exact (rootOf_of_head? (hother hc (u ++ t))).trans (rootOf_of_head? (hother hc u)).symm
    obtain rfl := Decidable.not_not.mp hc
    match u with
    | [] => exact rootOf_slash h
    | d :: u =>
      by_cases hd : d ≠ '/'
      · exact (rootOf_slash (hother hd (u ++ t))).trans (rootOf_slash (hother hd u)).symm
      obtain rfl := Decidable.not_not.mp hd
      match u with
      | [] => exact rootOf_slash_slash h
      | e :: u =>
        by_cases he : e = '/'
        · subst he
          rfl
        · exact (rootOf_slash_slash (hother he (u ++ t))).trans
            (rootOf_slash_slash (hother he u)).symm

theorem Proper.head?_join (h : Proper ⟨root, names⟩) : (Text.join '/' names).head? ≠ some '/' := by
  cases names with
  | nil => nofun
  | cons name rest =>
    obtain ⟨hname, hslash⟩ := h name List.mem_cons_self
    cases name with
    | nil => cases hname
    | cons c name =>
      -- The text starts with the first character of the first name.
      have hhead : (Text.join '/' ((c :: name) :: rest)).head? = some c := by
        cases rest <;> rfl
      rw [hhead]
      rintro ⟨⟩
      exact hslash List.mem_cons_self

theorem Proper.filter_splitOn_join (h : Proper ⟨root, names⟩) :
    (Text.splitOn '/' (Text.join '/' names)).filter isName = names := by
  by_cases hnil : names = []
  · subst hnil
    rfl
  · rw [Text.splitOn_join hnil fun name hname => (h name hname).2]
    exact List.filter_eq_self.mpr fun name hname => (h name hname).1

/-- **The text of a path is read as the path.** -/
theorem ofText_toText (h : p.Proper) : ofText p.toText = p := by
  obtain ⟨root, names⟩ := p
  have hhead := h.head?_join
  have hnames := h.filter_splitOn_join
  -- The root is told from the slashes in front, and no name of a proper path has one in it.
  cases root with
  | relative =>
    by_cases hnil : names = []
    · subst hnil
      rfl
    · rw [toText_relative hnil, ofText, rootOf_of_head? hhead, hnames]
  | single =>
    rw [toText_single, ofText, rootOf_slash hhead, Text.splitOn_cons_self]
    exact congrArg _ hnames
  | double =>
    rw [toText_double, ofText, rootOf_slash_slash hhead, Text.splitOn_cons_self,
      Text.splitOn_cons_self]
    exact congrArg _ hnames

end Path

/-! ### Looking up the text of a path -/

namespace FileTree

variable {files : FileTree} {purpose : Purpose} {links : Nat} {here next stop : Location}
  {component : Text} {rest : List Text} {step : Stride}

theorem walk_of_arrive (h : files.stride here component = .ok (.arrive next)) :
    files.walk purpose links here (component :: rest) = files.walk purpose links next rest := by
  cases links <;> simp only [walk, walkWith, h]

theorem stride_of_walk (h : files.walk purpose links here (component :: rest) = .ok stop) :
    ∃ step, files.stride here component = .ok step := by
  cases hstride : files.stride here component with
  | ok step => exact ⟨step, rfl⟩
  | error fault => cases links <;> simp only [walk, walkWith, hstride] at h <;> cases h

/-- What each kind of component does to a walk. -/
theorem stride_eq_ok (h : files.stride here component = .ok step) :
    ∃ access, files.at? here = some (.directory access) ∧
      ((component = [] ∧ step = .arrive here) ∨
        (access.searches = true ∧
          ((component = ['.'] ∧ step = .arrive here) ∨
            (component = ['.', '.'] ∧ step = .arrive here.tail) ∨
            (Path.isName component = true ∧ component ≠ ['.', '.'] ∧
              (step = .arrive (component :: here) ∨ step = .vacant (component :: here) ∨
                ∃ target, files.at? (component :: here) = some (.link target) ∧
                  step = .follow target))))) := by
  unfold stride at h
  split at h
  case h_1 => cases h
  case h_3 => cases h
  case h_2 access hat =>
  refine ⟨access, hat, ?_⟩
  -- The guards of a stride in their order: an empty component asks for nothing, then comes the
  -- right to search, then the length of the name.
  by_cases hempty : component = []
  · rw [if_pos hempty] at h
    cases h
    exact .inl ⟨hempty, rfl⟩
  rw [if_neg hempty] at h
  by_cases hclosed : (!access.searches) = true
  · rw [if_pos hclosed] at h
    cases h
  rw [if_neg hclosed] at h
  refine .inr ⟨by simpa using hclosed, ?_⟩
  split at h
  · cases h
  by_cases hdot : component = ['.']
  · rw [if_pos hdot] at h
    cases h
    exact .inl ⟨hdot, rfl⟩
  rw [if_neg hdot] at h
  by_cases hdots : component = ['.', '.']
  · rw [if_pos hdots] at h
    cases h
    exact .inr (.inl ⟨hdots, rfl⟩)
  rw [if_neg hdots] at h
  refine .inr (.inr ⟨by simp [Path.isName, hempty, hdot], hdots, ?_⟩)
  repeat' split at h
  all_goals cases h
  · exact .inr (.inl rfl)
  next target hlink _ => exact .inr (.inr ⟨target, hlink, rfl⟩)
  · exact .inl rfl

theorem stride_still (hcomponent : Path.isName component = false)
    (h : files.stride here component = .ok step) : step = .arrive here := by
  obtain ⟨access, -, ⟨-, rfl⟩ | ⟨-, ⟨-, rfl⟩ | ⟨rfl, -⟩ | ⟨hname, -, -⟩⟩⟩ := stride_eq_ok h
  · rfl
  · rfl
  · cases hcomponent
  · rw [hcomponent] at hname
    cases hname

/-- A component that is no name leaves the walk where it is. -/
theorem walk_still (hcomponent : Path.isName component = false) :
    files.walk purpose links here (component :: rest) = .ok stop ↔
      files.stride here component = .ok (.arrive here) ∧
        files.walk purpose links here rest = .ok stop := by
  constructor
  · intro h
    obtain ⟨step, hstride⟩ := stride_of_walk h
    obtain rfl := stride_still hcomponent hstride
    exact ⟨hstride, by rwa [walk_of_arrive hstride] at h⟩
  · rintro ⟨hstride, h⟩
    rwa [walk_of_arrive hstride]

/-- Where a walk can take a name it can stay. -/
theorem stay_of_stride (hcomponent : Path.isName component = true)
    (h : files.stride here component = .ok step) :
    files.stride here [] = .ok (.arrive here) ∧ files.stride here ['.'] = .ok (.arrive here) := by
  obtain ⟨access, hat, ⟨rfl, -⟩ | ⟨hfree, -⟩⟩ := stride_eq_ok h
  · cases hcomponent
  · have hshort : ¬ 255 < Text.byteSize ['.'] := by decide
    constructor <;> simp [stride, hat, hfree, hshort]

end FileTree

namespace Path

/-- The component by which a path asks for the directory it starts at. -/
def standing : Root → Text
  | .relative => ['.']
  | _ => []

variable {p : Path} {files : FileTree} {purpose : Purpose} {links : Nat} {here stop : Location}

/-- Walking along the text of a path is standing where it starts and walking along its names. -/
theorem walk_toText (h : p.Proper) :
    files.walk purpose links here (Text.splitOn '/' p.toText) = .ok stop ↔
      files.stride here (standing p.root) = .ok (.arrive here) ∧
        files.walk purpose links here p.names = .ok stop := by
  obtain ⟨root, names⟩ := p
  -- Behind a root there are the names or, if there are none, the empty component of its last slash.
  have hbehind : files.walk purpose links here ([] :: Text.splitOn '/' (Text.join '/' names)) =
      .ok stop ↔ files.stride here [] = .ok (.arrive here) ∧
        files.walk purpose links here names = .ok stop := by
    by_cases hnil : names = []
    · subst hnil
      simp only [Text.join_nil, Text.splitOn,
        FileTree.walk_still (show isName [] = false from rfl), and_self_left]
    · rw [FileTree.walk_still rfl, Text.splitOn_join hnil fun name hname => (h name hname).2]
  cases root with
  | relative =>
    cases names with
    | nil => exact FileTree.walk_still rfl
    | cons name rest =>
      have hcut := Text.splitOn_join (List.cons_ne_nil name rest) fun name hname => (h name hname).2
      rw [toText_relative (List.cons_ne_nil name rest), hcut]
      refine ⟨fun hwalk => ⟨?_, hwalk⟩, And.right⟩
      obtain ⟨step, hstride⟩ := FileTree.stride_of_walk hwalk
      exact (FileTree.stay_of_stride (h name List.mem_cons_self).1 hstride).2
  | single =>
    rw [toText_single, Text.splitOn_cons_self]
    exact hbehind
  | double =>
    rw [toText_double, Text.splitOn_cons_self, Text.splitOn_cons_self]
    refine (FileTree.walk_still rfl).trans ((and_congr_right fun _ => hbehind).trans ?_)
    exact and_self_left

end Path

namespace World

variable {w : World} {p : Path} {place : Location}

/-- Where the names of a path are walked along from. -/
def base (w : World) (root : Root) : Except PathFault Location :=
  if root = .relative then w.start else .ok []

theorem origin_eq_base (w : World) (t : Text) : w.origin t = w.base (Path.ofText t).root := by
  rw [origin, base, Path.ofText]
  rcases Path.rootOf_cases t with ⟨hroot, hhead⟩ | ⟨hroot, u, rfl⟩ | ⟨hroot, u, rfl⟩
  · rw [if_neg hhead, hroot, if_pos rfl]
  · rw [hroot]
    rfl
  · rw [hroot]
    rfl

/-- A path leads to a location, whatever the length of its text: the walk can stand where the path
starts, and along its names it comes to the location. -/
def Reaches (w : World) (p : Path) (place : Location) : Prop :=
  ∃ here, w.base p.root = .ok here ∧
    w.files.stride here (Path.standing p.root) = .ok (.arrive here) ∧
    w.files.walk .find linkLimit here p.names = .ok place

/-- **Looking up the text of a path** finds what the path leads to, unless the text is turned down
for itself. -/
theorem locate_toText_iff (h : p.Proper) :
    w.locate p.toText = .ok place ↔ p.toText.Passable ∧ w.Reaches p place := by
  have hne : p.toText ≠ [] := by
    intro hnil
    have hdot := Path.ofText_toText h
    rw [hnil] at hdot
    rw [← hdot] at hnil
    cases hnil
  rw [locate, locateFor_eq_ok_iff, origin_eq_base, Path.ofText_toText h]
  simp only [Path.walk_toText h, Reaches]
  constructor
  · rintro ⟨hnull, -, hshort, hreaches⟩
    exact ⟨⟨hnull, hshort⟩, hreaches⟩
  · rintro ⟨⟨hnull, hshort⟩, hreaches⟩
    exact ⟨hnull, hne, hshort, hreaches⟩

end World

end Typeahead
