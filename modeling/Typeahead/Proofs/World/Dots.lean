import Typeahead.Proofs.World.Spelling

/-!
# Two dots in a tree without links

A walk goes up at `..`, and normalising a path takes the name before it back.  Where there are no
links, what lies above a location is what stands before its name, and both come to the same as long
as there is a name to be taken back.  The first name of a relative path is never taken back, nor is
the directory left that the path is seen from.  From the first `..` where that happens on, the path
is walked nearer to the root than its normalised form, and they never meet again.

## Main definitions

* `FileTree.LinkFree` — a tree without links.
* `FileTree.Trodden` — names that a walk has come down by.
* `World.Retraces` — normalising a path follows each of its `..`.

## Main results

* `World.locate_ofText` — a text leads where the path leads that it is read as.
* `FileTree.trodden_walk`, `FileTree.length_lt_of_not_retraced` — what a walk and the names that are
  left by normalising have to do with each other, when each `..` is followed and when one is not.
* `World.reaches_normalize_iff`, `World.locate_normalize_iff` — **a normalised path leads where the
  path did exactly if normalising follows each `..`.**
-/

namespace Typeahead

namespace Path

variable {root : Root} {stack names before after rest : List Text} {component : Text}
  {base : Location} {p : Path}

/-! ### The names that are left -/

theorem push_name (h : component ≠ ['.', '.']) : push root stack component = component :: stack :=
  if_neg h

theorem push_dots_of_absolute (h : root ≠ .relative) : push root stack ['.', '.'] = stack.tail := by
  cases root with
  | relative => exact absurd rfl h
  | single => rfl
  | double => rfl

theorem push_dots_relative :
    push .relative stack ['.', '.'] = if 2 ≤ stack.length then stack.tail else stack := by
  match stack with
  | [] => rfl
  | [name] => rfl
  | last :: name :: stack => exact (if_pos (Nat.le_add_left 2 stack.length)).symm

/-- At `..` the last name is taken back or nothing happens. -/
theorem push_dots_cases (root : Root) (stack : List Text) :
    push root stack ['.', '.'] = stack.tail ∨ push root stack ['.', '.'] = stack := by
  by_cases hroot : root = .relative
  · subst hroot
    rw [push_dots_relative]
    split
    · exact .inl rfl
    · exact .inr rfl
  · exact .inl (push_dots_of_absolute hroot)

theorem push_sublist (root : Root) (stack : List Text) (component : Text) :
    List.Sublist (push root stack component) (component :: stack) := by
  by_cases hdots : component = ['.', '.']
  · subst hdots
    rcases push_dots_cases root stack with heq | heq <;> rw [heq]
    · exact (List.tail_sublist stack).cons _
    · exact List.sublist_cons_self _ _
  · have heq : push root stack component = component :: stack := push_name hdots
    exact heq ▸ List.Sublist.refl _

theorem foldl_push_sublist (root : Root) (names stack : List Text) :
    List.Sublist (names.foldl (push root) stack) (names.reverse ++ stack) := by
  induction names generalizing stack with
  | nil => exact List.Sublist.refl _
  | cons name rest ih =>
    rw [List.foldl_cons, List.reverse_cons, List.append_assoc]
    exact (ih _).trans ((push_sublist root stack name).append_left _)

/-- Normalising only takes names out. -/
theorem names_normalize_sublist (p : Path) : List.Sublist p.normalize.names p.names := by
  have h := (foldl_push_sublist p.root p.names []).reverse
  rwa [List.append_nil, List.reverse_reverse] at h

theorem Proper.normalize (h : p.Proper) : p.normalize.Proper :=
  fun name hname => h name ((names_normalize_sublist p).subset hname)

theorem foldl_push_ne_dots (h : ∀ name ∈ stack, name ≠ ['.', '.']) :
    ∀ name ∈ names.foldl (push root) stack, name ≠ ['.', '.'] := by
  induction names generalizing stack with
  | nil => exact h
  | cons component rest ih =>
    refine ih fun name hname => ?_
    by_cases hdots : component = ['.', '.']
    · subst hdots
      rcases push_dots_cases root stack with heq | heq <;> rw [heq] at hname
      · exact h name (List.mem_of_mem_tail hname)
      · exact h name hname
    · rw [push_name hdots] at hname
      exact (List.mem_cons.mp hname).elim (fun heq => heq ▸ hdots) (h name)

/-- What is left of a path has no `..` in it. -/
theorem normalize_ne_dots (p : Path) : ∀ name ∈ p.normalize.names, name ≠ ['.', '.'] :=
  fun name hname => foldl_push_ne_dots (List.forall_mem_nil _) name (List.mem_reverse.mp hname)

/-! ### Two dots that are followed -/

/-- Taking the last name back is going up, behind these names and seen from this location. -/
def Follows (root : Root) (base : Location) (stack : List Text) : Prop :=
  push root stack ['.', '.'] ++ base = (stack ++ base).tail

theorem follows_of_absolute (h : root ≠ .relative) : Follows root [] stack := by
  rw [Follows, push_dots_of_absolute h, List.append_nil, List.append_nil]

/-- In a relative path there must be two names, or none and nothing to go up to. -/
theorem follows_relative_iff :
    Follows .relative base stack ↔ 2 ≤ stack.length ∨ stack = [] ∧ base = [] := by
  unfold Follows
  match stack with
  | [] => cases base <;> simp [push]
  | [name] => simp [push]
  | last :: name :: stack => simp [push]

/-- Each `..` among the names is followed. -/
def Retraced (root : Root) (base : Location) (stack names : List Text) : Prop :=
  ∀ before after, names = before ++ ['.', '.'] :: after →
    Follows root base (before.foldl (push root) stack)

theorem retraced_of_absolute (h : root ≠ .relative) : Retraced root [] stack names :=
  fun _ _ _ => follows_of_absolute h

theorem retraced_nil : Retraced root base stack [] := by
  intro before after h
  simp at h

theorem retraced_cons_iff : Retraced root base stack (component :: rest) ↔
    (component = ['.', '.'] → Follows root base stack) ∧
      Retraced root base (push root stack component) rest := by
  constructor
  · intro h
    refine ⟨fun hdots => ?_, fun before after heq => ?_⟩
    · exact h [] rest (by rw [hdots, List.nil_append])
    · exact h (component :: before) after (by rw [heq, List.cons_append])
  · rintro ⟨hfirst, hrest⟩ before after heq
    cases before with
    | nil =>
      rw [List.nil_append, List.cons.injEq] at heq
      exact hfirst heq.1
    | cons first before =>
      rw [List.cons_append, List.cons.injEq] at heq
      obtain ⟨rfl, heq⟩ := heq
      exact hrest before after heq

end Path

namespace FileTree

variable {files : FileTree} {links : Nat} {here next stop base : Location} {component : Text}
  {names rest first second stack : List Text} {root : Root} {step : Stride}

/-! ### Walks without links -/

theorem mem_of_lookup {entries : List (Location × Entry)} {entry : Entry}
    (h : lookup here entries = some entry) : (here, entry) ∈ entries := by
  induction entries with
  | nil => cases h
  | cons head entries ih =>
    simp only [lookup] at h
    split at h
    next hplace =>
      cases h
      rw [← hplace]
      exact List.mem_cons_self
    next => exact List.mem_cons_of_mem _ (ih h)

/-- A tree without links. -/
def LinkFree (files : FileTree) : Prop := ∀ place target, files.at? place ≠ some (.link target)

/-- A tree none of whose entries is a link. -/
theorem linkFree_of_entries (h : ∀ entry ∈ files.entries, ∀ target, entry.2 ≠ .link target) :
    files.LinkFree := by
  intro place target hat
  unfold at? at hat
  split at hat
  next entry hlookup =>
    cases hat
    exact h _ (mem_of_lookup hlookup) target rfl
  next => split at hat <;> cases hat

theorem walk_cons_iff (hfree : files.LinkFree) :
    files.walk .find links here (component :: rest) = .ok stop ↔
      ∃ next, files.stride here component = .ok (.arrive next) ∧
        files.walk .find links next rest = .ok stop := by
  constructor
  · intro h
    obtain ⟨step, hstride⟩ := stride_of_walk h
    cases step with
    | arrive next => exact ⟨next, hstride, by rwa [walk_of_arrive hstride] at h⟩
    | vacant place => cases links <;> simp [walk, walkWith, hstride] at h
    | follow target =>
      obtain ⟨-, heq | heq | ⟨_, -, -, heq⟩ | ⟨-, heq⟩ | ⟨target, hlink, -⟩⟩ := stride_cases hstride
      case inr.inr.inr.inr => exact absurd hlink (hfree _ _)
      all_goals cases heq
  · rintro ⟨next, hstride, h⟩
    rwa [walk_of_arrive hstride]

theorem walk_append_iff (hfree : files.LinkFree) :
    files.walk .find links here (first ++ second) = .ok stop ↔
      ∃ mid, files.walk .find links here first = .ok mid ∧
        files.walk .find links mid second = .ok stop := by
  -- Without links no step starts over, so that a walk can be cut anywhere.
  induction first generalizing here with
  | nil =>
    have hnil : files.walk .find links here [] = .ok here := by cases links <;> rfl
    simp [hnil]
  | cons component first ih =>
    simp only [List.cons_append, walk_cons_iff hfree, ih]
    constructor
    · rintro ⟨next, hstride, mid, hfirst, hsecond⟩
      exact ⟨mid, ⟨next, hstride, hfirst⟩, hsecond⟩
    · rintro ⟨mid, ⟨next, hstride, hfirst⟩, hsecond⟩
      exact ⟨next, hstride, mid, hfirst, hsecond⟩

/-- A walk comes as far along the names among its components. -/
theorem walk_filter (hfree : files.LinkFree)
    (h : files.walk .find links here names = .ok stop) :
    files.walk .find links here (names.filter Path.isName) = .ok stop := by
  induction names generalizing here with
  | nil => exact h
  | cons component rest ih =>
    cases hname : Path.isName component with
    | false =>
      rw [List.filter_cons_of_neg (by simp [hname])]
      exact ih ((walk_still hname).mp h).2
    | true =>
      rw [List.filter_cons_of_pos hname]
      obtain ⟨next, hstride, hrest⟩ := (walk_cons_iff hfree).mp h
      exact (walk_cons_iff hfree).mpr ⟨next, hstride, ih hrest⟩

theorem arrive_of_name (hname : Path.isName component = true) (hdots : component ≠ ['.', '.'])
    (h : files.stride here component = .ok (.arrive next)) : next = component :: here := by
  obtain ⟨access, -, ⟨rfl, -⟩ | ⟨-, ⟨rfl, -⟩ | ⟨rfl, -⟩ | ⟨-, -, heq | heq | ⟨_, -, heq⟩⟩⟩⟩ :=
    stride_eq_ok h
  · cases hname
  · cases hname
  · exact absurd rfl hdots
  · cases heq
    rfl
  · cases heq
  · cases heq

theorem arrive_of_dots (h : files.stride here ['.', '.'] = .ok (.arrive next)) :
    next = here.tail := by
  obtain ⟨access, -, ⟨heq, -⟩ | ⟨-, ⟨heq, -⟩ | ⟨-, heq⟩ | ⟨-, hdots, -⟩⟩⟩ := stride_eq_ok h
  · cases heq
  · cases heq
  · cases heq
    rfl
  · exact absurd rfl hdots

/-- Along names without `..` a walk comes down by each of them. -/
theorem eq_of_walk (hfree : files.LinkFree)
    (hnames : ∀ name ∈ names, Path.isName name = true ∧ name ≠ ['.', '.'])
    (h : files.walk .find links here names = .ok stop) : stop = names.reverse ++ here := by
  induction names generalizing here with
  | nil =>
    cases links <;> cases h <;> rfl
  | cons name rest ih =>
    obtain ⟨⟨hname, hdots⟩, hrest⟩ := List.forall_mem_cons.mp hnames
    obtain ⟨next, hstride, hwalk⟩ := (walk_cons_iff hfree).mp h
    rw [ih hrest hwalk, arrive_of_name hname hdots hstride, List.reverse_cons, List.append_assoc,
      List.singleton_append]

/-! ### Where each `..` is followed -/

/-- Names, the last one first, that a walk has come down by from a location. -/
inductive Trodden (files : FileTree) (base : Location) : List Text → Prop
  | nil : Trodden files base []
  | cons {name : Text} {stack : List Text} (h : Trodden files base stack)
      (hstride : files.stride (stack ++ base) name = .ok (.arrive (name :: (stack ++ base)))) :
      Trodden files base (name :: stack)

theorem Trodden.tail (h : files.Trodden base stack) : files.Trodden base stack.tail := by
  cases h with
  | nil => exact .nil
  | cons h hstride => exact h

/-- Trodden names can be walked again. -/
theorem Trodden.walk_reverse (hfree : files.LinkFree) (h : files.Trodden base stack) :
    files.walk .find links base stack.reverse = .ok (stack ++ base) := by
  induction h with
  | nil => cases links <;> rfl
  | @cons name stack h hstride ih =>
    rw [List.reverse_cons, walk_append_iff hfree]
    refine ⟨_, ih, ?_⟩
    rw [walk_of_arrive hstride]
    cases links <;> rfl

/-- One component of a walk, if it is followed should it be `..`. -/
theorem arrive_eq_push (hname : Path.isName component = true)
    (hfollows : component = ['.', '.'] → Path.Follows root base stack)
    (h : files.stride (stack ++ base) component = .ok (.arrive next)) :
    next = Path.push root stack component ++ base := by
  by_cases hdots : component = ['.', '.']
  · subst hdots
    rw [arrive_of_dots h, hfollows rfl]
  · rw [arrive_of_name hname hdots h, Path.push_name hdots, List.cons_append]

theorem Trodden.push (h : files.Trodden base stack) (hname : Path.isName component = true)
    (hstride : files.stride (stack ++ base) component = .ok (.arrive next)) :
    files.Trodden base (Path.push root stack component) := by
  by_cases hdots : component = ['.', '.']
  · subst hdots
    rcases Path.push_dots_cases root stack with heq | heq <;> rw [heq]
    · exact h.tail
    · exact h
  · rw [Path.push_name hdots]
    refine .cons h ?_
    rwa [arrive_of_name hname hdots hstride] at hstride

/-- **A walk that goes up where normalising takes a name back** ends where the names lead that are
left, and has come down by them. -/
theorem trodden_walk (hfree : files.LinkFree) (hstack : files.Trodden base stack)
    (hnames : ∀ name ∈ names, Path.isName name = true)
    (hretraced : Path.Retraced root base stack names)
    (h : files.walk .find links (stack ++ base) names = .ok stop) :
    stop = names.foldl (Path.push root) stack ++ base ∧
      files.Trodden base (names.foldl (Path.push root) stack) := by
  -- By induction on the components, with the names gone down so far as a stack.
  induction names generalizing stack with
  | nil => cases links <;> cases h <;> exact ⟨rfl, hstack⟩
  | cons component rest ih =>
    obtain ⟨hname, hrest⟩ := List.forall_mem_cons.mp hnames
    obtain ⟨hfollows, hretraced⟩ := Path.retraced_cons_iff.mp hretraced
    obtain ⟨next, hstride, hwalk⟩ := (walk_cons_iff hfree).mp h
    obtain rfl := arrive_eq_push hname hfollows hstride
    exact ih (hstack.push hname hstride) hrest hretraced hwalk

/-! ### Where one is not followed -/

/-- Nearer to the root a walk stays nearer to the root: one component. -/
theorem length_lt_push (hname : Path.isName component = true)
    (hlt : here.length < (stack ++ base).length)
    (h : files.stride here component = .ok (.arrive next)) :
    next.length < (Path.push .relative stack component ++ base).length := by
  by_cases hdots : component = ['.', '.']
  · subst hdots
    rw [arrive_of_dots h, Path.push_dots_relative, List.length_tail]
    simp only [List.length_append] at hlt ⊢
    split
    · rw [List.length_tail]
      omega
    · omega
  · rw [arrive_of_name hname hdots h, Path.push_name hdots]
    simp only [List.cons_append, List.length_cons]
    omega

theorem length_lt_walk (hfree : files.LinkFree) (hnames : ∀ name ∈ names, Path.isName name = true)
    (hlt : here.length < (stack ++ base).length)
    (h : files.walk .find links here names = .ok stop) :
    stop.length < (names.foldl (Path.push .relative) stack ++ base).length := by
  induction names generalizing here stack with
  | nil => cases links <;> cases h <;> exact hlt
  | cons component rest ih =>
    obtain ⟨hname, hrest⟩ := List.forall_mem_cons.mp hnames
    obtain ⟨next, hstride, hwalk⟩ := (walk_cons_iff hfree).mp h
    exact ih hrest (length_lt_push hname hlt hstride) hwalk

/-- **A walk that goes up where normalising takes nothing back** ends nearer to the root than the
names lead that are left. -/
theorem length_lt_of_not_retraced (hfree : files.LinkFree)
    (hnames : ∀ name ∈ names, Path.isName name = true)
    (hretraced : ¬ Path.Retraced .relative base stack names)
    (h : files.walk .find links (stack ++ base) names = .ok stop) :
    stop.length < (names.foldl (Path.push .relative) stack ++ base).length := by
  induction names generalizing stack with
  | nil => exact absurd Path.retraced_nil hretraced
  | cons component rest ih =>
    obtain ⟨hname, hrest⟩ := List.forall_mem_cons.mp hnames
    obtain ⟨next, hstride, hwalk⟩ := (walk_cons_iff hfree).mp h
    by_cases hfollows : component = ['.', '.'] → Path.Follows .relative base stack
    · obtain rfl := arrive_eq_push hname hfollows hstride
      exact ih hrest (fun h => hretraced (Path.retraced_cons_iff.mpr ⟨hfollows, h⟩)) hwalk
    · -- Here the walk goes up and the names stay what they are.
      obtain ⟨rfl, hnot⟩ := Classical.not_imp.mp hfollows
      rw [Path.follows_relative_iff] at hnot
      have hkept : Path.push .relative stack ['.', '.'] = stack := by
        rw [Path.push_dots_relative, if_neg fun hle => hnot (.inl hle)]
      have hne : stack ++ base ≠ [] := fun hnil => hnot (.inr (List.append_eq_nil_iff.mp hnil))
      rw [List.foldl_cons, hkept]
      refine length_lt_walk hfree hrest ?_ hwalk
      rw [arrive_of_dots hstride, List.length_tail]
      exact Nat.sub_one_lt (mt List.eq_nil_of_length_eq_zero hne)

end FileTree

namespace World

open FileTree

variable {w : World} {p : Path} {t : Text} {place : Location}

/-- Who can walk along a text can stand where the path starts that it is read as. -/
theorem stand_of_walk {here : Location} (hfree : w.files.LinkFree) (hne : t ≠ [])
    (h : w.files.walk .find linkLimit here (Text.splitOn '/' t) = .ok place) :
    w.files.stride here (Path.standing (Path.rootOf t)) = .ok (.arrive here) := by
  -- The three kinds of a root: none, one slash and two.
  rcases Path.rootOf_cases t with ⟨hroot, hhead⟩ | ⟨hroot, u, rfl⟩ | ⟨hroot, u, rfl⟩
  · -- The first component is not empty; it is a dot, or a name is looked up where the walk starts.
    rw [hroot]
    obtain ⟨component, rest, hsplit⟩ := List.exists_cons_of_ne_nil (Text.splitOn_ne_nil '/' t)
    rw [hsplit] at h
    cases hname : Path.isName component with
    | true =>
      obtain ⟨next, hstride, -⟩ := (walk_cons_iff hfree).mp h
      exact (stay_of_stride hname hstride).2
    | false =>
      have hempty : component ≠ [] := Text.head_splitOn_ne_nil hne hhead hsplit
      have hdot : component = ['.'] := by simpa [Path.isName, hempty] using hname
      rw [hdot] at h
      exact ((walk_still rfl).mp h).1
  all_goals
    rw [Text.splitOn_cons_self] at h
    rw [hroot]
    exact ((walk_still rfl).mp h).1

/-- A text leads where the path leads that it is read as. -/
theorem reaches_ofText (hfree : w.files.LinkFree) (h : w.locate t = .ok place) :
    w.Reaches (Path.ofText t) place := by
  obtain ⟨-, hne, -, here, horigin, hwalk⟩ := locateFor_eq_ok_iff.mp h
  rw [origin_eq_base] at horigin
  exact ⟨here, horigin, stand_of_walk hfree hne hwalk, walk_filter hfree hwalk⟩

/-- A text leads where the text of the path leads that it is read as. -/
theorem locate_ofText (hfree : w.files.LinkFree) (h : w.locate t = .ok place) :
    w.locate (Path.ofText t).toText = .ok place := by
  obtain ⟨hnull, -, hshort, -⟩ := locateFor_eq_ok_iff.mp h
  refine (locate_toText_iff (Path.ofText_proper t)).mpr ⟨?_, reaches_ofText hfree h⟩
  rcases Path.toText_ofText_sublist t with hdot | hshorter
  · exact hdot ▸ Text.passable_dot
  · exact Text.Passable.of_sublist ⟨hnull, hshort⟩ hshorter

/-- Normalising a path follows each of its `..`: the path is absolute, or in front of the `..` there
are two names, of which one is taken back, or there is none and the path is seen from the root,
above which there is nothing. -/
def Retraces (w : World) (p : Path) : Prop :=
  p.isAbsolute = true ∨ ∀ before after, p.names = before ++ ['.', '.'] :: after →
    let left := (Path.normalize ⟨.relative, before⟩).names
    2 ≤ left.length ∨ left = [] ∧ w.start = .ok []

theorem base_of_absolute {root : Root} {here : Location} (h : root ≠ .relative)
    (hbase : w.base root = .ok here) : here = [] := by
  rw [base, if_neg h] at hbase
  cases hbase
  rfl

theorem retraces_iff {here : Location} (hbase : w.base p.root = .ok here) :
    w.Retraces p ↔ Path.Retraced p.root here [] p.names := by
  obtain ⟨root, names⟩ := p
  by_cases hroot : root = .relative
  · subst hroot
    have hstart : w.start = .ok here := hbase
    simp only [Retraces, Path.Retraced, Path.isAbsolute, Path.normalize, Path.follows_relative_iff,
      hstart, List.length_reverse, List.reverse_eq_nil_iff, Except.ok.injEq]
    simp
  · obtain rfl := base_of_absolute hroot hbase
    exact iff_of_true (.inl (decide_eq_true hroot)) (Path.retraced_of_absolute hroot)

/-- **A normalised path leads where the path did exactly if normalising follows each `..`.** -/
theorem reaches_normalize_iff (hfree : w.files.LinkFree) (hp : p.Proper)
    (h : w.Reaches p place) : w.Reaches p.normalize place ↔ w.Retraces p := by
  obtain ⟨here, hbase, hstand, hwalk⟩ := h
  have hnames : ∀ name ∈ p.names, Path.isName name = true := fun name hname => (hp name hname).1
  rw [retraces_iff hbase]
  constructor
  -- If both reach the place, the names that are left of the path lead to it, and there are more of
  -- them than the place is deep unless every `..` could be retraced.
  · rintro ⟨here', hbase', -, hwalk'⟩
    have hsame : here' = here := by
      rw [show p.normalize.root = p.root from rfl, hbase] at hbase'
      cases hbase'
      rfl
    subst hsame
    refine Classical.byContradiction fun hnot => ?_
    have hroot : p.root = .relative := Classical.byContradiction fun hroot => by
      obtain rfl := base_of_absolute hroot hbase
      exact hnot (Path.retraced_of_absolute hroot)
    have hlt := length_lt_of_not_retraced hfree hnames (hroot ▸ hnot) hwalk
    have hleft := eq_of_walk hfree (fun name hname => ⟨(hp.normalize name hname).1,
      p.normalize_ne_dots name hname⟩) hwalk'
    rw [Path.normalize, List.reverse_reverse, hroot] at hleft
    exact absurd (congrArg List.length hleft) (Nat.ne_of_lt hlt)
  · intro hretraced
    obtain ⟨rfl, htrodden⟩ := trodden_walk hfree .nil hnames hretraced hwalk
    exact ⟨here, hbase, hstand, htrodden.walk_reverse hfree⟩

/-- The same of looking up the texts of the two paths. -/
theorem locate_normalize_iff (hfree : w.files.LinkFree) (hp : p.Proper)
    (h : w.locate p.toText = .ok place) :
    w.locate p.normalize.toText = .ok place ↔ w.Retraces p := by
  obtain ⟨hpassable, hreaches⟩ := (locate_toText_iff hp).mp h
  rw [locate_toText_iff hp.normalize, reaches_normalize_iff hfree hp hreaches]
  refine and_iff_right ?_
  rcases Path.toText_sublist p.root p.names_normalize_sublist with hdot | hshorter
  · exact hdot ▸ Text.passable_dot
  · exact hpassable.of_sublist hshorter

end World

end Typeahead
