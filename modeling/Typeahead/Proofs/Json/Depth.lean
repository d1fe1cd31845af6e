import Typeahead.Json.Spelling
import Typeahead.Proofs.Json.RoundTrip

/-!
# How deep values lie

Values lie inside each other only so deep, both where they are read and where they are spelled out.
A text is given up as too deep at a bracket or brace that opens a list or an object with as many
open around it as are allowed; so of what has been read nothing lies deeper.  A value is given up as
too deep when there is no room left for one inside it; so whatever has been read can be spelled out
with one more room than there may be lists and objects open.

## Main definitions

* `Json.Within` — a value with at most so many values inside each other.
* `Reader.Shallow` — what has been read so far leaves room for what is still open around it.

## Main results

* `Json.Within.obstacle?_ne` — where there is room enough, depth does not stand in the way.
* `Json.within_of_read` — **no value that is read from a text lies deeper than is allowed.**
* `Json.read_brackets` — one opening bracket more than are allowed is too deep.
-/

namespace Typeahead

namespace Json

/-- At most `room` values lie inside each other, the whole among them. -/
inductive Within : Nat → Json → Prop
  | null {room : Nat} : Within (room + 1) .null
  | bool {room : Nat} (b : Bool) : Within (room + 1) (.bool b)
  | int {room : Nat} (n : Int) : Within (room + 1) (.int n)
  | float {room : Nat} (x : Binary64) : Within (room + 1) (.float x)
  | text {room : Nat} (t : Text) : Within (room + 1) (.text t)
  | list {room : Nat} {items : List Json} (inside : ∀ v ∈ items, Within room v) :
      Within (room + 1) (.list items)
  | object {room : Nat} {members : List (Text × Json)}
      (inside : ∀ member ∈ members, Within room member.2) : Within (room + 1) (.object members)

namespace Within

variable {room room' : Nat} {v : Json}

theorem mono (h : Within room v) (hle : room ≤ room') : Within room' v := by
  induction h generalizing room' with
  | list _ ih =>
    obtain ⟨more, rfl⟩ := Nat.exists_eq_add_of_lt hle
    exact .list fun v hv => ih v hv (by omega)
  | object _ ih =>
    obtain ⟨more, rfl⟩ := Nat.exists_eq_add_of_lt hle
    exact .object fun member hmember => ih member hmember (by omega)
  | _ =>
    obtain ⟨more, rfl⟩ := Nat.exists_eq_add_of_lt hle
    constructor

theorem pos (h : Within room v) : 0 < room := by
  cases h <;> exact Nat.succ_pos _

end Within

/-! ### Spelling out -/

section Obstacles

variable {room : Nat} {obstacle : Obstacle} {items : List Json} {members : List (Text × Json)}

/-- What stands in the way of members is what stands in the way of their values. -/
theorem membersObstacle?_eq (room : Nat) (members : List (Text × Json)) :
    membersObstacle? room members = itemsObstacle? room (members.map Prod.snd) := by
  induction members with
  | nil => rfl
  | cons member rest ih => rw [membersObstacle?, List.map_cons, itemsObstacle?, ih]

theorem exists_of_itemsObstacle? (h : itemsObstacle? room items = some obstacle) :
    ∃ v ∈ items, obstacle? room v = some obstacle := by
  induction items with
  | nil => cases h
  | cons v rest ih =>
    simp only [itemsObstacle?] at h
    split at h
    next first hfirst =>
      cases h
      exact ⟨v, List.mem_cons_self, hfirst⟩
    next =>
      obtain ⟨u, hu, hobstacle⟩ := ih h
      exact ⟨u, List.mem_cons_of_mem v hu, hobstacle⟩

theorem exists_of_membersObstacle? (h : membersObstacle? room members = some obstacle) :
    ∃ member ∈ members, obstacle? room member.2 = some obstacle := by
  rw [membersObstacle?_eq] at h
  obtain ⟨v, hv, hobstacle⟩ := exists_of_itemsObstacle? h
  obtain ⟨member, hmember, rfl⟩ := List.mem_map.mp hv
  exact ⟨member, hmember, hobstacle⟩

/-- **Where there is room enough, depth does not stand in the way** of spelling a value out. -/
theorem Within.obstacle?_ne {v : Json} (h : Within room v) : obstacle? room v ≠ some .tooDeep := by
  induction h with
  | int n =>
    simp only [obstacle?]
    split <;> exact nofun
  | list _ ih =>
    intro hobstacle
    obtain ⟨v, hv, hdeep⟩ := exists_of_itemsObstacle? hobstacle
    exact ih v hv hdeep
  | object _ ih =>
    intro hobstacle
    obtain ⟨member, hmember, hdeep⟩ := exists_of_membersObstacle? hobstacle
    exact ih member hmember hdeep
  | _ => exact nofun

theorem itemsObstacle?_eq_none_iff :
    itemsObstacle? room items = none ↔ ∀ v ∈ items, obstacle? room v = none := by
  induction items with
  | nil => simp [itemsObstacle?]
  | cons v rest ih =>
    rw [List.forall_mem_cons, ← ih, itemsObstacle?]
    cases obstacle? room v <;> simp

theorem membersObstacle?_eq_none_iff :
    membersObstacle? room members = none ↔ ∀ member ∈ members, obstacle? room member.2 = none := by
  rw [membersObstacle?_eq, itemsObstacle?_eq_none_iff, List.forall_mem_map]

/-- Where nothing stands in the way, there is room enough. -/
theorem within_of_obstacle?_eq_none {v : Json} (h : obstacle? room v = none) : Within room v := by
  -- The room shrinks from a value to those inside it.
  induction room generalizing v with
  | zero => simp [obstacle?] at h
  | succ room ih =>
    cases v with
    | list items => exact .list fun v hv => ih (itemsObstacle?_eq_none_iff.mp h v hv)
    | object members =>
      exact .object fun member hmember => ih (membersObstacle?_eq_none_iff.mp h member hmember)
    | _ => constructor

/-- A list in a list in a list, and so on: `depth` lists around an empty one. -/
def nested : Nat → Json
  | 0 => .list []
  | depth + 1 => .list [nested depth]

/-- For lists in lists there has to be room for one more than are around the innermost one. -/
theorem obstacle?_nested (room : Nat) : obstacle? room (nested room) = some .tooDeep := by
  induction room with
  | zero => rfl
  | succ room ih => simp only [nested, obstacle?, itemsObstacle?, ih]

end Obstacles

/-! ### Reading -/

/-- A value that lies no deeper than is allowed inside `around` lists and objects. -/
def FitsInside (around : Nat) (v : Json) : Prop := Within (depthLimit + 1 - around) v

section FitsInside

variable {around : Nat} {items : List Json} {members : List (Text × Json)} {v : Json}

theorem FitsInside.le (h : FitsInside around v) : around ≤ depthLimit := by
  have hpos : 0 < depthLimit + 1 - around := h.pos
  omega

theorem fitsInside_of_single (hv : Within 1 v) (hle : around ≤ depthLimit) :
    FitsInside around v :=
  hv.mono (by omega)

theorem fitsInside_list (hle : around ≤ depthLimit)
    (h : ∀ v ∈ items, FitsInside (around + 1) v) : FitsInside around (.list items) := by
  have hroom : depthLimit + 1 - around = depthLimit + 1 - (around + 1) + 1 := by omega
  rw [FitsInside, hroom]
  exact .list h

theorem fitsInside_object (hle : around ≤ depthLimit)
    (h : ∀ member ∈ members, FitsInside (around + 1) member.2) :
    FitsInside around (.object members) := by
  have hroom : depthLimit + 1 - around = depthLimit + 1 - (around + 1) + 1 := by omega
  rw [FitsInside, hroom]
  exact .object h

theorem forall_mem_put {key : Text} (h : ∀ member ∈ members, FitsInside around member.2)
    (hv : FitsInside around v) : ∀ member ∈ put key v members, FitsInside around member.2 := by
  induction members with
  | nil => simpa [put] using hv
  | cons member rest ih =>
    obtain ⟨hmember, hrest⟩ := List.forall_mem_cons.mp h
    simp only [put]
    split
    next => exact List.forall_mem_cons.mpr ⟨hv, hrest⟩
    next => exact List.forall_mem_cons.mpr ⟨hmember, ih hrest⟩

end FitsInside

/-- The values that an open list or object has so far fit inside it and what is around it. -/
def Frame.Shallow (around : Nat) : Frame → Prop
  | .list items => ∀ v ∈ items, FitsInside around v
  | .object members _ => ∀ member ∈ members, FitsInside around member.2

/-- The values fit that the open lists and objects have so far. -/
def StackShallow : List Frame → Prop
  | [] => True
  | frame :: stack => frame.Shallow (stack.length + 1) ∧ StackShallow stack

/-- What has been read so far fits inside what is still open around it, and there is room for what
comes next. -/
def Reader.Shallow : Reader → Prop
  | .value stack => stack.length ≤ depthLimit ∧ StackShallow stack
  | .itemOrEnd stack | .keyOrEnd stack => stack.length < depthLimit ∧ StackShallow stack
  | .key members stack | .colon members _ stack =>
    stack.length < depthLimit ∧ StackShallow stack ∧
      ∀ member ∈ members, FitsInside (stack.length + 1) member.2
  | .after v stack => FitsInside stack.length v ∧ StackShallow stack

/-- A token that is a value has no value inside it. -/
def Token.Single : Token → Prop
  | .scalar v => Within 1 v
  | _ => True

section Steps

variable {r r' : Reader} {stack : List Frame} {token : Token} {tokens : List Token}

theorem begin_shallow (hle : stack.length ≤ depthLimit) (hstack : StackShallow stack)
    (htoken : token.Single) (h : Reader.begin stack token = .ok r') : r'.Shallow := by
  have henter {container : Container} {next : Reader}
      (h : Reader.enter container stack next = .ok r') : stack.length < depthLimit ∧ next = r' := by
    unfold Reader.enter at h
    split at h <;> cases h
    exact ⟨‹_›, rfl⟩
  cases token with
  | openList =>
    obtain ⟨hlt, rfl⟩ := henter h
    exact ⟨hlt, hstack⟩
  | openObject =>
    obtain ⟨hlt, rfl⟩ := henter h
    exact ⟨hlt, hstack⟩
  | scalar v =>
    cases h
    exact ⟨fitsInside_of_single htoken hle, hstack⟩
  | text t =>
    cases h
    exact ⟨fitsInside_of_single (.text t) hle, hstack⟩
  | _ => cases h

/-- One token leaves what has been read within what is allowed. -/
theorem step_shallow (hr : r.Shallow) (htoken : token.Single) (h : r.step token = .ok r') :
    r'.Shallow := by
  unfold Reader.step at h
  split at h
  case h_1 => exact begin_shallow hr.1 hr.2 htoken h
  case h_2 stack =>
    cases h
    exact ⟨fitsInside_list (Nat.le_of_lt hr.1) nofun, hr.2⟩
  case h_3 =>
    refine begin_shallow ?_ ?_ htoken h
    · exact Nat.succ_le_of_lt hr.1
    · exact ⟨nofun, hr.2⟩
  case h_4 stack =>
    cases h
    exact ⟨fitsInside_object (Nat.le_of_lt hr.1) nofun, hr.2⟩
  case h_5 =>
    cases h
    exact ⟨hr.1, hr.2, nofun⟩
  case h_6 =>
    cases h
    exact hr
  case h_7 =>
    cases h
    exact ⟨hr.1, hr.2.2, hr.2.1⟩
  -- A value that is complete goes into the list or the object around it.
  case h_8 v items stack =>
    cases h
    exact ⟨hr.1.le, List.forall_mem_cons.mpr ⟨hr.1, hr.2.1⟩, hr.2.2⟩
  case h_9 v items stack =>
    cases h
    refine ⟨fitsInside_list (Nat.le_of_succ_le hr.1.le) fun u hu => ?_, hr.2.2⟩
    rcases List.mem_cons.mp (List.mem_reverse.mp hu) with rfl | hu
    · exact hr.1
    · exact hr.2.1 u hu
  case h_10 v members k stack =>
    cases h
    exact ⟨hr.1.le, hr.2.2, forall_mem_put hr.2.1 hr.1⟩
  case h_11 v members k stack =>
    cases h
    exact ⟨fitsInside_object (Nat.le_of_succ_le hr.1.le) (forall_mem_put hr.2.1 hr.1), hr.2.2⟩
  case h_12 => cases h

theorem run_shallow (hr : r.Shallow) (htokens : ∀ token ∈ tokens, token.Single)
    (h : r.run tokens = .ok r') : r'.Shallow := by
  induction tokens generalizing r with
  | nil =>
    cases h
    exact hr
  | cons token rest ih =>
    obtain ⟨htoken, hrest⟩ := List.forall_mem_cons.mp htokens
    rw [Reader.run] at h
    cases hstep : r.step token with
    | error defect =>
      rw [hstep] at h
      cases h
    | ok next =>
      rw [hstep] at h
      exact ih (step_shallow hr htoken hstep) hrest h

end Steps

section Tokens

variable {s s' : Scanner} {c : Char} {t : Text} {tokens : List Token} {v : Json}

theorem within_of_map_float {e : Option Int} {f : Int → Binary64}
    (h : (e.map fun exponent => .float (f exponent)) = some v) : Within 1 v := by
  obtain ⟨exponent, -, rfl⟩ := Option.map_eq_some_iff.mp h
  exact .float _

theorem within_of_magnitude? {negative : Bool} (h : magnitude? negative t = some v) :
    Within 1 v := by
  unfold magnitude? at h
  dsimp only at h
  split at h
  next => cases h
  split at h
  -- Nothing behind the digits, a point, and anything else.
  next =>
    split at h <;> cases h
    exact .int _
  next =>
    split at h
    next => cases h
    next => exact within_of_map_float h
  next => exact within_of_map_float h

theorem within_of_number? (h : number? t = some v) : Within 1 v := by
  unfold number? at h
  split at h <;> exact within_of_magnitude? h

/-- A bare word is a value without others inside it. -/
theorem within_of_scalar? (h : scalar? t = some v) : Within 1 v := by
  unfold scalar? at h
  iterate 6
    split at h
    next =>
      cases h
      constructor
  exact within_of_number? h

theorem start_single (c : Char) : ∀ token ∈ (Scanner.start c).2, token.Single := by
  unfold Scanner.start
  split
  next => exact List.forall_mem_nil _
  split
  next => exact List.forall_mem_nil _
  unfold punctuation?
  split
  next heq =>
    split at heq <;> cases heq <;> simp [Token.Single]
  next => exact List.forall_mem_nil _

/-- The tokens that a character completes have no value inside another. -/
theorem step_single (h : s.step c = some (s', tokens)) : ∀ token ∈ tokens, token.Single := by
  cases s with
  -- Only a character that stands between tokens, or ends a word, completes any.
  | between =>
    have hstart := start_single c
    rwa [Option.some.inj h] at hstart
  | word gathered =>
    simp only [Scanner.step] at h
    split at h
    next =>
      obtain ⟨v, hv, heq⟩ := Option.map_eq_some_iff.mp h
      cases heq
      exact List.forall_mem_cons.mpr ⟨within_of_scalar? hv, start_single c⟩
    next =>
      cases h
      exact List.forall_mem_nil _
  -- Only the character that ends it makes a token of what is between quotes.
  | quote gathered high =>
    simp only [Scanner.step] at h
    split at h
    next =>
      cases h
      exact List.forall_mem_singleton.mpr trivial
    split at h
    next => cases h; exact List.forall_mem_nil _
    split at h
    next => cases h
    next => cases h; exact List.forall_mem_nil _
  | escape gathered high =>
    simp only [Scanner.step] at h
    split at h
    next => cases h; exact List.forall_mem_nil _
    next =>
      obtain ⟨e, -, heq⟩ := Option.map_eq_some_iff.mp h
      cases heq
      exact List.forall_mem_nil _
  | numbered gathered high owed value =>
    obtain ⟨d, -, heq⟩ := Option.map_eq_some_iff.mp h
    rcases owed with _ | _ | _ <;> cases heq <;> exact List.forall_mem_nil _

theorem finish_single (h : s.finish = some tokens) : ∀ token ∈ tokens, token.Single := by
  cases s with
  | between => cases h; exact List.forall_mem_nil _
  | word gathered =>
    obtain ⟨v, hv, rfl⟩ := Option.map_eq_some_iff.mp h
    exact List.forall_mem_singleton.mpr (within_of_scalar? hv)
  | _ => cases h

theorem within_of_readFrom {r : Reader} (hr : r.Shallow) (h : readFrom s r t = .ok v) :
    Within (depthLimit + 1) v := by
  induction t generalizing s r with
  | nil =>
    simp only [readFrom] at h
    cases hfinish : s.finish with
    | none => simp [hfinish] at h
    | some tokens =>
      simp only [hfinish] at h
      cases hrun : r.run tokens with
      | error defect =>
        rw [hrun] at h
        cases h
      | ok last =>
        -- At the end nothing is open around the value.
        have hlast := run_shallow hr (finish_single hfinish) hrun
        simp only [hrun, Except.bind, Reader.result] at h
        split at h <;> cases h
        exact hlast.1
  | cons c t ih =>
    simp only [readFrom] at h
    cases hstep : s.step c with
    | none => simp [hstep] at h
    | some outcome =>
      obtain ⟨s', tokens⟩ := outcome
      simp only [hstep] at h
      cases hrun : r.run tokens with
      | error defect =>
        rw [hrun] at h
        cases h
      | ok next =>
        rw [hrun] at h
        exact ih (run_shallow hr (step_single hstep) hrun) h

/-- **No value that is read from a text lies deeper than is allowed.** -/
theorem within_of_read (h : read t = .ok v) : Within (depthLimit + 1) v :=
  within_of_readFrom (r := .value []) ⟨Nat.zero_le _, trivial⟩ h

end Tokens

/-- Opening brackets without end, read where a value may come next. -/
theorem readFrom_brackets {r : Reader} {stack : List Frame} (n : Nat) (t : Text)
    (hr : r.Awaits stack) (hlength : stack.length + n = depthLimit) :
    readFrom .between r (List.replicate (n + 1) '[' ++ t) = .error (.tooDeep .list) := by
  induction n generalizing r stack with
  | zero =>
    have hfull : ¬ stack.length < depthLimit := by omega
    have hstep : r.step .openList = .error (.tooDeep .list) := by
      rw [hr _ (by simp), Reader.begin, Reader.enter, if_neg hfull]
    have hstart : Scanner.start '[' = (.between, [.openList]) := rfl
    simp only [List.replicate_succ, List.cons_append, readFrom, Scanner.step, hstart, Reader.run,
      hstep]
  | succ n ih =>
    have hstep : r.step .openList = .ok (.itemOrEnd stack) := by
      rw [hr _ (by simp), Reader.begin, Reader.enter_eq_ok (by omega)]
    rw [List.replicate_succ, List.cons_append, readFrom_mark (c := '[') rfl hstep]
    exact ih (Reader.awaits_itemOrEnd stack) (by rw [List.length_cons]; omega)

/-- One opening bracket more than are allowed inside each other is too deep, whatever follows. -/
theorem read_brackets (t : Text) :
    read (List.replicate (depthLimit + 1) '[' ++ t) = .error (.tooDeep .list) :=
  readFrom_brackets depthLimit t (Reader.awaits_value []) (Nat.zero_add _)

end Json

end Typeahead
