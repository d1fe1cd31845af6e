import Typeahead.Proofs.Json.Quote
import Typeahead.Proofs.Json.Word

/-!
# Values read back

A value that is written on several lines and read again is the same value, if it can be read at all:
floating-point numbers are left out, its integers have no more digits than are read, its lists and
objects lie no deeper inside each other than is allowed, and no object has a key twice.

The reading is followed from any state in which a value may come next, inside any lists and objects
that are open, and up to any text that a bare word ends before.

## Main definitions

* `Json.Storable` — a value whose lists and objects lie at most so deep inside each other, and which
  is read back.
* `Reader.Awaits`, `Reader.AwaitsKey` — what may come next.
* `Json.ReadBack` — wherever a value may come next, what is written for this one is read as it.

## Main results

* `Json.Storable.readBack` — **storable values are read back wherever they stand.**
* `Json.read_pretty` — **a storable value that is written and read is the same value.**
-/

namespace Typeahead

namespace Json

/-- A value with at most `depth` lists and objects inside each other that is read back. -/
inductive Storable : Nat → Json → Prop
  | null {depth : Nat} : Storable depth .null
  | bool {depth : Nat} (b : Bool) : Storable depth (.bool b)
  | int {depth : Nat} {n : Int} (digits : (Text.ofNat n.natAbs).length ≤ Numeral.digitLimit) :
      Storable depth (.int n)
  | text {depth : Nat} (t : Text) : Storable depth (.text t)
  | list {depth : Nat} {items : List Json} (inside : ∀ v ∈ items, Storable depth v) :
      Storable (depth + 1) (.list items)
  | object {depth : Nat} {members : List (Text × Json)}
      (keys : (members.map Prod.fst).Nodup)
      (inside : ∀ member ∈ members, Storable depth member.2) :
      Storable (depth + 1) (.object members)

/-! ### States of the reader -/

/-- A value may come next, inside the frames of the stack. -/
def Reader.Awaits (r : Reader) (stack : List Frame) : Prop :=
  ∀ token, token ≠ .closeList → r.step token = Reader.begin stack token

/-- A key may come next, behind the members. -/
def Reader.AwaitsKey (r : Reader) (members : List (Text × Json)) (stack : List Frame) : Prop :=
  ∀ k, r.step (.text k) = .ok (.colon members k stack)

theorem Reader.awaits_value (stack : List Frame) : (Reader.value stack).Awaits stack :=
  fun _ _ => rfl

theorem Reader.awaits_itemOrEnd (stack : List Frame) :
    (Reader.itemOrEnd stack).Awaits (.list [] :: stack) := by
  intro token htoken
  cases token with
  | closeList => exact absurd rfl htoken
  | _ => rfl

theorem Reader.awaitsKey_keyOrEnd (stack : List Frame) :
    (Reader.keyOrEnd stack).AwaitsKey [] stack := fun _ => rfl

theorem Reader.awaitsKey_key (members : List (Text × Json)) (stack : List Frame) :
    (Reader.key members stack).AwaitsKey members stack := fun _ => rfl

theorem Reader.enter_eq_ok {container : Container} {stack : List Frame} {next : Reader}
    (h : stack.length < depthLimit) : Reader.enter container stack next = .ok next := if_pos h

/-! ### Between the tokens -/

variable {r r' : Reader} {c : Char} {t : Text}

theorem readFrom_gap (h : isGap c = true) :
    readFrom .between r (c :: t) = readFrom .between r t := by
  simp only [readFrom, Scanner.step, Scanner.start, h, if_true, Reader.run]

theorem readFrom_blanks (count : Nat) :
    readFrom .between r (List.replicate count ' ' ++ t) = readFrom .between r t := by
  induction count with
  | zero => rfl
  | succ count ih => rw [List.replicate_succ, List.cons_append, readFrom_gap rfl, ih]

theorem readFrom_newLine (depth : Nat) :
    readFrom .between r (newLine depth ++ t) = readFrom .between r t := by
  rw [newLine, List.cons_append, readFrom_gap rfl, readFrom_blanks]

theorem ends_newLine (depth : Nat) : Ends (newLine depth ++ t) := ends_cons rfl

/-- A punctuation mark. -/
theorem readFrom_mark {mark : Token} (hmark : punctuation? c = some mark)
    (hstep : r.step mark = .ok r') :
    readFrom .between r (c :: t) = readFrom .between r' t := by
  have hstart : Scanner.start c = (.between, [mark]) := by
    unfold punctuation? at hmark
    split at hmark <;> cases hmark <;> rfl
  simp only [readFrom, Scanner.step, hstart, Reader.run, hstep]

/-! ### Values -/

/-- Wherever a value may come next, with room for `depth` lists and objects inside each other, what
is written for `v` is read as `v`. -/
def ReadBack (depth : Nat) (v : Json) : Prop :=
  ∀ (indent : Nat) (r : Reader) (stack : List Frame) (t : Text), r.Awaits stack →
    stack.length + depth ≤ depthLimit → Ends t →
    readFrom .between r (prettyAt indent v ++ t) = readFrom .between (.after v stack) t

section Scalars

variable {depth : Nat} {v : Json}

/-- A value that is written as a bare word. -/
theorem readBack_of_word (word : Text) (hpretty : ∀ indent, prettyAt indent v = word)
    (hne : word ≠ []) (hword : word.any isDelimiter = false)
    (hvalue : scalar? word = some v) : ReadBack depth v := by
  have hplain : ∀ c ∈ word, isDelimiter c = false := by simpa using hword
  intro indent r stack t hr _ hend
  rw [hpretty]
  exact readFrom_word hne hplain hvalue (hr _ (by simp)) hend

theorem readBack_null : ReadBack depth .null :=
  readBack_of_word _ (fun _ => rfl) (by decide) rfl rfl

theorem readBack_bool (b : Bool) : ReadBack depth (.bool b) := by
  cases b <;> exact readBack_of_word _ (fun _ => rfl) (by decide) rfl rfl

theorem readBack_int {n : Int} (digits : (Text.ofNat n.natAbs).length ≤ Numeral.digitLimit) :
    ReadBack depth (.int n) := by
  have hne : Text.ofInt n ≠ [] := by
    cases n with
    | ofNat n => exact Text.ofNat_ne_nil n
    | negSucc n => exact List.cons_ne_nil _ _
  have hplain : ∀ c ∈ Text.ofInt n, isDelimiter c = false := by
    intro c hc
    cases n with
    | ofNat n => exact isDelimiter_of_isDigit (Text.isDigit_of_mem_ofNat hc)
    | negSucc n =>
      rcases List.mem_cons.mp hc with rfl | hc
      · rfl
      · exact isDelimiter_of_isDigit (Text.isDigit_of_mem_ofNat hc)
  have hword : (Text.ofInt n).any isDelimiter = false :=
    List.any_eq_false.mpr fun c hc => by simp [hplain c hc]
  exact readBack_of_word _ (fun _ => rfl) hne hword (scalar?_ofInt digits)

theorem readBack_text (inside : Text) : ReadBack depth (.text inside) := by
  intro indent r stack t hr _ _
  exact readFrom_quote (hr _ (by simp))

end Scalars

/-! ### Lists -/

section Lists

variable {depth : Nat} {stack : List Frame}

/-- The items of a list and the bracket that closes it, behind items that have been read. -/
theorem readFrom_items (indent outer : Nat) (t : Text) {items earlier : List Json}
    (hne : items ≠ []) (hitems : ∀ v ∈ items, ReadBack depth v)
    (hr : r.Awaits (.list earlier :: stack)) (hdepth : stack.length + 1 + depth ≤ depthLimit) :
    readFrom .between r (prettyItems indent items ++ (newLine outer ++ ']' :: t)) =
      readFrom .between (.after (.list (earlier.reverse ++ items)) stack) t := by
  -- By induction on the items that are left; those before them are on the stack, last first.
  induction items generalizing r earlier with
  | nil => exact absurd rfl hne
  | cons v rest ih =>
    have hv := hitems v List.mem_cons_self
    -- The last item is followed by the bracket, every other one by a comma.
    cases rest with
    | nil =>
      have hclose : (Reader.after v (.list earlier :: stack)).step .closeList =
          .ok (.after (.list (v :: earlier).reverse) stack) := rfl
      rw [prettyItems, List.append_assoc, readFrom_newLine,
        hv indent r _ _ hr hdepth (ends_newLine outer), readFrom_newLine,
        readFrom_mark (c := ']') rfl hclose, List.reverse_cons]
    | cons next rest =>
      have hcomma : (Reader.after v (.list earlier :: stack)).step .comma =
          .ok (.value (.list (v :: earlier) :: stack)) := rfl
      have hrest := ih (List.cons_ne_nil next rest)
        (fun w hw => hitems w (List.mem_cons_of_mem v hw))
        (Reader.awaits_value (.list (v :: earlier) :: stack))
      rw [prettyItems, List.append_assoc, List.append_assoc, readFrom_newLine, List.cons_append,
        hv indent r _ _ hr hdepth (ends_cons rfl), readFrom_mark (c := ',') rfl hcomma, hrest,
        List.reverse_cons, List.append_assoc, List.singleton_append]
      · exact List.cons_ne_nil next rest

theorem readBack_list {items : List Json} (hitems : ∀ v ∈ items, ReadBack depth v) :
    ReadBack (depth + 1) (.list items) := by
  intro indent r stack t hr hdepth _
  have hopen : r.step .openList = .ok (.itemOrEnd stack) := by
    rw [hr _ (by simp), Reader.begin, Reader.enter_eq_ok (by omega)]
  cases items with
  | nil =>
    have hclose : (Reader.itemOrEnd stack).step .closeList = .ok (.after (.list []) stack) := rfl
    rw [prettyAt, List.cons_append, List.cons_append, List.nil_append,
      readFrom_mark (c := '[') rfl hopen, readFrom_mark (c := ']') rfl hclose]
  | cons v rest =>
    have hrest := readFrom_items (indent + 1) indent t
      (List.cons_ne_nil v rest) hitems (Reader.awaits_itemOrEnd stack) (by omega)
    rw [prettyAt]
    simp only [List.append_assoc, List.cons_append, List.nil_append]
    rw [readFrom_mark (c := '[') rfl hopen, hrest, List.reverse_nil, List.nil_append]
    · simp

end Lists

/-! ### Objects -/

section Objects

variable {depth : Nat} {stack : List Frame}

theorem put_of_not_mem {k : Text} {v : Json} {members : List (Text × Json)}
    (h : k ∉ members.map Prod.fst) : put k v members = members ++ [(k, v)] := by
  induction members with
  | nil => rfl
  | cons member members ih =>
    simp only [List.map_cons, List.mem_cons, not_or] at h
    rw [put, if_neg fun heq => h.1 heq.symm, ih h.2, List.cons_append]

/-- The members of an object and the brace that closes it, behind members that have been read. -/
theorem readFrom_members (indent outer : Nat) (t : Text) {members earlier : List (Text × Json)}
    (hne : members ≠ [])
    (hmembers : ∀ member ∈ members, ReadBack depth member.2) (hr : r.AwaitsKey earlier stack)
    (hkeys : ((earlier ++ members).map Prod.fst).Nodup)
    (hdepth : stack.length + 1 + depth ≤ depthLimit) :
    readFrom .between r (prettyMembers indent members ++ (newLine outer ++ '}' :: t)) =
      readFrom .between (.after (.object (earlier ++ members)) stack) t := by
  induction members generalizing r earlier with
  | nil => exact absurd rfl hne
  | cons member rest ih =>
    obtain ⟨k, v⟩ := member
    have hv : ReadBack depth v := hmembers (k, v) List.mem_cons_self
    have hput : put k v earlier = earlier ++ [(k, v)] := by
      apply put_of_not_mem
      rw [List.map_append, List.nodup_append] at hkeys
      exact fun hk => hkeys.2.2 k hk k List.mem_cons_self rfl
    have hcolon : (Reader.colon earlier k stack).step .colon =
        .ok (.value (.object earlier k :: stack)) := rfl
    -- The key, the colon and the value, up to what follows them.
    have hmember : ∀ t, Ends t → readFrom .between r
        (newLine indent ++ (quote k ++ (':' :: ' ' :: (prettyAt indent v ++ t)))) =
        readFrom .between (.after v (.object earlier k :: stack)) t := by
      intro t hend
      rw [readFrom_newLine, readFrom_quote (hr k), readFrom_mark (c := ':') rfl hcolon,
        readFrom_gap rfl,
        hv indent _ _ t (Reader.awaits_value (.object earlier k :: stack)) hdepth hend]
    cases rest with
    | nil =>
      have hclose : (Reader.after v (.object earlier k :: stack)).step .closeObject =
          .ok (.after (.object (put k v earlier)) stack) := rfl
      rw [prettyMembers]
      simp only [List.append_assoc, List.cons_append]
      rw [hmember _ (ends_newLine outer), readFrom_newLine, readFrom_mark (c := '}') rfl hclose,
        hput]
    | cons next rest =>
      have hcomma : (Reader.after v (.object earlier k :: stack)).step .comma =
          .ok (.key (put k v earlier) stack) := rfl
      have hrest := ih (List.cons_ne_nil next rest)
        (fun w hw => hmembers w (List.mem_cons_of_mem _ hw))
        (Reader.awaitsKey_key (put k v earlier) stack)
        (by rwa [hput, List.append_assoc, List.singleton_append])
      rw [prettyMembers]
      simp only [List.append_assoc, List.cons_append]
      rw [hmember _ (ends_cons rfl), readFrom_mark (c := ',') rfl hcomma, hrest, hput,
        List.append_assoc, List.singleton_append]
      · simp

theorem readBack_object {members : List (Text × Json)}
    (hkeys : (members.map Prod.fst).Nodup)
    (hmembers : ∀ member ∈ members, ReadBack depth member.2) :
    ReadBack (depth + 1) (.object members) := by
  intro indent r stack t hr hdepth _
  have hopen : r.step .openObject = .ok (.keyOrEnd stack) := by
    rw [hr _ (by simp), Reader.begin, Reader.enter_eq_ok (by omega)]
  cases members with
  | nil =>
    have hclose : (Reader.keyOrEnd stack).step .closeObject = .ok (.after (.object []) stack) :=
      rfl
    rw [prettyAt, List.cons_append, List.cons_append, List.nil_append,
      readFrom_mark (c := '{') rfl hopen, readFrom_mark (c := '}') rfl hclose]
  | cons member rest =>
    have hrest := readFrom_members (indent + 1) indent t
      (List.cons_ne_nil member rest) hmembers (Reader.awaitsKey_keyOrEnd stack) hkeys (by omega)
    rw [prettyAt]
    simp only [List.append_assoc, List.cons_append, List.nil_append]
    rw [readFrom_mark (c := '{') rfl hopen, hrest, List.nil_append]
    · simp

end Objects

/-! ### Storable values -/

/-- **Storable values are read back wherever they stand.** -/
theorem Storable.readBack {depth : Nat} {v : Json} (h : Storable depth v) : ReadBack depth v := by
  induction h with
  | null => exact readBack_null
  | bool b => exact readBack_bool b
  | int digits => exact readBack_int digits
  | text t => exact readBack_text t
  | list _ ih => exact readBack_list ih
  | object keys _ ih => exact readBack_object keys ih

/-- **A storable value that is written and read is the same value.** -/
theorem read_pretty {v : Json} (h : Storable depthLimit v) : read v.pretty = .ok v := by
  have hread := h.readBack 0 (.value []) [] [] (Reader.awaits_value []) (by simp) ends_nil
  rw [List.append_nil] at hread
  rw [read, pretty, hread]
  rfl

end Json

end Typeahead
