import Typeahead.Proofs.Json.Depth
import Typeahead.Proofs.World.Refusal
import Typeahead.Settings.Store

/-!
# When settings cannot be loaded

Loading puts up with a file that is missing, cannot be read or is not understood, and gives the
default settings.  Three things it does not put up with: the question whether the file is there is
refused; the file's lists and objects lie too deep inside each other; and its capacity is infinite.

## Main definitions

* `Settings.InfiniteCapacity` — a description with an infinite capacity.
* `Settings.Stops` — what stops the loading.
* `Settings.Gives` — the file has the text of a description of these settings.

## Main results

* `Settings.ofJson_eq_infiniteNumber_iff` — only an infinite capacity is not put up with.
* `Settings.load_fails_iff` — **loading fails exactly if something stops it, and otherwise gives
  the settings of the file or the default settings, with a warning unless there is no file.**
-/

namespace Typeahead

namespace Settings

variable {w : World} {path : Path} {s : Settings} {v : Json} {t : Text} {fault : Fault}

/-- The description of settings with an infinite capacity. -/
def InfiniteCapacity (v : Json) : Prop :=
  ∃ members negative, v = .object members ∧
    Json.find? "bufferCapacity".toList members = some (.float (.infinite negative))

/-- What stops the loading of settings, and the fault that comes of it. -/
inductive Stops (w : World) (path : Path) : Fault → Prop
  /-- It is refused to say whether the file is there. -/
  | refused {fault : PathFault} (lookup : w.Refuses path.toText fault) :
      Stops w path (.path fault)
  /-- There are too many lists and objects around one in the file. -/
  | tooDeep {content : Text} {container : Json.Container}
      (read : w.read path.toText = .ok content)
      (defect : Json.read content = .error (.tooDeep container)) :
      Stops w path (.deepNesting container)
  /-- The capacity in the file is infinite. -/
  | infinite {content : Text} {v : Json} (read : w.read path.toText = .ok content)
      (value : Json.read content = .ok v) (capacity : InfiniteCapacity v) :
      Stops w path .infiniteNumber

/-- The file can be read and has the text of a description of these settings. -/
def Gives (w : World) (path : Path) (s : Settings) : Prop :=
  ∃ content v, w.read path.toText = .ok content ∧ Json.read content = .ok v ∧
    (ofJson v).2 = .ok s

/-! ### Descriptions -/

theorem capacityOf_eq_infiniteNumber_iff :
    capacityOf v = .error .infiniteNumber ↔ ∃ negative, v = .float (.infinite negative) := by
  cases v with
  | float x => cases x <;> simp [capacityOf, Binary64.truncate?]
  | text t => cases h : Numeral.read t <;> simp [capacityOf, h]
  | _ => simp [capacityOf]

/-- The settings of an object are what stands at their keys, once its capacity has been read. -/
theorem ofJson_object (members : List (Text × Json)) :
    (ofJson (.object members)).2 =
      ((Json.find? "bufferCapacity".toList members).elim (.ok default.capacity) capacityOf).map
        fun capacity =>
          { capacity
            commands := (commandsOf (Json.find? "commands".toList members)).2
            searchPath := (Json.find? "searchPath".toList members).getD default.searchPath
            level := (Json.find? "logLevel".toList members).getD default.level } := by
  simp only [ofJson]
  cases Json.find? "bufferCapacity".toList members <;> rfl

/-- The description that an object is goes wrong if its capacity does. -/
theorem ofJson_object_eq_error_iff {members : List (Text × Json)} :
    (ofJson (.object members)).2 = .error fault ↔
      ∃ c, Json.find? "bufferCapacity".toList members = some c ∧ capacityOf c = .error fault := by
  rw [ofJson_object]
  cases Json.find? "bufferCapacity".toList members with
  | none => simp [Except.map]
  | some c => cases h : capacityOf c <;> simp [Except.map, h]

theorem ofJson_object_eq_ok_iff {members : List (Text × Json)} :
    (ofJson (.object members)).2 = .ok s ↔
      (Json.find? "bufferCapacity".toList members).elim (.ok default.capacity) capacityOf =
          .ok s.capacity ∧
        s.commands = (commandsOf (Json.find? "commands".toList members)).2 ∧
        s.searchPath = (Json.find? "searchPath".toList members).getD default.searchPath ∧
        s.level = (Json.find? "logLevel".toList members).getD default.level := by
  rw [ofJson_object]
  cases (Json.find? "bufferCapacity".toList members).elim (.ok default.capacity) capacityOf with
  | error met => exact iff_of_false nofun fun h => nomatch h.1
  | ok capacity =>
    obtain ⟨capacity', searchPath, level, commands⟩ := s
    simp only [Except.map, Except.ok.injEq, mk.injEq]
    constructor
    · rintro ⟨hcapacity, hsearchPath, hlevel, hcommands⟩
      exact ⟨hcapacity, hcommands.symm, hsearchPath.symm, hlevel.symm⟩
    · rintro ⟨hcapacity, hcommands, hsearchPath, hlevel⟩
      exact ⟨hcapacity, hsearchPath.symm, hlevel.symm, hcommands.symm⟩

/-- **Of all faults of a description only an infinite capacity is not put up with.** -/
theorem ofJson_eq_infiniteNumber_iff :
    (ofJson v).2 = .error .infiniteNumber ↔ InfiniteCapacity v := by
  constructor
  · intro h
    cases v with
    | object members =>
      obtain ⟨c, hfind, hc⟩ := ofJson_object_eq_error_iff.mp h
      obtain ⟨negative, rfl⟩ := capacityOf_eq_infiniteNumber_iff.mp hc
      exact ⟨members, negative, rfl, hfind⟩
    | _ => cases h
  · rintro ⟨members, negative, rfl, hfind⟩
    exact ofJson_object_eq_error_iff.mpr ⟨_, hfind, rfl⟩

/-! ### The text of a file -/

/-- The text of a description gives its settings, or the default ones if it has none and is put up
with. -/
theorem ofText_of_read (h : Json.read t = .ok v) :
    ofText t =
      match (ofJson v).2 with
      | .ok s => ((ofJson v).1, .ok s)
      | .error fault =>
        if isTolerated fault then ((ofJson v).1 ++ [warning], .ok default)
        else ((ofJson v).1, .error fault) := by
  rw [ofText, h]
  dsimp only
  obtain ⟨notices, outcome⟩ := ofJson v
  cases outcome <;> rfl

theorem isTolerated_eq_false_iff : isTolerated fault = false ↔ fault = .infiniteNumber := by
  simp [isTolerated]

theorem ofText_of_infinite (hread : Json.read t = .ok v) (h : InfiniteCapacity v) :
    (ofText t).2 = .error .infiniteNumber := by
  rw [ofText_of_read hread, ofJson_eq_infiniteNumber_iff.mpr h]
  rfl

theorem ofText_of_tooDeep {container : Json.Container}
    (h : Json.read t = .error (.tooDeep container)) :
    ofText t = ([], .error (.deepNesting container)) := by
  rw [ofText, h]

/-- A text that is not understood, of which no fault comes, gives the default settings and a
warning. -/
theorem ofText_eq_ok (h : (ofText t).2 = .ok s) :
    (∃ v, Json.read t = .ok v ∧ (ofJson v).2 = .ok s) ∨
      (∀ v, Json.read t = .ok v → ∃ fault, (ofJson v).2 = .error fault) ∧
        s = default ∧ warning ∈ (ofText t).1 := by
  -- The text is no JSON, or its value gives settings, or it does not.
  cases hread : Json.read t with
  | error defect =>
    right
    cases defect with
    | tooDeep container =>
      rw [ofText_of_tooDeep hread] at h
      cases h
    | malformed =>
      simp only [ofText, hread] at h ⊢
      cases h
      simp
  | ok v =>
    cases hsettings : (ofJson v).2 with
    | ok described =>
      rw [ofText_of_read hread, hsettings] at h
      exact .inl ⟨v, rfl, hsettings.trans h⟩
    | error fault =>
      right
      rw [ofText_of_read hread, hsettings] at h ⊢
      cases htolerated : isTolerated fault with
      | false => simp [htolerated] at h
      | true =>
        simp only [htolerated, if_true] at h ⊢
        cases h
        refine ⟨?_, rfl, by simp⟩
        intro v' hv'
        cases hv'
        exact ⟨fault, hsettings⟩

/-- The faults that come of the text of a file. -/
theorem ofText_eq_error (h : (ofText t).2 = .error fault) :
    (∃ container, Json.read t = .error (.tooDeep container) ∧ fault = .deepNesting container) ∨
      ∃ v, Json.read t = .ok v ∧ InfiniteCapacity v ∧ fault = .infiniteNumber := by
  cases hread : Json.read t with
  | error defect =>
    cases defect with
    | tooDeep container =>
      rw [ofText_of_tooDeep hread] at h
      cases h
      exact .inl ⟨container, rfl, rfl⟩
    | malformed =>
      simp only [ofText, hread] at h
      cases h
  | ok v =>
    right
    cases hsettings : (ofJson v).2 with
    | ok described =>
      rw [ofText_of_read hread, hsettings] at h
      cases h
    | error met =>
      rw [ofText_of_read hread, hsettings] at h
      cases htolerated : isTolerated met with
      | true => simp [htolerated] at h
      | false =>
        -- The one fault of a value that is let out is that of an infinite capacity.
        have hmet := isTolerated_eq_false_iff.mp htolerated
        subst hmet
        cases h
        exact ⟨v, rfl, ofJson_eq_infiniteNumber_iff.mp hsettings, rfl⟩

/-! ### The file -/

theorem isPresent_of_read (h : w.read path.toText = .ok t) :
    w.isPresent path.toText = .ok true := by
  unfold World.read at h
  cases hentry : w.entry? path.toText with
  | error met =>
    rw [hentry] at h
    cases h
  | ok entry => rw [World.isPresent, World.test, hentry]

theorem load_of_read (h : w.read path.toText = .ok t) : load w path = ofText t := by
  rw [load, isPresent_of_read h]
  dsimp only
  rw [h]

/-- The four ways in which a file is met with. -/
theorem load_cases (w : World) (path : Path) :
    (∃ refusal, w.Refuses path.toText refusal ∧ load w path = ([], .error (.path refusal))) ∨
      (w.isPresent path.toText = .ok false ∧ load w path = ([], .ok default)) ∨
      (w.isPresent path.toText = .ok true ∧ (∀ content, w.read path.toText ≠ .ok content) ∧
        load w path = ([warning], .ok default)) ∨
      ∃ content, w.read path.toText = .ok content ∧ load w path = ofText content := by
  cases hpresent : w.isPresent path.toText with
  | error refusal =>
    exact .inl ⟨refusal, World.isPresent_eq_error_iff.mp hpresent, by simp only [load, hpresent]⟩
  | ok present =>
    cases present with
    | false => exact .inr (.inl ⟨rfl, by simp only [load, hpresent]⟩)
    | true =>
      cases hread : w.read path.toText with
      | error met =>
        exact .inr (.inr (.inl ⟨rfl, nofun, by simp only [load, hpresent, hread]⟩))
      | ok content => exact .inr (.inr (.inr ⟨content, rfl, load_of_read hread⟩))

theorem load_of_stops (h : Stops w path fault) : (load w path).2 = .error fault := by
  cases h with
  | refused lookup => rw [load, World.isPresent_eq_error_iff.mpr lookup]
  | tooDeep read defect => rw [load_of_read read, ofText_of_tooDeep defect]
  | infinite read value capacity =>
    rw [load_of_read read]
    exact ofText_of_infinite value capacity

theorem stops_of_load (h : (load w path).2 = .error fault) : Stops w path fault := by
  rcases load_cases w path with ⟨refusal, hlookup, hload⟩ | ⟨-, hload⟩ | ⟨-, -, hload⟩ |
    ⟨content, hread, hload⟩ <;> rw [hload] at h
  · cases h
    exact .refused hlookup
  · cases h
  · cases h
  · rcases ofText_eq_error h with ⟨container, hdefect, rfl⟩ | ⟨v, hv, hcapacity, rfl⟩
    · exact .tooDeep hread hdefect
    · exact .infinite hread hv hcapacity

/-- **Loading fails exactly if something stops it.**  Otherwise there is no file and the settings
are the default ones; or they are those of the file; or the file gives none, and they are the
default ones with a warning. -/
theorem load_fails_iff (w : World) (path : Path) :
    (∀ fault, (load w path).2 = .error fault ↔ Stops w path fault) ∧
      ∀ s, (load w path).2 = .ok s →
        w.isPresent path.toText = .ok false ∧ load w path = ([], .ok default) ∨
        Gives w path s ∨
        w.isPresent path.toText = .ok true ∧ (∀ other, ¬ Gives w path other) ∧ s = default ∧
          warning ∈ (load w path).1 := by
  refine ⟨fun fault => ⟨stops_of_load, load_of_stops⟩, fun s h => ?_⟩
  rcases load_cases w path with ⟨refusal, -, hload⟩ | ⟨hpresent, hload⟩ |
    ⟨hpresent, hnone, hload⟩ | ⟨content, hread, hload⟩ <;> rw [hload] at h ⊢
  · cases h
  · exact .inl ⟨hpresent, rfl⟩
  · -- The file is there and cannot be read.
    cases h
    refine .inr (.inr ⟨hpresent, ?_, rfl, by simp⟩)
    rintro other ⟨content, -, hread, -, -⟩
    exact hnone content hread
  -- The file was read: its settings, or why it has none.
  · rcases ofText_eq_ok h with ⟨v, hv, hs⟩ | ⟨hnone, hs, hwarning⟩
    · exact .inr (.inl ⟨content, v, hread, hv, hs⟩)
    · refine .inr (.inr ⟨isPresent_of_read hread, ?_, hs, hwarning⟩)
      rintro other ⟨content', v, hread', hv, hother⟩
      rw [hread] at hread'
      cases hread'
      obtain ⟨fault, hfault⟩ := hnone v hv
      rw [hfault] at hother
      cases hother

/-- A world with one file, of this content, and a locked directory. -/
def holding (content : Text) : World where
  files := ⟨[([['s']], .file ⟨false, true, content⟩), ([['p']], .directory .locked)]⟩
  workingDirectory := ['/']
  environment := ⟨['/'], none, none, none⟩

/-- A file that is no JSON text. -/
theorem load_fails_iff_garbled :
    (load (holding ['x']) ⟨.single, [['s']]⟩).2 = .ok default ∧
      ((holding ['x']).isPresent ['/', 's'] = .ok false ∧
          load (holding ['x']) ⟨.single, [['s']]⟩ = ([], .ok default) ∨
        Gives (holding ['x']) ⟨.single, [['s']]⟩ default ∨
        (holding ['x']).isPresent ['/', 's'] = .ok true ∧
          (∀ other, ¬ Gives (holding ['x']) ⟨.single, [['s']]⟩ other) ∧ default = default ∧
          warning ∈ (load (holding ['x']) ⟨.single, [['s']]⟩).1) :=
  ⟨rfl, (load_fails_iff (holding ['x']) ⟨.single, [['s']]⟩).2 default rfl⟩

/-- An infinite capacity, a file in a locked directory and one opening bracket more than are
allowed inside each other. -/
theorem load_stopped :
    load (holding "\x7b\"bufferCapacity\": 1e400\x7d".toList) ⟨.single, [['s']]⟩ =
        ([], .error .infiniteNumber) ∧
      load (holding []) ⟨.single, [['p'], ['s']]⟩ = ([], .error (.path .denied)) ∧
      load (holding (List.replicate (Json.depthLimit + 1) '[')) ⟨.single, [['s']]⟩ =
        ([], .error (.deepNesting .list)) := by
  refine ⟨rfl, rfl, ?_⟩
  have hread : (holding (List.replicate (Json.depthLimit + 1) '[')).read ['/', 's'] =
      .ok (List.replicate (Json.depthLimit + 1) '[') := rfl
  have hdeep := Json.read_brackets []
  rw [List.append_nil] at hdeep
  rw [load_of_read hread, ofText_of_tooDeep hdeep]

end Settings

end Typeahead
