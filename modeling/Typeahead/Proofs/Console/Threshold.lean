import Typeahead.Console.Run
import Typeahead.Proofs.Grammar.Isolation
import Typeahead.Proofs.Settings.Loading

/-!
# The threshold of a run

The settings may give any value for the threshold.  Its text in capital letters is looked up among
the names of the levels, and a value that names none stands for warnings.  But two names that are no
levels are known as well, and a run that comes to one of them ends before it prints anything.

## Main definitions

* `Threshold.level?` — the level of a name.
* `Console.AsksGrammars` — the arguments ask for the grammars of a settings file.
* `Console.WithoutLevel` — a description of settings with its threshold left out.

## Main results

* `Threshold.ofSetting_eq_named` — the threshold of any value is that of its text.
* `Console.run_grammars` — what a run does that lists the grammars of a settings file.
* `Console.level_harmless_iff` — **the threshold in the settings leaves the list of the grammars
  alone exactly if one is asked for among the arguments or it is none of the two names.**
-/

namespace Typeahead

namespace Threshold

/-- The level of a name. -/
def level? (name : Text) : Option Nat :=
  (levels.find? fun (level, _) => level.toList = name).map fun (_, value) => value

/-- The names that are known: those of the levels and the two that are no levels. -/
def names : List Text :=
  levels.map (fun (level, _) => level.toList) ++ taken.map fun (other, _) => other.toList

variable {c : Char} {t name : Text}

/-- A character that no name has, and that stays what it is in capital letters. -/
def Foreign (c : Char) : Prop := Text.plainCapitals c = [c] ∧ ∀ name ∈ names, c ∉ name

instance (c : Char) : Decidable (Foreign c) := inferInstanceAs (Decidable (_ ∧ _))

theorem foreign_digitChar (n : Nat) : Foreign (Nat.digitChar (n % 10)) := by
  have h : ∀ d : Fin 10, Foreign (Nat.digitChar d) := by decide
  exact h ⟨n % 10, Nat.mod_lt n (by decide)⟩

/-- **The threshold of a name** is that of its level, or else that of warnings, but for the two
names that are no levels. -/
theorem named_eq (name : Text) :
    named name =
      if name = "BASIC_FORMAT".toList then .error .layoutThreshold
      else if name = "_STYLES".toList then .error .styleThreshold
      else .ok ((level? name).getD warning) := by
  split
  next h => subst h; rfl
  next hlayout =>
    split
    next h => subst h; rfl
    next hstyle =>
      have htaken : (taken.find? fun (other, _) => other.toList = name) = none := by
        refine List.find?_eq_none.mpr fun entry hentry heq => ?_
        have hname := of_decide_eq_true heq
        rcases List.mem_cons.mp hentry with rfl | hentry
        · exact hlayout hname.symm
        · obtain rfl := List.mem_singleton.mp hentry
          exact hstyle hname.symm
      unfold named level?
      rw [htaken]
      cases levels.find? fun (level, _) => level.toList = name <;> rfl

theorem named_of_not_mem (h : name ∉ names) : named name = .ok warning := by
  obtain ⟨hlevels, htaken⟩ := not_or.mp (mt List.mem_append.mpr h)
  have hlevel : level? name = none := by
    refine Option.map_eq_none_iff.mpr (List.find?_eq_none.mpr fun entry hentry heq => hlevels ?_)
    exact List.mem_map.mpr ⟨entry, hentry, of_decide_eq_true heq⟩
  have hother {other : Text} (hmem : other ∈ taken.map fun (other, _) => other.toList) :
      name ≠ other := fun heq => htaken (heq ▸ hmem)
  rw [named_eq, if_neg (hother (by decide)), if_neg (hother (by decide)), hlevel]
  rfl

/-- A text with a foreign character names nothing. -/
theorem named_of_foreign (hc : Foreign c) (h : c ∈ t) : named t.toCapital = .ok warning := by
  refine named_of_not_mem fun hname => hc.2 _ hname ?_
  refine List.mem_flatMap.mpr ⟨c, h, ?_⟩
  rw [hc.1]
  exact List.mem_singleton_self c

theorem digitChar_mem_ofNat (n : Nat) : Nat.digitChar (n % 10) ∈ Text.ofNat n := by
  unfold Text.ofNat
  rcases Nat.lt_or_ge n 10 with hlt | hge
  · rw [Nat.toDigits_of_lt_base hlt, Nat.mod_eq_of_lt hlt]
    exact List.mem_singleton_self _
  · rw [Nat.toDigits_of_base_le (by decide) hge]
    simp

theorem named_ofInt (n : Int) : named (Text.ofInt n).toCapital = .ok warning := by
  cases n with
  | ofNat n => exact named_of_foreign (foreign_digitChar n) (digitChar_mem_ofNat n)
  | negSucc n =>
    have hminus : Foreign '-' := by decide
    exact named_of_foreign hminus List.mem_cons_self

theorem point_mem_plain (digits : Text) (point : Int) : '.' ∈ Binary64.plain digits point := by
  unfold Binary64.plain
  split
  · simp
  · split <;> simp

theorem sign_mem_scientific (layout : FloatLayout) (digits : Text) (exponent : Int) :
    (if exponent < 0 then '-' else '+') ∈ Binary64.scientific layout digits exponent :=
  List.mem_append_right _ (List.mem_cons_of_mem _ List.mem_cons_self)

/-- The text of a finite number has a point or the sign of an exponent. -/
theorem named_render (x : Binary64) :
    named (x.render Json.spelledFloats).toCapital = .ok warning := by
  have hpoint : Foreign '.' := by decide
  cases x with
  | nan => rfl
  | infinite negative => cases negative <;> rfl
  | finite negative significand exponent =>
    simp only [Binary64.render]
    generalize (if negative = true then ['-'] else []) = sign
    split
    next => exact named_of_foreign hpoint (by simp)
    next =>
      split
      next => exact named_of_foreign hpoint (List.mem_append_right _ (point_mem_plain _ _))
      next =>
        refine named_of_foreign ?_ (List.mem_append_right _ (sign_mem_scientific _ _ _))
        split <;> decide

/-- **The threshold of any value is that of its text** in capital letters. -/
theorem ofSetting_eq_named (v : Json) : ofSetting v = named v.spelling.toCapital := by
  cases v with
  | text t => rfl
  | null => rfl
  | bool b => cases b <;> rfl
  | int n => exact (named_ofInt n).symm
  | float x => exact (named_render x).symm
  | list items =>
    have hopen : Foreign '[' := by decide
    exact (named_of_foreign hopen List.mem_cons_self).symm
  | object members =>
    have hopen : Foreign '\x7b' := by decide
    exact (named_of_foreign hopen List.mem_cons_self).symm

end Threshold

namespace Console

variable {w w' : World} {arguments arguments' : List Text} {members members' : List (Text × Json)}
  {s : Settings}

/-! ### Listing the grammars -/

/-- The arguments ask for the grammars of a settings file, whose text is that of an object. -/
def AsksGrammars (w : World) (arguments : List Text) (members : List (Text × Json)) : Prop :=
  ∃ config content, (Request.ofArguments w arguments).request = .ok (.task (.grammars config)) ∧
    w.read (configPath w config).toText = .ok content ∧
    Json.read content = .ok (.object members)

/-- **A run that lists grammars** comes to a threshold and prints them, or it comes to none and ends
before it prints anything. -/
theorem run_grammars (h : AsksGrammars w arguments members)
    (hs : (Settings.ofJson (.object members)).2 = .ok s) :
    ∃ early notices, run w arguments =
      match thresholdFor (Request.ofArguments w arguments).threshold s with
      | .error fault => failed early notices fault
      | .ok threshold =>
        printed threshold (notices ++ passing threshold (Context.ofSettings w s none).journal)
          (listing (Grammar.load s.commands).grammars) := by
  obtain ⟨config, content, hrequest, hread, hjson⟩ := h
  have hload : Settings.load w (configPath w config) =
      ((Settings.ofJson (.object members)).1, .ok s) := by
    rw [Settings.load_of_read hread, Settings.ofText_of_read hjson, hs]
  have hrun : run w arguments =
      runTask .kept w (Request.ofArguments w arguments).threshold (.grammars config) := by
    unfold run runInto
    dsimp only
    rw [hrequest]
  rw [hrun, runTask, Task.config, hload]
  refine ⟨(Request.ofArguments w arguments).threshold.getD Threshold.warning,
    passing ((Request.ofArguments w arguments).threshold.getD Threshold.warning)
      (Settings.ofJson (.object members)).1, ?_⟩
  dsimp only
  cases thresholdFor (Request.ofArguments w arguments).threshold s with
  | error fault => rfl
  | ok threshold =>
    -- Warnings that are only kept do not end the run.
    have hkept : Grammar.loadInto (Sink.kept.under threshold) Grammar.ofJson s.commands =
        Grammar.load s.commands := by rw [Sink.under_kept, Grammar.load]
    dsimp only
    rw [hkept, Grammar.fault_load]
    rfl

/-- The threshold of a run is the one that is asked for, or else that of the name in the settings,
which is none for two names. -/
theorem thresholdFor_cases (asked : Option Nat) (s : Settings) :
    let name := s.level.spelling.toCapital
    ((asked ≠ none ∨ name ≠ "BASIC_FORMAT".toList ∧ name ≠ "_STYLES".toList) ∧
      thresholdFor asked s = .ok (asked.getD ((Threshold.level? name).getD Threshold.warning))) ∨
    (asked = none ∧ (name = "BASIC_FORMAT".toList ∨ name = "_STYLES".toList)) ∧
      ∃ fault, thresholdFor asked s = .error fault ∧
        (fault = .layoutThreshold ∨ fault = .styleThreshold) := by
  intro name
  cases asked with
  | some threshold => exact .inl ⟨.inl nofun, rfl⟩
  | none =>
    have hnamed : thresholdFor none s = Threshold.named name :=
      Threshold.ofSetting_eq_named s.level
    -- What is found under the name: one of the two names that are no levels, or else a level.
    rw [hnamed, Threshold.named_eq]
    by_cases hlayout : name = "BASIC_FORMAT".toList
    · rw [if_pos hlayout]
      exact .inr ⟨⟨rfl, .inl hlayout⟩, _, rfl, .inl rfl⟩
    · rw [if_neg hlayout]
      by_cases hstyle : name = "_STYLES".toList
      · rw [if_pos hstyle]
        exact .inr ⟨⟨rfl, .inr hstyle⟩, _, rfl, .inr rfl⟩
      · rw [if_neg hstyle]
        exact .inl ⟨.inr ⟨hlayout, hstyle⟩, rfl⟩

/-! ### The settings without a threshold -/

/-- The members of a description of settings, but for the threshold, which is not there. -/
structure WithoutLevel (members members' : List (Text × Json)) : Prop where
  none : Json.find? "logLevel".toList members' = none
  same : ∀ key, key ≠ "logLevel".toList → Json.find? key members' = Json.find? key members

/-- The threshold in the settings has a part in nothing but the threshold. -/
theorem WithoutLevel.ofJson_eq (h : WithoutLevel members members')
    (hs : (Settings.ofJson (.object members)).2 = .ok s) :
    (Settings.ofJson (.object members')).2 = .ok { s with level := Settings.default.level } := by
  obtain ⟨hcapacity, hcommands, hsearchPath, -⟩ := Settings.ofJson_object_eq_ok_iff.mp hs
  refine Settings.ofJson_object_eq_ok_iff.mpr ⟨?_, ?_, ?_, ?_⟩
  · rw [h.same _ (by decide)]
    exact hcapacity
  · rw [h.same _ (by decide)]
    exact hcommands
  · rw [h.same _ (by decide)]
    exact hsearchPath
  · rw [h.none]
    rfl

/-- A run without a threshold in the settings ends well and prints the grammars. -/
theorem run_without_level (h : AsksGrammars w arguments members')
    (hwithout : WithoutLevel members members')
    (hs : (Settings.ofJson (.object members)).2 = .ok s) :
    (run w arguments).exitCode = 0 ∧
      (run w arguments).output = listing (Grammar.load s.commands).grammars := by
  obtain ⟨early, notices, hrun⟩ := run_grammars h (hwithout.ofJson_eq hs)
  rw [hrun]
  cases (Request.ofArguments w arguments).threshold <;> exact ⟨rfl, rfl⟩

/-- A world with a settings file that gives a threshold and no grammars. -/
def configured (level : String) : World where
  files := ⟨[([['c']], .file ⟨false, true,
    "\x7b\"logLevel\": \"".toList ++ level.toList ++ "\", \"commands\": []\x7d".toList⟩)]⟩
  workingDirectory := ['/']
  environment := ⟨['/'], none, none, none⟩

/-- **The threshold in the settings leaves the list of the grammars alone exactly if one is asked
for among the arguments or it is none of two names.**  Then the run ends well, prints what it prints
without a threshold in the settings, and comes to the threshold that is asked for, else to that of
the level named, and else to that of warnings.  A run that comes to one of the two names ends before
it prints anything. -/
theorem level_harmless_iff (h : AsksGrammars w arguments members)
    (hs : (Settings.ofJson (.object members)).2 = .ok s) :
    let asked := (Request.ofArguments w arguments).threshold
    let name := s.level.spelling.toCapital
    let r := run w arguments
    ((r.exitCode = 0 ∧
      (∀ w' arguments' members', AsksGrammars w' arguments' members' →
        WithoutLevel members members' →
        (run w' arguments').exitCode = 0 ∧ r.output = (run w' arguments').output) ∧
      r.threshold = asked.getD ((Threshold.level? name).getD Threshold.warning)) ↔
        asked ≠ none ∨ name ≠ "BASIC_FORMAT".toList ∧ name ≠ "_STYLES".toList) ∧
    (asked = none ∧ (name = "BASIC_FORMAT".toList ∨ name = "_STYLES".toList) →
      r.exitCode = 1 ∧ r.output = [] ∧
        (r.fault = some .layoutThreshold ∨ r.fault = some .styleThreshold)) := by
  intro asked name r
  obtain ⟨early, notices, hrun⟩ := run_grammars h hs
  rcases thresholdFor_cases asked s with ⟨hharmless, hthreshold⟩ | ⟨hstops, fault, hfault, hwhy⟩
  -- The name is harmless: the run gets as far as the lines it prints.
  · rw [hthreshold] at hrun
    change r = _ at hrun
    refine ⟨iff_of_true ⟨?_, ?_, ?_⟩ hharmless, ?_⟩
    · rw [hrun]
      rfl
    · intro w' arguments' members' h' hwithout
      obtain ⟨hexit, houtput⟩ := run_without_level h' hwithout hs
      rw [hrun, houtput]
      exact ⟨hexit, rfl⟩
    · rw [hrun]
      rfl
    · rintro ⟨hasked, hname⟩
      rcases hharmless with hne | ⟨hlayout, hstyle⟩
      · exact absurd hasked hne
      · exact absurd hname (not_or.mpr ⟨hlayout, hstyle⟩)
  -- The name stops the run before anything is printed.
  · rw [hfault] at hrun
    change r = failed early notices fault at hrun
    have hexit : r.exitCode = 1 := by
      rw [hrun]
      rfl
    refine ⟨iff_of_false ?_ ?_, fun _ => ⟨hexit, ?_, ?_⟩⟩
    · rintro ⟨hzero, -⟩
      rw [hexit] at hzero
      cases hzero
    · rintro (hne | ⟨hlayout, hstyle⟩)
      · exact hne hstops.1
      · exact hstops.2.elim hlayout hstyle
    · rw [hrun]
      rfl
    · rw [hrun]
      exact hwhy.imp (congrArg some) (congrArg some)

/-- The level of information by its name in small letters. -/
theorem level_harmless_iff_sample :
    let arguments := ["grammars".toList, "--config".toList, "/c".toList]
    let members := [("logLevel".toList, Json.text "info".toList), ("commands".toList, .list [])]
    AsksGrammars (configured "info") arguments members ∧
      (Settings.ofJson (.object members)).2 =
        .ok { Settings.default with level := .text "info".toList, commands := [] } ∧
      (run (configured "info") arguments).exitCode = 0 ∧
      (run (configured "info") arguments).threshold = 20 := by
  intro arguments members
  have hasks : AsksGrammars (configured "info") arguments members :=
    ⟨some "/c".toList, _, rfl, rfl, rfl⟩
  have hs : (Settings.ofJson (.object members)).2 =
      .ok { Settings.default with level := .text "info".toList, commands := [] } := rfl
  obtain ⟨hexit, -, hthreshold⟩ :=
    (level_harmless_iff hasks hs).1.mpr (.inr ⟨by decide, by decide⟩)
  exact ⟨hasks, hs, hexit, hthreshold⟩

/-- **Two names in the settings stop a run**: the file is in order, and nothing is printed. -/
theorem level_stops :
    let arguments := ["grammars".toList, "--config".toList, "/c".toList]
    let members (level : String) :=
      [("logLevel".toList, Json.text level.toList), ("commands".toList, .list [])]
    (∀ level, (Settings.ofJson (.object (members level))).2 =
        .ok { Settings.default with level := .text level.toList, commands := [] }) ∧
      AsksGrammars (configured "basic_format") arguments (members "basic_format") ∧
      (run (configured "basic_format") arguments).exitCode = 1 ∧
      (run (configured "basic_format") arguments).fault = some .layoutThreshold ∧
      AsksGrammars (configured "_styles") arguments (members "_styles") ∧
      (run (configured "_styles") arguments).exitCode = 1 ∧
      (run (configured "_styles") arguments).fault = some .styleThreshold := by
  intro arguments members
  refine ⟨fun level => rfl, ?_, rfl, rfl, ?_, rfl, rfl⟩
  · exact ⟨some "/c".toList, _, rfl, rfl, rfl⟩
  · exact ⟨some "/c".toList, _, rfl, rfl, rfl⟩

end Console

end Typeahead
