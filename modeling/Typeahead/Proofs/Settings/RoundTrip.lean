import Typeahead.Proofs.Json.RoundTrip
import Typeahead.Proofs.World.Writing
import Typeahead.Settings.Store

/-!
# Settings saved and loaded

Settings that are saved and loaded are the same settings.  What has to be known of them is that
their description can be read back; everything else, that the file is found again and that the
description stands for the settings, holds of all settings.

## Main definitions

* `Settings.Storable` — the settings whose description can be read back.

## Main results

* `Settings.ofJson_toJson` — the description of settings stands for these settings.
* `Settings.Storable.toJson` — the description of storable settings can be read back.
* `Settings.load_save` — **settings that are saved and loaded are the same settings.**
-/

namespace Typeahead

namespace Settings

open Json (depthLimit)

variable {s : Settings}

/-- Settings that can be read back: the level is a text, the search path is a text or that of the
environment, no integer has more digits than are read, and the lists and objects in the commands
leave room for the list of the commands and the object around it. -/
structure Storable (s : Settings) : Prop where
  capacity : (Text.ofNat s.capacity.natAbs).length ≤ Numeral.digitLimit
  level : ∃ name, s.level = .text name
  searchPath : s.searchPath = .null ∨ ∃ directories, s.searchPath = .text directories
  commands : ∀ command ∈ s.commands, Json.Storable (depthLimit - 2) command

/-- The description of settings stands for these settings. -/
theorem ofJson_toJson (s : Settings) : ofJson s.toJson = ([], .ok s) := by
  obtain ⟨capacity, searchPath, level, commands⟩ := s
  cases searchPath <;> rfl

/-- What a successful save does: it writes the description where the directory was made. -/
theorem save_eq_ok {w w' : World} {path : Path} (h : save w s path = .ok w') :
    ∃ made, w.ensureDirectory path.parent = .ok made ∧
      made.write path.toText s.content = .ok w' := by
  cases hmade : w.ensureDirectory path.parent with
  | error fault => simp [save, hmade, bind, Except.bind] at h
  | ok made => exact ⟨made, rfl, by simpa [save, hmade, bind, Except.bind] using h⟩

/-- The members that every description has, and those of the search path, can be read back. -/
theorem Storable.member (h : s.Storable) {member : Text × Json}
    (hmember : member ∈ [("bufferCapacity".toList, .int s.capacity), ("logLevel".toList, s.level),
      ("commands".toList, .list s.commands)] ++ searchPathMembers s.searchPath) :
    Json.Storable (depthLimit - 2 + 1) member.2 := by
  obtain ⟨name, hname⟩ := h.level
  rcases List.mem_append.mp hmember with hmember | hmember
  · simp only [List.mem_cons, List.not_mem_nil, or_false] at hmember
    rcases hmember with rfl | rfl | rfl
    · exact .int h.capacity
    · rw [hname]
      exact .text name
    · exact .list h.commands
  · rcases h.searchPath with hpath | ⟨directories, hpath⟩ <;>
      rw [hpath] at hmember
    · cases hmember
    · rw [List.mem_singleton.mp hmember]
      exact .text directories

/-- The description of storable settings can be read back. -/
theorem Storable.toJson (h : s.Storable) : Json.Storable depthLimit s.toJson := by
  have hdepth : depthLimit = depthLimit - 2 + 1 + 1 := rfl
  rw [hdepth]
  refine .object ?_ fun member hmember => h.member hmember
  -- Only the search path may be missing among the names.
  rcases h.searchPath with hpath | ⟨directories, hpath⟩ <;> rw [hpath]
  · show ["bufferCapacity".toList, "logLevel".toList, "commands".toList].Nodup
    decide
  · show ["bufferCapacity".toList, "logLevel".toList, "commands".toList, "searchPath".toList].Nodup
    decide

/-- **Settings that are saved and loaded are the same settings**, and there is nothing to say about
it, whatever the world was and wherever the file is. -/
theorem load_save {w w' : World} {path : Path} (hs : s.Storable) (h : save w s path = .ok w') :
    load w' path = ([], .ok s) := by
  obtain ⟨made, -, hwrite⟩ := save_eq_ok h
  rw [load, World.isPresent_write hwrite]
  dsimp only
  rw [World.read_write hwrite]
  dsimp only
  rw [ofText, content, Json.read_pretty hs.toJson]
  dsimp only
  rw [ofJson_toJson]

/-- Settings with every kind of value in their commands, and with characters that are written by an
escape of one letter, by a numbered one and by two of them. -/
def sample : Settings where
  capacity := -12
  searchPath := .text "/b:/\t".toList
  level := .text "\"info\"".toList
  commands := [.object [("name".toList, .text "grün 😀".toList),
    ("args".toList, .list [.null, .bool true, .int (-7), .list [], .object []])], .text []]

theorem storable_sample : sample.Storable where
  capacity := by decide
  level := ⟨_, rfl⟩
  searchPath := .inr ⟨_, rfl⟩
  commands := by
    have hargs : ∀ {depth : Nat}, ∀ v ∈ [Json.null, .bool true, .int (-7), .list [], .object []],
        Json.Storable (depth + 1) v := by
      simp only [List.forall_mem_cons, List.not_mem_nil, false_implies, implies_true, and_true]
      exact ⟨.null, .bool true, .int (by decide), .list (by simp), .object (by simp) (by simp)⟩
    simp only [sample, List.forall_mem_cons, List.not_mem_nil, false_implies, implies_true,
      and_true]
    refine ⟨.object (by decide) ?_, .text []⟩
    simp only [List.forall_mem_cons, List.not_mem_nil, false_implies, implies_true, and_true]
    exact ⟨.text _, .list hargs⟩

/-- A world without files. -/
def bareWorld : World := ⟨.empty, ['/'], ⟨['/'], none, none, none⟩⟩

/-- The sample settings in a directory that has to be made. -/
theorem load_save_sample :
    sample.Storable ∧ ∃ w, save bareWorld sample ⟨.single, [['c'], ['s']]⟩ = .ok w ∧
      load w ⟨.single, [['c'], ['s']]⟩ = ([], .ok sample) := by
  refine ⟨storable_sample, _, rfl, ?_⟩
  exact load_save (w := bareWorld) storable_sample rfl

end Settings

end Typeahead
