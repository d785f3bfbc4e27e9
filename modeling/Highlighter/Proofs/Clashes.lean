import Highlighter.Proofs.RegistrationOrder

/-!
# Clashes

A language is turned away exactly if one of its aliases is taken: a language that
is registered already has an alias with the same lower case. What the aliases of
the new language have in common among themselves does not matter. The fault names
the first alias that is taken, and the registry stays as it was. A language that is
not turned away comes behind all others, and its aliases lead to it.
-/

set_option autoImplicit false

namespace Highlighter

namespace Registry

variable {r : Registry} {l : Language} {name key : String}

def Taken (r : Registry) (name : String) : Prop :=
  ∃ k ∈ r.languages, ∃ b ∈ k.aliases, Text.lowercase b = Text.lowercase name

def FirstTaken (r : Registry) (l : Language) (name : String) : Prop :=
  ∃ before after, l.aliases = before ++ name :: after ∧ r.Taken name ∧
    ∀ b ∈ before, ¬ r.Taken b

structure Appended (r : Registry) (l : Language) (s : Registry) : Prop where
  size : s.size = r.size + 1
  byAlias : ∀ name ∈ l.aliases, s.byAlias name = .ok l
  languages : s.languages = r.languages ++ [l]
  forFile : ∀ file, s.forFile? file =
    (r.forFile? file).or (if l.matchesFile file = true then some l else none)

theorem Indexed.contains_iff (h : r.Indexed) :
    r.index.contains (Text.lowercase name) = true ↔ r.Taken name := by
  rw [Taken, ← h.mem_aliases, aliases, Std.TreeMap.mem_keys, Std.TreeMap.contains_iff_mem]

theorem clash_eq (r : Registry) (l : Language) :
    r.clash? l = (l.aliases.find? fun a => r.index.contains (Text.lowercase a)).map
      Text.lowercase := by
  rw [clash?, keysOf, List.find?_map]
  rfl

theorem Indexed.clash_eq_some (h : r.Indexed) :
    r.clash? l = some key ↔ ∃ name, r.FirstTaken l name ∧ Text.lowercase name = key := by
  rw [clash_eq, Option.map_eq_some_iff]
  apply exists_congr
  intro name
  rw [List.find?_eq_some_iff_append, FirstTaken]
  simp only [h.contains_iff, Bool.not_eq_true', ← Bool.not_eq_true]
  tauto

theorem Indexed.clash_eq_none (h : r.Indexed) :
    r.clash? l = none ↔ ∀ name ∈ l.aliases, ¬ r.Taken name := by
  rw [clash_eq, Option.map_eq_none_iff, List.find?_eq_none]
  simp only [h.contains_iff]

theorem register_fault (r : Registry) (l : Language) :
    (r.register l).value.1 = (r.clash? l).map .duplicateAlias := by
  rw [register]
  cases r.clash? l <;> rfl

theorem Indexed.register_turnsAway (h : r.Indexed) (l : Language) :
    (r.register l).value.1 ≠ none ↔ ∃ name ∈ l.aliases, r.Taken name := by
  rw [ne_eq, register_taken, h.clash_eq_none]
  push Not
  rfl

theorem Indexed.register_names (h : r.Indexed) (l : Language) (fault : Fault) :
    (r.register l).value.1 = some fault ↔
      ∃ name, r.FirstTaken l name ∧ fault = .duplicateAlias (Text.lowercase name) := by
  rw [register_fault, Option.map_eq_some_iff]
  simp only [h.clash_eq_some]
  constructor
  · rintro ⟨_, ⟨name, hname, rfl⟩, rfl⟩
    exact ⟨name, hname, rfl⟩
  · rintro ⟨name, hname, rfl⟩
    exact ⟨_, ⟨name, hname, rfl⟩, rfl⟩

theorem Indexed.appended_add (h : r.Indexed) (hc : r.clash? l = none) :
    r.Appended l (r.add l) := by
  constructor
  · rw [size, size, Registry.add, List.length_append, List.length_singleton]
  · intro name hname
    refine (h.add hc).byAlias_ok.mpr ⟨?_, name, hname, rfl⟩
    rw [Registry.add]
    exact List.mem_append_right _ (List.mem_singleton_self l)
  · rfl
  · intro file
    rw [forFile?, Registry.add, List.find?_append, forFile?, List.find?_singleton]

/-- An attempt to register fails exactly on a clash, with the first alias that is
taken, and then it changes nothing. Otherwise the language comes last. -/
theorem register_outcome (ls : List Language) (l : Language) :
    let r := empty.registerAll ls
    let attempt := (r.register l).value
    (attempt.1 ≠ none ↔ ∃ name ∈ l.aliases, r.Taken name) ∧
    (∀ fault, attempt.1 = some fault ↔
      ∃ name, r.FirstTaken l name ∧ fault = .duplicateAlias (Text.lowercase name)) ∧
    (attempt.1 ≠ none → attempt.2 = r) ∧
    (attempt.1 = none → r.Appended l attempt.2) := by
  intro r attempt
  have h : r.Indexed := indexed_empty.registerAll ls
  refine ⟨h.register_turnsAway l, h.register_names l, ?_, ?_⟩
  · intro hf
    rcases r.register_cases l with ⟨_, hr⟩ | ⟨hnone, _⟩
    · exact hr
    · exact absurd hnone hf
  · intro hf
    have hc := register_taken.mp hf
    have hadd : attempt.2 = r.add l := register_of_clash_none hc
    rw [hadd]
    exact h.appended_add hc

/-- The third alias of one language is taken in other case; another language repeats
an alias of its own. -/
theorem register_outcome_clash :
    let basic : Language := ⟨"Basic", ["B", "Bas"], ["*.bas"], .ofDialect .legacy⟩
    let clashing : Language := ⟨"Clashing", ["new", "NEW", "BAS", "b"], ["*"], .ofDialect .current⟩
    let twice : Language := ⟨"Twice", ["new", "NEW"], ["*"], .ofDialect .current⟩
    let r := empty.registerAll [basic]
    let refused := (r.register clashing).value
    let taken := (r.register twice).value
    (refused.1 = some (.duplicateAlias "bas") ∧ refused.2 = r) ∧
      taken.1 = none ∧ r.Appended twice taken.2 ∧ taken.2.byAlias "NEW" = .ok twice := by
  intro basic clashing twice r refused taken
  obtain ⟨_, _, hstays, _⟩ := register_outcome [basic] clashing
  obtain ⟨_, _, _, happended⟩ := register_outcome [basic] twice
  have hrefused : refused.1 = some (.duplicateAlias "bas") := by decide +kernel
  have htaken : taken.1 = none := by decide +kernel
  have hlast := happended htaken
  have hchanged : refused.2 = r := hstays (by rw [hrefused]; exact Option.some_ne_none _)
  exact ⟨⟨hrefused, hchanged⟩, htaken, hlast, hlast.byAlias _ (by decide)⟩

end Registry

end Highlighter
