import Highlighter.Proofs.AliasTable
import Highlighter.Proofs.Text.AsciiCase

/-!
# Routes stay

Registering only ever puts a language behind the others, and its aliases are new.
So an alias or a file name that leads to a language leads there for good, and a
registry that starts with the built-in language has it to fall back on for good.
-/

set_option autoImplicit false

namespace Highlighter

namespace Registry

variable {r : Registry} {l k : Language} {name file : String}

theorem register_prefix (r : Registry) (l : Language) :
    r.languages <+: (r.register l).value.2.languages := by
  rcases r.register_cases l with ⟨_, hr⟩ | ⟨_, _, hr⟩
  · exact ⟨[], by rw [hr, List.append_nil]⟩
  · exact ⟨[l], by rw [hr, add]⟩

theorem registerAll_prefix (r : Registry) (ls : List Language) :
    r.languages <+: (r.registerAll ls).languages := by
  induction ls generalizing r with
  | nil => exact List.prefix_refl _
  | cons l ls ih => exact (r.register_prefix l).trans (ih _)

theorem Indexed.byAlias_stays (h : r.Indexed) (ls : List Language) (hl : r.byAlias name = .ok l) :
    (r.registerAll ls).byAlias name = .ok l := by
  obtain ⟨hmem, halias⟩ := h.byAlias_ok.mp hl
  exact (h.registerAll ls).byAlias_ok.mpr ⟨(r.registerAll_prefix ls).mem hmem, halias⟩

theorem forFile_stays (ls : List Language) (hl : r.forFile? file = some l) :
    (r.registerAll ls).forFile? file = some l :=
  (r.registerAll_prefix ls).find?_eq_some hl

theorem withBuiltin_eq (d : Dialect) :
    (withBuiltin d).value = empty.registerAll [(Language.builtin d).value] := rfl

theorem withBuiltin_languages (d : Dialect) :
    (withBuiltin d).value.languages = [(Language.builtin d).value] := rfl

theorem indexed_withBuiltin (d : Dialect) : (withBuiltin d).value.Indexed := by
  rw [withBuiltin_eq]
  exact indexed_empty.registerAll _

theorem fallbackAlias_toLower : fallbackAlias.toLower = fallbackAlias := by decide +kernel

/-- The alias of the built-in language in any case of its letters. -/
theorem lowercase_of_fallback (h : name.toLower = fallbackAlias) :
    Text.lowercase name = Text.lowercase fallbackAlias := by
  have hall : fallbackAlias.toList.all (fun c => c.toNat < 128) = true := by decide
  have hascii : ∀ c ∈ fallbackAlias.toList, c.toNat < 128 := by
    simpa only [List.all_eq_true, decide_eq_true_eq] using hall
  rw [Text.lowercase_of_toLower h hascii, Text.lowercase_of_toLower fallbackAlias_toLower hascii]

theorem withBuiltin_byAlias (d : Dialect) (h : name.toLower = fallbackAlias) :
    (withBuiltin d).value.byAlias name = .ok (Language.builtin d).value := by
  rw [(indexed_withBuiltin d).byAlias_ok, withBuiltin_languages]
  refine ⟨List.mem_singleton_self _, fallbackAlias, List.mem_singleton_self _, ?_⟩
  exact (lowercase_of_fallback h).symm

theorem builtin_byAlias (d : Dialect) (ls : List Language) (h : name.toLower = fallbackAlias) :
    ((withBuiltin d).value.registerAll ls).byAlias name = .ok (Language.builtin d).value :=
  (indexed_withBuiltin d).byAlias_stays ls (withBuiltin_byAlias d h)

inductive Serves (r : Registry) (fallback : Language) : Option String → Language → Prop
  | matching {file : String} {before after : List Language} {l : Language} :
      r.languages = before ++ l :: after → l.matchesFile file = true →
      (∀ k ∈ before, k.matchesFile file = false) → Serves r fallback (some file) l
  | unmatched {file : String} : (∀ k ∈ r.languages, k.matchesFile file = false) →
      Serves r fallback (some file) fallback
  | unnamed : Serves r fallback none fallback

theorem forFile_some (h : r.forFile? file = some l) : ∃ before after,
    r.languages = before ++ l :: after ∧ l.matchesFile file = true ∧
      ∀ k ∈ before, k.matchesFile file = false := by
  obtain ⟨hl, before, after, hr, hb⟩ := List.find?_eq_some_iff_append.mp h
  exact ⟨before, after, hr, hl, fun k hk => by simpa using hb k hk⟩

theorem forFile_none : r.forFile? file = none ↔ ∀ k ∈ r.languages, k.matchesFile file = false := by
  simp only [forFile?, List.find?_eq_none, Bool.not_eq_true]

/-- As long as the fallback alias leads to a language, every file does. -/
theorem route_serves {fallback : Language} (h : r.byAlias fallbackAlias = .ok fallback)
    (file : Option String) : ∃ l, (r.route none file).value = .ok l ∧ r.Serves fallback file l := by
  cases file with
  | none => exact ⟨fallback, h, .unnamed⟩
  | some file =>
    rw [route]
    dsimp only [Option.bind_some]
    cases hf : r.forFile? file with
    | none => exact ⟨fallback, h, .unmatched (forFile_none.mp hf)⟩
    | some l =>
      obtain ⟨before, after, hr, hl, hb⟩ := forFile_some hf
      exact ⟨l, rfl, .matching hr hl hb⟩

/-- Where an alias or a file name leads, it leads whatever is registered or turned
away after that. A registry that starts with the built-in language finds it for
good under its alias, in any case of the letters, and has a language for every
file. -/
theorem routes_stay (ls more : List Language) (d : Dialect) :
    let r := empty.registerAll ls
    let later := r.registerAll more
    let s := (withBuiltin d).value.registerAll more
    let builtin := (Language.builtin d).value
    (∀ name l, r.byAlias name = .ok l → later.byAlias name = .ok l) ∧
    (∀ file l, r.forFile? file = some l → later.forFile? file = some l) ∧
    (∀ name : String, name.toLower = "uwscr" → s.byAlias name = .ok builtin) ∧
    ∀ file, ∃ l, (s.route none file).value = .ok l ∧ s.Serves builtin file l := by
  intro r later s builtin
  refine ⟨?_, fun _ _ => forFile_stays more, fun _ => builtin_byAlias d more, ?_⟩
  · intro name l
    exact (indexed_empty.registerAll ls).byAlias_stays more
  · exact route_serves (builtin_byAlias d more fallbackAlias_toLower)

/-- One more language asks for a free alias and for one in use, and one matches the
files of an earlier language. -/
theorem routes_stay_contested :
    let basic : Language := ⟨"Basic", ["Bas"], ["*.bas"], .ofDialect .legacy⟩
    let clashing : Language := ⟨"Clashing", ["new", "BAS"], ["*"], .ofDialect .current⟩
    let greedy : Language := ⟨"Greedy", [], ["*.uws", "*.bas"], .ofDialect .current⟩
    let r := empty.registerAll [basic]
    let later := r.registerAll [clashing, greedy]
    let s := (withBuiltin .current).value.registerAll [clashing, greedy]
    (r.byAlias "bAS" = .ok basic ∧ later.byAlias "bAS" = .ok basic) ∧
      (r.forFile? "lib/x.bas" = some basic ∧ later.forFile? "lib/x.bas" = some basic) ∧
      "UwScR".toLower = "uwscr" ∧ s.byAlias "UwScR" = .ok (Language.builtin .current).value := by
  intro basic clashing greedy r later s
  obtain ⟨halias, hfile, hbuiltin, _⟩ := routes_stay [basic] [clashing, greedy] .current
  have ha : r.byAlias "bAS" = .ok basic := by decide +kernel
  have hf : r.forFile? "lib/x.bas" = some basic := by decide +kernel
  have hn : "UwScR".toLower = "uwscr" := by decide +kernel
  exact ⟨⟨ha, halias _ _ ha⟩, ⟨hf, hfile _ _ hf⟩, hn, hbuiltin _ hn⟩

end Registry

end Highlighter
