import Highlighter.Proofs.Text.ByteOrder
import Highlighter.Registry

/-!
# The table of aliases

The list of languages and the index say the same, whatever was registered and
whatever was turned away: a key leads to the one language that has it among its
aliases. All answers of the registry about aliases follow from that.
-/

set_option autoImplicit false

namespace Highlighter

namespace Registry

variable {r : Registry} {l k : Language} {key name : String}

def registerAll (r : Registry) (ls : List Language) : Registry :=
  ls.foldl (fun r l => (r.register l).value.2) r

def Indexed (r : Registry) : Prop :=
  ∀ key place, r.index[key]? = some place ↔
    ∃ l, r.languages[place]? = some l ∧ key ∈ keysOf l

theorem mem_keysOf : key ∈ keysOf l ↔ ∃ a ∈ l.aliases, Text.lowercase a = key := List.mem_map

theorem getElem_indexed (index : Std.TreeMap String Nat) (place : Nat) (keys : List String)
    (key : String) :
    (indexed index place keys)[key]? = if key ∈ keys then some place else index[key]? := by
  induction keys generalizing index with
  | nil => simp [indexed]
  | cons first keys ih =>
    rw [indexed, List.foldl_cons, ← indexed, ih, Std.TreeMap.getElem?_insert]
    by_cases hk : key ∈ keys
    · simp [hk]
    · by_cases hf : first = key
      · simp [hf]
      · simp [hk, hf, Ne.symm hf]

theorem getElem_languages_add {place : Nat} : (r.add l).languages[place]? = some k ↔
    r.languages[place]? = some k ∨ place = r.size ∧ l = k := by
  rw [add, List.getElem?_append, size]
  by_cases hlt : place < r.languages.length
  · have hne : place ≠ r.languages.length := by omega
    simp [hlt, hne]
  · have hnone : r.languages[place]? = none := List.getElem?_eq_none (by omega)
    rw [if_neg hlt, hnone, List.getElem?_singleton]
    by_cases heq : place = r.languages.length
    · simp [heq]
    · have hpos : place - r.languages.length ≠ 0 := by omega
      simp [heq, hpos]

theorem index_of_clash_none (h : r.clash? l = none) (hk : key ∈ keysOf l) :
    r.index[key]? = none := by
  rw [clash?, List.find?_eq_none] at h
  have hc := h key hk
  rw [Std.TreeMap.contains_eq_isSome_getElem?] at hc
  simpa using hc

/-- An attempt fails and changes nothing, or it adds the language, of which no alias
was in use. -/
theorem register_cases (r : Registry) (l : Language) :
    ((r.register l).value.1 ≠ none ∧ (r.register l).value.2 = r) ∨
      ((r.register l).value.1 = none ∧ r.clash? l = none ∧ (r.register l).value.2 = r.add l) := by
  rw [register]
  cases hc : r.clash? l with
  | some key => exact .inl ⟨Option.some_ne_none _, rfl⟩
  | none => exact .inr ⟨rfl, rfl, rfl⟩

theorem mem_register : k ∈ (r.register l).value.2.languages ↔
    k ∈ r.languages ∨ (r.register l).value.1 = none ∧ k = l := by
  rcases r.register_cases l with ⟨hf, hr⟩ | ⟨hf, _, hr⟩
  · simp [hf, hr]
  · simp [hf, hr, add]

/-- The languages are those given at the start and those of the attempts that
did not fail. -/
theorem mem_registerAll {ls : List Language} : l ∈ (r.registerAll ls).languages ↔
    l ∈ r.languages ∨ ∃ before after, ls = before ++ l :: after ∧
      ((r.registerAll before).register l).value.1 = none := by
  induction ls generalizing r with
  | nil => simp [registerAll]
  | cons k ls ih =>
    rw [registerAll, List.foldl_cons, ← registerAll, ih, mem_register]
    constructor
    · rintro ((hl | ⟨hf, rfl⟩) | ⟨before, after, rfl, hf⟩)
      · exact .inl hl
      · exact .inr ⟨[], ls, rfl, hf⟩
      · exact .inr ⟨k :: before, after, rfl, hf⟩
    · rintro (hl | ⟨before, after, hls, hf⟩)
      · exact .inl (.inl hl)
      · cases before with
        | nil =>
          obtain ⟨rfl, _⟩ := List.cons.inj hls
          exact .inl (.inr ⟨hf, rfl⟩)
        | cons b before =>
          obtain ⟨rfl, htail⟩ := List.cons.inj hls
          exact .inr ⟨before, after, htail, hf⟩

theorem indexed_empty : empty.Indexed := by
  intro key place
  simp [empty]

theorem Indexed.add (h : r.Indexed) (hc : r.clash? l = none) : (r.add l).Indexed := by
  intro key place
  simp only [getElem_languages_add]
  rw [Registry.add, getElem_indexed]
  by_cases hk : key ∈ keysOf l
  · rw [if_pos hk]
    constructor
    · intro hp
      exact ⟨l, .inr ⟨(Option.some.inj hp).symm, rfl⟩, hk⟩
    · rintro ⟨k, hp | ⟨rfl, _⟩, hkey⟩
      · have hused := (h key place).mpr ⟨k, hp, hkey⟩
        rw [index_of_clash_none hc hk] at hused
        cases hused
      · rfl
  · rw [if_neg hk, h key place]
    constructor
    · rintro ⟨k, hp, hkey⟩
      exact ⟨k, .inl hp, hkey⟩
    · rintro ⟨k, hp | ⟨_, rfl⟩, hkey⟩
      · exact ⟨k, hp, hkey⟩
      · exact absurd hkey hk

theorem Indexed.register (h : r.Indexed) (l : Language) : (r.register l).value.2.Indexed := by
  rcases r.register_cases l with ⟨_, hr⟩ | ⟨_, hc, hr⟩ <;> rw [hr]
  · exact h
  · exact h.add hc

theorem Indexed.registerAll (h : r.Indexed) (ls : List Language) : (r.registerAll ls).Indexed := by
  induction ls generalizing r with
  | nil => exact h
  | cons l ls ih => exact ih (h.register l)

/-- A key leads to a language exactly if the language has it. -/
theorem Indexed.lookup (h : r.Indexed) :
    r.index[key]?.bind (r.languages[·]?) = some l ↔ l ∈ r.languages ∧ key ∈ keysOf l := by
  rw [Option.bind_eq_some_iff]
  constructor
  · rintro ⟨place, hp, hl⟩
    obtain ⟨k, hk, hkey⟩ := (h key place).mp hp
    obtain rfl := Option.some.inj (hk.symm.trans hl)
    exact ⟨List.mem_of_getElem? hl, hkey⟩
  · rintro ⟨hl, hkey⟩
    obtain ⟨place, hp⟩ := List.mem_iff_getElem?.mp hl
    exact ⟨place, (h key place).mpr ⟨l, hp, hkey⟩, hp⟩

theorem Indexed.byAlias_ok (h : r.Indexed) : r.byAlias name = .ok l ↔
    l ∈ r.languages ∧ ∃ a ∈ l.aliases, Text.lowercase a = Text.lowercase name := by
  rw [← mem_keysOf, ← h.lookup, byAlias]
  cases r.index[Text.lowercase name]?.bind (r.languages[·]?) <;> simp

theorem Indexed.byAlias_error {fault : Fault} (h : r.Indexed) : r.byAlias name = .error fault ↔
    fault = .unknownLanguage name ∧
      ∀ l ∈ r.languages, ∀ a ∈ l.aliases, Text.lowercase a ≠ Text.lowercase name := by
  have hnone : r.index[Text.lowercase name]?.bind (r.languages[·]?) = none ↔
      ∀ l ∈ r.languages, ∀ a ∈ l.aliases, Text.lowercase a ≠ Text.lowercase name := by
    simp only [Option.eq_none_iff_forall_ne_some, ne_eq, h.lookup, mem_keysOf]
    grind
  rw [← hnone, byAlias]
  cases r.index[Text.lowercase name]?.bind (r.languages[·]?) <;> simp [eq_comm]

/-- Two languages with a key in common stand in one place. -/
theorem Indexed.disjoint (h : r.Indexed) : r.languages.Pairwise fun l k =>
    ∀ a ∈ l.aliases, ∀ b ∈ k.aliases, Text.lowercase a ≠ Text.lowercase b := by
  rw [List.pairwise_iff_getElem]
  intro m n hm hn hlt a ha b hb heq
  have hfirst := (h (Text.lowercase a) m).mpr
    ⟨_, List.getElem?_eq_getElem hm, mem_keysOf.mpr ⟨a, ha, rfl⟩⟩
  have hsecond := (h (Text.lowercase a) n).mpr
    ⟨_, List.getElem?_eq_getElem hn, mem_keysOf.mpr ⟨b, hb, heq.symm⟩⟩
  have hsame := Option.some.inj (hfirst.symm.trans hsecond)
  omega

theorem Indexed.inRange (h : r.Indexed) {place : Nat} (hp : r.index[key]? = some place) :
    place < r.size := by
  obtain ⟨l, hl, _⟩ := (h key place).mp hp
  exact (List.getElem?_eq_some_iff.mp hl).1

theorem aliases_sorted (r : Registry) : r.aliases.Pairwise (· < ·) := by
  have hkeys : r.index.keys.Pairwise fun a b => compare a b = .lt := Std.TreeMap.ordered_keys
  exact hkeys.imp compareOfLessAndEq_eq_lt.mp

theorem aliases_increasing (r : Registry) :
    r.aliases.Pairwise fun a b => Text.utf8 a < Text.utf8 b :=
  r.aliases_sorted.imp Text.utf8_lt

theorem Indexed.mem_aliases (h : r.Indexed) : key ∈ r.aliases ↔
    ∃ l ∈ r.languages, ∃ a ∈ l.aliases, Text.lowercase a = key := by
  rw [aliases, Std.TreeMap.mem_keys, Std.TreeMap.mem_iff_isSome_getElem?, Option.isSome_iff_exists]
  simp only [← mem_keysOf]
  constructor
  · rintro ⟨place, hp⟩
    obtain ⟨l, hl, hkey⟩ := (h key place).mp hp
    exact ⟨l, List.mem_of_getElem? hl, hkey⟩
  · rintro ⟨l, hl⟩
    obtain ⟨place, hp, _⟩ := Option.bind_eq_some_iff.mp (h.lookup.mpr hl)
    exact ⟨place, hp⟩

structure AliasTable (r : Registry) : Prop where
  found : ∀ name l, r.byAlias name = .ok l ↔
    l ∈ r.languages ∧ ∃ a ∈ l.aliases, Text.lowercase a = Text.lowercase name
  unknown : ∀ name fault, r.byAlias name = .error fault ↔ fault = .unknownLanguage name ∧
    ∀ l ∈ r.languages, ∀ a ∈ l.aliases, Text.lowercase a ≠ Text.lowercase name
  disjoint : r.languages.Pairwise fun l k =>
    ∀ a ∈ l.aliases, ∀ b ∈ k.aliases, Text.lowercase a ≠ Text.lowercase b
  inRange : ∀ (key : String) (place : Nat), r.index[key]? = some place → place < r.size
  increasing : r.aliases.Pairwise fun a b => Text.utf8 a < Text.utf8 b
  listed : ∀ key, key ∈ r.aliases ↔
    ∃ l ∈ r.languages, ∃ a ∈ l.aliases, Text.lowercase a = key

/-- Whatever was registered and whatever failed, the languages are those of the
attempts without a fault, and the answers about aliases are those that they give. -/
theorem registerAll_aliasTable (ls : List Language) :
    (∀ l, l ∈ (empty.registerAll ls).languages ↔ ∃ before after, ls = before ++ l :: after ∧
      ((empty.registerAll before).register l).value.1 = none) ∧
    (empty.registerAll ls).AliasTable := by
  have h := indexed_empty.registerAll ls
  constructor
  · intro l
    rw [mem_registerAll]
    simp [empty]
  · exact ⟨fun _ _ => h.byAlias_ok, fun _ _ => h.byAlias_error, h.disjoint, fun _ _ => h.inRange,
      aliases_increasing _, fun _ => h.mem_aliases⟩

end Registry

end Highlighter
