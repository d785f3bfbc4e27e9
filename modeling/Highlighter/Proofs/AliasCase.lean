import Highlighter.Proofs.AliasTable
import Highlighter.Proofs.Text.AsciiCase
import Highlighter.Proofs.Text.SettledCase

/-!
# The case of aliases

A look-up goes by the lower case of a name, and the registry lists aliases in lower
case. Lower case is final, so each alias that is listed is found, and leads to the
language that was registered under it; and names with the same lower case lead to
the same language or to none.
-/

set_option autoImplicit false

namespace Highlighter

namespace Registry

variable {r : Registry} {l : Language} {key name : String}

def RegisteredUnder (ls : List Language) (l : Language) (key : String) : Prop :=
  ∃ before after, ls = before ++ l :: after ∧
    ((empty.registerAll before).register l).value.1 = none ∧ key ∈ keysOf l

/-- The language that a name leads to is that of its lower case in the index. -/
theorem byAlias_toOption (r : Registry) (name : String) :
    (r.byAlias name).toOption = r.index[Text.lowercase name]?.bind (r.languages[·]?) := by
  rw [byAlias]
  cases r.index[Text.lowercase name]?.bind (r.languages[·]?) <;> rfl

theorem lowercase_of_mem_keysOf (h : key ∈ keysOf l) : Text.lowercase key = key := by
  obtain ⟨a, _, rfl⟩ := mem_keysOf.mp h
  exact Text.lowercase_lowercase a

theorem registeredUnder_iff {ls : List Language} : RegisteredUnder ls l key ↔
    l ∈ (empty.registerAll ls).languages ∧ key ∈ keysOf l := by
  have hempty : l ∉ empty.languages := List.not_mem_nil
  rw [mem_registerAll, RegisteredUnder]
  constructor
  · rintro ⟨before, after, hls, hf, hkey⟩
    exact ⟨.inr ⟨before, after, hls, hf⟩, hkey⟩
  · rintro ⟨hl, hkey⟩
    obtain ⟨before, after, hls, hf⟩ := hl.resolve_left hempty
    exact ⟨before, after, hls, hf, hkey⟩

/-- What was registered under a key is found under it. -/
theorem byAlias_of_registeredUnder {ls : List Language} (h : RegisteredUnder ls l key) :
    (empty.registerAll ls).byAlias key = .ok l := by
  obtain ⟨hl, hkey⟩ := registeredUnder_iff.mp h
  refine (indexed_empty.registerAll ls).byAlias_ok.mpr ⟨hl, ?_⟩
  rw [lowercase_of_mem_keysOf hkey]
  exact mem_keysOf.mp hkey

theorem Indexed.lowercase_mem_aliases (h : r.Indexed) :
    Text.lowercase name ∈ r.aliases ↔ ∃ l, r.byAlias name = .ok l := by
  simp only [h.mem_aliases, h.byAlias_ok]

/-- Each alias that is listed leads to the one language that was registered under it.
A name is found exactly if its lower case is listed, and leads where its lower case
leads and where any name leads that differs from it in the case of ASCII letters. -/
theorem listing_and_lookup (ls : List Language) :
    let r := empty.registerAll ls
    (∀ key ∈ r.aliases, ∃ l, r.byAlias key = .ok l ∧ ∀ k, RegisteredUnder ls k key ↔ k = l) ∧
    (∀ name, Text.lowercase name ∈ r.aliases ↔ ∃ l, r.byAlias name = .ok l) ∧
    (∀ name, (r.byAlias (Text.lowercase name)).toOption = (r.byAlias name).toOption) ∧
    ∀ name other : String, name.toLower = other.toLower →
      (r.byAlias name).toOption = (r.byAlias other).toOption := by
  intro r
  have h : r.Indexed := indexed_empty.registerAll ls
  refine ⟨?_, fun _ => h.lowercase_mem_aliases, ?_, ?_⟩
  · intro key hkey
    obtain ⟨l, hl, ha⟩ := h.mem_aliases.mp hkey
    have hunder : RegisteredUnder ls l key := registeredUnder_iff.mpr ⟨hl, mem_keysOf.mpr ha⟩
    have hfound := byAlias_of_registeredUnder hunder
    refine ⟨l, hfound, fun k => ⟨fun hk => ?_, ?_⟩⟩
    · exact Except.ok.inj ((byAlias_of_registeredUnder hk).symm.trans hfound)
    · rintro rfl
      exact hunder
  · intro name
    rw [byAlias_toOption, byAlias_toOption, Text.lowercase_lowercase]
  · intro name other hcase
    rw [byAlias_toOption, byAlias_toOption, ← Text.lowercase_toLower name, hcase,
      Text.lowercase_toLower]

/-- A capital sigma that ends a word and one that does not, a dotted capital I, which
becomes two characters, and ASCII letters on both sides of a sigma. -/
theorem listing_and_lookup_sigma :
    let odos : Language := ⟨"Odos", ["ΟΔΟΣ", "İ", "aΣb"], ["*.odos"], .ofDialect .legacy⟩
    let clashing : Language := ⟨"Clashing", ["new", "οδοΣ"], ["*"], .ofDialect .current⟩
    let r := empty.registerAll [odos, clashing]
    r.aliases = ["aσb", "i\u0307", "οδος"] ∧
      (∃ l, r.byAlias "οδος" = .ok l ∧ ∀ k, RegisteredUnder [odos, clashing] k "οδος" ↔ k = l) ∧
      Text.lowercase "ΟΔΟΣ" = "οδος" ∧
      (r.byAlias "οδος").toOption = (r.byAlias "ΟΔΟΣ").toOption ∧
      (r.byAlias "i\u0307").toOption = (r.byAlias "İ").toOption ∧
      "AΣb".toLower = "aΣB".toLower ∧
      (r.byAlias "AΣb").toOption = (r.byAlias "aΣB").toOption ∧
      r.byAlias "aΣB" = .ok odos := by
  intro odos clashing r
  obtain ⟨hlisted, _, hlower, hcase⟩ := listing_and_lookup [odos, clashing]
  have haliases : r.aliases = ["aσb", "i\u0307", "οδος"] := by decide +kernel
  have hsigma : Text.lowercase "ΟΔΟΣ" = "οδος" := by decide +kernel
  have hdotted : Text.lowercase "İ" = "i\u0307" := by decide +kernel
  have hascii : "AΣb".toLower = "aΣB".toLower := by
    rw [← String.toList_inj, Text.toList_toLower, Text.toList_toLower]
    decide
  have hodos := hlower "ΟΔΟΣ"
  have hi := hlower "İ"
  rw [hsigma] at hodos
  rw [hdotted] at hi
  refine ⟨haliases, hlisted _ ?_, hsigma, hodos, hi, hascii, hcase _ _ hascii, ?_⟩
  · rw [show (empty.registerAll [odos, clashing]).aliases = _ from haliases]
    decide
  · decide +kernel

end Registry

end Highlighter
