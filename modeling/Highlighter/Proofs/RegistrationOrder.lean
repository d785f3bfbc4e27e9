import Mathlib.Data.List.Sort
import Mathlib.Data.String.Basic
import Highlighter.Proofs.Routes

/-!
# The order of registration

Two languages fit into a registry in either order or in none. The places in the
index depend on the order, but the answers about aliases depend only on which
languages there are. A file name is another matter: where it matches both
languages and none before them, it leads to the one that came first.
-/

set_option autoImplicit false

namespace Highlighter

namespace Registry

variable {r s : Registry} {l k : Language} {name file : String}

def TakesBoth (r : Registry) (l k : Language) : Prop :=
  (r.register l).value.1 = none ∧ ((r.register l).value.2.register k).value.1 = none

def Contested (r : Registry) (l k : Language) (file : String) : Prop :=
  l.matchesFile file = true ∧ k.matchesFile file = true ∧
    ∀ m ∈ r.languages, m.matchesFile file = false

theorem register_taken : (r.register l).value.1 = none ↔ r.clash? l = none := by
  rw [register]
  cases r.clash? l <;> simp [Logged.silent]

theorem register_of_clash_none (h : r.clash? l = none) : (r.register l).value.2 = r.add l := by
  rw [register, h]

theorem clash_none : r.clash? l = none ↔ ∀ key ∈ keysOf l, r.index[key]? = none := by
  constructor
  · intro h key hkey
    exact index_of_clash_none h hkey
  · intro h
    rw [clash?, List.find?_eq_none]
    intro key hkey
    rw [Std.TreeMap.contains_eq_isSome_getElem?, h key hkey]
    exact Bool.false_ne_true

theorem clash_add_none : (r.add l).clash? k = none ↔
    r.clash? k = none ∧ (keysOf l).Disjoint (keysOf k) := by
  rw [clash_none, clash_none]
  simp only [add, getElem_indexed]
  constructor
  · intro h
    refine ⟨fun key hkey => ?_, fun key hl hkey => ?_⟩
    · have hnone := h key hkey
      split at hnone
      · cases hnone
      · exact hnone
    · have hnone := h key hkey
      rw [if_pos hl] at hnone
      cases hnone
  · rintro ⟨h, hd⟩ key hkey
    rw [if_neg fun hl => hd hl hkey]
    exact h key hkey

theorem takesBoth_iff : r.TakesBoth l k ↔
    r.clash? l = none ∧ r.clash? k = none ∧ (keysOf l).Disjoint (keysOf k) := by
  rw [TakesBoth, register_taken]
  constructor
  · rintro ⟨hl, hk⟩
    rw [register_of_clash_none hl, register_taken, clash_add_none] at hk
    exact ⟨hl, hk⟩
  · rintro ⟨hl, hk⟩
    rw [register_of_clash_none hl, register_taken, clash_add_none]
    exact ⟨hl, hk⟩

/-- None of the conditions depends on the order. -/
theorem takesBoth_comm : r.TakesBoth l k ↔ r.TakesBoth k l := by
  rw [takesBoth_iff, takesBoth_iff, List.disjoint_comm]
  tauto

theorem TakesBoth.languages (h : r.TakesBoth l k) :
    (r.registerAll [l, k]).languages = r.languages ++ [l, k] := by
  obtain ⟨hl, hk, hd⟩ := takesBoth_iff.mp h
  rw [registerAll, List.foldl_cons, List.foldl_cons, List.foldl_nil, register_of_clash_none hl,
    register_of_clash_none (clash_add_none.mpr ⟨hk, hd⟩)]
  simp only [add, List.append_assoc, List.cons_append, List.nil_append]

theorem Indexed.byAlias_congr (h : r.Indexed) (hs : s.Indexed)
    (hm : ∀ l, l ∈ r.languages ↔ l ∈ s.languages) (name : String) :
    r.byAlias name = s.byAlias name := by
  cases hr : r.byAlias name with
  | ok l =>
    obtain ⟨hl, halias⟩ := h.byAlias_ok.mp hr
    exact (hs.byAlias_ok.mpr ⟨(hm l).mp hl, halias⟩).symm
  | error fault =>
    obtain ⟨hf, hnone⟩ := h.byAlias_error.mp hr
    exact (hs.byAlias_error.mpr ⟨hf, fun l hl => hnone l ((hm l).mpr hl)⟩).symm

theorem Indexed.aliases_congr (h : r.Indexed) (hs : s.Indexed)
    (hm : ∀ l, l ∈ r.languages ↔ l ∈ s.languages) : r.aliases = s.aliases := by
  apply r.aliases_sorted.eq_of_mem_iff s.aliases_sorted
  intro key
  simp only [h.mem_aliases, hs.mem_aliases, hm]

theorem TakesBoth.forFile (h : r.TakesBoth l k) (file : String) :
    (r.registerAll [l, k]).forFile? file =
      (r.forFile? file).or ([l, k].find? (·.matchesFile file)) := by
  rw [forFile?, h.languages, List.find?_append, forFile?]

theorem TakesBoth.forFile_comm (h : r.TakesBoth l k) (hc : ¬ r.Contested l k file) :
    (r.registerAll [l, k]).forFile? file = (r.registerAll [k, l]).forFile? file := by
  rw [h.forFile, (takesBoth_comm.mp h).forFile]
  cases hf : r.forFile? file with
  | some m => rfl
  | none =>
    cases hl : l.matchesFile file <;> cases hk : k.matchesFile file
    · simp [hl, hk]
    · simp [hl, hk]
    · simp [hl, hk]
    · exact absurd ⟨hl, hk, forFile_none.mp hf⟩ hc

theorem TakesBoth.forFile_contested (h : r.TakesBoth l k) (hc : r.Contested l k file) :
    (r.registerAll [l, k]).forFile? file = some l := by
  obtain ⟨hl, _, hnone⟩ := hc
  rw [h.forFile, forFile_none.mpr hnone, Option.none_or]
  exact List.find?_cons_of_pos hl

structure SameButContested (r ab ba : Registry) (a b : Language) : Prop where
  size : ab.size = ba.size
  aliases : ab.aliases = ba.aliases
  byAlias : ∀ name, ab.byAlias name = ba.byAlias name
  forFile : ∀ file, ¬ r.Contested a b file → ab.forFile? file = ba.forFile? file
  contested : ∀ file, r.Contested a b file →
    ab.forFile? file = some a ∧ ba.forFile? file = some b

theorem Indexed.sameButContested (hr : r.Indexed) (h : r.TakesBoth l k) :
    r.SameButContested (r.registerAll [l, k]) (r.registerAll [k, l]) l k := by
  have hother := takesBoth_comm.mp h
  have hm : ∀ m, m ∈ (r.registerAll [l, k]).languages ↔ m ∈ (r.registerAll [k, l]).languages := by
    intro m
    rw [h.languages, hother.languages]
    simp only [List.mem_append, List.mem_cons, List.not_mem_nil, or_false]
    tauto
  constructor
  · rw [size, size, h.languages, hother.languages, List.length_append, List.length_append]
    rfl
  · exact (hr.registerAll _).aliases_congr (hr.registerAll _) hm
  · exact (hr.registerAll _).byAlias_congr (hr.registerAll _) hm
  · exact fun file hc => h.forFile_comm hc
  · rintro file ⟨hl, hk, hnone⟩
    exact ⟨h.forFile_contested ⟨hl, hk, hnone⟩, hother.forFile_contested ⟨hk, hl, hnone⟩⟩

/-- Two languages are taken in one order exactly if they are taken in the other, and
then only the answer for a contested file tells the orders apart. -/
theorem registration_order (ls : List Language) (a b : Language) :
    let r := empty.registerAll ls
    (r.TakesBoth a b ↔ r.TakesBoth b a) ∧
      (r.TakesBoth a b →
        r.SameButContested (r.registerAll [a, b]) (r.registerAll [b, a]) a b) := by
  intro r
  exact ⟨takesBoth_comm, (indexed_empty.registerAll ls).sameButContested⟩

/-- Behind a language that has one of two kinds of file to itself. -/
theorem registration_order_contested :
    let first : Language := ⟨"First", ["F"], ["*.bas"], .ofDialect .current⟩
    let a : Language := ⟨"A", ["a", "A"], ["*.uws", "*.bas"], .ofDialect .current⟩
    let b : Language := ⟨"B", ["b"], ["*"], .ofDialect .legacy⟩
    let r := empty.registerAll [first]
    let ab := r.registerAll [a, b]
    let ba := r.registerAll [b, a]
    r.TakesBoth a b ∧
      (¬ r.Contested a b "x.bas" ∧ ab.forFile? "x.bas" = ba.forFile? "x.bas") ∧
      r.Contested a b "x.uws" ∧ ab.forFile? "x.uws" = some a ∧ ba.forFile? "x.uws" = some b := by
  intro first a b r ab ba
  have hboth : r.TakesBoth a b := ⟨by decide +kernel, by decide +kernel⟩
  have hfree : ¬ r.Contested a b "x.bas" := by
    rintro ⟨_, _, hnone⟩
    exact absurd (hnone first (by decide +kernel)) (by decide +kernel)
  have hcontested : r.Contested a b "x.uws" :=
    ⟨by decide +kernel, by decide +kernel, by decide +kernel⟩
  have hsame := (registration_order [first] a b).2 hboth
  exact ⟨hboth, ⟨hfree, hsame.forFile _ hfree⟩, hcontested, hsame.contested _ hcontested⟩

end Registry

end Highlighter
