import Mathlib.Data.List.TakeWhile
import Highlighter.Language
import Highlighter.Proofs.Globs

/-!
# Base names

Only the base name of a file decides which patterns match it: what stands behind the
last separator, of either kind, or the whole path if it has none. Every path has
exactly one. A language matches a file only if one of its patterns matches the whole
base name, and if that has no `*`, whenever one does.
-/

set_option autoImplicit false

namespace Highlighter

def Undivided (name : String) : Prop := '/' ∉ name.toList ∧ '\\' ∉ name.toList

inductive IsBaseName : String → String → Prop
  | whole {name : String} : Undivided name → IsBaseName name name
  | behind {directory name : String} {separator : Char} : separator = '/' ∨ separator = '\\' →
      Undivided name → IsBaseName (directory ++ String.singleton separator ++ name) name

theorem isPathSeparator_iff {c : Char} : isPathSeparator c = true ↔ c = '/' ∨ c = '\\' := by
  simp [isPathSeparator]

theorem undivided_iff {name : String} :
    Undivided name ↔ ∀ c ∈ name.toList.reverse, isPathSeparator c = false := by
  simp only [List.mem_reverse, ← Bool.not_eq_true, isPathSeparator_iff, not_or]
  constructor
  · rintro ⟨hslash, hbackslash⟩ c hc
    exact ⟨fun h => hslash (h ▸ hc), fun h => hbackslash (h ▸ hc)⟩
  · intro h
    exact ⟨fun hc => (h _ hc).1 rfl, fun hc => (h _ hc).2 rfl⟩

theorem IsBaseName.baseName_eq {file name : String} (h : IsBaseName file name) :
    baseName file = name := by
  cases h with
  | whole hname =>
    have hall := undivided_iff.mp hname
    rw [baseName, List.takeWhile_eq_self_iff.mpr (by simpa using hall), List.reverse_reverse,
      String.ofList_toList]
  | @behind directory name separator hsep hname =>
    have hall := undivided_iff.mp hname
    have hback : (directory ++ String.singleton separator ++ name).toList.reverse =
        name.toList.reverse ++ separator :: directory.toList.reverse := by
      simp
    rw [baseName, hback, List.takeWhile_append_of_pos (by simpa using hall),
      List.takeWhile_cons_of_neg (by simpa using isPathSeparator_iff.mpr hsep), List.append_nil,
      List.reverse_reverse, String.ofList_toList]

theorem exists_isBaseName (file : String) : ∃ name, IsBaseName file name := by
  -- Read backwards, the first separator of the path is its last.
  cases h : file.toList.reverse.find? isPathSeparator with
  | none =>
    refine ⟨file, .whole (undivided_iff.mpr fun c hc => ?_)⟩
    simpa using List.find?_eq_none.mp h c hc
  | some separator =>
    obtain ⟨hsep, name, before, hcut, hname⟩ := List.find?_eq_some_iff_append.mp h
    have hfile : file = String.ofList before.reverse ++ String.singleton separator ++
        String.ofList name.reverse := by
      apply String.toList_inj.mp
      rw [← List.reverse_reverse file.toList, hcut]
      simp
    refine ⟨String.ofList name.reverse, ?_⟩
    rw [hfile]
    exact .behind (isPathSeparator_iff.mp hsep) (undivided_iff.mpr (by simpa using hname))

/-- The base name of a path is the only one. -/
theorem isBaseName_iff {file name : String} : IsBaseName file name ↔ name = baseName file := by
  constructor
  · intro h
    exact h.baseName_eq.symm
  · rintro rfl
    obtain ⟨name, h⟩ := exists_isBaseName file
    rw [h.baseName_eq]
    exact h

def Language.HasPatternFor (l : Language) (name : String) : Prop :=
  ∃ p ∈ l.filenames, Glob.Matches p.toList name.toList

theorem Language.matchesFile_fits (l : Language) (file : String) :
    l.matchesFile file = true ↔
      ∃ p ∈ l.filenames, Glob.Fits p.toList (baseName file).toList := by
  simp only [matchesFile, List.any_eq_true, globMatches_eq_true]

/-- Every path has one base name, and a language matches the path as it matches any
other with that base name. It does not match without a pattern for the base name, and
does not fail to match with one unless there is a `*` in the base name. -/
theorem Language.matchesFile_baseName (l : Language) (file : String) :
    ∃ name, (∀ other, IsBaseName file other ↔ other = name) ∧
      (∀ other, IsBaseName other name → l.matchesFile other = l.matchesFile file) ∧
      (l.matchesFile file = true → l.HasPatternFor name) ∧
      ('*' ∉ name.toList → (l.matchesFile file = true ↔ l.HasPatternFor name)) := by
  have hsound : l.matchesFile file = true → l.HasPatternFor (baseName file) := by
    rw [matchesFile_fits]
    rintro ⟨p, hp, hfits⟩
    exact ⟨p, hp, hfits.isMatch⟩
  refine ⟨baseName file, fun other => isBaseName_iff, fun other hother => ?_, hsound,
    fun hstar => ⟨hsound, ?_⟩⟩
  · rw [matchesFile, matchesFile, hother.baseName_eq]
  · rw [matchesFile_fits]
    rintro ⟨p, hp, hmatch⟩
    exact ⟨p, hp, hmatch.fits hstar⟩

/-- Separators of both kinds, and a pattern that matches a directory only. -/
theorem Language.matchesFile_baseName_mixed :
    let l : Language := ⟨"Notes", [], ["?.txt", "*.uw?"], .current⟩
    IsBaseName "a.txt/b\\あ.uws" "あ.uws" ∧ '*' ∉ "あ.uws".toList ∧
      l.matchesFile "a.txt/b\\あ.uws" = true ∧ l.HasPatternFor "あ.uws" ∧
      l.matchesFile "a.txt/" = false ∧ ¬ l.HasPatternFor "" := by
  intro l
  have hname : baseName "a.txt/b\\あ.uws" = "あ.uws" := by decide +kernel
  have hempty : baseName "a.txt/" = "" := by decide +kernel
  have hmatch : l.matchesFile "a.txt/b\\あ.uws" = true := by decide +kernel
  have hnot : l.matchesFile "a.txt/" = false := by decide +kernel
  have hstar : '*' ∉ "あ.uws".toList := by decide
  obtain ⟨name, hone, _, hpattern, _⟩ := l.matchesFile_baseName "a.txt/b\\あ.uws"
  obtain rfl : "あ.uws" = name := (hone _).mp (isBaseName_iff.mpr hname.symm)
  obtain ⟨other, hother, _, _, hiff⟩ := l.matchesFile_baseName "a.txt/"
  obtain rfl : "" = other := (hother _).mp (isBaseName_iff.mpr hempty.symm)
  refine ⟨isBaseName_iff.mpr hname.symm, hstar, hmatch, hpattern hmatch, hnot, ?_⟩
  rw [← hiff (by decide), hnot]
  exact Bool.false_ne_true

end Highlighter
