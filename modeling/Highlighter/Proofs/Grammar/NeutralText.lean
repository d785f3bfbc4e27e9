import Mathlib.Data.List.Infix
import Highlighter.Proofs.Grammar.Described

/-!
# Texts that the dialects read alike

The dialects differ in five things that can stand in a text: the comment mark of
two slashes and a dash, the `$` of a hexadecimal number, the underscore, words of
capitals, and the words that were reserved later. At a place of a text without
any of them both dialects read the same lexeme.
-/

set_option autoImplicit false

namespace Highlighter

open Cursor (startsWithWord)

def laterWords : List String :=
  ["try", "except", "finally", "endtry", "case", "default", "struct", "endstruct"]

namespace Text

def IsWordRun (w xs : List Char) : Prop :=
  w ≠ [] ∧ (∀ x ∈ w, isWord x = true) ∧ ∃ before after, xs = before.reverse ++ (w ++ after) ∧
    startsWithWord before = false ∧ startsWithWord after = false

structure Neutral (xs : List Char) : Prop where
  underscore : '_' ∉ xs
  dollar : '$' ∉ xs
  dash : ¬ "//-".toList <:+: xs
  capitals : ∀ w, IsWordRun w xs →
    (∀ x ∈ w, 'A' ≤ x ∧ x ≤ 'Z' ∨ '0' ≤ x ∧ x ≤ '9') → ∀ x ∈ w, '0' ≤ x ∧ x ≤ '9'
  words : ∀ w, IsWordRun w xs → String.ofList w ∉ laterWords

def segments (xs : List Char) : List (List Char) := xs.splitOnP (!isWord ·)

variable {w xs after before rest : List Char}

theorem segments_of_word (h : ∀ x ∈ xs, isWord x = true) : segments xs = [xs] :=
  List.splitOnP_eq_singleton fun x hx => by simp [h x hx]

theorem segments_append_cons {x : Char} (h : isWord x = false) (xs after : List Char) :
    segments (xs ++ x :: after) = segments xs ++ segments after :=
  List.splitOnP_append_cons xs after (by simp [h])

/-- A text is a run of word characters, or such a run, another character and a
shorter text. -/
theorem segments_cases (xs : List Char) : (∀ x ∈ xs, isWord x = true) ∨
    ∃ run x after, xs = run ++ x :: after ∧ (∀ y ∈ run, isWord y = true) ∧ isWord x = false := by
  have hcut := List.takeWhile_append_dropWhile (p := isWord) (l := xs)
  cases hd : xs.dropWhile isWord with
  | nil =>
    rw [hd, List.append_nil] at hcut
    exact .inl fun x hx => List.mem_takeWhile_imp (hcut ▸ hx)
  | cons x after =>
    have hx := Cursor.head_not_word (Cursor.startsWithWord_dropWhile xs)
    rw [hd] at hcut hx
    exact .inr ⟨_, x, after, hcut.symm, fun _ => List.mem_takeWhile_imp, hx x rfl⟩

theorem IsWordRun.of_mem_segments (hw : w ∈ segments xs) (hne : w ≠ []) : IsWordRun w xs := by
  induction hn : xs.length using Nat.strongRecOn generalizing xs with
  | ind n ih =>
    rcases segments_cases xs with hall | ⟨run, x, after, rfl, hrun, hx⟩
    · rw [segments_of_word hall, List.mem_singleton] at hw
      subst hw
      exact ⟨hne, hall, [], [], by simp, rfl, rfl⟩
    · rw [segments_append_cons hx, segments_of_word hrun] at hw
      rcases List.mem_cons.mp hw with rfl | hw
      · exact ⟨hne, hrun, [], x :: after, rfl, rfl, hx⟩
      · have hlt : after.length < n := by simp [← hn]; omega
        obtain ⟨_, hall, before, tail, rfl, hb, ha⟩ := ih _ hlt hw rfl
        refine ⟨hne, hall, before ++ x :: run.reverse, tail, by simp, ?_, ha⟩
        cases before with
        | nil => exact hx
        | cons y before => exact hb

theorem IsWordRun.mem_segments (h : IsWordRun w xs) : w ∈ segments xs := by
  obtain ⟨_, hall, before, after, rfl, hb, ha⟩ := h
  have hw : w ∈ segments (w ++ after) := by
    cases after with
    | nil => simp [segments_of_word hall]
    | cons x after =>
      rw [segments_append_cons ha, segments_of_word hall]
      exact List.mem_cons_self
  cases before with
  | nil => exact hw
  | cons x before =>
    rw [List.reverse_cons, List.append_assoc, List.singleton_append, segments_append_cons hb]
    exact List.mem_append_right _ hw

def wordRuns (xs : List Char) : List (List Char) := (segments xs).filter (· ≠ [])

theorem mem_wordRuns : w ∈ wordRuns xs ↔ IsWordRun w xs := by
  simp only [wordRuns, List.mem_filter, decide_eq_true_eq]
  exact ⟨fun h => .of_mem_segments h.1 h.2, fun h => ⟨h.mem_segments, h.1⟩⟩

instance (xs : List Char) : Decidable (Neutral xs) :=
  decidable_of_iff
    ('_' ∉ xs ∧ '$' ∉ xs ∧ ¬ "//-".toList <:+: xs ∧
      (∀ w ∈ wordRuns xs, w.all (fun x => 'A' ≤ x ∧ x ≤ 'Z' ∨ '0' ≤ x ∧ x ≤ '9') = true →
        w.all (fun x => '0' ≤ x ∧ x ≤ '9') = true) ∧
      ∀ w ∈ wordRuns xs, String.ofList w ∉ laterWords) <| by
    simp only [mem_wordRuns, List.all_eq_true, decide_eq_true_eq]
    exact ⟨fun ⟨hu, hd, hs, hc, hw⟩ => ⟨hu, hd, hs, hc, hw⟩,
      fun h => ⟨h.underscore, h.dollar, h.dash, h.capitals, h.words⟩⟩

/-- Where no word goes on, the word characters in front are a longest run. -/
theorem isWordRun_takeWhile (hb : startsWithWord before = false) (hne : rest.takeWhile isWord ≠ []) :
    IsWordRun (rest.takeWhile isWord) (before.reverse ++ rest) :=
  ⟨hne, fun _ => List.mem_takeWhile_imp, before, rest.dropWhile isWord,
    by rw [List.takeWhile_append_dropWhile], hb, Cursor.startsWithWord_dropWhile rest⟩

end Text

variable {before rest : List Char}

/-- Between the vocabularies there are only the later words. -/
theorem classify_neutral {word : String} (hu : '_' ∉ word.toList) (hl : word ∉ laterWords) :
    (Vocabulary.ofDialect .current).classify word =
      (Vocabulary.ofDialect .legacy).classify word := by
  have hexception : word ∉ exceptionWords := fun h =>
    hl ((by decide : ∀ w ∈ exceptionWords, w ∈ laterWords) word h)
  have hdeclaration : word ∉ laterDeclarationWords := by
    intro h
    have hor : ∀ w ∈ laterDeclarationWords, '_' ∈ w.toList ∨ w ∈ laterWords := by decide
    exact (hor word h).elim hu hl
  simp [Vocabulary.classify, Vocabulary.ofDialect, hexception, hdeclaration]

namespace Production

variable (h : Text.Neutral (before.reverse ++ rest))
include h

theorem comments_neutral :
    taken? (comments .current) before rest = taken? (comments .legacy) before rest := by
  apply taken_skip
  rw [whole_pieces, Cut.literal, if_neg]
  · rfl
  · exact fun hp => h.dash (hp.isInfix.trans (List.infix_append_right ..))

theorem hexadecimal_neutral (d : Dialect) :
    (whole .number (.hexadecimal d)).pieces? before rest = none := by
  rw [whole_pieces, Option.map_eq_none_iff, Option.eq_none_iff_forall_ne_some]
  intro xs hx
  obtain ⟨after, _, rfl, _⟩ := Cut.hexadecimal_eq_some.mp hx
  exact h.dollar (by simp)

/-- A word of capitals is a decimal number. -/
theorem capitalWord_neutral
    (hd : (whole .number (.word (·.all Cut.isDigit))).pieces? before rest = none) :
    (whole .number (.word (·.all Cut.isCapital))).pieces? before rest = none := by
  rw [whole_pieces, Option.map_eq_none_iff, Option.eq_none_iff_forall_ne_some] at hd ⊢
  intro w hw
  obtain ⟨hb, rfl, hne, hall⟩ := Cut.word_eq_some.mp hw
  have hcapitals : ∀ x ∈ rest.takeWhile Text.isWord,
      'A' ≤ x ∧ x ≤ 'Z' ∨ '0' ≤ x ∧ x ≤ '9' := by
    intro x hx
    have hu : x ≠ '_' := fun hn =>
      h.underscore (List.mem_append_right _ (hn ▸ (List.takeWhile_prefix _).subset hx))
    simpa [Cut.isCapital, Cut.isDigit, hu] using List.all_eq_true.mp hall x hx
  have hdigits := h.capitals _ (Text.isWordRun_takeWhile hb hne) hcapitals
  refine hd _ (Cut.word_eq_some.mpr ⟨hb, rfl, hne, List.all_eq_true.mpr fun x hx => ?_⟩)
  simpa [Cut.isDigit] using hdigits x hx

theorem numbers_neutral :
    taken? (numbers .current) before rest = taken? (numbers .legacy) before rest := by
  simp only [numbers]
  cases hd : (whole .number (.word (·.all Cut.isDigit))).pieces? before rest with
  | some pieces => rw [taken_of_some _ hd, taken_of_some _ hd]
  | none =>
    rw [taken_skip _ hd, taken_skip _ hd, taken_skip _ (hexadecimal_neutral h _),
      taken_skip _ (hexadecimal_neutral h _), taken_skip _ (capitalWord_neutral h hd)]

theorem operators_neutral :
    (whole .operator (.oneOf (operators .current))).pieces? before rest =
      (whole .operator (.oneOf (operators .legacy))).pieces? before rest := by
  rw [whole_pieces, whole_pieces]
  cases rest with
  | nil => rfl
  | cons x rest =>
    have hx : x ≠ '_' := by
      rintro rfl
      exact h.underscore (by simp)
    have herase : operators .current = (operators .legacy).erase '_' := by decide
    have hmem : x ∈ operators .current ↔ x ∈ operators .legacy := by
      rw [herase, List.mem_erase_of_ne hx]
    simp only [Cut.oneOf, hmem]

theorem identifier_neutral :
    (identifier (.ofDialect .current)).pieces? before rest =
      (identifier (.ofDialect .legacy)).pieces? before rest := by
  simp only [identifier, single]
  cases hw : Cut.word Cut.isIdentifier before rest with
  | none => rfl
  | some w =>
    obtain ⟨hb, rfl, hne, _⟩ := Cut.word_eq_some.mp hw
    have hu : '_' ∉ (String.ofList (rest.takeWhile Text.isWord)).toList := by
      rw [String.toList_ofList]
      exact fun hm =>
        h.underscore (List.mem_append_right _ ((List.takeWhile_prefix _).subset hm))
    have hl := h.words _ (Text.isWordRun_takeWhile hb hne)
    rw [Option.map_some, Option.map_some, classify_neutral hu hl]

end Production

open Production in
theorem taken_neutral (m : Mode) (h : Text.Neutral (before.reverse ++ rest)) :
    taken? (productions .current m) before rest = taken? (productions .legacy m) before rest := by
  cases m with
  | root =>
    simp only [productions, taken_append, comments_neutral h, numbers_neutral h]
    congr 1
    refine taken_cons_congr rfl rfl (taken_cons_congr rfl rfl (taken_cons_congr rfl rfl ?_))
    exact taken_cons_congr (operators_neutral h) rfl
      (taken_cons_congr rfl rfl (taken_cons_congr (identifier_neutral h) rfl rfl))
  | comment => exact comments_neutral h
  | number => exact numbers_neutral h
  | _ => rfl

theorem lexeme_neutral (m : Mode) (h : Text.Neutral (before.reverse ++ rest)) :
    lexeme? .current m before rest = lexeme? .legacy m before rest := by
  rw [lexeme?, lexeme?, taken_neutral m h]

end Highlighter
