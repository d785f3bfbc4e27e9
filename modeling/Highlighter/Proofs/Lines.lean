import Mathlib.Data.List.TakeWhile
import Highlighter.Proofs.WordEdges

/-!
# Cutting a text

What stands in front of a place is cut at the first of a mark, at the end of
its first word, or into lines. A line keeps its newline, so a text is its lines
put together; only the last line may have none.
-/

set_option autoImplicit false

namespace Highlighter.Text

def through (mark : Char) : List Char → List Char
  | [] => []
  | x :: xs => if x = mark then [x] else x :: through mark xs

theorem through_append {mark : Char} {xs : List Char} (h : mark ∉ xs) (ys : List Char) :
    through mark (xs ++ ys) = xs ++ through mark ys := by
  induction xs with
  | nil => rfl
  | cons x xs ih =>
    obtain ⟨hx, hxs⟩ : mark ≠ x ∧ mark ∉ xs := by simpa using h
    rw [List.cons_append, through, if_neg (Ne.symm hx), ih hxs, List.cons_append]

theorem through_mark (mark : Char) (ys : List Char) : through mark (mark :: ys) = [mark] := by
  rw [through, if_pos rfl]

theorem through_eq_self {mark : Char} {xs : List Char} (h : mark ∉ xs) : through mark xs = xs := by
  have ht := through_append h []
  rwa [List.append_nil, through, List.append_nil] at ht

/-- A text holds a mark and is cut behind the first of them, or holds none and
is not cut. -/
theorem through_cases (mark : Char) (xs : List Char) :
    (∃ ys zs, mark ∉ ys ∧ xs = ys ++ mark :: zs ∧ through mark xs = ys ++ [mark]) ∨
      mark ∉ xs ∧ through mark xs = xs := by
  by_cases h : mark ∈ xs
  · obtain ⟨ys, zs, rfl, hy⟩ := List.eq_append_cons_of_mem h
    exact .inl ⟨ys, zs, hy, rfl, by rw [through_append hy, through_mark]⟩
  · exact .inr ⟨h, through_eq_self h⟩

theorem through_append_of_mem {mark : Char} {xs : List Char} (h : mark ∈ xs) (ys : List Char) :
    through mark (xs ++ ys) = through mark xs := by
  obtain ⟨us, vs, rfl, hu⟩ := List.eq_append_cons_of_mem h
  rw [List.append_assoc, through_append hu, through_append hu, List.cons_append, through_mark,
    through_mark]

theorem through_isPrefix (mark : Char) (xs : List Char) : through mark xs <+: xs := by
  rcases through_cases mark xs with ⟨ys, zs, _, rfl, ht⟩ | ⟨_, ht⟩
  · rw [ht]
    exact ⟨zs, by simp⟩
  · exact ⟨[], by rw [ht, List.append_nil]⟩

theorem through_ne_nil {mark : Char} {xs : List Char} (h : xs ≠ []) : through mark xs ≠ [] := by
  obtain ⟨x, xs, rfl⟩ := List.exists_cons_of_ne_nil h
  rw [through]
  split <;> simp

/-- What ends at the mark is not changed by the cut. -/
theorem takeWhile_through {mark : Char} {p : Char → Bool} (h : p mark = false) (xs : List Char) :
    (through mark xs).takeWhile p = xs.takeWhile p := by
  induction xs with
  | nil => rfl
  | cons x xs ih =>
    rw [through]
    split
    · rename_i hx
      subst hx
      simp [h]
    · rw [List.takeWhile_cons, List.takeWhile_cons, ih]

def Unbroken (xs : List Char) : Prop := '\n' ∉ xs ∧ '\r' ∉ xs

instance (xs : List Char) : Decidable (Unbroken xs) := inferInstanceAs (Decidable (_ ∧ _))

def EndsLine (xs rest : List Char) : Prop := xs.getLast? = some '\n' ∨ xs = rest

/-- A run in front does not change where the line ends. -/
theorem EndsLine.behindRun {p : Char → Bool} {xs rest : List Char}
    (h : EndsLine xs (rest.dropWhile p)) : EndsLine (rest.takeWhile p ++ xs) rest := by
  rcases h with h | rfl
  · exact .inl (by rw [List.getLast?_append, h]; rfl)
  · exact .inr List.takeWhile_append_dropWhile

theorem endsLine_through (rest : List Char) : EndsLine (through '\n' rest) rest := by
  rcases through_cases '\n' rest with ⟨ys, zs, _, _, ht⟩ | ⟨_, ht⟩
  · exact .inl (by rw [ht]; simp)
  · exact .inr ht

/-- A run of one kind ends where a character of another kind stands. -/
theorem span_append {p : Char → Bool} {xs ys : List Char} (hx : ∀ x ∈ xs, p x = true)
    (hy : ∀ y ∈ ys.head?, p y = false) :
    (xs ++ ys).takeWhile p = xs ∧ (xs ++ ys).dropWhile p = ys := by
  have ht : ys.takeWhile p = [] ∧ ys.dropWhile p = ys := by
    cases ys with
    | nil => exact ⟨rfl, rfl⟩
    | cons y ys => simp [hy y rfl]
  rw [List.takeWhile_append_of_pos hx, List.dropWhile_append_of_pos hx, ht.1, ht.2,
    List.append_nil]
  exact ⟨rfl, rfl⟩

def lines : List Char → List (List Char)
  | [] => []
  | x :: xs =>
    if x = '\n' then ['\n'] :: lines xs
    else
      match lines xs with
      | [] => [[x]]
      | l :: ls => (x :: l) :: ls

theorem lines_flatten (xs : List Char) : (lines xs).flatten = xs := by
  induction xs with
  | nil => rfl
  | cons x xs ih =>
    rw [lines]
    split
    · rename_i hx
      rw [List.flatten_cons, ih, hx]
      rfl
    · split
      · rename_i hl
        rw [hl] at ih
        rw [← ih]
        rfl
      · rename_i l ls hl
        rw [hl, List.flatten_cons] at ih
        rw [List.flatten_cons, List.cons_append, ih]

theorem lines_append_newline {ys : List Char} (h : '\n' ∉ ys) (zs : List Char) :
    lines (ys ++ '\n' :: zs) = (ys ++ ['\n']) :: lines zs := by
  induction ys with
  | nil => simp [lines]
  | cons y ys ih =>
    obtain ⟨hy, hys⟩ : '\n' ≠ y ∧ '\n' ∉ ys := by simpa using h
    rw [List.cons_append, lines, if_neg (Ne.symm hy), ih hys]
    rfl

/-- Lines put together come apart at the same places. -/
theorem lines_flatten_map {ls : List (List Char)} (h : ∀ l ∈ ls, '\n' ∉ l) :
    lines (ls.map (· ++ ['\n'])).flatten = ls.map (· ++ ['\n']) := by
  induction ls with
  | nil => rfl
  | cons l ls ih =>
    obtain ⟨hl, hls⟩ := List.forall_mem_cons.mp h
    rw [List.map_cons, List.flatten_cons, List.append_assoc, List.singleton_append,
      lines_append_newline hl, ih hls]

theorem lines_of_not_mem {xs : List Char} (h : '\n' ∉ xs) (hne : xs ≠ []) : lines xs = [xs] := by
  induction xs with
  | nil => exact absurd rfl hne
  | cons x xs ih =>
    obtain ⟨hx, hxs⟩ : '\n' ≠ x ∧ '\n' ∉ xs := by simpa using h
    rw [lines, if_neg (Ne.symm hx)]
    cases xs with
    | nil => rfl
    | cons y xs => rw [ih hxs (by simp)]

/-- The first line is what the first newline cuts off. -/
theorem lines_eq_cons {xs : List Char} (h : xs ≠ []) :
    ∃ after, xs = through '\n' xs ++ after ∧ lines xs = through '\n' xs :: lines after := by
  rcases through_cases '\n' xs with ⟨ys, zs, hy, rfl, ht⟩ | ⟨hx, ht⟩
  · exact ⟨zs, by rw [ht]; simp, by rw [ht, lines_append_newline hy]⟩
  · exact ⟨[], by rw [ht]; simp, by rw [ht, lines_of_not_mem hx h]; rfl⟩

end Highlighter.Text
