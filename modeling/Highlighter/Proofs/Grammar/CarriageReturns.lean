import Highlighter.Proofs.Grammar.Described
import Highlighter.Proofs.Grammar.Inventory

/-!
# Carriage returns before newlines

The same text with the longer line ending, which has a carriage return before
each newline. Where no newline stands in front, every production takes of it what
it takes of the text itself, with the carriage returns. Runs of word characters,
of blanks and of what is inside brackets hold both characters of a line ending or
none, so they end in the same places.
-/

set_option autoImplicit false

namespace Highlighter

namespace Text

def withReturns : List Char → List Char
  | [] => []
  | x :: xs => if x = '\n' then '\r' :: '\n' :: withReturns xs else x :: withReturns xs

variable {xs ys : List Char}

theorem withReturns_newline (xs : List Char) :
    withReturns ('\n' :: xs) = '\r' :: '\n' :: withReturns xs := if_pos rfl

theorem withReturns_cons {x : Char} (h : x ≠ '\n') (xs : List Char) :
    withReturns (x :: xs) = x :: withReturns xs := if_neg h

theorem withReturns_append (xs ys : List Char) :
    withReturns (xs ++ ys) = withReturns xs ++ withReturns ys := by
  induction xs with
  | nil => rfl
  | cons x xs ih =>
    by_cases h : x = '\n'
    · rw [h, List.cons_append, withReturns_newline, withReturns_newline, ih]
      rfl
    · rw [List.cons_append, withReturns_cons h, withReturns_cons h, ih, List.cons_append]

theorem withReturns_of_not_mem (h : '\n' ∉ xs) : withReturns xs = xs := by
  induction xs with
  | nil => rfl
  | cons x xs ih =>
    obtain ⟨hx, hxs⟩ : '\n' ≠ x ∧ '\n' ∉ xs := by simpa using h
    rw [withReturns_cons (Ne.symm hx), ih hxs]

theorem withReturns_eq_nil : withReturns xs = [] ↔ xs = [] := by
  cases xs with
  | nil => exact Iff.rfl
  | cons x xs =>
    rw [withReturns]
    split <;> simp

theorem mem_withReturns {y : Char} (hn : y ≠ '\n') (hr : y ≠ '\r') :
    y ∈ withReturns xs ↔ y ∈ xs := by
  induction xs with
  | nil => exact Iff.rfl
  | cons x xs ih =>
    by_cases h : x = '\n'
    · rw [h, withReturns_newline]
      simp [hn, hr, ih]
    · rw [withReturns_cons h]
      simp [ih]

/-- A run that holds both characters of a line ending or none ends in the same place. -/
theorem span_withReturns {p : Char → Bool} (h : p '\r' = p '\n') (xs : List Char) :
    (withReturns xs).takeWhile p = withReturns (xs.takeWhile p) ∧
      (withReturns xs).dropWhile p = withReturns (xs.dropWhile p) := by
  induction xs with
  | nil => exact ⟨rfl, rfl⟩
  | cons x xs ih =>
    by_cases hx : x = '\n'
    · rw [hx, withReturns_newline]
      cases hp : p '\n' with
      | false => simp [hp, h.trans hp, withReturns]
      | true => simp [hp, h.trans hp, withReturns, ih]
    · rw [withReturns_cons hx]
      cases hp : p x with
      | false => simp [hp, withReturns, hx]
      | true => simp [hp, withReturns, hx, ih]

theorem span_isBlank_withReturns (xs : List Char) :
    (withReturns xs).takeWhile isBlank = withReturns (xs.takeWhile isBlank) ∧
      (withReturns xs).dropWhile isBlank = withReturns (xs.dropWhile isBlank) :=
  span_withReturns (by decide) xs

/-- A run of word characters has no line ending in it. -/
theorem withReturns_takeWhile_isWord (xs : List Char) :
    withReturns (xs.takeWhile isWord) = xs.takeWhile isWord :=
  withReturns_of_not_mem fun hn => absurd (List.mem_takeWhile_imp hn) (by decide)

theorem span_isWord_withReturns (xs : List Char) :
    (withReturns xs).takeWhile isWord = xs.takeWhile isWord ∧
      (withReturns xs).dropWhile isWord = withReturns (xs.dropWhile isWord) := by
  obtain ⟨ht, hd⟩ := span_withReturns (p := isWord) (by decide) xs
  exact ⟨ht.trans (withReturns_takeWhile_isWord xs), hd⟩

theorem prefix_withReturns (h : Unbroken ys) : ys <+: withReturns xs ↔ ys <+: xs := by
  induction ys generalizing xs with
  | nil => simp
  | cons y ys ih =>
    obtain ⟨⟨hyn, hn⟩, hyr, hr⟩ : ('\n' ≠ y ∧ '\n' ∉ ys) ∧ '\r' ≠ y ∧ '\r' ∉ ys := by
      simpa [Unbroken] using h
    cases xs with
    | nil => exact Iff.rfl
    | cons x xs =>
      by_cases hx : x = '\n'
      · rw [hx, withReturns_newline]
        simp [Ne.symm hyn, Ne.symm hyr]
      · rw [withReturns_cons hx, List.cons_prefix_cons, List.cons_prefix_cons, ih ⟨hn, hr⟩]

/-- Behind an unbroken text in front the rest has its carriage returns too. -/
theorem drop_withReturns (h : Unbroken ys) (hp : ys <+: xs) :
    (withReturns xs).drop ys.length = withReturns (xs.drop ys.length) := by
  obtain ⟨zs, rfl⟩ := hp
  rw [withReturns_append, withReturns_of_not_mem h.1, List.drop_left, List.drop_left]

theorem through_withReturns {mark : Char} (h : mark ≠ '\r') (xs : List Char) :
    through mark (withReturns xs) = withReturns (through mark xs) := by
  induction xs with
  | nil => rfl
  | cons x xs ih =>
    by_cases hx : x = '\n'
    · rw [hx, withReturns_newline, through, if_neg (Ne.symm h), through, through]
      split
      · rfl
      · rw [ih, withReturns_newline]
    · rw [withReturns_cons hx, through, through, ih]
      split
      · exact (withReturns_cons hx []).symm
      · rw [withReturns_cons hx]

theorem lineTail_withReturns (h : '\r' ∉ xs) :
    lineTail? (withReturns xs) = (lineTail? xs).map withReturns := by
  cases xs with
  | nil => rfl
  | cons x xs =>
    obtain ⟨hx, _⟩ : '\r' ≠ x ∧ '\r' ∉ xs := by simpa using h
    by_cases hn : x = '\n'
    · rw [hn, withReturns_newline]
      simp [lineTail?, withReturns]
    · rw [withReturns_cons hn]
      simp [lineTail?, hx, Ne.symm hx, Ne.symm hn]

end Text

open Text (withReturns)

namespace Cut

def KeepsReturns (cut : Cut) : Prop := ∀ before rest, '\r' ∉ rest → rest.head? ≠ some '\n' →
  cut before (withReturns rest) = (cut before rest).map withReturns

theorem keepsReturns_literal {xs : List Char} (h : Text.Unbroken xs) :
    (literal xs).KeepsReturns := by
  intro before rest _ _
  simp only [literal, Text.prefix_withReturns h]
  split
  · rw [Option.map_some, Text.withReturns_of_not_mem h.1]
  · rfl

theorem keepsReturns_oneOf (cs : List Char) : (oneOf cs).KeepsReturns := by
  intro before rest _ hn
  cases rest with
  | nil => rfl
  | cons x rest =>
    have hx : x ≠ '\n' := by simpa using hn
    rw [Text.withReturns_cons hx, oneOf, oneOf]
    split
    · rw [Option.map_some, Text.withReturns_cons hx]
      rfl
    · rfl

theorem keepsReturns_restOfLine {mark : List Char} (h : Text.Unbroken mark) :
    (restOfLine mark).KeepsReturns := by
  intro before rest _ _
  have ht : Text.through '\n' (withReturns rest) = withReturns (Text.through '\n' rest) :=
    Text.through_withReturns (by decide) rest
  simp only [restOfLine, Text.prefix_withReturns h, ht]
  split <;> rfl

theorem keepsReturns_between {mark : Char} (h : Text.Unbroken [mark]) :
    (between mark).KeepsReturns := by
  obtain ⟨hn, hr⟩ : '\n' ≠ mark ∧ '\r' ≠ mark := by simpa [Text.Unbroken] using h
  intro before rest _ hrest
  cases rest with
  | nil => rfl
  | cons x after =>
    have hx : x ≠ '\n' := by simpa using hrest
    rw [Text.withReturns_cons hx]
    simp only [between, Text.mem_withReturns (Ne.symm hn) (Ne.symm hr),
      Text.through_withReturns (Ne.symm hr)]
    split
    · rw [Option.map_some, Text.withReturns_cons (Ne.symm hn)]
    · rfl

theorem word_withReturns (accepts : List Char → Bool) (before rest : List Char) :
    word accepts before (withReturns rest) = word accepts before rest := by
  simp only [word, (Text.span_isWord_withReturns rest).1]

theorem withReturns_of_word {accepts : List Char → Bool} {before rest xs : List Char}
    (h : word accepts before rest = some xs) : withReturns xs = xs := by
  obtain ⟨_, rfl, _⟩ := word_eq_some.mp h
  exact Text.withReturns_takeWhile_isWord rest

theorem keepsReturns_word (accepts : List Char → Bool) : (word accepts).KeepsReturns := by
  intro before rest _ _
  rw [word_withReturns]
  cases h : word accepts before rest with
  | none => rfl
  | some xs => rw [Option.map_some, withReturns_of_word h]

theorem keepsReturns_hexadecimal (d : Dialect) : (hexadecimal d).KeepsReturns := by
  intro before rest _ hn
  cases rest with
  | nil => rfl
  | cons x after =>
    have hx : x ≠ '\n' := by simpa using hn
    rw [Text.withReturns_cons hx]
    simp only [hexadecimal, (Text.span_isWord_withReturns after).1]
    split
    · rw [Option.map_some, Text.withReturns_cons (by decide),
        Text.withReturns_takeWhile_isWord]
    · rfl

theorem keepsReturns_bareOpener : bareOpener.KeepsReturns := by
  intro before rest hr _
  obtain ⟨ht, hd⟩ := Text.span_isWord_withReturns rest
  have hrest : '\r' ∉ rest.dropWhile Text.isWord :=
    fun hm => hr ((List.dropWhile_sublist _).subset hm)
  have htail := Text.lineTail_withReturns hrest
  simp only [bareOpener, ht, hd, htail]
  split
  · rw [Option.map_map, Option.map_map]
    exact congrArg (Option.map · _) (funext fun tail =>
      (Text.withReturns_append "textblock".toList tail).symm)
  · rfl

theorem keepsReturns_bodyLine : bodyLine.KeepsReturns := by
  intro before rest _ hn
  cases rest with
  | nil => rfl
  | cons x after =>
    have hx : x ≠ '\n' := by simpa using hn
    rw [Text.withReturns_cons hx, bodyLine, bodyLine, if_neg hx, if_neg hx,
      ← Text.withReturns_cons hx, Text.through_withReturns (by decide)]
    rfl

theorem InUse.keepsReturns {cut : Cut} (h : cut.InUse) : cut.KeepsReturns := by
  cases h with
  | literal h => exact keepsReturns_literal h
  | oneOf _ => exact keepsReturns_oneOf _
  | restOfLine h => exact keepsReturns_restOfLine h
  | between h => exact keepsReturns_between h
  | word => exact keepsReturns_word _
  | hexadecimal => exact keepsReturns_hexadecimal _
  | bareOpener => exact keepsReturns_bareOpener
  | bodyLine => exact keepsReturns_bodyLine

end Cut

def Piece.withReturns (p : Piece) : Piece := (p.1, Text.withReturns p.2)

namespace Production

def KeepsReturns (p : Production) : Prop :=
  ∀ before rest, '\r' ∉ rest → rest.head? ≠ some '\n' →
    p.pieces? before (withReturns rest) = (p.pieces? before rest).map (List.map Piece.withReturns)

theorem keepsReturns_whole (k : Category) {cut : Cut} (h : cut.KeepsReturns) (move : Move) :
    (whole k cut move).KeepsReturns := by
  intro before rest hr hn
  rw [whole_pieces, whole_pieces, h before rest hr hn, Option.map_map, Option.map_map]
  rfl

/-- The vocabulary is asked for the same word. -/
theorem keepsReturns_identifier (v : Vocabulary) : (identifier v).KeepsReturns := by
  intro before rest _ _
  simp only [identifier, single, Cut.word_withReturns]
  cases h : Cut.word Cut.isIdentifier before rest with
  | none => rfl
  | some xs => simp [Piece.withReturns, Cut.withReturns_of_word h]

theorem keepsReturns_labelledOpener : labelledOpener.KeepsReturns := by
  intro before rest hr _
  obtain ⟨hot, hod⟩ := Text.span_isWord_withReturns rest
  obtain ⟨hbt, hbd⟩ := Text.span_isBlank_withReturns (rest.dropWhile Text.isWord)
  obtain ⟨hlt, hld⟩ := Text.span_isWord_withReturns
    ((rest.dropWhile Text.isWord).dropWhile Text.isBlank)
  have hrest :
      '\r' ∉ ((rest.dropWhile Text.isWord).dropWhile Text.isBlank).dropWhile Text.isWord :=
    fun hm => hr ((List.dropWhile_sublist _).subset ((List.dropWhile_sublist _).subset
      ((List.dropWhile_sublist _).subset hm)))
  have htail := Text.lineTail_withReturns hrest
  simp only [labelledOpener, hot, hod, hbt, hbd, hlt, hld, htail, ne_eq, Text.withReturns_eq_nil]
  split
  · rw [Option.map_map, Option.map_map]
    congr 1
    funext tail
    simp [Piece.withReturns, Text.withReturns_append, Text.withReturns_takeWhile_isWord]
  · rfl

theorem keepsReturns_remoteCall : remoteCall.KeepsReturns := by
  intro before rest _ _
  have hcall : Text.Unbroken "call".toList := by decide
  have hurl : Text.Unbroken "url[".toList := by decide
  simp only [remoteCall, Text.prefix_withReturns hcall]
  by_cases hc : "call".toList <+: rest
  · rw [show (withReturns rest).drop 4 = withReturns (rest.drop 4) from
      Text.drop_withReturns hcall hc]
    obtain ⟨hbt, hbd⟩ := Text.span_isBlank_withReturns (rest.drop 4)
    simp only [hbt, hbd, Text.prefix_withReturns hurl]
    by_cases hu : "url[".toList <+: (rest.drop 4).dropWhile Text.isBlank
    · have hd : (withReturns ((rest.drop 4).dropWhile Text.isBlank)).drop 4 =
          withReturns (((rest.drop 4).dropWhile Text.isBlank).drop 4) :=
        Text.drop_withReturns hurl hu
      have hit := (Text.span_withReturns (p := (· != ']')) (by decide)
        (((rest.drop 4).dropWhile Text.isBlank).drop 4)).1
      rw [hd, hit]
      simp only [ne_eq, Text.withReturns_eq_nil,
        Text.mem_withReturns (show ']' ≠ '\n' by decide) (show ']' ≠ '\r' by decide)]
      split <;> rfl
    · rw [if_neg fun h => hu h.2.2.1, if_neg fun h => hu h.2.2.1]
      rfl
  · rw [if_neg fun h => hc h.1, if_neg fun h => hc h.1]
    rfl

theorem InUse.keepsReturns {p : Production} (h : p.InUse) : p.KeepsReturns := by
  cases h with
  | whole _ hc => exact keepsReturns_whole _ hc.keepsReturns _
  | identifier => exact keepsReturns_identifier _
  | labelledOpener => exact keepsReturns_labelledOpener
  | remoteCall => exact keepsReturns_remoteCall

end Production

end Highlighter
