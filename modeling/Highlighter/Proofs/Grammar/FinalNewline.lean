import Highlighter.Proofs.Grammar.Inventory

/-!
# One more newline

At a place, one more newline at the end of the text changes what a production
takes only where it takes all the text that is left, and then it takes the
newline with it. No production takes a newline alone.
-/

set_option autoImplicit false

namespace Highlighter

namespace Text

theorem span_snoc {p : Char → Bool} (xs : List Char) {y : Char}
    (h : p y = false ∨ xs.dropWhile p ≠ []) :
    (xs ++ [y]).takeWhile p = xs.takeWhile p ∧ (xs ++ [y]).dropWhile p = xs.dropWhile p ++ [y] := by
  induction xs with
  | nil =>
    have hy : p y = false := h.resolve_right fun hn => hn rfl
    simp [hy]
  | cons x xs ih =>
    cases hx : p x with
    | false => simp [hx]
    | true =>
      have hxs : p y = false ∨ xs.dropWhile p ≠ [] := by simpa [hx] using h
      simp [hx, ih hxs]

theorem prefix_snoc (xs : List Char) {ys : List Char} {y : Char} (h : y ∉ xs) :
    xs <+: ys ++ [y] ↔ xs <+: ys := by
  rw [List.prefix_concat_iff]
  constructor
  · rintro (rfl | hp)
    · simp at h
    · exact hp
  · exact .inr

theorem through_newline (rest : List Char) :
    through '\n' (rest ++ ['\n']) = through '\n' rest ∨
      through '\n' rest = rest ∧ through '\n' (rest ++ ['\n']) = rest ++ ['\n'] := by
  by_cases h : '\n' ∈ rest
  · exact .inl (through_append_of_mem h _)
  · exact .inr ⟨through_eq_self h, by rw [through_append h, through_mark]⟩

theorem lineTail_newline (rest : List Char) :
    lineTail? (rest ++ ['\n']) = lineTail? rest ∨
      lineTail? rest = some rest ∧ lineTail? (rest ++ ['\n']) = some (rest ++ ['\n']) := by
  match rest with
  | [] => exact .inr ⟨rfl, rfl⟩
  | [x] =>
    by_cases hr : x = '\r'
    · subst hr
      exact .inr ⟨rfl, rfl⟩
    · exact .inl (by simp [lineTail?, hr, Ne.symm hr])
  | x :: y :: rest => exact .inl (by simp [lineTail?])

end Text

namespace Cut

def Stable (cut : Cut) : Prop := ∀ before rest,
  cut before (rest ++ ['\n']) = cut before rest ∨
    cut before rest = some rest ∧ cut before (rest ++ ['\n']) = some (rest ++ ['\n'])

theorem stable_literal {xs : List Char} (h : '\n' ∉ xs) : (literal xs).Stable := by
  intro before rest
  simp only [literal, Text.prefix_snoc _ h, true_or]

theorem stable_oneOf {cs : List Char} (h : '\n' ∉ cs) : (oneOf cs).Stable := by
  intro before rest
  cases rest with
  | nil => simp [oneOf, h]
  | cons x rest => exact .inl rfl

theorem stable_restOfLine {mark : List Char} (h : '\n' ∉ mark) : (restOfLine mark).Stable := by
  intro before rest
  simp only [restOfLine, Text.prefix_snoc _ h]
  by_cases hm : mark <+: rest
  · rw [if_pos hm, if_pos hm]
    rcases Text.through_newline rest with ht | ⟨ht, hl⟩
    · exact .inl (by rw [ht])
    · exact .inr ⟨by rw [ht], by rw [hl]⟩
  · rw [if_neg hm, if_neg hm]
    exact .inl rfl

theorem stable_between {mark : Char} (h : mark ≠ '\n') : (between mark).Stable := by
  intro before rest
  left
  cases rest with
  | nil => simp [between, Ne.symm h]
  | cons x after =>
    have hm : mark ∈ after ++ ['\n'] ↔ mark ∈ after := by simp [h]
    simp only [between, List.cons_append, hm]
    by_cases hx : x = mark ∧ mark ∈ after
    · rw [if_pos hx, if_pos hx, Text.through_append_of_mem hx.2]
    · rw [if_neg hx, if_neg hx]

theorem not_isWord_newline : Text.isWord '\n' = false := Text.isWord_of_isBlank (by decide)

theorem word_newline (accepts : List Char → Bool) (before rest : List Char) :
    word accepts before (rest ++ ['\n']) = word accepts before rest := by
  simp only [word, (Text.span_snoc _ (.inl not_isWord_newline)).1]

theorem stable_hexadecimal (d : Dialect) : (hexadecimal d).Stable := by
  intro before rest
  left
  cases rest with
  | nil => simp [hexadecimal]
  | cons x after =>
    simp only [hexadecimal, List.cons_append, (Text.span_snoc _ (.inl not_isWord_newline)).1]

theorem stable_bareOpener : bareOpener.Stable := by
  intro before rest
  obtain ⟨ht, hd⟩ := Text.span_snoc rest (.inl not_isWord_newline)
  simp only [bareOpener, ht, hd]
  by_cases hw : Cursor.startsWithWord before = false ∧
      rest.takeWhile Text.isWord = "textblock".toList
  · rw [if_pos hw, if_pos hw]
    rcases Text.lineTail_newline (rest.dropWhile Text.isWord) with hl | ⟨hl, hn⟩
    · exact .inl (by rw [hl])
    · right
      rw [hl, hn, ← hw.2, Option.map_some, Option.map_some, ← List.append_assoc,
        List.takeWhile_append_dropWhile]
      exact ⟨rfl, rfl⟩
  · rw [if_neg hw, if_neg hw]
    exact .inl rfl

theorem stable_bodyLine : bodyLine.Stable := by
  intro before rest
  cases rest with
  | nil => simp [bodyLine]
  | cons x after =>
    have ht := Text.through_newline (x :: after)
    rw [List.cons_append] at ht ⊢
    rw [bodyLine, bodyLine]
    by_cases hx : x = '\n'
    · exact .inl (by rw [if_pos hx, if_pos hx])
    · rw [if_neg hx, if_neg hx]
      exact ht.imp (congrArg some) fun h => ⟨congrArg some h.1, congrArg some h.2⟩

theorem InUse.stable {cut : Cut} (h : cut.InUse) : cut.Stable := by
  cases h with
  | literal h => exact stable_literal h.1
  | oneOf h => exact stable_oneOf h.1
  | restOfLine h => exact stable_restOfLine h.1
  | between h => exact stable_between (Ne.symm (by simpa using h.1))
  | word => exact fun _ _ => .inl (word_newline _ _ _)
  | hexadecimal => exact stable_hexadecimal _
  | bareOpener => exact stable_bareOpener
  | bodyLine => exact stable_bodyLine

end Cut

namespace Production

def Stable (p : Production) : Prop := ∀ before rest,
  p.pieces? before (rest ++ ['\n']) = p.pieces? before rest ∨
    ∃ init k xs, p.pieces? before rest = some (init ++ [(k, xs)]) ∧
      p.pieces? before (rest ++ ['\n']) = some (init ++ [(k, xs ++ ['\n'])]) ∧
      init.flatMap Prod.snd ++ xs = rest

theorem stable_whole (k : Category) {cut : Cut} (h : cut.Stable) (move : Move) :
    (whole k cut move).Stable := by
  intro before rest
  rw [whole_pieces, whole_pieces]
  rcases h before rest with hs | ⟨hs, hn⟩
  · exact .inl (by rw [hs])
  · exact .inr ⟨[], k, rest, by rw [hs]; rfl, by rw [hn]; rfl, rfl⟩

theorem stable_identifier (v : Vocabulary) : (identifier v).Stable := by
  intro before rest
  left
  simp only [identifier, single, Cut.word_newline]

/-- Where only blanks are left, a newline is one more of them. -/
theorem dropWhile_blank_newline {rest : List Char} (h : rest.dropWhile Text.isBlank = []) :
    (rest ++ ['\n']).dropWhile Text.isBlank = [] := by
  rw [List.dropWhile_eq_nil_iff] at h ⊢
  intro x hx
  rcases List.mem_append.mp hx with hx | hx
  · exact h x hx
  · obtain rfl := List.mem_singleton.mp hx
    decide

theorem stable_labelledOpener : labelledOpener.Stable := by
  intro before rest
  obtain ⟨hot, hod⟩ := Text.span_snoc rest (.inl Cut.not_isWord_newline)
  simp only [labelledOpener, hot, hod]
  by_cases hb : (rest.dropWhile Text.isWord).dropWhile Text.isBlank = []
  · simp [hb, dropWhile_blank_newline hb]
  · obtain ⟨hbt, hbd⟩ := Text.span_snoc _ (y := '\n') (.inr hb)
    obtain ⟨hlt, hld⟩ := Text.span_snoc
      ((rest.dropWhile Text.isWord).dropWhile Text.isBlank) (.inl Cut.not_isWord_newline)
    rw [hbt, hbd, hlt, hld]
    split
    · rcases Text.lineTail_newline
        (((rest.dropWhile Text.isWord).dropWhile Text.isBlank).dropWhile Text.isWord) with
        hl | ⟨hl, hn⟩
      · exact .inl (by rw [hl])
      · right
        refine ⟨[_, _], .name, _, by rw [hl]; rfl, ?_, ?_⟩
        · rw [hn, List.append_assoc]
          rfl
        · simp [List.takeWhile_append_dropWhile]
    · exact .inl rfl

theorem stable_remoteCall : remoteCall.Stable := by
  intro before rest
  left
  simp only [remoteCall, Text.prefix_snoc "call".toList (y := '\n') (by decide)]
  by_cases hc : "call".toList <+: rest
  · have hd : (rest ++ ['\n']).drop 4 = rest.drop 4 ++ ['\n'] :=
      List.drop_append_of_le_length hc.length_le
    rw [hd]
    by_cases hb : (rest.drop 4).dropWhile Text.isBlank = []
    · simp [hb, dropWhile_blank_newline hb]
    · obtain ⟨hbt, hbd⟩ := Text.span_snoc _ (y := '\n') (.inr hb)
      simp only [hbt, hbd, Text.prefix_snoc "url[".toList (y := '\n') (by decide)]
      by_cases hu : "url[".toList <+: (rest.drop 4).dropWhile Text.isBlank
      · have hm : ∀ {xs : List Char}, ']' ∈ xs ++ ['\n'] ↔ ']' ∈ xs := by simp
        simp only [List.drop_append_of_le_length (i := 4) hu.length_le, hm]
        by_cases hi : ']' ∈ ((rest.drop 4).dropWhile Text.isBlank).drop 4
        · have hit := Text.span_snoc (p := (· != ']')) _ (y := '\n') (.inr fun hn =>
            absurd rfl (bne_iff_ne.mp (List.dropWhile_eq_nil_iff.mp hn _ hi)))
          rw [hit.1]
        · rw [if_neg fun h => hi h.2.2.2.2, if_neg fun h => hi h.2.2.2.2]
      · rw [if_neg fun h => hu h.2.2.1, if_neg fun h => hu h.2.2.1]
  · rw [if_neg fun h => hc h.1, if_neg fun h => hc h.1]

theorem InUse.stable {p : Production} (h : p.InUse) : p.Stable := by
  cases h with
  | whole _ hc => exact stable_whole _ hc.stable _
  | identifier => exact stable_identifier _
  | labelledOpener => exact stable_labelledOpener
  | remoteCall => exact stable_remoteCall

end Production

end Highlighter
