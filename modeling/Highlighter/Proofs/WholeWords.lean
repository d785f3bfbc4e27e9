import Highlighter.Proofs.Scanner.WordSteps

/-!
# Keywords and names are whole words

The tokens of words have no word character beside them. All rules that give
them look for a word edge on both sides, but for the remote call, which is read
wherever `call` stands, and so behind a word character too.
-/

set_option autoImplicit false

namespace Highlighter

def Token.word (t : Token) : List Char :=
  (t.text.toList.reverse.dropWhile fun x => x == '\r' || x == '\n').reverse

def Token.IsWhole (t : Token) (source : String) : Prop :=
  ∃ before after : List Char, source.toList = before ++ t.word ++ after ∧
    t.span.start = Text.bytes before ∧ Cursor.startsWithWord before.reverse = false ∧
    Cursor.startsWithWord after = false

structure Cursor.GluedCall (c : Cursor) (blanks inner rest : List Char) : Prop where
  before : startsWithWord c.before = true
  rest_eq : c.rest =
    "call".toList ++ (blanks ++ ("url".toList ++ (['['] ++ (inner ++ ([']'] ++ rest)))))
  blanks_blank : ∀ x ∈ blanks, Text.isBlank x = true
  blanks_ne : blanks ≠ []
  inner_inside : ∀ x ∈ inner, x ≠ ']'
  inner_ne : inner ≠ []

theorem Cursor.GluedCall.callLine {c : Cursor} {blanks inner rest : List Char}
    (h : c.GluedCall blanks inner rest) :
    ∃ d e f g i j, CallLine c d e f g i j blanks inner := by
  obtain ⟨d, hd, hdr⟩ := exists_reads h.rest_eq
  obtain ⟨e, he, her⟩ := exists_reads hdr
  obtain ⟨f, hf, hfr⟩ := exists_reads her
  obtain ⟨g, hg, hgr⟩ := exists_reads hfr
  obtain ⟨i, hi, hir⟩ := exists_reads hgr
  obtain ⟨j, hj, _⟩ := exists_reads hir
  exact ⟨d, e, f, g, i, j, hd, he, h.blanks_blank, h.blanks_ne, hf, hg, hi, h.inner_inside,
    h.inner_ne, hj⟩

theorem CallLine.glued {c d e f g i j : Cursor} {blanks inner : List Char}
    (h : CallLine c d e f g i j blanks inner) (hb : Cursor.startsWithWord c.before = true) :
    c.GluedCall blanks inner j.rest := by
  refine ⟨hb, ?_, h.blanks_blank, h.blanks_ne, h.inner_inside, h.inner_ne⟩
  rw [h.call_reads.1, h.blanks_reads.1, h.url_reads.1, h.open_reads.1, h.inner_reads.1,
    h.close_reads.1]

namespace Token

variable {source : String} {c d : Cursor} {w tail : List Char} {k : Category}

theorem word_tokenTo (hr : c.Reads (w ++ tail) d) (hw : ∀ x ∈ w, Text.isWord x = true)
    (ht : ∀ x ∈ tail, x = '\r' ∨ x = '\n') : (c.tokenTo d k).word = w := by
  have htext : (c.tokenTo d k).text.toList = w ++ tail := by
    rw [Cursor.tokenTo, hr.upTo, String.toList_ofList]
  rw [word, htext, List.reverse_append, List.dropWhile_append_of_pos (by simpa using ht)]
  cases hv : w.reverse with
  | nil => simpa using hv.symm
  | cons x xs =>
    have hx : Text.isWord x = true := hw x (by rw [← List.mem_reverse, hv]; simp)
    have hne : ¬ (x == '\r' || x == '\n') = true := by
      intro h
      rcases Bool.or_eq_true_iff.mp h with h | h <;> rw [beq_iff_eq.mp h] at hx <;>
        exact absurd hx (by decide)
    rw [List.dropWhile_cons, if_neg hne, ← hv, List.reverse_reverse]

theorem isWhole_tokenTo (hc : (Cursor.ofText source).Reaches c) (hr : c.Reads (w ++ tail) d)
    (hw : ∀ x ∈ w, Text.isWord x = true) (ht : ∀ x ∈ tail, x = '\r' ∨ x = '\n')
    (hb : Cursor.startsWithWord c.before = false)
    (ha : Cursor.startsWithWord (tail ++ d.rest) = false) : (c.tokenTo d k).IsWhole source := by
  have hs : source.toList = c.before.reverse ++ c.rest := hc.chars.symm
  refine ⟨c.before.reverse, tail ++ d.rest, ?_, ?_, ?_, ha⟩
  · rw [word_tokenTo hr hw ht, hs, hr.1, List.append_assoc, List.append_assoc]
  · rw [Text.bytes_reverse]
    exact c.offset_eq
  · rwa [List.reverse_reverse]

theorem isWhole_of_word (hc : (Cursor.ofText source).Reaches c) (h : c.Word w d)
    (hw : ∀ x ∈ w, Text.isWord x = true) : (c.tokenTo d k).IsWhole source := by
  have hr : c.Reads (w ++ []) d := by
    rw [List.append_nil]
    exact h.reads
  exact isWhole_tokenTo hc hr hw (by simp) h.before h.after

/-- A token that starts behind a word character is not whole. -/
theorem not_isWhole {t : Token} (hc : (Cursor.ofText source).Reaches c)
    (ht : t.span.start = c.offset) (hb : Cursor.startsWithWord c.before = true) :
    ¬ t.IsWhole source := by
  rintro ⟨before, after, hs, ho, hw, _⟩
  have hcs : source.toList = c.before.reverse ++ c.rest := hc.chars.symm
  rw [hs, List.append_assoc] at hcs
  have hn : Text.bytes before = Text.bytes c.before.reverse := by
    rw [← ho, ht, Text.bytes_reverse]
    exact c.offset_eq
  obtain ⟨rfl, _⟩ := Text.eq_of_bytes_eq hcs hn
  rw [List.reverse_reverse, hb] at hw
  simp at hw

end Token

theorem not_word_of_blanks {c d : Cursor} {b : List Char} (h : c.Reads b d)
    (hb : ∀ x ∈ b, Text.isBlank x = true) (hne : b ≠ []) :
    Cursor.startsWithWord d.before = false ∧ Cursor.startsWithWord c.rest = false := by
  constructor
  · rw [h.2, Cursor.startsWithWord_append (by simpa using hne)]
    exact Cursor.startsWithWord_of_blank (by simpa using hb)
  · rw [h.1, Cursor.startsWithWord_append hne]
    exact Cursor.startsWithWord_of_blank hb

variable {d : Dialect} {s : Scanner (.ofDialect d)}

/-- What a step reads as a word is whole, or a call behind a word character. -/
theorem isWhole_of_mem {source : String} {t : Token} (hc : (Cursor.ofText source).Reaches s.cursor)
    (ht : t ∈ s.stepTokens) (hk : t.category.ofWord = true) :
    t.IsWhole source ∨
      s.mode = .root ∧ ∃ blanks inner rest, s.cursor.GluedCall blanks inner rest := by
  cases Scanner.readsWord_of_mem ht hk with
  | @bareOpener e f tail hs hw hr hl =>
    have hword : ∀ x ∈ "textblock".toList, Text.isWord x = true := Text.isWord_of_all (by decide)
    refine .inl (Token.isWhole_tokenTo hc (hw.reads.append hr) hword hl.mem hw.before ?_)
    exact hl.not_word
  | opener hs hl => exact .inl (Token.isWhole_of_word hc hl.opener_word hl.opener_isWord)
  | @label e f j o b l tail hs hl =>
    have hf := hl.opener_word.reads.reaches.trans hl.blanks_reads.reaches
    have hb := not_word_of_blanks hl.blanks_reads hl.blanks_blank hl.blanks_ne
    exact .inl (Token.isWhole_tokenTo (hc.trans hf) hl.label_reads hl.label_word hl.tail_ends.mem
      hb.1 hl.tail_ends.not_word)
  | @call e f g h i j b inner hs hl =>
    cases hw : Cursor.startsWithWord s.cursor.before with
    | true => exact .inr ⟨hs, b, inner, j.rest, hl.glued hw⟩
    | false =>
      have hb := not_word_of_blanks hl.blanks_reads hl.blanks_blank hl.blanks_ne
      exact .inl (Token.isWhole_of_word hc ⟨hl.call_reads, hw, hb.2⟩
        (Text.isWord_of_all (by decide)))
  | @url e f g h i j b inner hs hl =>
    have hf := hl.call_reads.reaches.trans hl.blanks_reads.reaches
    have hb := not_word_of_blanks hl.blanks_reads hl.blanks_blank hl.blanks_ne
    have ha : Cursor.startsWithWord g.rest = false := by
      rw [hl.open_reads.1]
      exact (by decide : Text.isWord '[' = false)
    exact .inl (Token.isWhole_of_word (hc.trans hf) ⟨hl.url_reads, hb.1, ha⟩
      (Text.isWord_of_all (by decide)))
  | identifier hs hx hxs hw =>
    exact .inl (Token.isWhole_of_word hc hw fun y hy => Text.isWord_of_isAsciiWord (hxs y hy))
  | closer hs hw => exact .inl (Token.isWhole_of_word hc hw (Text.isWord_of_all (by decide)))

/-- Keywords and names are whole words, unless the scan comes to a remote call
behind a word character. -/
theorem words_whole_iff (d : Dialect) (keep : Bool) (source : String) :
    (∀ t ∈ (scan (.ofDialect d) keep source).value.1, t.category.ofWord = true →
      t.IsWhole source) ↔
    ¬ ∃ s blanks inner rest, Scanner.Reachable (.onText (.ofDialect d) keep source) s ∧
      s.mode = .root ∧ s.cursor.GluedCall blanks inner rest := by
  have hg := Grammar.numbered_ofDialect d
  constructor
  · rintro h ⟨s, blanks, inner, rest, hs, hm, hk⟩
    obtain ⟨e, _, _, _, _, _, hl⟩ := hk.callLine
    obtain ⟨ts, ht⟩ := Scanner.stepTokens_remoteCall hm hl
    have he : s.atEnd ≠ true := Scanner.not_atEnd (by simp [hk.rest_eq])
    have hmem : s.cursor.tokenTo e .keyword ∈ s.stepTokens := by simp [ht]
    have hw := h _ ((mem_scan hg).mpr ⟨s, hs, he, hmem⟩) rfl
    exact Token.not_isWhole hs.reaches rfl hk.before hw
  · intro h t ht hk
    obtain ⟨s, hs, _, ht⟩ := (mem_scan hg).mp ht
    rcases isWhole_of_mem hs.reaches ht hk with hw | ⟨hm, b, inner, rest, hc⟩
    · exact hw
    · exact absurd ⟨s, b, inner, rest, hs, hm, hc⟩ h

/-- A call behind a digit, which no rule takes. -/
theorem call_behind_digit :
    ¬ ∀ t ∈ (scan (.ofDialect .current) false "1call url[a]").value.1,
      t.category.ofWord = true → t.IsWhole "1call url[a]" := by
  intro h
  have hm : (⟨.keyword, "call", ⟨1, 5⟩⟩ : Token) ∈
      (scan (.ofDialect .current) false "1call url[a]").value.1 := by decide +kernel
  have hc := Cursor.reaches_advance (.ofText "1call url[a]")
  exact Token.not_isWhole hc (by decide) (by decide) (h _ hm rfl)

end Highlighter
