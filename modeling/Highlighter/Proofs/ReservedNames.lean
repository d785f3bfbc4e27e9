import Highlighter.Proofs.Scanner.WordSteps

/-!
# Names and reserved words

An identifier is looked up in the vocabulary, so it is a name only if it is
not reserved. The label of a block is a name without being looked up. A line
ending belongs to the label and no reserved word has one, so a reserved word
can be a name in one place only: as a label with which the text ends.
-/

set_option autoImplicit false

namespace Highlighter

def Vocabulary.Reserves (v : Vocabulary) (word : String) : Prop :=
  word ∈ v.control ∨ word ∈ v.declarations

instance (v : Vocabulary) (word : String) : Decidable (v.Reserves word) :=
  inferInstanceAs (Decidable (_ ∨ _))

theorem Vocabulary.not_reserves_of_classify {v : Vocabulary} {word : String}
    (h : v.classify word = .name) : ¬ v.Reserves word := by
  unfold classify at h
  split at h
  · simp at h
  · split at h
    · simp at h
    · rename_i hd hc
      simpa [Reserves] using And.intro hc hd

theorem isWord_of_reserves {d : Dialect} {word : String}
    (h : (Vocabulary.ofDialect d).Reserves word) : ∀ x ∈ word.toList, Text.isWord x = true := by
  have hc : (Vocabulary.ofDialect d).control.all (·.toList.all Text.isAsciiWord) = true := by
    cases d <;> decide
  have hd : (Vocabulary.ofDialect d).declarations.all (·.toList.all Text.isAsciiWord) = true := by
    cases d <;> decide
  apply Text.isWord_of_all
  cases h with
  | inl h => exact List.all_eq_true.mp hc word h
  | inr h => exact List.all_eq_true.mp hd word h

theorem not_reserves_empty (d : Dialect) : ¬ (Vocabulary.ofDialect d).Reserves "" := by
  cases d <;> decide

structure Cursor.EndsInLabel (c : Cursor) (opener blanks label : List Char) : Prop where
  rest_eq : c.rest = opener ++ (blanks ++ label)
  before : startsWithWord c.before = false
  opener_eq : opener = "textblockex".toList ∨
    opener = "textblock".toList ∧ ¬ (['\n'] <+: blanks ∨ ['\r', '\n'] <+: blanks)
  blanks_blank : ∀ x ∈ blanks, Text.isBlank x = true
  blanks_ne : blanks ≠ []

namespace Cursor.EndsInLabel

variable {c : Cursor} {o b l : List Char}

theorem labelledLine (h : c.EndsInLabel o b l) (hl : ∀ x ∈ l, Text.isWord x = true) (hne : l ≠ []) :
    ∃ d e f, LabelledLine c d e f o b l [] := by
  obtain ⟨d, hd, hdr⟩ := exists_reads h.rest_eq
  obtain ⟨e, he, her⟩ := exists_reads hdr
  obtain ⟨f, hf, hfr⟩ := exists_reads (show e.rest = (l ++ []) ++ [] by simp [her])
  have ho : o = "textblock".toList ∨ o = "textblockex".toList :=
    h.opener_eq.elim .inr fun k => .inl k.1
  have ha : startsWithWord d.rest = false := by
    rw [hdr, startsWithWord_append h.blanks_ne]
    exact startsWithWord_of_blank h.blanks_blank
  exact ⟨d, e, f, ho, ⟨hd, h.before, ha⟩, he, h.blanks_blank, h.blanks_ne, hf, hl, hne,
    .inr (.inr ⟨.inl rfl, hfr⟩)⟩

/-- Such a line does not open a block without a label. -/
theorem not_bare (h : c.EndsInLabel o b l) (hl : ∀ x ∈ l, Text.isWord x = true) (hne : l ≠ []) :
    Declared.bareOpener.pattern.takes? c = none := by
  obtain ⟨d, e, f, hline⟩ := h.labelledLine hl hne
  rw [hline.takes_bareOpener_eq_none]
  rintro ⟨ho, hb⟩
  rcases h.opener_eq with hex | ⟨_, hn⟩
  · exact absurd (ho.symm.trans hex) (by decide)
  · exact hn hb

end Cursor.EndsInLabel

variable {d : Dialect} {s : Scanner (.ofDialect d)}

theorem LineTail.rest_of_nil {e : Cursor} (h : LineTail [] e) : e.rest = [] := by
  rcases h with h | h | ⟨_, h⟩
  · simp at h
  · simp at h
  · exact h

theorem LineTail.eq_nil_of_word {t : List Char} {e : Cursor} (h : LineTail t e)
    (hw : ∀ x ∈ t, Text.isWord x = true) : t = [] := by
  cases t with
  | nil => rfl
  | cons x t =>
    have hx := hw x List.mem_cons_self
    rcases h.mem x List.mem_cons_self with rfl | rfl
    · exact absurd hx (by decide)
    · exact absurd hx (by decide)

/-- A label that a step reads up to the end of the text ends an opening line. -/
theorem endsInLabel_of_label {e f j : Cursor} {o b l : List Char} (hs : s.mode = .root)
    (hl : LabelledLine s.cursor e f j o b l []) (ht : f.tokenTo j .name ∈ s.stepTokens) :
    s.cursor.EndsInLabel o b l := by
  have hr : e.rest = b ++ l := by
    rw [hl.blanks_reads.1, hl.label_rest, hl.tail_ends.rest_of_nil, List.append_nil,
      List.append_nil]
  refine ⟨?_, hl.opener_word.before, ?_, hl.blanks_blank, hl.blanks_ne⟩
  · rw [hl.opener_word.reads.1, hr]
  · rcases hl.opener_eq with rfl | rfl
    · refine .inr ⟨rfl, fun hb => ?_⟩
      obtain ⟨m, hm⟩ := hl.takes_bareOpener_iff.mpr ⟨rfl, hb⟩
      rw [Scanner.stepTokens_bareOpener hs hm, List.mem_singleton] at ht
      simp [Cursor.tokenTo] at ht
    · exact .inl rfl

/-- A step that reads a reserved word as a name reads the label of the last line. -/
theorem endsInLabel_of_name {t : Token} (ht : t ∈ s.stepTokens) (hn : t.category = .name)
    (hr : (Vocabulary.ofDialect d).Reserves t.text) :
    s.mode = .root ∧ ∃ o b l, s.cursor.EndsInLabel o b l ∧
      (Vocabulary.ofDialect d).Reserves (String.ofList l) := by
  cases Scanner.readsWord_of_mem ht (by rw [hn]; rfl) with
  | @label e f j o b l tail hs hl =>
    rw [show (f.tokenTo j .name).text = String.ofList (l ++ tail) from
      congrArg String.ofList hl.label_reads.upTo] at hr
    have hw := isWord_of_reserves hr
    rw [String.toList_ofList] at hw
    obtain rfl := hl.tail_ends.eq_nil_of_word fun x hx => hw x (List.mem_append_right l hx)
    rw [List.append_nil] at hr
    exact ⟨hs, o, b, l, endsInLabel_of_label hs hl ht, hr⟩
  | identifier hs hx hxs hw =>
    rw [vocabulary_ofDialect] at hn
    rw [Cursor.tokenTo, hw.reads.upTo] at hr
    exact absurd hr (Vocabulary.not_reserves_of_classify hn)
  | _ => simp [Cursor.tokenTo] at hn

/-- In the root mode the label of such a line is read as a name. -/
theorem name_of_endsInLabel {o b l : List Char} (hs : s.mode = .root)
    (h : s.cursor.EndsInLabel o b l) (hr : (Vocabulary.ofDialect d).Reserves (String.ofList l)) :
    ∃ t ∈ s.stepTokens, t.category = .name ∧ t.text = String.ofList l := by
  have hw := isWord_of_reserves hr
  rw [String.toList_ofList] at hw
  have hne : l ≠ [] := by
    rintro rfl
    exact not_reserves_empty d hr
  obtain ⟨e, f, j, hl⟩ := h.labelledLine hw hne
  rw [Scanner.stepTokens_labelledOpener hs hl (h.not_bare hw hne)]
  refine ⟨f.tokenTo j .name, by simp, rfl, ?_⟩
  have ht := congrArg String.ofList hl.label_reads.upTo
  rwa [List.append_nil] at ht

/-- No name is a reserved word, unless the scan comes to an opening line with
which the text ends and whose label is reserved. -/
theorem names_unreserved_iff (d : Dialect) (keep : Bool) (source : String) :
    (∀ t ∈ (scan (.ofDialect d) keep source).value.1, t.category = .name →
      ¬ (Vocabulary.ofDialect d).Reserves t.text) ↔
    ¬ ∃ s opener blanks label, Scanner.Reachable (.onText (.ofDialect d) keep source) s ∧
      s.mode = .root ∧ s.cursor.EndsInLabel opener blanks label ∧
      (Vocabulary.ofDialect d).Reserves (String.ofList label) := by
  have hg := Grammar.numbered_ofDialect d
  constructor
  · rintro h ⟨s, o, b, l, hs, hm, hl, hr⟩
    obtain ⟨t, ht, hn, htext⟩ := name_of_endsInLabel hm hl hr
    have he : s.atEnd ≠ true := Scanner.not_atEnd (by simp [hl.rest_eq, hl.blanks_ne])
    rw [← htext] at hr
    exact h t ((mem_scan hg).mpr ⟨s, hs, he, ht⟩) hn hr
  · intro h t ht hn hr
    obtain ⟨s, hs, _, ht⟩ := (mem_scan hg).mp ht
    obtain ⟨hm, o, b, l, hl, hr⟩ := endsInLabel_of_name ht hn hr
    exact h ⟨s, o, b, l, hs, hm, hl, hr⟩

/-- A block opened in the last line, with a label that is a keyword. -/
theorem name_reserved_at_end :
    ¬ ∀ t ∈ (scan (.ofDialect .current) false "textblock if").value.1, t.category = .name →
      ¬ (Vocabulary.ofDialect .current).Reserves t.text := by
  decide +kernel

end Highlighter
