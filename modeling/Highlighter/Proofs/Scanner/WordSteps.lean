import Highlighter.Proofs.Grammar.WordRules
import Highlighter.Proofs.Scanner.Origins

/-!
# Steps that read words

`Scanner.ReadsWord` lists the ways in which a step gives a token for a word:
every token of a keyword, declaration or name category comes from one of them.
The other direction is stated for the ways in which a word can go wrong.
-/

set_option autoImplicit false

namespace Highlighter

open Declared

def Category.ofWord : Category → Bool
  | .keyword => true
  | .declaration => true
  | .name => true
  | _ => false

def Rule.givesWords (r : Rule) : Bool :=
  match r.reading with
  | .whole k => k.ofWord
  | _ => true

theorem givesWords_cases {d : Dialect} {m : Mode} {n : Nat} {r : Rule}
    (h : (n, r) ∈ (Grammar.ofDialect d).rulesIn m) (hr : r.givesWords = true) :
    m = .root ∧ r ∈ [bareOpener, labelledOpener, remoteCall, identifier] ∨
      m = .block ∧ r = blockCloser .keyword := by
  have hall : ∀ p ∈ (Grammar.ofDialect d).rulesIn m, p.2.givesWords = true →
      m = .root ∧ p.2 ∈ [bareOpener, labelledOpener, remoteCall, identifier] ∨
        m = .block ∧ p.2 = blockCloser .keyword := by
    cases d <;> cases m <;> decide
  exact hall _ h hr

/-- In the root mode the openers and the call stand together, and the rules
before them take nothing that starts as they do. -/
theorem rulesIn_root (d : Dialect) : ∃ before after,
    (Grammar.ofDialect d).rulesIn .root = before ++
      (0, bareOpener) :: (1, labelledOpener) :: (2, remoteCall) :: after ∧
    ∀ p ∈ before, p.2.pattern.shuns 't' = true ∧ p.2.pattern.shuns 'c' = true := by
  refine ⟨((Grammar.ofDialect d).rulesIn .root).take 9,
    ((Grammar.ofDialect d).rulesIn .root).drop 12, ?_, ?_⟩
  · cases d <;> rfl
  · cases d <;> decide

namespace Reading

theorem groupTokens_cons {m : Match} {captures : List Capture} (hm : m.captures = captures)
    {n : Nat} {c d : Cursor} (hf : captures.find? (·.number == n) = some ⟨n, c, d⟩)
    {xs : List Char} (hr : c.Reads xs d) (hx : xs ≠ []) (k : Category) (ks : List Category) :
    groupTokens m n (k :: ks) = c.tokenTo d k :: groupTokens m (n + 1) ks := by
  have hne : c.offset ≠ d.offset := Nat.ne_of_lt (hr.offset_lt hx)
  rw [groupTokens, Match.capture?, hm, hf]
  simp [Capture.tokens, hne]

theorem tokens_labelledOpener {m : Match} {c d e f : Cursor}
    {opener blanks label tail : List Char} (h : LabelledLine c d e f opener blanks label tail)
    (hm : m.captures = [⟨3, e, f⟩, ⟨2, d, e⟩, ⟨1, c, d⟩]) (v : Vocabulary) :
    labelledOpener.reading.tokens v m =
      [c.tokenTo d .keyword, d.tokenTo e .whitespace, e.tokenTo f .name] := by
  have ho : opener ≠ [] := by
    rcases h.opener_eq with rfl | rfl <;> decide
  have hl : label ++ tail ≠ [] := by simp [h.label_ne]
  rw [labelledOpener, tokens, groupTokens_cons hm rfl h.opener_word.reads ho,
    groupTokens_cons hm rfl h.blanks_reads h.blanks_ne, groupTokens_cons hm rfl h.label_reads hl,
    groupTokens]

theorem tokens_remoteCall {m : Match} {c d e f g h j : Cursor} {blanks inner : List Char}
    (hc : CallLine c d e f g h j blanks inner)
    (hm : m.captures = [⟨6, h, j⟩, ⟨5, g, h⟩, ⟨4, f, g⟩, ⟨3, e, f⟩, ⟨2, d, e⟩, ⟨1, c, d⟩])
    (v : Vocabulary) :
    remoteCall.reading.tokens v m =
      [c.tokenTo d .keyword, d.tokenTo e .whitespace, e.tokenTo f .keyword,
        f.tokenTo g .punctuation, g.tokenTo h .literal, h.tokenTo j .punctuation] := by
  rw [remoteCall, tokens, groupTokens_cons hm rfl hc.call_reads (by decide),
    groupTokens_cons hm rfl hc.blanks_reads hc.blanks_ne,
    groupTokens_cons hm rfl hc.url_reads (by decide),
    groupTokens_cons hm rfl hc.open_reads (by decide),
    groupTokens_cons hm rfl hc.inner_reads hc.inner_ne,
    groupTokens_cons hm rfl hc.close_reads (by decide), groupTokens]

end Reading

/-- Between the opener and a label, a line ending stands directly behind the
opener or nowhere. -/
theorem lineTail_iff {d : Cursor} {b l : List Char} (hd : d.rest = b ++ l) (hb : b ≠ [])
    (hl : Cursor.startsWithWord l = true) :
    (∃ tail f, d.Reads tail f ∧ LineTail tail f) ↔ ['\n'] <+: b ∨ ['\r', '\n'] <+: b := by
  constructor
  · rintro ⟨tail, f, hr, ht⟩
    have heq : tail ++ f.rest = b ++ l := hr.1.symm.trans hd
    obtain ⟨x, b, rfl⟩ := List.exists_cons_of_ne_nil hb
    have hne : l ≠ [] := by
      rintro rfl
      cases hl
    obtain ⟨y, l, rfl⟩ := List.exists_cons_of_ne_nil hne
    rcases ht with rfl | rfl | ⟨rfl | rfl, hf⟩
    · obtain ⟨rfl, _⟩ := List.cons.inj heq
      exact .inl ⟨b, rfl⟩
    · obtain ⟨rfl, hrest⟩ := List.cons.inj heq
      cases b with
      | nil =>
        obtain ⟨rfl, _⟩ := List.cons.inj hrest
        exact absurd (show Text.isWord '\n' = true from hl) (by decide)
      | cons z b =>
        obtain ⟨rfl, _⟩ := List.cons.inj hrest
        exact .inr ⟨b, rfl⟩
    · simp [hf] at heq
    · simp [hf] at heq
  · rintro (⟨b, rfl⟩ | ⟨b, rfl⟩)
    · obtain ⟨f, hf, _⟩ := Cursor.exists_reads (hd.trans (List.append_assoc _ b l))
      exact ⟨_, f, hf, .inl rfl⟩
    · obtain ⟨f, hf, _⟩ := Cursor.exists_reads (hd.trans (List.append_assoc _ b l))
      exact ⟨_, f, hf, .inr (.inl rfl)⟩

/-- The opener of a block without a label takes an opening line with a label exactly if
a line ends directly behind `textblock`. -/
theorem LabelledLine.takes_bareOpener_iff {c d e f : Cursor} {o b l t : List Char}
    (h : LabelledLine c d e f o b l t) :
    (∃ m, bareOpener.pattern.takes? c = some m) ↔
      o = "textblock".toList ∧ (['\n'] <+: b ∨ ['\r', '\n'] <+: b) := by
  have hrest : d.rest = b ++ (l ++ (t ++ f.rest)) := by
    rw [h.blanks_reads.1, h.label_rest]
  have hlabel : Cursor.startsWithWord (l ++ (t ++ f.rest)) = true := by
    rw [Cursor.startsWithWord_append h.label_ne]
    exact Cursor.startsWithWord_of_word h.label_word h.label_ne
  have hline := lineTail_iff hrest h.blanks_ne hlabel
  constructor
  · rintro ⟨m, hm⟩
    have hp := (Pattern.path_of_matchAt (Pattern.takes_eq_some hm).1).2
    obtain ⟨k, tail, hw, ht, hg⟩ := Pattern.mem_paths_bareOpener.mp hp
    obtain ⟨rfl, rfl⟩ := h.opener_word.unique hw h.opener_isWord (Text.isWord_of_all (by decide))
    exact ⟨rfl, hline.mp ⟨tail, _, hg.1, ht⟩⟩
  · rintro ⟨rfl, hb⟩
    obtain ⟨tail, k, hk, ht⟩ := hline.mpr hb
    have hp : ⟨k, []⟩ ∈ bareOpener.pattern.paths ⟨c, []⟩ :=
      Pattern.mem_paths_bareOpener.mpr ⟨d, tail, h.opener_word, ht, hk, rfl⟩
    refine Pattern.takes_of_path hp fun q hq => ?_
    obtain ⟨j, _, hj, _, hg⟩ := Pattern.mem_paths_bareOpener.mp hq
    exact Nat.lt_of_lt_of_le (hj.reads.offset_lt (by decide)) hg.1.reaches.offset_le

theorem LabelledLine.takes_bareOpener_eq_none {c d e f : Cursor} {o b l t : List Char}
    (h : LabelledLine c d e f o b l t) : bareOpener.pattern.takes? c = none ↔
      ¬ (o = "textblock".toList ∧ (['\n'] <+: b ∨ ['\r', '\n'] <+: b)) := by
  rw [← h.takes_bareOpener_iff, Option.eq_none_iff_forall_ne_some, not_exists]

namespace Scanner

inductive ReadsWord {g : Grammar} (s : Scanner g) : Token → Prop
  | bareOpener {d e : Cursor} {tail : List Char} : s.mode = .root →
      s.cursor.Word "textblock".toList d → d.Reads tail e → LineTail tail e →
      ReadsWord s (s.cursor.tokenTo e .keyword)
  | opener {d e f : Cursor} {opener blanks label tail : List Char} : s.mode = .root →
      LabelledLine s.cursor d e f opener blanks label tail →
      ReadsWord s (s.cursor.tokenTo d .keyword)
  | label {d e f : Cursor} {opener blanks label tail : List Char} : s.mode = .root →
      LabelledLine s.cursor d e f opener blanks label tail → ReadsWord s (e.tokenTo f .name)
  | call {d e f g h j : Cursor} {blanks inner : List Char} : s.mode = .root →
      CallLine s.cursor d e f g h j blanks inner → ReadsWord s (s.cursor.tokenTo d .keyword)
  | url {d e f g h j : Cursor} {blanks inner : List Char} : s.mode = .root →
      CallLine s.cursor d e f g h j blanks inner → ReadsWord s (e.tokenTo f .keyword)
  | identifier {x : Char} {xs : List Char} {d : Cursor} : s.mode = .root →
      identifierStart.accepts x = true → (∀ y ∈ x :: xs, Text.isAsciiWord y = true) →
      s.cursor.Word (x :: xs) d →
      ReadsWord s (s.cursor.tokenTo d (g.vocabulary.classify (String.ofList (x :: xs))))
  | closer {d : Cursor} : s.mode = .block → s.cursor.Word "endtextblock".toList d →
      ReadsWord s (s.cursor.tokenTo d .keyword)

variable {g : Grammar} {t : Token} {m : Match}

theorem readsWord_of_labelledOpener {s : Scanner g} (hs : s.mode = .root)
    (hm : labelledOpener.pattern.takes? s.cursor = some m)
    (ht : t ∈ labelledOpener.reading.tokens g.vocabulary m) (hk : t.category.ofWord = true) :
    s.ReadsWord t := by
  have hp := (Pattern.path_of_matchAt (Pattern.takes_eq_some hm).1).2
  obtain ⟨_, _, _, _, _, _, hl, hc⟩ := Pattern.mem_paths_labelledOpener.mp hp
  rw [Reading.tokens_labelledOpener hl hc] at ht
  simp only [List.mem_cons, List.not_mem_nil, or_false] at ht
  rcases ht with rfl | rfl | rfl
  · exact .opener hs hl
  · simp [Cursor.tokenTo, Category.ofWord] at hk
  · exact .label hs hl

theorem readsWord_of_remoteCall {s : Scanner g} (hs : s.mode = .root)
    (hm : remoteCall.pattern.takes? s.cursor = some m)
    (ht : t ∈ remoteCall.reading.tokens g.vocabulary m) (hk : t.category.ofWord = true) :
    s.ReadsWord t := by
  have hp := (Pattern.path_of_matchAt (Pattern.takes_eq_some hm).1).2
  obtain ⟨_, _, _, _, _, _, _, hl, hc⟩ := Pattern.mem_paths_remoteCall.mp hp
  rw [Reading.tokens_remoteCall hl hc] at ht
  simp only [List.mem_cons, List.not_mem_nil, or_false] at ht
  rcases ht with rfl | rfl | rfl | rfl | rfl | rfl
  · exact .call hs hl
  · simp [Cursor.tokenTo, Category.ofWord] at hk
  · exact .url hs hl
  all_goals simp [Cursor.tokenTo, Category.ofWord] at hk

theorem eq_tokenTo_of_whole {s : Scanner g} {r : Rule} {k : Category} (hr : r.reading = .whole k)
    (hm : r.pattern.takes? s.cursor = some m) (ht : t ∈ r.reading.tokens g.vocabulary m) :
    t = s.cursor.tokenTo m.stop k ∧ ⟨m.stop, m.captures⟩ ∈ r.pattern.paths ⟨s.cursor, []⟩ := by
  obtain ⟨hs, hp⟩ := Pattern.path_of_matchAt (Pattern.takes_eq_some hm).1
  rw [hr, Reading.tokens, List.mem_singleton, hs] at ht
  exact ⟨ht, hp⟩

theorem readsWord_of_bareOpener {s : Scanner g} (hs : s.mode = .root)
    (hm : bareOpener.pattern.takes? s.cursor = some m)
    (ht : t ∈ bareOpener.reading.tokens g.vocabulary m) : s.ReadsWord t := by
  obtain ⟨rfl, hp⟩ := eq_tokenTo_of_whole rfl hm ht
  obtain ⟨d, tail, hw, hl, hg⟩ := Pattern.mem_paths_bareOpener.mp hp
  exact .bareOpener hs hw hg.1 hl

theorem readsWord_of_blockCloser {s : Scanner g} (hs : s.mode = .block)
    (hm : (blockCloser .keyword).pattern.takes? s.cursor = some m)
    (ht : t ∈ (blockCloser .keyword).reading.tokens g.vocabulary m) : s.ReadsWord t := by
  obtain ⟨rfl, hp⟩ := eq_tokenTo_of_whole rfl hm ht
  exact .closer hs (Pattern.mem_paths_blockCloser.mp hp).1

theorem readsWord_of_identifier {s : Scanner g} (hs : s.mode = .root)
    (hm : Declared.identifier.pattern.takes? s.cursor = some m)
    (ht : t ∈ Declared.identifier.reading.tokens g.vocabulary m) : s.ReadsWord t := by
  obtain ⟨hc, hp⟩ := Pattern.path_of_matchAt (Pattern.takes_eq_some hm).1
  obtain ⟨x, xs, hx, hxs, hw, _⟩ := Pattern.mem_paths_identifier.mp hp
  obtain rfl : t = _ := by simpa [Declared.identifier, Reading.tokens] using ht
  rw [hc, Match.chars, hc, hw.reads.upTo]
  exact .identifier hs hx hxs hw

theorem givesWords_of_mem {r : Rule} {v : Vocabulary} (ht : t ∈ r.reading.tokens v m)
    (hk : t.category.ofWord = true) : r.givesWords = true := by
  unfold Rule.givesWords
  split
  · rename_i k hr
    rw [hr, Reading.tokens, List.mem_singleton] at ht
    rw [ht] at hk
    exact hk
  · rfl

variable {d : Dialect} {s : Scanner (.ofDialect d)}

/-- Every token of a word is read in one of these ways. -/
theorem readsWord_of_mem (ht : t ∈ s.stepTokens) (hk : t.category.ofWord = true) :
    s.ReadsWord t := by
  cases hf : firstHit? s.cursor ((Grammar.ofDialect d).rulesIn s.mode) with
  | none =>
    rw [stepTokens, hf] at ht
    cases hu : s.keepUnmatched with
    | false => simp [hu] at ht
    | true =>
      obtain rfl : t = _ := by simpa [hu] using ht
      simp [Cursor.tokenTo, Category.ofWord] at hk
  | some hit =>
    rw [stepTokens_of_hit hf] at ht
    obtain ⟨⟨n, hn⟩, hm⟩ := firstHit_mem hf
    have hw := givesWords_of_mem ht hk
    obtain ⟨rule, found⟩ := hit
    rcases givesWords_cases hn hw with ⟨hs, hr⟩ | ⟨hs, rfl⟩
    · simp only [List.mem_cons, List.not_mem_nil, or_false] at hr
      rcases hr with rfl | rfl | rfl | rfl
      · exact readsWord_of_bareOpener hs hm ht
      · exact readsWord_of_labelledOpener hs hm ht hk
      · exact readsWord_of_remoteCall hs hm ht hk
      · exact readsWord_of_identifier hs hm ht
    · exact readsWord_of_blockCloser hs hm ht

/-! The other direction: the rest of the text decides which rule is taken. -/

theorem firstHit_bareOpener (hs : s.mode = .root) (hx : s.cursor.current? = some 't')
    (hm : bareOpener.pattern.takes? s.cursor = some m) :
    firstHit? s.cursor ((Grammar.ofDialect d).rulesIn s.mode) = some ⟨bareOpener, m⟩ := by
  obtain ⟨before, after, hr, hb⟩ := rulesIn_root d
  rw [hs, hr, firstHit_skip fun p hp => Pattern.takes_of_shuns (hb p hp).1 hx, firstHit?, hm]

theorem firstHit_labelledOpener (hs : s.mode = .root) (hx : s.cursor.current? = some 't')
    (hn : bareOpener.pattern.takes? s.cursor = none)
    (hm : labelledOpener.pattern.takes? s.cursor = some m) :
    firstHit? s.cursor ((Grammar.ofDialect d).rulesIn s.mode) = some ⟨labelledOpener, m⟩ := by
  obtain ⟨before, after, hr, hb⟩ := rulesIn_root d
  rw [hs, hr, firstHit_skip fun p hp => Pattern.takes_of_shuns (hb p hp).1 hx, firstHit?, hn]
  simp only [firstHit?, hm]

theorem firstHit_remoteCall (hs : s.mode = .root) (hx : s.cursor.current? = some 'c')
    (hm : remoteCall.pattern.takes? s.cursor = some m) :
    firstHit? s.cursor ((Grammar.ofDialect d).rulesIn s.mode) = some ⟨remoteCall, m⟩ := by
  obtain ⟨before, after, hr, hb⟩ := rulesIn_root d
  have hbare : bareOpener.pattern.takes? s.cursor = none := Pattern.takes_of_shuns (by decide) hx
  have hlab : labelledOpener.pattern.takes? s.cursor = none := Pattern.takes_of_shuns (by decide) hx
  rw [hs, hr, firstHit_skip fun p hp => Pattern.takes_of_shuns (hb p hp).2 hx, firstHit?, hbare]
  simp only [firstHit?, hlab, hm]

theorem stepTokens_bareOpener (hs : s.mode = .root)
    (hm : bareOpener.pattern.takes? s.cursor = some m) :
    s.stepTokens = [s.cursor.tokenTo m.stop .keyword] := by
  obtain ⟨hc, hp⟩ := Pattern.path_of_matchAt (Pattern.takes_eq_some hm).1
  obtain ⟨e, _, hw, _⟩ := Pattern.mem_paths_bareOpener.mp hp
  have hf := firstHit_bareOpener hs (Cursor.reads_cons.mp hw.reads).1 hm
  rw [stepTokens_of_hit hf, bareOpener, Reading.tokens, hc]

/-- A line that opens a block with its label is read by the rule for such lines, unless
it opens one without. -/
theorem firstHit_of_labelledLine {e f j : Cursor} {opener blanks label tail : List Char}
    (hs : s.mode = .root) (h : LabelledLine s.cursor e f j opener blanks label tail)
    (hn : bareOpener.pattern.takes? s.cursor = none) :
    ∃ m, firstHit? s.cursor ((Grammar.ofDialect d).rulesIn s.mode) = some ⟨labelledOpener, m⟩ ∧
      labelledOpener.pattern.takes? s.cursor = some m := by
  obtain ⟨m, hm⟩ := Pattern.takes_of_path (Pattern.path_of_labelledLine h) fun q hq => by
    obtain ⟨_, _, _, _, _, _, hl, _⟩ := Pattern.mem_paths_labelledOpener.mp hq
    exact hl.offset_lt
  exact ⟨m, firstHit_labelledOpener hs h.starts hn hm, hm⟩

theorem stepTokens_labelledOpener {e f j : Cursor} {opener blanks label tail : List Char}
    (hs : s.mode = .root) (h : LabelledLine s.cursor e f j opener blanks label tail)
    (hn : bareOpener.pattern.takes? s.cursor = none) :
    s.stepTokens = [s.cursor.tokenTo e .keyword, e.tokenTo f .whitespace, f.tokenTo j .name] := by
  obtain ⟨m, hf, hm⟩ := firstHit_of_labelledLine hs h hn
  have hp := (Pattern.path_of_matchAt (Pattern.takes_eq_some hm).1).2
  obtain ⟨e', f', _, _, _, _, hl, hc⟩ := Pattern.mem_paths_labelledOpener.mp hp
  obtain ⟨rfl, rfl, rfl⟩ := h.unique hl
  rw [stepTokens_of_hit hf]
  exact Reading.tokens_labelledOpener hl hc _

theorem stepTokens_remoteCall {e f g h i j : Cursor} {blanks inner : List Char}
    (hs : s.mode = .root) (hl : CallLine s.cursor e f g h i j blanks inner) :
    ∃ ts, s.stepTokens = s.cursor.tokenTo e .keyword :: ts := by
  obtain ⟨m, hm⟩ := Pattern.takes_of_path (Pattern.path_of_callLine hl) fun q hq => by
    obtain ⟨_, _, _, _, _, _, _, hk, _⟩ := Pattern.mem_paths_remoteCall.mp hq
    exact hk.offset_lt
  have hp := (Pattern.path_of_matchAt (Pattern.takes_eq_some hm).1).2
  obtain ⟨_, _, _, _, _, _, _, hk, hc⟩ := Pattern.mem_paths_remoteCall.mp hp
  rw [stepTokens_of_hit (firstHit_remoteCall hs (Cursor.reads_cons.mp hl.call_reads).1 hm),
    Reading.tokens_remoteCall hk hc, hl.call_reads.unique hk.call_reads]
  exact ⟨_, rfl⟩

end Scanner

end Highlighter
