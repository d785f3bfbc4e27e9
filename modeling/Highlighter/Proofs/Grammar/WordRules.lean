import Highlighter.Grammar.Declared
import Highlighter.Proofs.Pattern.Reads
import Highlighter.Proofs.WordEdges

/-!
# The rules that read words

Five rules give tokens for words: the two that open a block, the one that
closes it, the remote call and the identifier. For each of them this says
which texts it reads and between which places its groups stand.
-/

set_option autoImplicit false

namespace Highlighter

open Pattern Declared

def LineTail (tail : List Char) (stop : Cursor) : Prop :=
  tail = ['\n'] ∨ tail = ['\r', '\n'] ∨ (tail = [] ∨ tail = ['\r']) ∧ stop.rest = []

structure LabelledLine (c d e f : Cursor) (opener blanks label tail : List Char) : Prop where
  opener_eq : opener = "textblock".toList ∨ opener = "textblockex".toList
  opener_word : c.Word opener d
  blanks_reads : d.Reads blanks e
  blanks_blank : ∀ x ∈ blanks, Text.isBlank x = true
  blanks_ne : blanks ≠ []
  label_reads : e.Reads (label ++ tail) f
  label_word : ∀ x ∈ label, Text.isWord x = true
  label_ne : label ≠ []
  tail_ends : LineTail tail f

structure CallLine (c d e f g h j : Cursor) (blanks inner : List Char) : Prop where
  call_reads : c.Reads "call".toList d
  blanks_reads : d.Reads blanks e
  blanks_blank : ∀ x ∈ blanks, Text.isBlank x = true
  blanks_ne : blanks ≠ []
  url_reads : e.Reads "url".toList f
  open_reads : f.Reads ['['] g
  inner_reads : g.Reads inner h
  inner_inside : ∀ x ∈ inner, x ≠ ']'
  inner_ne : inner ≠ []
  close_reads : h.Reads [']'] j

theorem LineTail.unique {t u : List Char} {e f : Cursor} (h : LineTail t e) (k : LineTail u f)
    (htu : t ++ e.rest = u ++ f.rest) : t = u := by
  rcases h with rfl | rfl | ⟨rfl | rfl, he⟩ <;> rcases k with rfl | rfl | ⟨rfl | rfl, hf⟩ <;>
    simp_all

theorem LineTail.not_word {t : List Char} {e : Cursor} (h : LineTail t e) :
    Cursor.startsWithWord (t ++ e.rest) = false := by
  rcases h with rfl | rfl | ⟨rfl | rfl, he⟩
  · exact Text.isWord_of_isBlank (by decide)
  · exact Text.isWord_of_isBlank (by decide)
  · rw [he]
    rfl
  · exact Text.isWord_of_isBlank (by decide)

theorem LineTail.mem {t : List Char} {e : Cursor} (h : LineTail t e) :
    ∀ x ∈ t, x = '\r' ∨ x = '\n' := by
  rcases h with rfl | rfl | ⟨rfl | rfl, _⟩ <;> simp

namespace LabelledLine

variable {c d e f d' e' f' : Cursor} {o b l t o' b' l' t' : List Char}

theorem opener_isWord (h : LabelledLine c d e f o b l t) : ∀ x ∈ o, Text.isWord x = true := by
  apply Text.isWord_of_all
  rcases h.opener_eq with rfl | rfl <;> decide

theorem starts (h : LabelledLine c d e f o b l t) : c.current? = some 't' := by
  have hr := h.opener_word.reads
  rcases h.opener_eq with rfl | rfl <;> exact (Cursor.reads_cons.mp hr).1

theorem offset_lt (h : LabelledLine c d e f o b l t) : c.offset < f.offset := by
  have hd := h.opener_word.reads.reaches.offset_le
  have he := h.blanks_reads.offset_lt h.blanks_ne
  have hf := h.label_reads.reaches.offset_le
  omega

theorem label_rest (h : LabelledLine c d e f o b l t) : e.rest = l ++ (t ++ f.rest) := by
  rw [h.label_reads.1, List.append_assoc]

theorem rest_not_blank (h : LabelledLine c d e f o b l t) :
    ∀ x ∈ e.rest.head?, Text.isBlank x = false := by
  rw [h.label_rest]
  exact Cursor.head_not_blank h.label_word h.label_ne

/-- A text is an opening line with a label in one way only. -/
theorem unique (h : LabelledLine c d e f o b l t) (k : LabelledLine c d' e' f' o' b' l' t') :
    d = d' ∧ e = e' ∧ f = f' := by
  obtain ⟨rfl, rfl⟩ := h.opener_word.unique k.opener_word h.opener_isWord k.opener_isWord
  have he := Text.cut_unique (h.blanks_reads.1.symm.trans k.blanks_reads.1) h.blanks_blank
    k.blanks_blank h.rest_not_blank k.rest_not_blank
  obtain ⟨rfl, _⟩ := he
  obtain rfl := h.blanks_reads.unique k.blanks_reads
  have hf := Text.cut_unique (h.label_rest.symm.trans k.label_rest) h.label_word k.label_word
    (Cursor.head_not_word h.tail_ends.not_word) (Cursor.head_not_word k.tail_ends.not_word)
  obtain ⟨rfl, ht⟩ := hf
  obtain rfl := h.tail_ends.unique k.tail_ends ht
  exact ⟨rfl, rfl, h.label_reads.unique k.label_reads⟩

end LabelledLine

namespace CallLine

variable {c d e f g h j d' : Cursor} {b i : List Char}

theorem offset_lt (k : CallLine c d e f g h j b i) : c.offset < j.offset := by
  have hd := k.call_reads.reaches.offset_le
  have he := k.blanks_reads.offset_lt k.blanks_ne
  have hf := k.url_reads.reaches.offset_le
  have hg := k.open_reads.reaches.offset_le
  have hh := k.inner_reads.reaches.offset_le
  have hj := k.close_reads.reaches.offset_le
  omega

end CallLine

namespace Pattern

variable {p q : Path} {c : Cursor}

theorem reads_lineTail : (seq (opt (.just '\r')) lineEnd).Reads LineTail := by
  intro p q
  have hone : ∀ {k : Char} {p q : Path}, q ∈ (one (.just k)).paths p ↔ p.Goes q [k] := by
    intro k p q
    simp [mem_paths_one, CharClass.accepts]
  simp only [lineEnd, mem_paths_seq, mem_paths_alt, mem_paths_textEnd, hone, mem_paths_opt,
    CharClass.accepts, beq_iff_eq, exists_eq_left]
  constructor
  · rintro ⟨r, rfl | hr, hq | ⟨he, rfl⟩⟩
    · exact ⟨_, .inl rfl, hq⟩
    · exact ⟨[], .inr (.inr ⟨.inl rfl, he⟩), Path.goes_nil.mpr rfl⟩
    · exact ⟨_, .inr (.inl rfl), Path.goes_append.mpr ⟨r, hr, hq⟩⟩
    · exact ⟨_, .inr (.inr ⟨.inr rfl, he⟩), hr⟩
  · rintro ⟨_, rfl | rfl | ⟨rfl | rfl, he⟩, hg⟩
    · exact ⟨p, .inl rfl, .inl hg⟩
    · obtain ⟨r, hr, hq⟩ := Path.goes_append.mp (show p.Goes q (['\r'] ++ ['\n']) from hg)
      exact ⟨r, .inr hr, .inl hq⟩
    · exact ⟨q, .inl (Path.goes_nil.mp hg), .inr ⟨he, rfl⟩⟩
    · exact ⟨q, .inr hg, .inr ⟨he, rfl⟩⟩

theorem mem_paths_edged {a b : Pattern} :
    q ∈ (seq wordEdge (seq a (seq wordEdge b))).paths p ↔ ∃ r ∈ a.paths p,
      p.cursor.atWordEdge = true ∧ r.cursor.atWordEdge = true ∧ q ∈ b.paths r := by
  simp only [mem_paths_seq, mem_paths_wordEdge]
  constructor
  · rintro ⟨_, ⟨hp, rfl⟩, r, hr, r, ⟨he, rfl⟩, hq⟩
    exact ⟨r, hr, hp, he, hq⟩
  · rintro ⟨r, hr, hp, he, hq⟩
    exact ⟨p, ⟨hp, rfl⟩, r, hr, r, ⟨he, rfl⟩, hq⟩

theorem mem_paths_bareOpener : q ∈ bareOpener.pattern.paths ⟨c, []⟩ ↔
    ∃ d tail, c.Word "textblock".toList d ∧ LineTail tail q.cursor ∧
      (⟨d, []⟩ : Path).Goes q tail := by
  have hw : ∀ x ∈ "textblock".toList, Text.isWord x = true := Text.isWord_of_all (by decide)
  have hword : ∀ {d}, c.Word "textblock".toList d ↔ _ := Cursor.word_iff hw (by decide)
  simp only [bareOpener, inOrder, mem_paths_edged, mem_paths_literal, reads_lineTail _ _, hword]
  constructor
  · rintro ⟨⟨d, ks⟩, ⟨hr, hk⟩, hc, hd, tail, ht, hq⟩
    subst hk
    exact ⟨d, tail, ⟨hc, hr, hd⟩, ht, hq⟩
  · rintro ⟨d, tail, ⟨hc, hr, hd⟩, ht, hq⟩
    exact ⟨⟨d, []⟩, ⟨hr, rfl⟩, hc, hd, tail, ht, hq⟩

theorem reads_label : (inOrder [.plus .word, .opt (.just '\r'), lineEnd]).Reads fun xs d =>
    ∃ label tail, xs = label ++ tail ∧ (∀ x ∈ label, Text.isWord x = true) ∧ label ≠ [] ∧
      LineTail tail d := by
  intro p q
  simp only [inOrder, mem_paths_seq (a := plus _), mem_paths_plus, reads_lineTail _ _]
  constructor
  · rintro ⟨r, ⟨label, ⟨hw, hne⟩, hr⟩, tail, ht, hq⟩
    exact ⟨_, ⟨label, tail, rfl, hw, hne, ht⟩, Path.goes_append.mpr ⟨r, hr, hq⟩⟩
  · rintro ⟨_, ⟨label, tail, rfl, hw, hne, ht⟩, hg⟩
    obtain ⟨r, hr, hq⟩ := Path.goes_append.mp hg
    exact ⟨r, ⟨label, ⟨hw, hne⟩, hr⟩, tail, ht, hq⟩

theorem mem_paths_labelledOpener : q ∈ labelledOpener.pattern.paths ⟨c, []⟩ ↔
    ∃ d e opener blanks label tail, LabelledLine c d e q.cursor opener blanks label tail ∧
      q.captures = [⟨3, e, q.cursor⟩, ⟨2, d, e⟩, ⟨1, c, d⟩] := by
  have hopen := Reads.alt (reads_literal "textblock") (reads_literal "textblockex")
  simp only [labelledOpener, inOrder, anyWord, mem_paths_edged, mem_paths_seq (a := group 2 _),
    hopen.group, (reads_plus _).group]
  have hlabel := reads_label
  simp only [inOrder] at hlabel
  have hw : ∀ {w}, w = "textblock".toList ∨ w = "textblockex".toList →
      (∀ x ∈ w, Text.isWord x = true) ∧ w ≠ [] := by
    rintro _ (rfl | rfl) <;> exact ⟨Text.isWord_of_all (by decide), by decide⟩
  simp only [hlabel.group]
  constructor
  · rintro ⟨r, ⟨opener, ho, hr, hk⟩, hc, hd, s, ⟨blanks, ⟨hb, hbn⟩, hg, hl⟩, _,
      ⟨label, tail, rfl, hlw, hln, ht⟩, hx, hq⟩
    have hword := (Cursor.word_iff (hw ho).1 (hw ho).2).mpr ⟨hc, hr, hd⟩
    exact ⟨_, _, opener, blanks, label, tail, ⟨ho, hword, hg, hb, hbn, hx, hlw, hln, ht⟩,
      by rw [hq, hl, hk]⟩
  · rintro ⟨d, e, opener, blanks, label, tail, h, hq⟩
    have ho := h.opener_eq
    have hword := (Cursor.word_iff (hw ho).1 (hw ho).2).mp h.opener_word
    exact ⟨⟨d, _⟩, ⟨opener, ho, hword.2.1, rfl⟩, hword.1, hword.2.2, ⟨e, _⟩,
      ⟨blanks, ⟨h.blanks_blank, h.blanks_ne⟩, h.blanks_reads, rfl⟩, _,
      ⟨label, tail, rfl, h.label_word, h.label_ne, h.tail_ends⟩, h.label_reads, hq⟩

theorem path_of_labelledLine {d e f : Cursor} {opener blanks label tail : List Char}
    (h : LabelledLine c d e f opener blanks label tail) :
    ⟨f, [⟨3, e, f⟩, ⟨2, d, e⟩, ⟨1, c, d⟩]⟩ ∈ labelledOpener.pattern.paths ⟨c, []⟩ :=
  mem_paths_labelledOpener.mpr ⟨d, e, opener, blanks, label, tail, h, rfl⟩

theorem mem_paths_remoteCall : q ∈ remoteCall.pattern.paths ⟨c, []⟩ ↔
    ∃ d e f g h blanks inner, CallLine c d e f g h q.cursor blanks inner ∧
      q.captures = [⟨6, h, q.cursor⟩, ⟨5, g, h⟩, ⟨4, f, g⟩, ⟨3, e, f⟩, ⟨2, d, e⟩, ⟨1, c, d⟩] := by
  have hone : ∀ {k : Char} {xs : List Char},
      (∃ x, (CharClass.just k).accepts x = true ∧ xs = [x]) ↔ xs = [k] := by
    simp [CharClass.accepts]
  have hin : ∀ {xs}, (CharClass.noneOf [.single ']']).Accepts xs ↔ ∀ x ∈ xs, x ≠ ']' := by
    simp [CharClass.Accepts, CharClass.accepts, ClassItem.accepts]
  simp only [remoteCall, inOrder, mem_paths_seq, (reads_literal _).group, (reads_plus _).group,
    (reads_one _).group, hone, hin, exists_eq_left]
  constructor
  · rintro ⟨d, ⟨hc, h1⟩, e, ⟨blanks, ⟨hb, hbn⟩, hg, h2⟩, f, ⟨hu, h3⟩, g, ⟨ho, h4⟩, h,
      ⟨inner, ⟨hi, hin⟩, hr, h5⟩, hcl, hq⟩
    exact ⟨_, _, _, _, _, blanks, inner, ⟨hc, hg, hb, hbn, hu, ho, hr, hi, hin, hcl⟩,
      by rw [hq, h5, h4, h3, h2, h1]⟩
  · rintro ⟨d, e, f, g, h, blanks, inner, k, hq⟩
    exact ⟨⟨d, _⟩, ⟨k.call_reads, rfl⟩, ⟨e, _⟩,
      ⟨blanks, ⟨k.blanks_blank, k.blanks_ne⟩, k.blanks_reads, rfl⟩, ⟨f, _⟩, ⟨k.url_reads, rfl⟩,
      ⟨g, _⟩, ⟨k.open_reads, rfl⟩, ⟨h, _⟩,
      ⟨inner, ⟨k.inner_inside, k.inner_ne⟩, k.inner_reads, rfl⟩, k.close_reads, hq⟩

theorem path_of_callLine {d e f g h j : Cursor} {blanks inner : List Char}
    (k : CallLine c d e f g h j blanks inner) :
    ⟨j, [⟨6, h, j⟩, ⟨5, g, h⟩, ⟨4, f, g⟩, ⟨3, e, f⟩, ⟨2, d, e⟩, ⟨1, c, d⟩]⟩ ∈
      remoteCall.pattern.paths ⟨c, []⟩ :=
  mem_paths_remoteCall.mpr ⟨d, e, f, g, h, blanks, inner, k, rfl⟩

theorem isAsciiWord_of_identifierStart {x : Char} (h : identifierStart.accepts x = true) :
    Text.isAsciiWord x = true := by
  simp only [identifierStart, CharClass.accepts, ClassItem.accepts, List.any_cons, List.any_nil,
    Bool.or_eq_true, Bool.or_false] at h
  simp only [Text.isAsciiWord, Bool.or_eq_true]
  rcases h with h | h | h
  · exact .inl (.inl (.inl h))
  · exact .inl (.inl (.inr h))
  · exact .inr h

theorem identifierRest_accepts (x : Char) : identifierRest.accepts x = Text.isAsciiWord x := by
  simp only [identifierRest, CharClass.accepts, ClassItem.accepts, Text.isAsciiWord, List.any_cons,
    List.any_nil, Bool.or_false, Bool.or_assoc]
  rw [Bool.or_comm (x == '_')]

theorem mem_paths_identifier : q ∈ identifier.pattern.paths ⟨c, []⟩ ↔
    ∃ x xs, identifierStart.accepts x = true ∧ (∀ y ∈ x :: xs, Text.isAsciiWord y = true) ∧
      c.Word (x :: xs) q.cursor ∧ q.captures = [] := by
  have hw : ∀ {w : List Char}, (∀ y ∈ w, Text.isAsciiWord y = true) →
      ∀ y ∈ w, Text.isWord y = true := by
    intro w hw y hy
    exact Text.isWord_of_isAsciiWord (hw y hy)
  have hrest : ∀ {xs}, identifierRest.Accepts xs ↔ ∀ y ∈ xs, Text.isAsciiWord y = true := by
    simp [CharClass.Accepts, identifierRest_accepts]
  simp only [identifier, inOrder, mem_paths_seq, mem_paths_wordEdge, mem_paths_one, mem_paths_star,
    hrest]
  constructor
  · rintro ⟨_, ⟨hc, rfl⟩, r, ⟨x, hx, hr⟩, q, ⟨xs, hxs, hq⟩, hd, rfl⟩
    have hall : ∀ y ∈ x :: xs, Text.isAsciiWord y = true :=
      List.forall_mem_cons.mpr ⟨isAsciiWord_of_identifierStart hx, hxs⟩
    obtain ⟨hg, hk⟩ := Path.goes_append.mpr ⟨r, hr, hq⟩
    exact ⟨x, xs, hx, hall, (Cursor.word_iff (hw hall) (by simp)).mpr ⟨hc, hg, hd⟩, hk⟩
  · rintro ⟨x, xs, hx, hall, hword, hk⟩
    obtain ⟨hc, hg, hd⟩ := (Cursor.word_iff (hw hall) (by simp)).mp hword
    have hgoes : Path.Goes ⟨c, []⟩ q ([x] ++ xs) := ⟨hg, hk⟩
    obtain ⟨r, hr, hq⟩ := Path.goes_append.mp hgoes
    exact ⟨_, ⟨hc, rfl⟩, r, ⟨x, hx, hr⟩, q, ⟨xs, (List.forall_mem_cons.mp hall).2, hq⟩, hd, rfl⟩

theorem mem_paths_blockCloser {k : Category} : q ∈ (blockCloser k).pattern.paths ⟨c, []⟩ ↔
    c.Word "endtextblock".toList q.cursor ∧ q.captures = [] := by
  have hw : ∀ x ∈ "endtextblock".toList, Text.isWord x = true := Text.isWord_of_all (by decide)
  rw [Cursor.word_iff hw (by decide)]
  simp only [blockCloser, wholeWord, inOrder, mem_paths_seq, mem_paths_wordEdge, mem_paths_literal]
  constructor
  · rintro ⟨_, ⟨hc, rfl⟩, q, hq, hd, rfl⟩
    exact ⟨⟨hc, hq.1, hd⟩, hq.2⟩
  · rintro ⟨⟨hc, hr, hd⟩, hk⟩
    exact ⟨_, ⟨hc, rfl⟩, q, ⟨hr, hk⟩, hd, rfl⟩

end Pattern

end Highlighter
