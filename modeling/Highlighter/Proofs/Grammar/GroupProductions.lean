import Highlighter.Proofs.Grammar.Productions

/-!
# Productions of several pieces

The opening line with a label and the remote call are read in groups. Blanks,
words and the inside of brackets are of different kinds, so every group is a
full run of its kind and the text can be cut into the groups in one way only.
-/

set_option autoImplicit false

namespace Highlighter

open Pattern Declared

namespace Production

variable {c : Cursor} {pieces : List Piece}

theorem labelledOpener_of_line {d e f : Cursor} {opener blanks label tail : List Char}
    (h : LabelledLine c d e f opener blanks label tail) :
    labelledOpener.pieces? c.before c.rest =
      some [(.keyword, opener), (.whitespace, blanks), (.name, label ++ tail)] := by
  have ho := Text.span_append h.opener_isWord (Cursor.head_not_word h.opener_word.after)
  rw [← h.opener_word.reads.1] at ho
  have hb := Text.span_append h.blanks_blank h.rest_not_blank
  rw [← h.blanks_reads.1] at hb
  have hl := Text.span_append h.label_word (Cursor.head_not_word h.tail_ends.not_word)
  rw [← h.label_rest] at hl
  obtain ⟨j, _, hj⟩ := Cursor.reads_append.mp h.label_reads
  have ht := (lineTail_iff_cut hj).mp h.tail_ends
  rw [hj.1] at ht
  simp only [labelledOpener, ho.1, ho.2, hb.1, hb.2, hl.1, hl.2, ht]
  rw [if_pos ⟨h.opener_word.before, h.opener_eq, h.blanks_ne, h.label_ne⟩]
  rfl

theorem labelledOpener_eq_some : labelledOpener.pieces? c.before c.rest = some pieces ↔
    ∃ d e f opener blanks label tail, LabelledLine c d e f opener blanks label tail ∧
      pieces = [(.keyword, opener), (.whitespace, blanks), (.name, label ++ tail)] := by
  constructor
  · intro h
    simp only [labelledOpener, Option.ite_none_right_eq_some, Option.map_eq_some_iff] at h
    obtain ⟨⟨hc, ho, hbn, hln⟩, tail, ht, rfl⟩ := h
    obtain ⟨d, hd, hdr⟩ := Cursor.exists_reads (c := c) List.takeWhile_append_dropWhile.symm
    rw [← hdr] at hbn hln ht ⊢
    obtain ⟨e, he, her⟩ := Cursor.exists_reads (c := d) List.takeWhile_append_dropWhile.symm
    rw [← her] at hln ht ⊢
    obtain ⟨j, hj, hjr⟩ := Cursor.exists_reads (c := e) List.takeWhile_append_dropWhile.symm
    rw [← hjr] at ht
    obtain ⟨zs, hz⟩ := Cut.lineTail?_isPrefix ht
    obtain ⟨f, hf, _⟩ := Cursor.exists_reads hz.symm
    have hword := (Cursor.word_iff_takeWhile fun _ => List.mem_takeWhile_imp).mpr ⟨hc, rfl, hd⟩
    exact ⟨d, e, f, _, _, _, tail, ⟨ho, hword, he, fun _ => List.mem_takeWhile_imp, hbn,
      hj.append hf, fun _ => List.mem_takeWhile_imp, hln, (lineTail_iff_cut hf).mpr ht⟩, rfl⟩
  · rintro ⟨d, e, f, opener, blanks, label, tail, h, rfl⟩
    exact labelledOpener_of_line h

theorem describes_labelledOpener (v : Vocabulary) :
    labelledOpener.Describes v Declared.labelledOpener := by
  refine describes_of_paths rfl ?_ ?_
  · intro c q hq
    obtain ⟨d, e, opener, blanks, label, tail, h, hk⟩ := mem_paths_labelledOpener.mp hq
    have hr := h.opener_word.reads.append (h.blanks_reads.append h.label_reads)
    refine ⟨_, labelledOpener_of_line h, by simp [h.label_ne], by simpa using hr, ?_⟩
    rw [Reading.tokens_labelledOpener h hk, tokensAt_cons h.opener_word.reads,
      tokensAt_cons h.blanks_reads, tokensAt_cons h.label_reads, tokensAt]
  · intro c pieces h
    obtain ⟨d, e, f, _, _, _, _, h, _⟩ := labelledOpener_eq_some.mp h
    exact ⟨_, path_of_labelledLine h⟩

theorem drop_call {d : Cursor} (h : c.Reads "call".toList d) : c.rest.drop 4 = d.rest := by
  rw [h.1]
  rfl

theorem drop_url {g : Cursor} (h : c.Reads ("url".toList ++ ['[']) g) :
    c.rest.drop 4 = g.rest := by
  rw [h.1]
  rfl

/-- Up to the first closing bracket. -/
theorem takeWhile_inner {inner : List Char} (h : ']' ∉ inner) (rest : List Char) :
    (inner ++ ']' :: rest).takeWhile (· != ']') = inner := by
  refine (Text.span_append ?_ (by simp)).1
  intro x hx
  exact bne_iff_ne.mpr fun hn => h (hn ▸ hx)

theorem remoteCall_of_line {d e f g h j : Cursor} {blanks inner : List Char}
    (k : CallLine c d e f g h j blanks inner) :
    remoteCall.pieces? c.before c.rest =
      some [(.keyword, "call".toList), (.whitespace, blanks), (.keyword, "url".toList),
        (.punctuation, ['[']), (.literal, inner), (.punctuation, [']'])] := by
  have hu : ∀ x ∈ e.rest.head?, Text.isBlank x = false := by
    rw [k.url_reads.1]
    intro x hx
    obtain rfl := Option.some.inj hx
    decide
  have hb := Text.span_append k.blanks_blank hu
  rw [← k.blanks_reads.1] at hb
  have hurl := k.url_reads.append k.open_reads
  have hg : g.rest = inner ++ ']' :: j.rest :=
    (k.inner_reads.append k.close_reads).1.trans (by simp)
  have hi := takeWhile_inner (fun hm => k.inner_inside _ hm rfl) j.rest
  rw [← hg] at hi
  simp only [remoteCall, drop_call k.call_reads, hb.1, hb.2, drop_url hurl, hi]
  exact if_pos ⟨⟨_, k.call_reads.1.symm⟩, k.blanks_ne, ⟨_, hurl.1.symm⟩, k.inner_ne, by simp [hg]⟩

theorem remoteCall_eq_some : remoteCall.pieces? c.before c.rest = some pieces ↔
    ∃ d e f g h j blanks inner, CallLine c d e f g h j blanks inner ∧
      pieces = [(.keyword, "call".toList), (.whitespace, blanks), (.keyword, "url".toList),
        (.punctuation, ['[']), (.literal, inner), (.punctuation, [']'])] := by
  constructor
  · intro h
    simp only [remoteCall, Option.ite_none_right_eq_some, Option.some.injEq] at h
    obtain ⟨⟨⟨_, hcall⟩, hbn, ⟨_, hurl⟩, hin, hclose⟩, rfl⟩ := h
    obtain ⟨d, hd, _⟩ := Cursor.exists_reads hcall.symm
    rw [drop_call hd] at hbn hurl hin hclose ⊢
    obtain ⟨e, he, her⟩ := Cursor.exists_reads (c := d) List.takeWhile_append_dropWhile.symm
    rw [← her] at hurl hin hclose ⊢
    obtain ⟨g, hg, _⟩ := Cursor.exists_reads hurl.symm
    obtain ⟨f, hf, hfg⟩ := Cursor.reads_append.mp (show e.Reads ("url".toList ++ ['[']) g from hg)
    rw [drop_url hg] at hin hclose ⊢
    obtain ⟨inner, after, hgr, hnot⟩ := List.eq_append_cons_of_mem hclose
    rw [hgr, takeWhile_inner hnot] at hin
    obtain ⟨i, hi, hir⟩ := Cursor.exists_reads hgr
    obtain ⟨j, hj, _⟩ := Cursor.exists_reads (show i.rest = [']'] ++ after from hir)
    rw [hgr, takeWhile_inner hnot]
    exact ⟨d, e, f, g, i, j, _, inner, ⟨hd, he, fun _ => List.mem_takeWhile_imp, hbn, hf, hfg, hi,
      fun x hx hn => hnot (hn ▸ hx), hin, hj⟩, rfl⟩
  · rintro ⟨d, e, f, g, h, j, blanks, inner, k, rfl⟩
    exact remoteCall_of_line k

theorem describes_remoteCall (v : Vocabulary) :
    remoteCall.Describes v Declared.remoteCall := by
  refine describes_of_paths rfl ?_ ?_
  · intro c q hq
    obtain ⟨d, e, f, g, h, blanks, inner, k, hk⟩ := mem_paths_remoteCall.mp hq
    have hr := k.call_reads.append (k.blanks_reads.append (k.url_reads.append
      (k.open_reads.append (k.inner_reads.append k.close_reads))))
    refine ⟨_, remoteCall_of_line k, by simp, by simpa using hr, ?_⟩
    rw [Reading.tokens_remoteCall k hk, tokensAt_cons k.call_reads, tokensAt_cons k.blanks_reads,
      tokensAt_cons k.url_reads, tokensAt_cons k.open_reads, tokensAt_cons k.inner_reads,
      tokensAt_cons k.close_reads, tokensAt]
  · intro c pieces h
    obtain ⟨d, e, f, g, h, j, _, _, k, _⟩ := remoteCall_eq_some.mp h
    exact ⟨_, path_of_callLine k⟩

end Production

end Highlighter
