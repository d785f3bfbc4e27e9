import Highlighter.Proofs.Pattern.Groups
import Highlighter.Proofs.Scanner.Origins

/-!
# Tokens lie side by side

The tokens of a scan are pieces of its text, in order and apart, and with the
option to keep unmatched characters nothing of the text is left between them.
The invariant is `Laid`: tokens that lie between two places, with or without
gaps. Every rule extends it, because a group rule is a row of groups.
-/

set_option autoImplicit false

namespace Highlighter

inductive Laid (gaps : Bool) : Cursor → List Token → Cursor → Prop
  | done (c : Cursor) : Laid gaps c [] c
  | token {c d e : Cursor} {xs : List Char} {ts : List Token} (k : Category) : c.Reads xs d →
      xs ≠ [] → Laid gaps d ts e → Laid gaps c (c.tokenTo d k :: ts) e
  | gap {c d e : Cursor} {ts : List Token} : gaps = true → c.Reaches d → Laid gaps d ts e →
      Laid gaps c ts e

namespace Laid

variable {gaps : Bool} {c d e : Cursor} {ts us : List Token}

theorem append (h : Laid gaps c ts d) (k : Laid gaps d us e) : Laid gaps c (ts ++ us) e := by
  induction h with
  | done c => exact k
  | token n hr hx _ ih => exact .token n hr hx (ih k)
  | gap hg hr _ ih => exact .gap hg hr (ih k)

theorem one (k : Category) (h : c.Reaches d) (ho : c.offset < d.offset) :
    Laid gaps c [c.tokenTo d k] d := by
  obtain ⟨xs, hx⟩ := h
  exact .token k hx (Cursor.Reads.ne_nil hx (by omega)) (.done d)

theorem reaches (h : Laid gaps c ts e) : c.Reaches e := by
  induction h with
  | done c => exact Cursor.reaches_refl c
  | token _ hr _ _ ih => exact hr.reaches.trans ih
  | gap _ hr _ ih => exact hr.trans ih

end Laid

structure Token.SliceOf (t : Token) (source : String) : Prop where
  nonempty : t.span.start < t.span.stop
  cut : ∃ before after : String, source = before ++ t.text ++ after ∧
    t.span.start = before.utf8ByteSize ∧ t.span.stop = (before ++ t.text).utf8ByteSize

def Adjoin : Nat → List Token → Nat → Prop
  | n, [], m => n = m
  | n, t :: ts, m => t.span.start = n ∧ Adjoin t.span.stop ts m

namespace Laid

variable {gaps : Bool} {c d e : Cursor} {ts us : List Token}

theorem slice_tokenTo {source : String} {xs : List Char} (k : Category)
    (hc : (Cursor.ofText source).Reaches c) (hd : c.Reads xs d) (hx : xs ≠ []) :
    (c.tokenTo d k).SliceOf source := by
  obtain ⟨ys, hy⟩ := hc
  obtain ⟨_, hcs⟩ := Cursor.reads_ofText hy
  obtain ⟨hs, hds⟩ := Cursor.reads_ofText (Cursor.Reads.append hy hd)
  have ht : (c.tokenTo d k).text = String.ofList xs := congrArg String.ofList hd.upTo
  refine ⟨hd.offset_lt hx, String.ofList ys, String.ofList d.rest, ?_, hcs, ?_⟩
  · rw [ht, ← String.ofList_append]
    exact hs
  · rw [ht, ← String.ofList_append]
    exact hds

theorem slices {source : String} (h : Laid gaps c ts e) (hc : (Cursor.ofText source).Reaches c) :
    ∀ t ∈ ts, t.SliceOf source := by
  induction h with
  | done c => simp
  | token k hr hx _ ih =>
    intro t ht
    rcases List.mem_cons.mp ht with rfl | ht
    · exact slice_tokenTo k hc hr hx
    · exact ih (hc.trans hr.reaches) t ht
  | gap _ hr _ ih => exact ih (hc.trans hr)

theorem start_ge (h : Laid gaps c ts e) : ∀ t ∈ ts, c.offset ≤ t.span.start := by
  induction h with
  | done c => simp
  | token k hr hx _ ih =>
    intro t ht
    rcases List.mem_cons.mp ht with rfl | ht
    · exact Nat.le_refl _
    · exact Nat.le_trans hr.reaches.offset_le (ih t ht)
  | gap _ hr _ ih => exact fun t ht => Nat.le_trans hr.offset_le (ih t ht)

theorem pairwise (h : Laid gaps c ts e) :
    ts.Pairwise fun a b => a.span.start < b.span.start ∧ a.span.stop ≤ b.span.start := by
  induction h with
  | done c => exact .nil
  | @token c d e xs ts k hr hx ht ih =>
    refine .cons (fun t hm => ?_) ih
    have hge := ht.start_ge t hm
    exact ⟨Nat.lt_of_lt_of_le (hr.offset_lt hx) hge, hge⟩
  | gap _ _ _ ih => exact ih

theorem adjoin (h : Laid false c ts e) : Adjoin c.offset ts e.offset := by
  induction h with
  | done c => rfl
  | token k _ _ _ ih => exact ⟨rfl, ih⟩
  | gap hg _ _ _ => exact absurd hg (by decide)

theorem concat (h : Laid false c ts e) :
    c.Reads (String.join (ts.map Token.text)).toList e := by
  rw [String.toList_join, List.flatMap_map]
  induction h with
  | done c => exact Cursor.reads_nil.mpr rfl
  | @token c d e xs ts k hr _ _ ih =>
    have ht : (c.tokenTo d k).text.toList = xs := by
      rw [Cursor.tokenTo, hr.upTo, String.toList_ofList]
    rw [List.flatMap_cons, ht]
    exact hr.append ih
  | gap hg _ _ _ => exact absurd hg (by decide)

/-- There are no more tokens than characters. -/
theorem length_le (h : Laid gaps c ts e) : ts.length + e.rest.length ≤ c.rest.length := by
  induction h with
  | done c => simp
  | @token c d e xs ts k hr hx _ ih =>
    have hpos := List.length_pos_iff.mpr hx
    have hlen := congrArg List.length hr.1
    simp only [List.length_append, List.length_cons] at hlen ⊢
    omega
  | @gap c d e ts _ hr _ ih =>
    obtain ⟨xs, hx⟩ := hr
    have hlen := congrArg List.length hx.1
    simp only [List.length_append] at hlen
    omega

theorem eq_nil_of_rest (h : Laid false c ts e) (hc : c.rest = []) : ts = [] := by
  cases h with
  | done => rfl
  | token k hr hx _ =>
    have hn := hr.1
    rw [hc] at hn
    exact absurd (List.append_eq_nil_iff.mp hn.symm).1 hx
  | gap hg _ _ => exact absurd hg (by decide)

/-- Without gaps a place stands still only where no token lies. -/
theorem offset_eq_iff (h : Laid false c ts e) : e.offset = c.offset ↔ ts = [] := by
  constructor
  · intro ho
    have hlength := h.length_le
    rw [h.reaches.eq_of_offset ho] at hlength
    exact List.length_eq_zero_iff.mp (by omega)
  · rintro rfl
    have hadjoin : c.offset = e.offset := h.adjoin
    exact hadjoin.symm

/-- Behind any of the tokens the rest of them lie. -/
theorem behind {t : Token} (h : Laid false c (ts ++ t :: us) e) :
    ∃ d, d.offset = t.span.stop ∧ Laid false d us e := by
  induction ts generalizing c with
  | nil =>
    cases h with
    | token _ _ _ h => exact ⟨_, rfl, h⟩
    | gap hg _ _ => exact absurd hg (by decide)
  | cons u ts ih =>
    cases h with
    | token _ _ _ h => exact ih h
    | gap hg _ _ => exact absurd hg (by decide)

end Laid

def Rule.lossless (r : Rule) : Bool :=
  match r.reading with
  | .whole _ => true
  | .word => true
  | .groups ks => r.pattern.groupsFrom 1 == some (1 + ks.length)

theorem Capture.Chain.laid {gaps : Bool} {m : Match} {n l : Nat} {c d : Cursor}
    {ls : List Capture} (h : Capture.Chain n c ls l d) (ks : List Category)
    (hk : ks.length = ls.length) (hm : ∀ k ∈ ls, m.capture? k.number = some k) :
    Laid gaps c (Reading.groupTokens m n ks) d := by
  induction h generalizing ks with
  | nil n c =>
    rw [List.length_eq_zero_iff.mp hk]
    exact .done c
  | @cons n l c d e ls hr _ ih =>
    obtain ⟨k, ks, rfl⟩ := List.exists_cons_of_length_eq_add_one hk
    rw [Reading.groupTokens, hm _ List.mem_cons_self, Option.map_some, Option.getD_some]
    refine Laid.append ?_ (ih ks (Nat.succ.inj hk) fun k h => hm k (List.mem_cons_of_mem _ h))
    unfold Capture.tokens
    split
    · rename_i ho
      rw [hr.eq_of_offset (beq_iff_eq.mp ho).symm]
      exact .done c
    · rename_i ho
      have hne : c.offset ≠ d.offset := by simpa using ho
      exact .one k hr (Nat.lt_of_le_of_ne hr.offset_le hne)

/-- What a lossless rule makes of a match is the whole match. -/
theorem Rule.laid {r : Rule} (hr : r.lossless = true) {c : Cursor} {m : Match}
    (h : r.pattern.takes? c = some m) (gaps : Bool) (v : Vocabulary) :
    Laid gaps c (r.reading.tokens v m) m.stop := by
  obtain ⟨hm, hc, ho⟩ := Pattern.takes_eq_some h
  obtain ⟨hs, hp⟩ := Pattern.path_of_matchAt hm
  unfold Rule.lossless at hr
  unfold Reading.tokens
  split
  · rw [hs]
    exact .one _ hc ho
  · rename_i ks hk
    rw [hk] at hr
    obtain ⟨ls, hl, hq⟩ := Pattern.chain_of_groupsFrom (beq_iff_eq.mp hr) hp
    have hn := hl.number_eq
    refine hl.laid ks (by omega) fun k hk => ?_
    have hcap : m.captures = ls.reverse := by simpa using hq
    rw [Match.capture?, hcap]
    exact hl.find_number k hk
  · rw [hs]
    exact .one _ hc ho

def Grammar.Lossless (g : Grammar) : Prop := ∀ r ∈ g.rules, r.lossless = true

theorem lossless_ofDialect (d : Dialect) : (Grammar.ofDialect d).Lossless := by
  unfold Grammar.Lossless
  cases d <;> decide

namespace Scanner

variable {g : Grammar}

/-- What one step reads lies between its two places, where a character that is passed
over without a token is a gap. -/
theorem stepTokens_laid_of {gaps : Bool} (hn : g.Numbered) (hl : g.Lossless) {s : Scanner g}
    (h : s.Informed) (he : s.atEnd ≠ true)
    (hg : firstHit? s.cursor (g.rulesIn s.mode) = none → s.keepUnmatched = false → gaps = true) :
    Laid gaps s.cursor s.stepTokens s.step.value.cursor := by
  rcases step_cases hn h with ⟨hit, hf, hs⟩ | ⟨hf, hs⟩
  · have hc : s.step.value.cursor = hit.found.stop :=
      (congrArg (fun l => l.value.cursor) hs).trans (PlainScanner.cursor_take s.plain hit)
    obtain ⟨⟨n, hm⟩, ht⟩ := firstHit_mem hf
    have hr := List.mem_of_getElem? (hn _ _ _ hm)
    rw [hc, stepTokens_of_hit hf]
    exact Rule.laid (hl _ hr) ht _ _
  · obtain ⟨x, rest, hx⟩ := List.exists_cons_of_ne_nil (rest_ne_nil he)
    rw [PlainScanner.passOver_of_rest (s := s.plain) hx] at hs
    have hc : s.step.value.cursor = s.cursor.advance := congrArg (fun l => l.value.cursor) hs
    have hr := Cursor.reads_advance hx
    rw [hc, stepTokens, hf]
    cases hk : s.keepUnmatched with
    | false => exact .gap (hg hf hk) hr.reaches (.done _)
    | true => exact .token _ hr (by simp) (.done _)

theorem stepTokens_laid (hn : g.Numbered) (hl : g.Lossless) {s : Scanner g} (h : s.Informed)
    (he : s.atEnd ≠ true) :
    Laid (!s.keepUnmatched) s.cursor s.stepTokens s.step.value.cursor :=
  stepTokens_laid_of hn hl h he fun _ hk => by rw [hk, Bool.not_false]

/-- A step that reads tokens leaves nothing out. -/
theorem stepTokens_adjoin (hn : g.Numbered) (hl : g.Lossless) {s : Scanner g} (h : s.Informed)
    (he : s.atEnd ≠ true) (ht : s.stepTokens ≠ []) :
    Laid false s.cursor s.stepTokens s.step.value.cursor := by
  refine stepTokens_laid_of hn hl h he fun hf hk => absurd ?_ ht
  rw [stepTokens, hf, if_neg (by simp [hk])]

/-- Handing out the rest hands out tokens that lie up to the end of the text. -/
theorem drain_laid (hn : g.Numbered) (hl : g.Lossless) {s : Scanner g} (h : s.Informed)
    {c : Cursor} (hp : Laid (!s.keepUnmatched) c s.pending s.cursor) :
    ∃ e, e.rest = [] ∧ Laid (!s.keepUnmatched) c s.drain.value.1 e := by
  induction s using drain_induction generalizing c with
  | ended s he =>
    rw [drain_end he]
    exact ⟨s.cursor, by simpa [atEnd, Cursor.atEnd] using he, hp⟩
  | step s he ih =>
    have hw : s.withoutPending.Informed := h
    have hk : s.withoutPending.step.value.keepUnmatched = s.keepUnmatched :=
      keepUnmatched_step hn hw he
    have ht := stepTokens_laid hn hl hw he
    rw [← List.nil_append s.withoutPending.stepTokens] at ht
    have hd : Laid (!s.withoutPending.step.value.keepUnmatched) s.cursor
        s.withoutPending.step.value.pending s.withoutPending.step.value.cursor := by
      rw [hk, pending_step hn hw he]
      exact ht
    obtain ⟨e, hr, hx⟩ := ih (step_plain hn hw).2 hd
    rw [hk] at hx
    rw [drain_step he]
    exact ⟨e, hr, hp.append hx⟩

end Scanner

theorem scan_laid (d : Dialect) (keep : Bool) (source : String) :
    ∃ e, e.rest = [] ∧
      Laid (!keep) (.ofText source) (scan (.ofDialect d) keep source).value.1 e :=
  Scanner.drain_laid (Grammar.numbered_ofDialect d) (lossless_ofDialect d)
    (Scanner.informed_onText _ keep source) (.done _)

/-- Where nothing is left out, the tokens put together are the source. -/
theorem scan_concat (d : Dialect) (source : String) :
    String.join ((scan (.ofDialect d) true source).value.1.map Token.text) = source := by
  obtain ⟨e, he, hl⟩ := scan_laid d true source
  obtain ⟨hs, _⟩ := Cursor.reads_ofText hl.concat
  rw [he, String.ofList_nil, String.append_empty, String.ofList_toList] at hs
  exact hs.symm

/-- Tokens are slices of the source in strictly increasing order. Where
unmatched characters are kept they cover the source without a gap. -/
theorem scan_lossless (d : Dialect) (keep : Bool) (source : String) :
    (∀ t ∈ (scan (.ofDialect d) keep source).value.1, t.SliceOf source) ∧
    (scan (.ofDialect d) keep source).value.1.Pairwise
      (fun a b => a.span.start < b.span.start ∧ a.span.stop ≤ b.span.start) ∧
    (keep = true →
      Adjoin 0 (scan (.ofDialect d) keep source).value.1 source.utf8ByteSize ∧
      String.join ((scan (.ofDialect d) keep source).value.1.map Token.text) = source ∧
      ((scan (.ofDialect d) keep source).value.1 = [] ↔ source = "")) := by
  obtain ⟨e, he, hl⟩ := scan_laid d keep source
  refine ⟨hl.slices (Cursor.reaches_refl _), hl.pairwise, ?_⟩
  rintro rfl
  have hs := scan_concat d source
  obtain ⟨_, ho⟩ := Cursor.reads_ofText hl.concat
  have ha := hl.adjoin
  rw [ho, String.ofList_toList, hs] at ha
  refine ⟨ha, hs, fun ht => ?_, fun ht => ?_⟩
  · rw [← hs, ht]
    rfl
  · exact hl.eq_nil_of_rest (by rw [ht]; rfl)

/-- At a text with a group rule behind a wide character and a quote left open. -/
theorem scan_lossless_call :
    ⟨.keyword, "call", ⟨3, 7⟩⟩ ∈ (scan (.ofDialect .legacy) true "あcall url[x]\"").value.1 ∧
      Token.SliceOf ⟨.keyword, "call", ⟨3, 7⟩⟩ "あcall url[x]\"" ∧
      Adjoin 0 (scan (.ofDialect .legacy) true "あcall url[x]\"").value.1 15 := by
  have hm : (⟨.keyword, "call", ⟨3, 7⟩⟩ : Token) ∈
      (scan (.ofDialect .legacy) true "あcall url[x]\"").value.1 := by decide +kernel
  have h := scan_lossless .legacy true "あcall url[x]\""
  exact ⟨hm, h.1 _ hm, (h.2.2 rfl).1⟩

end Highlighter
