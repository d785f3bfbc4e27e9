import Highlighter.Proofs.BlockBodies
import Highlighter.Proofs.Grammar.CarriageReturns
import Highlighter.Proofs.Grammar.LookBehind

/-!
# Line endings

A text is read alike with either line ending. Each lexeme of the text has its
counterpart in the same text with carriage returns, and only a newline that is
passed over is read in another way there: outside of blocks both characters of
the line ending are passed over, and in a block an empty line is no longer empty
and becomes a token.
-/

set_option autoImplicit false

namespace Highlighter

open Text (withReturns)
open Cursor (startsWithWord)

variable {d : Dialect} {m : Mode} {closer body : Category}

def Piece.isBlankLine (p : Piece) : Bool :=
  (p.1 == .string || p.1 == .comment) && p.2 == ['\r', '\n']

namespace Lexeme

def withReturns : Lexeme → Lexeme
  | taken pieces move => taken (pieces.map Piece.withReturns) move
  | passed x => passed x

inductive Rewritten : Lexeme → List Lexeme → Prop
  | kept {l : Lexeme} : l ≠ .passed '\n' →
      (∀ p ∈ l.withReturns.shown false, p.isBlankLine = false) → Rewritten l [l.withReturns]
  | outside : Rewritten (.passed '\n') [.passed '\r', .passed '\n']
  | inBlock {m : Mode} {closer body : Category} : BlockMode m closer body →
      Rewritten (.passed '\n') [bodyLexeme body ['\r', '\n']]

theorem chars_withReturns {l : Lexeme} (h : l ≠ .passed '\n') :
    l.withReturns.chars = Text.withReturns l.chars := by
  cases l with
  | taken pieces move =>
    simp only [withReturns, chars]
    induction pieces with
    | nil => rfl
    | cons p pieces ih =>
      rw [List.map_cons, List.flatMap_cons, List.flatMap_cons, Text.withReturns_append]
      exact congrArg _ (ih (by simp))
  | passed x =>
    have hx : x ≠ '\n' := fun hn => h (by rw [hn])
    exact (Text.withReturns_cons hx []).symm

theorem move_withReturns (l : Lexeme) : l.withReturns.move = l.move := by
  cases l <;> rfl

theorem shown_withReturns (l : Lexeme) :
    l.withReturns.shown false = (l.shown false).map Piece.withReturns := by
  cases l <;> rfl

namespace Rewritten

variable {l : Lexeme} {ks : List Lexeme}

theorem lead (h : l.Rewritten ks) (ms : Modes) : lead ms ks = l.move.lead ms := by
  cases h with
  | kept _ _ => exact congrArg (·.lead ms) l.move_withReturns
  | outside => rfl
  | inBlock hb => cases hb <;> rfl

/-- Blank lines apart the same pieces are shown. -/
theorem shown (h : l.Rewritten ks) :
    (ks.flatMap (shown false)).filter (!·.isBlankLine) =
      (l.shown false).map Piece.withReturns := by
  cases h with
  | kept _ hp =>
    rw [List.flatMap_singleton, ← shown_withReturns, List.filter_eq_self]
    intro p hm
    rw [hp p hm]
    rfl
  | outside => rfl
  | inBlock hb => cases hb <;> rfl

end Rewritten

theorem shown_flatten {ls : List Lexeme} {kss : List (List Lexeme)}
    (h : List.Forall₂ Rewritten ls kss) :
    (kss.flatten.flatMap (shown false)).filter (!·.isBlankLine) =
      (ls.flatMap (shown false)).map Piece.withReturns := by
  induction h with
  | nil => rfl
  | cons hr _ ih =>
    rw [List.flatten_cons, List.flatMap_append, List.filter_append, hr.shown, ih,
      List.flatMap_cons, List.map_append]

theorem lead_flatten {ls : List Lexeme} {kss : List (List Lexeme)}
    (h : List.Forall₂ Rewritten ls kss) (ms : Modes) : lead ms kss.flatten = lead ms ls := by
  induction h generalizing ms with
  | nil => rfl
  | cons hr _ ih =>
    rw [List.flatten_cons, lead_append, hr.lead, ih]
    rfl

end Lexeme

theorem taken_withReturns {ps : List Production} (h : ∀ p ∈ ps, p.KeepsReturns)
    (before : List Char) {rest : List Char} (hr : '\r' ∉ rest) (hn : rest.head? ≠ some '\n') :
    taken? ps before (withReturns rest) = (taken? ps before rest).map Lexeme.withReturns := by
  induction ps with
  | nil => rfl
  | cons p ps ih =>
    obtain ⟨hp, hps⟩ := List.forall_mem_cons.mp h
    rw [taken_cons, taken_cons, hp before rest hr hn, ih hps]
    cases p.pieces? before rest <;> rfl

/-- Where no newline stands in front, the carriage returns are read along. -/
theorem lexeme_withReturns (m : Mode) (before : List Char) {rest : List Char} (hr : '\r' ∉ rest)
    (hn : rest.head? ≠ some '\n') :
    lexeme? d m before (withReturns rest) = (lexeme? d m before rest).map Lexeme.withReturns := by
  have hhead : (withReturns rest).head? = rest.head? := by
    cases rest with
    | nil => rfl
    | cons x rest => rw [Text.withReturns_cons (by simpa using hn)]; rfl
  rw [lexeme?, lexeme?,
    taken_withReturns (fun p hp => (inUse_productions hp).keepsReturns) before hr hn, hhead]
  cases taken? (productions d m) before rest with
  | some l => rfl
  | none => cases rest.head? <;> rfl

/-- Outside of blocks no rule takes a text that starts with a line ending. -/
theorem lexeme_lineBreak (hm : ∀ closer body, ¬ BlockMode m closer body) {x : Char}
    (hx : x = '\n' ∨ x = '\r') (before after : List Char) :
    lexeme? d m before (x :: after) = some (.passed x) := by
  have hshuns : ∀ p ∈ (Grammar.ofDialect d).rulesIn m, p.2.pattern.shuns x = true := by
    cases m with
    | block => exact absurd .text (hm _ _)
    | blockComment => exact absurd .comment (hm _ _)
    | _ => rcases hx with rfl | rfl <;> cases d <;> decide
  let c : Cursor := ⟨before, x :: after, Text.bytes before, rfl⟩
  obtain ⟨l, hl⟩ := lexeme_of_rest d m (c := c) (List.cons_ne_nil _ _)
  refine hl.trans ?_
  rcases lexeme_cases hl with ⟨hit, _, _, hf, _⟩ | ⟨y, rest, _, hr, rfl⟩
  · obtain ⟨⟨n, hn⟩, ht⟩ := firstHit_mem hf
    have hnone := Pattern.takes_of_shuns (c := c) (hshuns _ hn) rfl
    simp [hnone] at ht
  · rw [(List.cons.inj (show x :: after = y :: rest from hr)).1]

/-- A piece of a string or a comment is all that its production takes. -/
theorem Production.InUse.single_of_text {p : Production} (h : p.InUse) {before rest : List Char}
    {pieces : List Piece} (hp : p.pieces? before rest = some pieces) {q : Piece} (hq : q ∈ pieces)
    (hk : q.1 = .string ∨ q.1 = .comment) : pieces = [q] := by
  cases h with
  | whole _ _ | identifier =>
    obtain ⟨xs, _, rfl⟩ := Option.map_eq_some_iff.mp hp
    rw [List.mem_singleton.mp hq]
  | labelledOpener =>
    simp only [Production.labelledOpener, Option.ite_none_right_eq_some,
      Option.map_eq_some_iff] at hp
    obtain ⟨_, tail, _, rfl⟩ := hp
    simp only [List.mem_cons, List.not_mem_nil, or_false] at hq
    rcases hq with rfl | rfl | rfl <;> simp at hk
  | remoteCall =>
    simp only [Production.remoteCall, Option.ite_none_right_eq_some, Option.some.injEq] at hp
    obtain ⟨_, rfl⟩ := hp
    simp only [List.mem_cons, List.not_mem_nil, or_false] at hq
    rcases hq with rfl | rfl | rfl | rfl | rfl | rfl <;> simp at hk

/-- What is read where no newline stands in front is not a blank line. -/
theorem not_isBlankLine {c : Cursor} {l : Lexeme} (hl : lexeme? d m c.before c.rest = some l)
    (hr : '\r' ∉ c.rest) (hn : c.rest.head? ≠ some '\n') :
    ∀ p ∈ l.withReturns.shown false, p.isBlankLine = false := by
  intro p hp
  rw [Lexeme.shown_withReturns] at hp
  obtain ⟨q, hq, rfl⟩ := List.mem_map.mp hp
  obtain ⟨hreads, hne⟩ := lexeme_reads hl
  rcases lexeme_origin hl with ⟨prod, hprod, pieces, hs, rfl⟩ | ⟨_, x, after, _, rfl⟩
  · by_contra hblank
    simp only [Piece.isBlankLine, Piece.withReturns, Bool.not_eq_false, Bool.and_eq_true,
      Bool.or_eq_true, beq_iff_eq] at hblank
    obtain ⟨hk, htext⟩ := hblank
    obtain rfl := (inUse_productions hprod).single_of_text hs hq hk
    have hrest : c.rest = q.2 ++ (c.past q.2).rest := by simpa [Lexeme.chars] using hreads.1
    have hq2 : q.2 ≠ [] := by simpa [Lexeme.chars] using hne
    obtain ⟨x, xs, hx⟩ := List.exists_cons_of_ne_nil hq2
    rw [hx, List.cons_append] at hrest
    rw [hrest] at hr hn
    rw [hx, Text.withReturns_cons (by simpa using hn)] at htext
    exact hr (by simp [(List.cons.inj htext).1])
  · simp [Lexeme.shown] at hq

/-- A newline alone is passed over in every mode. -/
theorem lexeme_newline_passed (m : Mode) {c : Cursor} {after : List Char}
    (hc : c.rest = '\n' :: after) : lexeme? d m c.before c.rest = some (.passed '\n') := by
  by_cases hm : ∃ closer body, BlockMode m closer body
  · obtain ⟨closer, body, hm⟩ := hm
    have hline : Text.through '\n' c.rest = ['\n'] := by rw [hc, Text.through_mark]
    rw [lexeme_of_line hm (by simp [hc]) (by rw [hline]; decide), hline]
    rfl
  · rw [hc, lexeme_lineBreak (fun k => not_exists.mp (not_exists.mp hm k)) (.inl rfl)]

section

variable {e : Cursor} {after : List Char}

theorem lexemes_blankLine (hm : BlockMode m closer body) (outer : List Mode)
    (he : e.rest = '\r' :: '\n' :: after) :
    lexemes d (m, outer) e =
      [bodyLexeme body ['\r', '\n']] ++ lexemes d (m, outer) (e.past ['\r', '\n']) := by
  have hline : Text.through '\n' e.rest = ['\r', '\n'] := by
    rw [he, Text.through, if_neg (by decide), Text.through_mark]
  have hl := lexeme_of_line (d := d) hm (c := e) (by simp [he]) (by rw [hline]; decide)
  rw [hline] at hl
  rw [lexemes_of_lexeme (m, outer) hl, bodyLexeme_lead, bodyLexeme_chars]
  rfl

theorem lexemes_lineBreak (hm : ∀ closer body, ¬ BlockMode m closer body) (outer : List Mode)
    (he : e.rest = '\r' :: '\n' :: after) :
    lexemes d (m, outer) e =
      [.passed '\r', .passed '\n'] ++ lexemes d (m, outer) (e.past ['\r', '\n']) := by
  have hfirst : lexeme? d m e.before e.rest = some (.passed '\r') := by
    rw [he, lexeme_lineBreak hm (.inr rfl)]
  have hnewline : (e.past ['\r']).rest = '\n' :: after := by rw [Cursor.past, he]; rfl
  have hsecond := lexeme_newline_passed (d := d) m hnewline
  have hrest := lexemes_of_lexeme (m, outer) hsecond
  rw [Cursor.past_past] at hrest
  exact (lexemes_of_lexeme (m, outer) hfirst).trans (congrArg _ hrest)

end

/-- A step in the text is one or two steps in the text with carriage returns. -/
theorem lexemes_rewritten (ms : Modes) {c e : Cursor} (hr : e.rest = withReturns c.rest)
    (hc : '\r' ∉ c.rest) (hb : startsWithWord e.before = startsWithWord c.before) {l : Lexeme}
    (hl : lexeme? d ms.1 c.before c.rest = some l) :
    ∃ ks, l.Rewritten ks ∧
      lexemes d ms e = ks ++ lexemes d (l.move.lead ms) (e.past (withReturns l.chars)) := by
  by_cases hn : c.rest.head? = some '\n'
  · obtain ⟨after, ha⟩ := List.head?_eq_some_iff.mp hn
    rw [ha, Text.withReturns_newline] at hr
    obtain rfl := Option.some.inj ((lexeme_newline_passed ms.1 ha).symm.trans hl)
    by_cases hm : ∃ closer body, BlockMode ms.1 closer body
    · obtain ⟨closer, body, hm⟩ := hm
      exact ⟨_, .inBlock hm, lexemes_blankLine hm ms.2 hr⟩
    · exact ⟨_, .outside,
        lexemes_lineBreak (fun k => not_exists.mp (not_exists.mp hm k)) ms.2 hr⟩
  · have he : lexeme? d ms.1 e.before e.rest = some l.withReturns := by
      rw [hr, lexeme_lookBack d ms.1 hb, lexeme_withReturns _ _ hc hn, hl]
      rfl
    have hne : l ≠ .passed '\n' := by
      rintro rfl
      rw [(lexeme_reads hl).1.1] at hn
      exact hn rfl
    refine ⟨_, .kept hne (not_isBlankLine hl hc hn), ?_⟩
    rw [lexemes_of_lexeme ms he, l.move_withReturns, Lexeme.chars_withReturns hne]
    rfl

theorem Text.startsWithWord_withReturns {xs : List Char} (h : xs ≠ []) :
    startsWithWord (withReturns xs).reverse = startsWithWord xs.reverse := by
  obtain ⟨ys, y, rfl⟩ : ∃ ys y, xs = ys ++ [y] := ⟨_, _, (List.dropLast_concat_getLast h).symm⟩
  rw [withReturns_append]
  by_cases hy : y = '\n'
  · rw [hy]
    simp [withReturns, startsWithWord]
  · rw [withReturns_cons hy]
    simp [withReturns, startsWithWord]

/-- The lexemes with carriage returns in the text are those without, each rewritten. -/
theorem lexemes_withReturns (ms : Modes) {c e : Cursor} (hr : e.rest = withReturns c.rest)
    (hc : '\r' ∉ c.rest) (hb : startsWithWord e.before = startsWithWord c.before) :
    ∃ kss, List.Forall₂ Lexeme.Rewritten (lexemes d ms c) kss ∧
      lexemes d ms e = kss.flatten := by
  fun_induction lexemes d ms c generalizing e with
  | case1 ms c hn =>
    exact ⟨[], .nil, lexemes_end (by rw [hr, rest_of_lexeme_none hn]; rfl)⟩
  | case2 ms c l hl ih =>
    obtain ⟨ks, hk, he⟩ := lexemes_rewritten ms hr hc hb hl
    obtain ⟨hreads, hchars⟩ := lexeme_reads hl
    have hrest : (e.past (withReturns l.chars)).rest = withReturns (c.past l.chars).rest := by
      rw [Cursor.past, hr, hreads.1, Text.withReturns_append, List.drop_left]
    have hcr : '\r' ∉ (c.past l.chars).rest := fun h => hc (List.mem_of_mem_drop h)
    have hbehind : startsWithWord (e.past (withReturns l.chars)).before =
        startsWithWord (c.past l.chars).before := by
      rw [e.startsWithWord_past (mt Text.withReturns_eq_nil.mp hchars),
        c.startsWithWord_past hchars, Text.startsWithWord_withReturns hchars]
    obtain ⟨kss, hks, hes⟩ := ih hrest hcr hbehind
    rw [he, hes]
    exact ⟨ks :: kss, .cons hk hks, rfl⟩

def Token.piece (t : Token) : Piece := (t.category, t.text.toList)

theorem tokensAt_piece (n : Nat) (ps : List Piece) : (tokensAt n ps).map Token.piece = ps := by
  induction ps generalizing n with
  | nil => rfl
  | cons p ps ih => rw [tokensAt, List.map_cons, ih, Token.piece, String.toList_ofList]

theorem Lexeme.tokens_piece (keep : Bool) (n : Nat) (ls : List Lexeme) :
    (tokens keep n ls).map Token.piece = ls.flatMap (shown keep) := by
  induction ls generalizing n with
  | nil => rfl
  | cons l ls ih => rw [tokens, List.map_append, tokensAt_piece, ih, List.flatMap_cons]

/-- With a carriage return before each newline the tokens are the same but for
the carriage returns in them, and the scan ends in the same mode and depth. What
comes in addition are the empty lines of blocks. -/
theorem scan_withReturns (d : Dialect) (source : String) (h : '\r' ∉ source.toList) :
    let r := scan (.ofDialect d) false source
    let r' := scan (.ofDialect d) false (String.ofList (Text.withReturns source.toList))
    (r'.value.1.map Token.piece).filter (!·.isBlankLine) =
        (r.value.1.map Token.piece).map Piece.withReturns ∧
      r'.value.2.mode = r.value.2.mode ∧ r'.value.2.depth = r.value.2.depth := by
  intro r r'
  obtain ⟨ht, hm⟩ := scan_lexemes d false source
  obtain ⟨ht', hm'⟩ := scan_lexemes d false (String.ofList (Text.withReturns source.toList))
  obtain ⟨kss, hk, he⟩ := lexemes_withReturns (d := d) (.root, []) (c := .ofText source)
    (e := .ofText (String.ofList (Text.withReturns source.toList))) String.toList_ofList h rfl
  have hmodes : r'.value.2.plain.modes = r.value.2.plain.modes := by
    rw [show r'.value.2.plain.modes = _ from hm', show r.value.2.plain.modes = _ from hm, he,
      Lexeme.lead_flatten hk]
  refine ⟨?_, congrArg Prod.fst hmodes, congrArg (fun ms : Modes => ms.2.length + 1) hmodes⟩
  rw [show r'.value.1 = _ from ht', show r.value.1 = _ from ht, Lexeme.tokens_piece,
    Lexeme.tokens_piece, he, Lexeme.shown_flatten hk]

/-- A label, a line and an empty line of a block, and a quoted text over two lines. -/
theorem scan_withReturns_block :
    let source := "textblock x\na\n\nendtextblock 'b\nc'\n"
    let r' := scan (.ofDialect .current) false (String.ofList (Text.withReturns source.toList))
    '\r' ∉ source.toList ∧
      (r'.value.1.map Token.piece).filter (!·.isBlankLine) =
        [(.keyword, "textblock".toList), (.whitespace, [' ']), (.name, "x\r\n".toList),
          (.string, "a\r\n".toList), (.keyword, "endtextblock".toList), (.whitespace, [' ']),
          (.string, "'b\r\nc'".toList)] ∧
      r'.value.2.depth = 1 := by
  intro source r'
  have hs : '\r' ∉ source.toList := by decide
  obtain ⟨ht, _, hdepth⟩ := scan_withReturns .current source hs
  refine ⟨hs, ht.trans ?_, hdepth.trans ?_⟩ <;> decide +kernel

end Highlighter
