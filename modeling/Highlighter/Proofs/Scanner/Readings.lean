import Highlighter.Proofs.Grammar.Described
import Highlighter.Proofs.Scanner.Origins

/-!
# Steps as readings

A step reads the lexeme of its place: the cursor goes behind the text, the modes
follow the move, and the tokens for the pieces are appended. Neither the earlier
searches nor the option for unmatched characters decide which lexeme it is.
-/

set_option autoImplicit false

namespace Highlighter

def Cursor.past (c : Cursor) (xs : List Char) : Cursor where
  before := xs.reverse ++ c.before
  rest := c.rest.drop xs.length
  offset := c.offset + Text.bytes xs
  offset_eq := by rw [Text.bytes_append, Text.bytes_reverse, c.offset_eq, Nat.add_comm]

theorem Cursor.Reads.eq_past {c d : Cursor} {xs : List Char} (h : c.Reads xs d) : d = c.past xs :=
  eq_of_halves h.2 (by rw [past, h.1, List.drop_left])

theorem Cursor.reads_past {c : Cursor} {xs : List Char} (h : xs <+: c.rest) :
    c.Reads xs (c.past xs) := by
  obtain ⟨ys, hy⟩ := h
  obtain ⟨d, hd, _⟩ := exists_reads hy.symm
  rwa [← hd.eq_past]

theorem Cursor.startsWithWord_past (c : Cursor) {xs : List Char} (h : xs ≠ []) :
    startsWithWord (c.past xs).before = startsWithWord xs.reverse :=
  startsWithWord_append (by simpa using h)

namespace PlainScanner

variable {g : Grammar}

def modes (s : PlainScanner g) : Modes := (s.mode, s.outer)

def reads (s : PlainScanner g) (l : Lexeme) : Logged (PlainScanner g) where
  value := { s with
    cursor := s.cursor.past l.chars
    mode := (l.move.lead s.modes).1
    outer := (l.move.lead s.modes).2
    pending := s.pending ++ tokensAt s.cursor.offset (l.shown s.keepUnmatched) }
  records := l.records s.modes s.cursor.offset

theorem move_eq_lead (s : PlainScanner g) (n : Nat) (m : Move) :
    s.move n m = ⟨{ s with mode := (m.lead s.modes).1, outer := (m.lead s.modes).2 },
      m.records s.modes n⟩ := by
  obtain ⟨keep, cursor, mode, outer, pending⟩ := s
  cases m with
  | stay => rfl
  | enter m => rfl
  | leave => cases outer <;> rfl

theorem modes_take (s : PlainScanner g) (hit : Hit) :
    (s.take hit).value.modes = hit.rule.move.lead s.modes := by
  rw [take, move_eq_lead]
  rfl

theorem take_of_gives {s : PlainScanner g} {hit : Hit} {pieces : List Piece} {move : Move}
    (h : hit.Gives g.vocabulary s.cursor pieces move) :
    s.take hit = s.reads (.taken pieces move) := by
  rw [take, move_eq_lead, h.start, h.tokens, h.move, h.reads.eq_past]
  rfl

theorem passOver_eq_reads {s : PlainScanner g} {x : Char} {rest : List Char}
    (h : s.cursor.rest = x :: rest) : s.passOver = s.reads (.passed x) := by
  have ha := Cursor.reads_advance h
  rw [passOver_of_rest h, ha.tokenTo, ha.eq_past]
  cases hk : s.keepUnmatched <;> simp [reads, hk, Lexeme.shown, tokensAt, Lexeme.move, Move.lead,
    modes, Lexeme.chars, Lexeme.records]

end PlainScanner

theorem lexeme_of_rest (d : Dialect) (m : Mode) {c : Cursor} (h : c.rest ≠ []) :
    ∃ l, lexeme? d m c.before c.rest = some l := by
  obtain ⟨x, rest, hx⟩ := List.exists_cons_of_ne_nil h
  rw [hx]
  cases ht : taken? (productions d m) c.before (x :: rest) with
  | some l => exact ⟨l, by rw [lexeme?, ht]; rfl⟩
  | none => exact ⟨.passed x, by rw [lexeme?, ht]; rfl⟩

/-- A lexeme is what a rule takes at the place, or the character that no rule takes. -/
theorem lexeme_cases {d : Dialect} {m : Mode} {c : Cursor} {l : Lexeme}
    (h : lexeme? d m c.before c.rest = some l) :
    (∃ hit pieces move, firstHit? c ((Grammar.ofDialect d).rulesIn m) = some hit ∧
      l = .taken pieces move ∧ hit.Gives (.ofDialect d) c pieces move) ∨
    (∃ x rest, firstHit? c ((Grammar.ofDialect d).rulesIn m) = none ∧ c.rest = x :: rest ∧
      l = .passed x) := by
  have hd := productions_described d m
  rw [Described, Grammar.ordered] at hd
  cases ht : taken? (productions d m) c.before c.rest with
  | some k =>
    obtain rfl : k = l := by simpa [lexeme?, ht] using h
    exact .inl (firstHit_of_taken_some hd ht)
  | none =>
    obtain ⟨x, hx, rfl⟩ : ∃ x, c.rest.head? = some x ∧ .passed x = l := by
      simpa [lexeme?, ht] using h
    obtain ⟨rest, hr⟩ := List.head?_eq_some_iff.mp hx
    exact .inr ⟨x, rest, firstHit_of_taken_none hd ht, hr, rfl⟩

theorem lexeme_reads {d : Dialect} {m : Mode} {c : Cursor} {l : Lexeme}
    (h : lexeme? d m c.before c.rest = some l) :
    c.Reads l.chars (c.past l.chars) ∧ l.chars ≠ [] := by
  rcases lexeme_cases h with ⟨hit, pieces, move, hf, rfl, hg⟩ | ⟨x, rest, _, hr, rfl⟩
  · obtain ⟨_, _, ho⟩ := Pattern.takes_eq_some (firstHit_mem hf).2
    exact ⟨hg.reads.eq_past ▸ hg.reads, hg.reads.ne_nil (Nat.ne_of_lt ho)⟩
  · exact ⟨Cursor.reads_past ⟨rest, hr.symm⟩, by simp [Lexeme.chars]⟩

theorem lexeme_length_lt {d : Dialect} {m : Mode} {c : Cursor} {l : Lexeme}
    (h : lexeme? d m c.before c.rest = some l) : (c.past l.chars).rest.length < c.rest.length := by
  obtain ⟨hr, hne⟩ := lexeme_reads h
  exact hr.reaches.length_lt (hr.offset_lt hne)

theorem lexeme_end {d : Dialect} {m : Mode} {c : Cursor} (h : c.rest = []) :
    lexeme? d m c.before c.rest = none := by
  cases hl : lexeme? d m c.before c.rest with
  | none => rfl
  | some l => simpa [h] using lexeme_length_lt hl

/-- Only at the end of the text nothing is read. -/
theorem rest_of_lexeme_none {d : Dialect} {m : Mode} {c : Cursor}
    (h : lexeme? d m c.before c.rest = none) : c.rest = [] := by
  by_contra hne
  obtain ⟨l, hl⟩ := lexeme_of_rest d m hne
  simp [h] at hl

namespace Scanner

variable {d : Dialect}

/-- A step reads the lexeme of its place. -/
theorem step_reads {s : Scanner (.ofDialect d)} (hi : s.Informed) {l : Lexeme}
    (hl : lexeme? d s.mode s.cursor.before s.cursor.rest = some l) :
    s.step.map plain = s.plain.reads l := by
  rw [(step_plain (Grammar.numbered_ofDialect d) hi).1, PlainScanner.step,
    show s.plain.cursor = s.cursor from rfl, show s.plain.mode = s.mode from rfl]
  rcases lexeme_cases hl with ⟨hit, pieces, move, hf, rfl, hg⟩ | ⟨x, rest, hf, hr, rfl⟩
  · rw [hf]
    rw [← vocabulary_ofDialect] at hg
    exact PlainScanner.take_of_gives hg
  · rw [hf]
    exact PlainScanner.passOver_eq_reads hr

theorem Reachable.informed_ofDialect {keep : Bool} {source : String} {s : Scanner (.ofDialect d)}
    (h : Reachable (.onText (.ofDialect d) keep source) s) : s.Informed :=
  h.informed (Grammar.numbered_ofDialect d) (informed_onText _ _ _)

/-- In the outermost mode a step reads what the first production that applies
takes there, or passes over one character. -/
theorem step_root (d : Dialect) (keep : Bool) (source : String) {s : Scanner (.ofDialect d)}
    (hs : Reachable (.onText (.ofDialect d) keep source) s) (hm : s.mode = .root)
    (he : s.atEnd ≠ true) :
    ∃ l, lexeme? d .root s.cursor.before s.cursor.rest = some l ∧
      s.cursor.Reads l.chars (s.cursor.past l.chars) ∧ l.chars ≠ [] ∧
      s.step.map plain = s.plain.reads l := by
  obtain ⟨l, hl⟩ := lexeme_of_rest d .root (rest_ne_nil he)
  obtain ⟨hr, hne⟩ := lexeme_reads hl
  exact ⟨l, hl, hr, hne, step_reads hs.informed_ofDialect (by rw [hm, hl])⟩

/-- Behind a word, where the legacy dialect reads a hexadecimal number. -/
theorem step_root_hexadecimal :
    let s := (onText (.ofDialect .legacy) false "a$FF").step.value
    s.mode = .root ∧ s.atEnd ≠ true ∧
      lexeme? .legacy .root s.cursor.before s.cursor.rest =
        some (.taken [(.number, "$FF".toList)] .stay) ∧
      s.step.map plain = s.plain.reads (.taken [(.number, "$FF".toList)] .stay) := by
  intro s
  have hm : s.mode = .root := by decide +kernel
  have he : s.atEnd ≠ true := by decide +kernel
  have hk : lexeme? .legacy .root s.cursor.before s.cursor.rest =
      some (.taken [(.number, "$FF".toList)] .stay) := by decide +kernel
  have hs : Reachable (.onText (.ofDialect .legacy) false "a$FF") s :=
    .step .start rfl (by decide)
  obtain ⟨l, hl, _, _, hr⟩ := step_root .legacy false "a$FF" hs hm he
  obtain rfl := Option.some.inj (hl.symm.trans hk)
  exact ⟨hm, he, hk, hr⟩

end Scanner

end Highlighter
