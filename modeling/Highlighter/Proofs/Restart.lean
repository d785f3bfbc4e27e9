import Highlighter.Proofs.Grammar.LookBehind
import Highlighter.Proofs.Scanner.LexemeRuns

/-!
# Scanning can be restarted

Outside of all blocks, and where no word goes on, a scan is at no disadvantage
without the text that it has behind it. From there on it hands out the tokens of
a scan that starts with the rest of the text, at offsets that count from the
start of the text.
-/

set_option autoImplicit false

namespace Highlighter

open Cursor (startsWithWord)

variable {d : Dialect}

/-- The lexemes up to the end of the text do not depend on the text before. -/
theorem lexemes_lookBack (ms : Modes) {c e : Cursor} (hr : c.rest = e.rest)
    (hb : startsWithWord c.before = startsWithWord e.before) : lexemes d ms c = lexemes d ms e := by
  fun_induction lexemes d ms c generalizing e with
  | case1 ms c hn =>
    rw [lexeme_lookBack d ms.1 hb, hr] at hn
    rw [lexemes_none hn]
  | case2 ms c l hl ih =>
    have hne := (lexeme_reads hl).2
    have hrest : (c.past l.chars).rest = (e.past l.chars).rest := by
      rw [Cursor.past, Cursor.past, hr]
    have hbehind : startsWithWord (c.past l.chars).before =
        startsWithWord (e.past l.chars).before := by
      rw [c.startsWithWord_past hne, e.startsWithWord_past hne]
    rw [lexeme_lookBack d ms.1 hb, hr] at hl
    rw [lexemes_of_lexeme ms hl, ih hrest hbehind]

def Token.shifted (n : Nat) (t : Token) : Token :=
  { t with span := ⟨n + t.span.start, n + t.span.stop⟩ }

def Record.shifted (n : Nat) : Record → Record
  | entered m k => entered m (n + k)
  | left m k => left m (n + k)
  | unmatched m x k => unmatched m x (n + k)
  | r => r

theorem tokensAt_shifted (n k : Nat) (ps : List Piece) :
    tokensAt (n + k) ps = (tokensAt k ps).map (Token.shifted n) := by
  induction ps generalizing k with
  | nil => rfl
  | cons p ps ih =>
    rw [tokensAt, tokensAt, Nat.add_assoc, ih, List.map_cons]
    rfl

theorem Move.records_shifted (move : Move) (ms : Modes) (n k : Nat) :
    move.records ms (n + k) = (move.records ms k).map (Record.shifted n) := by
  obtain ⟨m, outer⟩ := ms
  cases move with
  | stay => rfl
  | enter m => rfl
  | leave => cases outer <;> rfl

namespace Lexeme

theorem tokens_shifted (keep : Bool) (n k : Nat) (ls : List Lexeme) :
    tokens keep (n + k) ls = (tokens keep k ls).map (Token.shifted n) := by
  induction ls generalizing k with
  | nil => rfl
  | cons l ls ih => rw [tokens, tokens, Nat.add_assoc, ih, tokensAt_shifted, List.map_append]

theorem allRecords_shifted (ms : Modes) (n k : Nat) (ls : List Lexeme) :
    allRecords ms (n + k) ls = (allRecords ms k ls).map (Record.shifted n) := by
  induction ls generalizing k ms with
  | nil => rfl
  | cons l ls ih =>
    have hl : l.records ms (n + k) = (l.records ms k).map (Record.shifted n) := by
      cases l with
      | taken pieces move => exact move.records_shifted ms n k
      | passed x => rfl
    rw [allRecords, allRecords, Nat.add_assoc, ih, hl, List.map_append]

end Lexeme

theorem Scanner.Reachable.keepUnmatched {keep : Bool} {source : String}
    {s : Scanner (.ofDialect d)} (hs : Reachable (.onText (.ofDialect d) keep source) s) :
    s.keepUnmatched = keep := by
  induction hs with
  | start => rfl
  | step hs _ he ih =>
    exact (keepUnmatched_step (Grammar.numbered_ofDialect d) hs.informed_ofDialect he).trans ih
  | handOut _ _ ih => exact ih

/-- Outside of all blocks, behind no word character and with nothing pending, a
scan goes on as a scan of the rest of the text does: with the same tokens and
records but for their offsets, to the same mode and depth. -/
theorem drain_restart (d : Dialect) (keep : Bool) (source : String) {s : Scanner (.ofDialect d)}
    (hs : Scanner.Reachable (.onText (.ofDialect d) keep source) s) (hp : s.pending = [])
    (hm : s.mode = .root) (ho : s.outer = [])
    (hb : Cursor.startsWithWord s.cursor.before = false) :
    let ahead := String.ofList s.cursor.rest
    let fresh := scan (.ofDialect d) keep ahead
    (∃ behind, source = behind ++ ahead ∧ s.cursor.offset = behind.utf8ByteSize) ∧
      s.drain.value.1 = fresh.value.1.map (Token.shifted s.cursor.offset) ∧
      s.drain.value.2.mode = fresh.value.2.mode ∧ s.drain.value.2.depth = fresh.value.2.depth ∧
      s.drain.records = fresh.records.map (Record.shifted s.cursor.offset) := by
  intro ahead fresh
  obtain ⟨xs, hx⟩ := hs.reaches
  obtain ⟨ht, hlast, hrecords⟩ := Scanner.drain_lexemes hs.informed_ofDialect
  obtain ⟨hft, hflast, hfrecords⟩ :=
    Scanner.drain_lexemes (Scanner.informed_onText (.ofDialect d) keep ahead)
  have hmodes : s.plain.modes = (.root, []) := Prod.ext hm ho
  have hahead : s.plain.ahead = (Scanner.onText (.ofDialect d) keep ahead).plain.ahead := by
    rw [PlainScanner.ahead, hmodes]
    exact lexemes_lookBack _ String.toList_ofList.symm hb
  have hend : s.drain.value.2.plain.modes = fresh.value.2.plain.modes := by
    rw [show fresh.value.2.plain = _ from hflast, hlast, hahead, PlainScanner.behind, hmodes]
    rfl
  refine ⟨⟨_, Cursor.reads_ofText hx⟩, ?_, congrArg Prod.fst hend,
    congrArg (fun ms : Modes => ms.2.length + 1) hend, ?_⟩
  · rw [show fresh.value.1 = _ from hft, ht, PlainScanner.handed, PlainScanner.handed,
      show s.plain.pending = [] from hp, show s.plain.keepUnmatched = keep from hs.keepUnmatched,
      hahead]
    exact Lexeme.tokens_shifted keep s.cursor.offset 0 _
  · rw [show fresh.records = _ from hfrecords, hrecords, hmodes, hahead]
    exact Lexeme.allRecords_shifted _ s.cursor.offset 0 _

/-- Behind a block, a wide character in it and the newline that follows it. -/
theorem drain_restart_behind_block :
    let source := "textblock\nあ\nendtextblock\ncall url[x] if \""
    let entered := (Scanner.onText (.ofDialect .legacy) true source).step.value.withoutPending
    let closed := entered.step.value.withoutPending.step.value.withoutPending
    let s := closed.step.value.withoutPending
    s.mode = .root ∧ s.outer = [] ∧ Cursor.startsWithWord s.cursor.before = false ∧
      s.drain.value.1 =
        (scan (.ofDialect .legacy) true "call url[x] if \"").value.1.map (Token.shifted 27) ∧
      s.drain.value.2.depth = 1 := by
  intro source entered closed s
  have hfacts : (Scanner.onText (.ofDialect .legacy) true source).atEnd ≠ true ∧
      entered.atEnd ≠ true ∧ entered.step.value.withoutPending.atEnd ≠ true ∧
      closed.atEnd ≠ true ∧ s.mode = .root ∧ s.outer = [] ∧
      Cursor.startsWithWord s.cursor.before = false ∧ s.cursor.offset = 27 ∧
      String.ofList s.cursor.rest = "call url[x] if \"" := by
    decide +kernel
  obtain ⟨hstart, hentered, hline, hclosed, hm, ho, hb, hoffset, hrest⟩ := hfacts
  have hs : Scanner.Reachable (.onText (.ofDialect .legacy) true source) s :=
    ((((Scanner.Reachable.start.step rfl hstart).withoutPending.step rfl
      hentered).withoutPending.step rfl hline).withoutPending.step rfl hclosed).withoutPending
  obtain ⟨_, ht, _, hdepth, _⟩ := drain_restart .legacy true source hs rfl hm ho hb
  rw [hrest, hoffset] at ht
  rw [hrest] at hdepth
  refine ⟨hm, ho, hb, ht, hdepth.trans ?_⟩
  decide +kernel

end Highlighter
