import Highlighter.Proofs.BlockBodies
import Highlighter.Proofs.Grammar.KeywordLexemes
import Highlighter.Proofs.Scanner.Handing

/-!
# Where keywords stand

A keyword is a word of the vocabulary, or one of a few words that are keywords
in one place only: in the call of an address, in front of a label, alone on its
line, or behind the body of a block. The place is seen in the tokens beside it
and in the modes of the scanner in front of it and behind it.
-/

set_option autoImplicit false

namespace Highlighter

def bareOpeners : List String := lineEnds.map ("textblock" ++ ·)

def placedWords : List String := bareOpeners ++ ["textblockex", "endtextblock", "call", "url"]

theorem placedWords_disjoint (d : Dialect) :
    ∀ w ∈ (Vocabulary.ofDialect d).control, w ∉ placedWords := by
  cases d <;> decide

def PieceAt (before : List Token) (t : Token) (after : List Token) (pieces : List Piece)
    (i : Nat) : Prop :=
  ∃ n earlier later, before ++ t :: after = earlier ++ tokensAt n pieces ++ later ∧
    before.length = earlier.length + i

def Status.Within (s : Status) (m : Mode) (depth : Nat) : Prop := s.mode = m ∧ s.depth = depth

inductive KeywordPlace (d : Dialect) (before : List Token) (t : Token) (after : List Token)
    (asked behind : Status) : Prop
  | control : t.text ∈ (Vocabulary.ofDialect d).control → t.text ∉ placedWords →
      KeywordPlace d before t after asked behind
  | call (blanks inner : List Char) : PieceAt before t after (callPieces blanks inner) 0 →
      KeywordPlace d before t after asked behind
  | address (blanks inner : List Char) : PieceAt before t after (callPieces blanks inner) 2 →
      KeywordPlace d before t after asked behind
  | labelledOpener (opener blanks label : List Char) :
      opener = "textblock".toList ∨ opener = "textblockex".toList →
      PieceAt before t after [(.keyword, opener), (.whitespace, blanks), (.name, label)] 0 →
      asked.Within .root 1 → behind.Within .block 2 →
      KeywordPlace d before t after asked behind
  | bareOpener : t.text ∈ bareOpeners → asked.Within .root 1 → behind.Within .blockComment 2 →
      KeywordPlace d before t after asked behind
  | closer : t.text = "endtextblock" → asked.Within .block 2 → behind.Within .root 1 →
      KeywordPlace d before t after asked behind

/-- A token of pieces side by side is for one of them, and the pieces in front of
it are those of the tokens in front of it. -/
theorem tokensAt_eq_append {n : Nat} {pieces : List Piece} {us vs : List Token} {t : Token}
    (h : tokensAt n pieces = us ++ t :: vs) : ∃ ps xs qs,
      pieces = ps ++ (t.category, xs) :: qs ∧ ps.length = us.length ∧ t.text = String.ofList xs := by
  induction us generalizing n pieces with
  | nil =>
    cases pieces with
    | nil => cases h
    | cons p pieces =>
      obtain ⟨rfl, _⟩ := List.cons.inj h
      exact ⟨[], p.2, pieces, rfl, rfl, rfl⟩
  | cons u us ih =>
    cases pieces with
    | nil => cases h
    | cons p pieces =>
      obtain ⟨_, h⟩ := List.cons.inj h
      obtain ⟨ps, xs, qs, rfl, hl, ht⟩ := ih h
      exact ⟨p :: ps, xs, qs, rfl, congrArg (· + 1) hl, ht⟩

section

variable {d : Dialect} {keep : Bool} {source : String} {s v : Scanner (.ofDialect d)} {ms : Modes}
  {c : Cursor} {l : Lexeme} {t : Token} {earlier row later : List Token}

/-- The token handed out last is for a piece of the lexeme. -/
theorem Scanner.Amid.piece (h : v.Amid ms c l (row ++ [t])) : ∃ ps xs qs,
    l.shown v.keepUnmatched = ps ++ (t.category, xs) :: qs ∧ ps.length = row.length ∧
      t.text = String.ofList xs := by
  have htokens := h.tokens
  rw [List.append_assoc] at htokens
  exact tokensAt_eq_append htokens

theorem Scanner.Amid.pieceAt (h : v.Amid ms c l (row ++ [t])) (earlier later : List Token) :
    PieceAt (earlier ++ row) t (v.pending ++ later) (l.shown v.keepUnmatched) row.length := by
  refine ⟨c.offset, earlier, later, ?_, List.length_append⟩
  rw [h.tokens]
  simp

theorem Placed.root {outer : List Mode} (h : Placed (.root, outer) c) : outer = [] := by
  rcases h with h | ⟨⟨closer, body, hb⟩, _, _⟩
  · exact (Prod.mk.inj h).2
  · cases hb

theorem Placed.block {outer : List Mode} (h : Placed (.block, outer) c) : outer = [.root] := by
  rcases h with h | ⟨_, ho, _⟩
  · cases h
  · exact ho

theorem Scanner.status_within {g : Grammar} {s : Scanner g} {m : Mode} {outer : List Mode}
    (h : s.plain.modes = (m, outer)) : s.status.Within m (outer.length + 1) :=
  ⟨congrArg Prod.fst h, congrArg (·.2.length + 1) h⟩

/-- In front of an opener the outermost mode is alone, and behind it one is inside it. -/
theorem Placed.enter {outer : List Mode} {n : Mode} (h : Placed s.plain.modes s.cursor)
    (hs : s.plain.modes = (.root, outer))
    (hv : v.plain.modes = (Move.enter n).lead (.root, outer)) :
    s.status.Within .root 1 ∧ v.status.Within n 2 := by
  rw [hs] at h
  obtain rfl := h.root
  exact ⟨Scanner.status_within hs, Scanner.status_within hv⟩

theorem Placed.leave {outer : List Mode} (h : Placed s.plain.modes s.cursor)
    (hs : s.plain.modes = (.block, outer)) (hv : v.plain.modes = Move.leave.lead (.block, outer)) :
    s.status.Within .block 2 ∧ v.status.Within .root 1 := by
  rw [hs] at h
  obtain rfl := h.block
  exact ⟨Scanner.status_within hs, Scanner.status_within hv⟩

theorem Scanner.Amid.keywordPlace (ha : v.Amid ms c l (row ++ [t])) (hk : t.category = .keyword)
    (hp : Placed s.plain.modes s.cursor) (hs : row = [] → s.plain.modes = ms)
    (earlier later : List Token) :
    KeywordPlace d (earlier ++ row) t (v.pending ++ later) s.status v.status := by
  have hrow := ha.pieceAt earlier later
  have hmodes := ha.modes
  obtain ⟨ps, xs, qs, hpieces, hlength, htext⟩ := ha.piece
  rw [hk] at hpieces
  rw [hpieces, ← hlength] at hrow
  have hfirst : ps = [] → s.plain.modes = ms := fun h =>
    hs (List.length_eq_zero_iff.mp (by rw [← hlength, h, List.length_nil]))
  have hin := lexeme_keyword ha.lexeme hpieces
  obtain ⟨m, outer⟩ := ms
  generalize l.move = move at hmodes hin
  cases hin with
  | control hc =>
    rw [← htext] at hc
    exact .control hc (placedWords_disjoint d _ hc)
  | call => exact .call _ _ hrow
  | address => exact .address _ _ hrow
  | labelledOpener ho =>
    obtain ⟨hasked, hbehind⟩ := hp.enter (hfirst rfl) hmodes
    exact .labelledOpener _ _ _ ho hrow hasked hbehind
  | bareOpener ht =>
    obtain ⟨hasked, hbehind⟩ := hp.enter (hfirst rfl) hmodes
    refine .bareOpener ?_ hasked hbehind
    rw [htext, String.ofList_append]
    exact List.mem_map_of_mem ht
  | closer =>
    obtain ⟨hasked, hbehind⟩ := hp.leave (hfirst rfl) hmodes
    exact .closer htext hasked hbehind

end

/-- A token that declares is a declaration word of the dialect. A keyword is one
of its control words, or one of the few words that are keywords in one place
only, and it stands in that place. -/
theorem keywords_in_place (d : Dialect) (keep : Bool) (source : String) {before after : List Token}
    {t : Token} (h : (scan (.ofDialect d) keep source).value.1 = before ++ t :: after) :
    (t.category = .declaration → t.text ∈ (Vocabulary.ofDialect d).declarations) ∧
    (t.category = .keyword → ∃ s v,
      Scanner.HandsOut (.onText (.ofDialect d) keep source) before s ∧
      s.next.value = (some t, v) ∧ KeywordPlace d before t after s.status v.status) := by
  obtain ⟨s, v, earlier, row, ms, c, l, ho, hn, rfl, hs, ha, rfl⟩ := Scanner.scan_amid h
  constructor
  · intro hk
    obtain ⟨ps, xs, qs, hpieces, _, htext⟩ := ha.piece
    have hm : (.declaration, xs) ∈ l.shown v.keepUnmatched := by simp [hpieces, hk]
    rw [htext]
    exact lexeme_declaration ha.lexeme hm
  · intro hk
    have hp := ho.reachable.placed
    exact ⟨s, v, ho, hn, ha.keywordPlace hk hp hs earlier _⟩

/-- The closing word of a block, with a label that is a declaration word anywhere else. -/
theorem keywords_in_place_closer :
    let before : List Token := [⟨.keyword, "textblock", ⟨0, 9⟩⟩, ⟨.whitespace, " ", ⟨9, 10⟩⟩,
      ⟨.name, "dim\n", ⟨10, 14⟩⟩]
    let closer : Token := ⟨.keyword, "endtextblock", ⟨14, 26⟩⟩
    let after : List Token := [⟨.punctuation, ";", ⟨26, 27⟩⟩]
    (scan (.ofDialect .current) false "textblock dim\nendtextblock;").value.1 =
        before ++ closer :: after ∧
      ∃ s v, Scanner.HandsOut
          (.onText (.ofDialect .current) false "textblock dim\nendtextblock;") before s ∧
        s.next.value = (some closer, v) ∧
        KeywordPlace .current before closer after s.status v.status := by
  intro before closer after
  have h : (scan (.ofDialect .current) false "textblock dim\nendtextblock;").value.1 =
      before ++ closer :: after := by decide +kernel
  exact ⟨h, (keywords_in_place .current false _ h).2 rfl⟩

end Highlighter
