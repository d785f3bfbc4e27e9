import Highlighter.Proofs.Grammar.Inventory
import Highlighter.Proofs.Scanner.LexemeRuns

/-!
# The bodies of blocks

A block is entered behind a whole line and left behind its closing word, and in
between every line is taken as a whole. So inside a block the scan stands
between two lines wherever it can be asked for a token, and what it hands out up
to the closing word is one token for each line that is not empty.
-/

set_option autoImplicit false

namespace Highlighter

variable {d : Dialect}

def Cursor.BetweenLines (c : Cursor) : Prop := c.rest = [] ∨ c.before.head? = some '\n'

theorem Cursor.betweenLines_past {c : Cursor} {xs : List Char} (h : Text.EndsLine xs c.rest) :
    (c.past xs).BetweenLines := by
  rcases h with h | rfl
  · exact .inr (by simp [past, h])
  · exact .inl (by simp [past])

theorem Cursor.BetweenLines.not_word {c : Cursor} (h : c.BetweenLines) (hne : c.rest ≠ []) :
    startsWithWord c.before = false := by
  obtain ⟨before, hb⟩ := List.head?_eq_some_iff.mp (h.resolve_left hne)
  rw [hb]
  exact Text.isWord_of_isBlank (by decide)

theorem Text.endsLine_of_lineTail {rest tail : List Char} (h : lineTail? rest = some tail) :
    EndsLine tail rest := by
  rw [lineTail?] at h
  split at h
  · obtain rfl := Option.some.inj h
    exact .inl rfl
  · split at h
    · obtain rfl := Option.some.inj h
      exact .inl rfl
    · exact .inr (Option.some.inj (Option.ite_none_right_eq_some.mp h).2).symm

inductive BlockMode : Mode → Category → Category → Prop
  | text : BlockMode .block .keyword .string
  | comment : BlockMode .blockComment .comment .comment

theorem BlockMode.productions {m : Mode} {closer body : Category} (h : BlockMode m closer body) :
    productions d m = Production.block closer body := by
  cases h <;> rfl

namespace Production

variable {before rest : List Char} {pieces : List Piece}

theorem endsLine_bareOpener
    (h : (whole .keyword .bareOpener (.enter .blockComment)).pieces? before rest = some pieces) :
    Text.EndsLine (pieces.flatMap Prod.snd) rest := by
  obtain ⟨xs, hx, rfl⟩ := Option.map_eq_some_iff.mp h
  obtain ⟨⟨_, hw⟩, tail, ht, rfl⟩ := Cut.bareOpener_eq_some.mp hx
  have he := (Text.endsLine_of_lineTail ht).behindRun
  rw [hw] at he
  simpa using he

theorem endsLine_labelledOpener (h : labelledOpener.pieces? before rest = some pieces) :
    Text.EndsLine (pieces.flatMap Prod.snd) rest := by
  simp only [labelledOpener, Option.ite_none_right_eq_some, Option.map_eq_some_iff] at h
  obtain ⟨_, tail, ht, rfl⟩ := h
  have he := (Text.endsLine_of_lineTail ht).behindRun.behindRun.behindRun
  simpa using he

/-- In the outermost mode only the openers move. -/
theorem move_root {p : Production} (h : p ∈ productions d .root) : p.move = .stay ∨
    p = whole .keyword .bareOpener (.enter .blockComment) ∨ p = labelledOpener := by
  have hlist : ∀ {ps : List Production}, (∀ q ∈ ps, q.move = .stay) → p ∈ ps → p.move = .stay :=
    fun hps hp => hps p hp
  simp only [productions, List.mem_append, List.mem_cons, List.not_mem_nil, or_false] at h
  rcases h with (((h | h) | h) | h) | rfl | rfl | rfl | rfl | rfl | rfl
  · exact .inl (hlist (by cases d <;> simp [comments, whole, single]) h)
  · exact .inl (hlist (by simp [blanks, whole, single]) h)
  · exact .inl (hlist (by simp [strings, whole, single]) h)
  · exact .inl (hlist (by cases d <;> simp [numbers, whole, single]) h)
  · exact .inr (.inl rfl)
  · exact .inr (.inr rfl)
  all_goals exact .inl rfl

end Production

def Placed (ms : Modes) (c : Cursor) : Prop :=
  ms = (.root, []) ∨
    (∃ closer body, BlockMode ms.1 closer body) ∧ ms.2 = [.root] ∧ c.BetweenLines

def ClosesBlock (line : List Char) : Prop := line.takeWhile Text.isWord = "endtextblock".toList

instance : DecidablePred ClosesBlock := fun line =>
  inferInstanceAs (Decidable (line.takeWhile Text.isWord = "endtextblock".toList))

def closingLexeme (closer : Category) : Lexeme := .taken [(closer, "endtextblock".toList)] .leave

def bodyLexeme (body : Category) (line : List Char) : Lexeme :=
  if line = ['\n'] then .passed '\n' else .taken [(body, line)] .stay

section

variable {m : Mode} {closer body : Category} {c : Cursor}

theorem lexeme_of_closer (hb : BlockMode m closer body) (hc : c.BetweenLines)
    (hk : ClosesBlock (Text.through '\n' c.rest)) :
    lexeme? d m c.before c.rest = some (closingLexeme closer) := by
  rw [ClosesBlock, Text.takeWhile_through (by decide)] at hk
  have hne : c.rest ≠ [] := by
    intro hr
    simp [hr] at hk
  have hw : Cut.word (· == "endtextblock".toList) c.before c.rest = some "endtextblock".toList :=
    Cut.word_eq_some.mpr ⟨hc.not_word hne, hk, by decide, by decide⟩
  rw [lexeme?, hb.productions, Production.block, taken_cons, Production.whole_pieces, hw]
  rfl

theorem lexeme_of_line (hb : BlockMode m closer body) (hne : c.rest ≠ [])
    (hk : ¬ ClosesBlock (Text.through '\n' c.rest)) :
    lexeme? d m c.before c.rest = some (bodyLexeme body (Text.through '\n' c.rest)) := by
  rw [ClosesBlock, Text.takeWhile_through (by decide)] at hk
  have hw : Cut.word (· == "endtextblock".toList) c.before c.rest = none := by
    rw [Option.eq_none_iff_forall_ne_some]
    intro xs hx
    obtain ⟨_, rfl, _, ha⟩ := Cut.word_eq_some.mp hx
    exact hk (by simpa using ha)
  rw [lexeme?, hb.productions, Production.block, taken_cons, taken_cons,
    Production.whole_pieces, Production.whole_pieces, hw]
  obtain ⟨x, after, hr⟩ := List.exists_cons_of_ne_nil hne
  rw [hr]
  by_cases hx : x = '\n'
  · subst hx
    rw [Text.through_mark]
    rfl
  · have hl : Text.through '\n' (x :: after) = x :: Text.through '\n' after := by
      rw [Text.through, if_neg hx]
    rw [Cut.bodyLine, if_neg hx, bodyLexeme, if_neg (by rw [hl]; simp [hx])]
    rfl

theorem bodyLexeme_chars (line : List Char) : (bodyLexeme body line).chars = line := by
  unfold bodyLexeme
  split
  · rename_i h
    rw [h]
    rfl
  · simp [Lexeme.chars]

theorem bodyLexeme_lead (line : List Char) (ms : Modes) :
    (bodyLexeme body line).move.lead ms = ms := by
  unfold bodyLexeme
  split <;> rfl

end

theorem Placed.step {ms : Modes} {c : Cursor} {l : Lexeme} (h : Placed ms c)
    (hl : lexeme? d ms.1 c.before c.rest = some l) :
    Placed (l.move.lead ms) (c.past l.chars) := by
  obtain ⟨m, outer⟩ := ms
  rcases h with h | ⟨⟨closer, body, hb⟩, rfl, hc⟩
  · obtain ⟨rfl, rfl⟩ := Prod.mk.inj h
    rcases lexeme_origin hl with ⟨p, hp, pieces, hs, rfl⟩ | ⟨_, x, after, _, rfl⟩
    · rcases Production.move_root hp with hm | rfl | rfl
      · exact .inl (by rw [Lexeme.move, hm, Move.lead])
      · exact .inr ⟨⟨_, _, .comment⟩, rfl,
          Cursor.betweenLines_past (Production.endsLine_bareOpener hs)⟩
      · exact .inr ⟨⟨_, _, .text⟩, rfl,
          Cursor.betweenLines_past (Production.endsLine_labelledOpener hs)⟩
    · exact .inl rfl
  · by_cases hk : ClosesBlock (Text.through '\n' c.rest)
    · obtain rfl := Option.some.inj ((lexeme_of_closer hb hc hk).symm.trans hl)
      exact .inl rfl
    · have hne : c.rest ≠ [] := by
        intro hr
        simpa [hr] using lexeme_length_lt hl
      obtain rfl := Option.some.inj ((lexeme_of_line hb hne hk).symm.trans hl)
      rw [bodyLexeme_lead, bodyLexeme_chars]
      exact .inr ⟨⟨_, _, hb⟩, rfl, Cursor.betweenLines_past (Text.endsLine_through _)⟩

theorem Scanner.Reachable.placed {keep : Bool} {source : String} {s : Scanner (.ofDialect d)}
    (hs : Reachable (.onText (.ofDialect d) keep source) s) :
    Placed (s.mode, s.outer) s.cursor := by
  induction hs with
  | start => exact .inl rfl
  | @step s hs _ he ih =>
    obtain ⟨l, hl⟩ := lexeme_of_rest d s.mode (rest_ne_nil he)
    have hr : s.step.value.plain = (s.plain.reads l).value :=
      congrArg Logged.value (step_reads hs.informed_ofDialect hl)
    have hp : Placed s.step.value.plain.modes s.step.value.plain.cursor := by
      rw [hr]
      exact ih.step hl
    exact hp
  | handOut _ _ ih => exact ih

def bodyTokens (body : Category) (keep : Bool) : Nat → List (List Char) → List Token
  | _, [] => []
  | n, line :: lines =>
    (if line = ['\n'] then if keep then [⟨.unmatched, "\n", ⟨n, n + 1⟩⟩] else []
      else [⟨body, String.ofList line, ⟨n, n + Text.bytes line⟩⟩]) ++
    bodyTokens body keep (n + Text.bytes line) lines

theorem tokens_body (body : Category) (keep : Bool) (n : Nat) (lines : List (List Char)) :
    Lexeme.tokens keep n (lines.map (bodyLexeme body)) = bodyTokens body keep n lines := by
  induction lines generalizing n with
  | nil => rfl
  | cons line lines ih =>
    rw [List.map_cons, Lexeme.tokens, bodyLexeme_chars, ih, bodyTokens]
    congr 1
    unfold bodyLexeme
    split
    · cases keep <;> rfl
    · rfl

theorem allChars_body (body : Category) (lines : List (List Char)) :
    Lexeme.allChars (lines.map (bodyLexeme body)) = lines.flatten := by
  induction lines with
  | nil => rfl
  | cons line lines ih =>
    rw [List.map_cons, Lexeme.allChars_cons, ih, bodyLexeme_chars, List.flatten_cons]

theorem lead_body (body : Category) (ms : Modes) (lines : List (List Char)) :
    Lexeme.lead ms (lines.map (bodyLexeme body)) = ms := by
  induction lines with
  | nil => rfl
  | cons line lines ih =>
    rw [List.map_cons, Lexeme.lead, List.foldl_cons, bodyLexeme_lead]
    exact ih

/-- Lines that do not close the block are read one by one. -/
theorem lexemes_lines {m : Mode} {closer body : Category} (hb : BlockMode m closer body)
    (outer : List Mode) {c : Cursor} (hc : c.BetweenLines) {lines tail : List (List Char)}
    (hl : Text.lines c.rest = lines ++ tail) (hn : ∀ line ∈ lines, ¬ ClosesBlock line) :
    lexemes d (m, outer) c =
        lines.map (bodyLexeme body) ++ lexemes d (m, outer) (c.past lines.flatten) ∧
      (c.past lines.flatten).BetweenLines ∧ Text.lines (c.past lines.flatten).rest = tail := by
  induction lines generalizing c with
  | nil =>
    rw [List.flatten_nil, Cursor.past_nil]
    exact ⟨rfl, hc, hl⟩
  | cons line lines ih =>
    have hne : c.rest ≠ [] := by
      intro hr
      rw [hr] at hl
      simp [Text.lines] at hl
    obtain ⟨after, hafter, hcut⟩ := Text.lines_eq_cons hne
    obtain ⟨hline, htail⟩ := List.cons.inj (hcut.symm.trans hl)
    obtain ⟨hnot, hnots⟩ := List.forall_mem_cons.mp hn
    have hrest : (c.past line).rest = after := by
      rw [Cursor.past, hafter, ← hline, List.drop_left]
    have hread := lexeme_of_line (d := d) hb hne (by rw [hline]; exact hnot)
    have hbetween := Cursor.betweenLines_past (Text.endsLine_through c.rest)
    rw [hline] at hread hbetween
    obtain ⟨hls, hrest⟩ := ih hbetween (by rw [hrest]; exact htail) hnots
    rw [lexemes_of_lexeme (m, outer) hread, bodyLexeme_lead, bodyLexeme_chars, hls,
      Cursor.past_past]
    exact ⟨rfl, by rw [Cursor.past_past] at hrest; exact hrest⟩

theorem behind_body {g : Grammar} (s : PlainScanner g) (body : Category)
    (lines : List (List Char)) : s.behind (lines.map (bodyLexeme body)) =
      { s with cursor := s.cursor.past lines.flatten, pending := [] } := by
  rw [PlainScanner.behind, allChars_body, lead_body]
  rfl

structure Scanner.InBlock (s : Scanner (.ofDialect d)) (closer body : Category) : Prop where
  mode : BlockMode s.mode closer body
  outer : s.outer = [.root]
  between : s.cursor.BetweenLines

theorem Scanner.Reachable.inBlock {keep : Bool} {source : String} {s : Scanner (.ofDialect d)}
    (hs : Reachable (.onText (.ofDialect d) keep source) s) {closer body : Category}
    (hb : BlockMode s.mode closer body) : s.InBlock closer body := by
  rcases hs.placed with h | ⟨_, ho, hc⟩
  · obtain ⟨hm, _⟩ := Prod.mk.inj h
    rw [hm] at hb
    cases hb
  · exact ⟨hb, ho, hc⟩

namespace Scanner.InBlock

variable {s : Scanner (.ofDialect d)} {closer body : Category}

theorem drain_unclosed (h : s.InBlock closer body) (hi : s.Informed) (hp : s.pending = [])
    (hn : ∀ line ∈ Text.lines s.cursor.rest, ¬ ClosesBlock line) :
    s.drain.value.1 =
        bodyTokens body s.keepUnmatched s.cursor.offset (Text.lines s.cursor.rest) ∧
      s.drain.value.2.mode = s.mode ∧ s.drain.value.2.depth = 2 ∧
      s.drain.value.2.atEnd = true := by
  obtain ⟨hls, _, hrest⟩ :=
    lexemes_lines (d := d) h.mode s.outer h.between (List.append_nil _).symm hn
  have hend : (s.cursor.past (Text.lines s.cursor.rest).flatten).rest = [] := by
    rw [← Text.lines_flatten (s.cursor.past _).rest, hrest, List.flatten_nil]
  rw [lexemes_end hend, List.append_nil] at hls
  have ha : s.plain.ahead = (Text.lines s.cursor.rest).map (bodyLexeme body) := hls
  obtain ⟨ht, hlast, _⟩ := drain_lexemes hi
  rw [ha, PlainScanner.handed, tokens_body] at ht
  rw [ha, behind_body] at hlast
  have hcursor : s.drain.value.2.cursor = s.cursor.past (Text.lines s.cursor.rest).flatten :=
    congrArg PlainScanner.cursor hlast
  have houter : s.drain.value.2.outer = [.root] :=
    (congrArg PlainScanner.outer hlast).trans h.outer
  refine ⟨ht.trans (congrArg (· ++ _) hp), congrArg PlainScanner.mode hlast, ?_, ?_⟩
  · rw [depth, houter]
    rfl
  · rw [atEnd, Cursor.atEnd, hcursor, hend]
    rfl

theorem handsOut_closed (h : s.InBlock closer body) (hi : s.Informed) (hp : s.pending = [])
    {lines more : List (List Char)} {line : List Char}
    (hl : Text.lines s.cursor.rest = lines ++ line :: more)
    (hn : ∀ l ∈ lines, ¬ ClosesBlock l) (hk : ClosesBlock line) :
    ∃ after, s.HandsOut (bodyTokens body s.keepUnmatched s.cursor.offset lines ++
        [⟨closer, "endtextblock", ⟨s.cursor.offset + Text.bytes lines.flatten,
          s.cursor.offset + Text.bytes lines.flatten + 12⟩⟩]) after ∧
      after.mode = .root ∧ after.outer = [] ∧ after.pending = [] ∧
      s.cursor.Reads (lines.flatten ++ "endtextblock".toList) after.cursor := by
  obtain ⟨hls, hbetween, hrest⟩ := lexemes_lines (d := d) h.mode s.outer h.between hl hn
  have hne : (s.cursor.past lines.flatten).rest ≠ [] := by
    intro hr
    simp [hr, Text.lines] at hrest
  obtain ⟨_, _, hcut⟩ := Text.lines_eq_cons hne
  rw [(List.cons.inj (hrest.symm.trans hcut)).1] at hk
  rw [lexemes_of_lexeme (s.mode, s.outer) (lexeme_of_closer h.mode hbetween hk)] at hls
  have ha : s.plain.ahead = (lines.map (bodyLexeme body) ++ [closingLexeme closer]) ++ _ :=
    hls.trans (List.append_assoc _ [_] _).symm
  obtain ⟨after, hout, hafter⟩ :=
    handsOut_lexemes hi ha (by simp [closingLexeme, Lexeme.shown])
  have hreads := PlainScanner.reads_behind ha
  rw [← hafter, Lexeme.allChars_append, allChars_body] at hreads
  rw [PlainScanner.handed, Lexeme.tokens_append, tokens_body, allChars_body,
    show s.plain.pending = [] from hp] at hout
  rw [PlainScanner.behind_append, behind_body] at hafter
  have hmodes : after.plain.modes = (.root, []) := by
    rw [hafter, PlainScanner.behind, PlainScanner.modes, PlainScanner.modes,
      show s.plain.outer = [.root] from h.outer]
    rfl
  exact ⟨after, hout, congrArg Prod.fst hmodes, congrArg Prod.snd hmodes,
    congrArg PlainScanner.pending hafter, hreads⟩

end Scanner.InBlock

/-- Inside a block, each line up to the closing one is handed out as one token,
or is passed over if it is empty, and the closing word leads back to the
outermost mode, with the scan right behind it. Without a closing line the scan
ends in the block. The scan is at the start of a line all along, so the closing
word anywhere else in a line is a part of that line. -/
theorem drain_block (d : Dialect) (keep : Bool) (source : String) {s : Scanner (.ofDialect d)}
    (hs : Scanner.Reachable (.onText (.ofDialect d) keep source) s) (hp : s.pending = [])
    {closer body : Category} (hb : BlockMode s.mode closer body) :
    s.cursor.BetweenLines ∧
      ((∀ line ∈ Text.lines s.cursor.rest, ¬ ClosesBlock line) →
        s.drain.value.1 = bodyTokens body s.keepUnmatched s.cursor.offset
            (Text.lines s.cursor.rest) ∧
          s.drain.value.2.mode = s.mode ∧ s.drain.value.2.depth = 2 ∧
          s.drain.value.2.atEnd = true) ∧
      ∀ lines line more, Text.lines s.cursor.rest = lines ++ line :: more →
        (∀ l ∈ lines, ¬ ClosesBlock l) → ClosesBlock line →
        let stop := s.cursor.offset + Text.bytes lines.flatten
        let handed := bodyTokens body s.keepUnmatched s.cursor.offset lines ++
          [⟨closer, "endtextblock", ⟨stop, stop + 12⟩⟩]
        ∃ after, s.HandsOut handed after ∧
          s.drain.value.1 = handed ++ after.drain.value.1 ∧
          after.mode = .root ∧ after.outer = [] ∧ after.pending = [] ∧
          s.cursor.Reads (lines.flatten ++ "endtextblock".toList) after.cursor := by
  have h := hs.inBlock hb
  have hi := hs.informed_ofDialect
  refine ⟨h.between, h.drain_unclosed hi hp, ?_⟩
  intro lines line more hl hn hk
  obtain ⟨after, hout, hplace⟩ := h.handsOut_closed hi hp hl hn hk
  exact ⟨after, hout, hout.drain, hplace⟩

/-- The closing word behind a blank does not close, and at the end of the text
neither does a line without it. -/
theorem drain_block_comment_and_text :
    (let s := (Scanner.onText (.ofDialect .current) true
        "textblock\nab\n\n endtextblock\nendtextblock;").step.value.withoutPending
      ∃ after, s.HandsOut
          [⟨.comment, "ab\n", ⟨10, 13⟩⟩, ⟨.unmatched, "\n", ⟨13, 14⟩⟩,
            ⟨.comment, " endtextblock\n", ⟨14, 28⟩⟩, ⟨.comment, "endtextblock", ⟨28, 40⟩⟩] after ∧
        after.mode = .root ∧ after.outer = []) ∧
    (let s := (Scanner.onText (.ofDialect .legacy) false
        "textblock x\nab").step.value.withoutPending;
      s.drain.value.1 = [⟨.string, "ab", ⟨12, 14⟩⟩] ∧ s.drain.value.2.mode = .block) := by
  constructor
  · intro s
    have hs : Scanner.Reachable (.onText (.ofDialect .current) true _) s :=
      (Scanner.Reachable.start.step rfl (by decide)).withoutPending
    have hb : BlockMode s.mode .comment .comment := by
      rw [show s.mode = .blockComment by decide +kernel]
      exact .comment
    obtain ⟨after, hout, _, hroot, houter, _⟩ := (drain_block .current true _ hs rfl
      hb).2.2 ["ab\n".toList, "\n".toList, " endtextblock\n".toList]
      "endtextblock;".toList [] (by decide +kernel) (by decide +kernel) (by decide +kernel)
    refine ⟨after, ?_, hroot, houter⟩
    have ht : bodyTokens .comment s.keepUnmatched s.cursor.offset
        ["ab\n".toList, "\n".toList, " endtextblock\n".toList] =
          [⟨.comment, "ab\n", ⟨10, 13⟩⟩, ⟨.unmatched, "\n", ⟨13, 14⟩⟩,
            ⟨.comment, " endtextblock\n", ⟨14, 28⟩⟩] := by decide +kernel
    have hn : s.cursor.offset = 10 := by decide +kernel
    rw [ht, hn] at hout
    exact hout
  · intro s
    have hs : Scanner.Reachable (.onText (.ofDialect .legacy) false _) s :=
      (Scanner.Reachable.start.step rfl (by decide)).withoutPending
    have hm : s.mode = .block := by decide +kernel
    have hb : BlockMode s.mode .keyword .string := by
      rw [hm]
      exact .text
    obtain ⟨ht, hmode, _⟩ := (drain_block .legacy false _ hs rfl hb).2.1 (by decide +kernel)
    refine ⟨ht.trans ?_, hmode.trans hm⟩
    decide +kernel

end Highlighter
