import Highlighter.Proofs.Scanner.Readings

/-!
# Runs as lists of lexemes

From any place the lexemes up to the end of the text are known without the
scanner. Its tokens, its modes and its log are folds over them, and it hands out
the tokens of any part of them one by one.
-/

set_option autoImplicit false

namespace Highlighter

variable {d : Dialect}

def lexemes (d : Dialect) (ms : Modes) (c : Cursor) : List Lexeme :=
  match _h : lexeme? d ms.1 c.before c.rest with
  | none => []
  | some l => l :: lexemes d (l.move.lead ms) (c.past l.chars)
termination_by c.rest.length
decreasing_by exact lexeme_length_lt _h

theorem lexemes_none {ms : Modes} {c : Cursor} (h : lexeme? d ms.1 c.before c.rest = none) :
    lexemes d ms c = [] := by
  rw [lexemes]
  split
  · rfl
  · simp_all

theorem lexemes_end {ms : Modes} {c : Cursor} (h : c.rest = []) : lexemes d ms c = [] :=
  lexemes_none (lexeme_end h)

theorem lexemes_of_lexeme (ms : Modes) {c : Cursor} {l : Lexeme}
    (h : lexeme? d ms.1 c.before c.rest = some l) :
    lexemes d ms c = l :: lexemes d (l.move.lead ms) (c.past l.chars) := by
  rw [lexemes]
  split
  · simp_all
  · rename_i k hk
    obtain rfl := Option.some.inj (hk.symm.trans h)
    rfl

/-- A lexeme that takes all the text is the only one. -/
theorem lexemes_last {ms : Modes} {c : Cursor} {l : Lexeme}
    (h : lexeme? d ms.1 c.before c.rest = some l) (hl : l.chars = c.rest) :
    lexemes d ms c = [l] := by
  have hrest : (c.past l.chars).rest = [] := by rw [Cursor.past, hl, List.drop_length]
  rw [lexemes_of_lexeme ms h, lexemes_end hrest]

namespace Lexeme

def allChars (ls : List Lexeme) : List Char := ls.flatMap chars

def lead (ms : Modes) (ls : List Lexeme) : Modes := ls.foldl (fun ms l => l.move.lead ms) ms

def tokens (keep : Bool) : Nat → List Lexeme → List Token
  | _, [] => []
  | n, l :: ls => tokensAt n (l.shown keep) ++ tokens keep (n + Text.bytes l.chars) ls

def allRecords : Modes → Nat → List Lexeme → List Record
  | _, _, [] => []
  | ms, n, l :: ls => l.records ms n ++ allRecords (l.move.lead ms) (n + Text.bytes l.chars) ls

theorem allChars_cons (l : Lexeme) (ls : List Lexeme) :
    allChars (l :: ls) = l.chars ++ allChars ls :=
  List.flatMap_cons

theorem allChars_append (ls ks : List Lexeme) : allChars (ls ++ ks) = allChars ls ++ allChars ks :=
  List.flatMap_append

theorem lead_append (ms : Modes) (ls ks : List Lexeme) :
    lead ms (ls ++ ks) = lead (lead ms ls) ks :=
  List.foldl_append

theorem tokens_append (keep : Bool) (n : Nat) (ls ks : List Lexeme) :
    tokens keep n (ls ++ ks) =
      tokens keep n ls ++ tokens keep (n + Text.bytes (allChars ls)) ks := by
  induction ls generalizing n with
  | nil => rfl
  | cons l ls ih =>
    rw [List.cons_append, tokens, tokens, ih, List.append_assoc, allChars_cons, Text.bytes_append,
      Nat.add_assoc]

theorem tokens_ne_nil {keep : Bool} {n : Nat} {ls : List Lexeme} (hne : ls ≠ [])
    (h : ∀ l ∈ ls.getLast?, l.shown keep ≠ []) : tokens keep n ls ≠ [] := by
  induction ls generalizing n with
  | nil => exact absurd rfl hne
  | cons l ls ih =>
    cases ls with
    | nil =>
      obtain ⟨p, ps, hp⟩ := List.exists_cons_of_ne_nil (h l rfl)
      simp [tokens, hp, tokensAt]
    | cons k ls => exact List.append_ne_nil_of_right_ne_nil _ (ih (by simp) (by simpa using h))

end Lexeme

theorem Cursor.past_nil (c : Cursor) : c.past [] = c :=
  (reads_nil.mpr rfl : c.Reads [] c).eq_past.symm

theorem Cursor.past_past (c : Cursor) (xs ys : List Char) :
    (c.past xs).past ys = c.past (xs ++ ys) :=
  eq_of_halves (by simp [past]) (by simp [past])

/-- The lexemes are the rest of the text, cut. -/
theorem lexemes_chars (ms : Modes) (c : Cursor) : Lexeme.allChars (lexemes d ms c) = c.rest := by
  fun_induction lexemes d ms c with
  | case1 ms c h => exact (rest_of_lexeme_none h).symm
  | case2 ms c l h ih =>
    rw [Lexeme.allChars_cons, ih]
    exact (lexeme_reads h).1.1.symm

namespace PlainScanner

variable {g : Grammar}

def behind (s : PlainScanner g) (ls : List Lexeme) : PlainScanner g :=
  { s with
    cursor := s.cursor.past (Lexeme.allChars ls)
    mode := (Lexeme.lead s.modes ls).1
    outer := (Lexeme.lead s.modes ls).2
    pending := [] }

theorem behind_nil (s : PlainScanner g) : s.behind [] = { s with pending := [] } := by
  rw [behind, show Lexeme.allChars [] = [] from rfl, Cursor.past_nil]
  rfl

theorem behind_append (s : PlainScanner g) (ls ks : List Lexeme) :
    s.behind (ls ++ ks) = (s.behind ls).behind ks := by
  simp only [behind, modes, Lexeme.allChars_append, Lexeme.lead_append, Cursor.past_past]

theorem behind_reads (s : PlainScanner g) (l : Lexeme) (ls : List Lexeme) :
    (s.reads l).value.behind ls = s.behind (l :: ls) := by
  simp only [behind, reads, Cursor.past_past]
  rfl

def handed (s : PlainScanner g) (ls : List Lexeme) : List Token :=
  s.pending ++ Lexeme.tokens s.keepUnmatched s.cursor.offset ls

theorem handed_reads (s : PlainScanner g) (l : Lexeme) (ls : List Lexeme) :
    (s.reads l).value.handed ls = s.handed (l :: ls) := List.append_assoc _ _ _

def ahead (s : PlainScanner (.ofDialect d)) : List Lexeme := lexemes d s.modes s.cursor

def readAll (s : PlainScanner (.ofDialect d)) :
    Logged (List Token × PlainScanner (.ofDialect d)) where
  value := (s.handed s.ahead, s.behind s.ahead)
  records := Lexeme.allRecords s.modes s.cursor.offset s.ahead

/-- The lexemes in front are in the text in front. -/
theorem reads_behind {s : PlainScanner (.ofDialect d)} {ls more : List Lexeme}
    (h : s.ahead = ls ++ more) : s.cursor.Reads (Lexeme.allChars ls) (s.behind ls).cursor := by
  apply Cursor.reads_past
  rw [← lexemes_chars (d := d) s.modes s.cursor, ← ahead, h, Lexeme.allChars_append]
  exact List.prefix_append _ _

theorem ahead_of_lexeme {s : PlainScanner (.ofDialect d)} {l : Lexeme}
    (h : lexeme? d s.mode s.cursor.before s.cursor.rest = some l) :
    s.ahead = l :: (s.reads l).value.ahead := lexemes_of_lexeme s.modes h

theorem ahead_eq_cons {s : PlainScanner (.ofDialect d)} {l : Lexeme} {ls : List Lexeme}
    (h : s.ahead = l :: ls) : lexeme? d s.mode s.cursor.before s.cursor.rest = some l ∧
      (s.reads l).value.ahead = ls := by
  have hne : s.cursor.rest ≠ [] := by
    intro hr
    rw [ahead, lexemes_end hr] at h
    simp at h
  obtain ⟨k, hk⟩ := lexeme_of_rest d s.mode hne
  rw [ahead_of_lexeme hk] at h
  obtain ⟨rfl, hls⟩ := List.cons.inj h
  exact ⟨hk, hls⟩

theorem readAll_end {s : PlainScanner (.ofDialect d)} (h : s.cursor.rest = []) :
    s.readAll = .silent (s.pending, { s with pending := [] }) := by
  rw [readAll, ahead, lexemes_end h, behind_nil, handed, Lexeme.tokens, List.append_nil]
  rfl

theorem readAll_of_lexeme {s : PlainScanner (.ofDialect d)} {l : Lexeme}
    (h : lexeme? d s.mode s.cursor.before s.cursor.rest = some l) :
    s.readAll = ({ s with pending := [] }.reads l).andThen fun after =>
      after.readAll.map fun (ts, last) => (s.pending ++ ts, last) := by
  rw [readAll, ahead_of_lexeme h, ← behind_reads]
  rfl

end PlainScanner

namespace Scanner

/-- Handing out all tokens is reading the lexemes ahead. -/
theorem drain_eq_readAll {s : Scanner (.ofDialect d)} (hi : s.Informed) :
    s.drain.map (fun (ts, last) => (ts, last.plain)) = s.plain.readAll := by
  induction s using drain_induction with
  | ended s he =>
    have hr : s.cursor.rest = [] := by simpa [atEnd, Cursor.atEnd] using he
    rw [drain_end he, PlainScanner.readAll_end (s := s.plain) hr]
    rfl
  | step s he ih =>
    obtain ⟨l, hl⟩ := lexeme_of_rest d s.mode (rest_ne_nil he)
    have hw : s.withoutPending.Informed := hi
    have hrest := ih (step_plain (Grammar.numbered_ofDialect d) hw).2
    rw [drain_step he, PlainScanner.readAll_of_lexeme (s := s.plain) hl, Logged.map_andThen,
      show ({ s.plain with pending := [] } : PlainScanner _).reads l = _ from
        (step_reads hw hl).symm, Logged.andThen_map]
    apply Logged.andThen_congr
    rw [← hrest]
    rfl

/-- What is handed out, where that ends and what is logged. -/
theorem drain_lexemes {s : Scanner (.ofDialect d)} (hi : s.Informed) :
    s.drain.value.1 = s.plain.handed s.plain.ahead ∧
      s.drain.value.2.plain = s.plain.behind s.plain.ahead ∧
      s.drain.records = Lexeme.allRecords s.plain.modes s.cursor.offset s.plain.ahead := by
  have h := drain_eq_readAll hi
  have hv := congrArg Logged.value h
  exact ⟨congrArg Prod.fst hv, congrArg Prod.snd hv, congrArg Logged.records h⟩

inductive HandsOut {g : Grammar} : Scanner g → List Token → Scanner g → Prop
  | done {s : Scanner g} : HandsOut s [] s
  | next {s mid after : Scanner g} {t : Token} {ts : List Token} :
      s.next.value = (some t, mid) → HandsOut mid ts after → HandsOut s (t :: ts) after

variable {g : Grammar} {s after : Scanner g} {ts : List Token}

theorem HandsOut.pending (h : HandsOut s.withoutPending ts after) :
    HandsOut s (s.pending ++ ts) after := by
  induction hp : s.pending generalizing s with
  | nil => rwa [withoutPending_of_nil hp] at h
  | cons t rest ih =>
    have hn : s.next.value = (some t, { s with pending := rest }) := by
      rw [next_pending hp]
      rfl
    exact .next hn (ih (s := { s with pending := rest }) h rfl)

/-- A step taken while nothing is pending is not seen from outside. -/
theorem HandsOut.step (hp : s.pending = []) (he : s.atEnd ≠ true) (hne : ts ≠ [])
    (h : HandsOut s.step.value ts after) : HandsOut s ts after := by
  cases h with
  | done => exact absurd rfl hne
  | next hn hr =>
    refine .next ?_ hr
    rw [next_step hp he, ← hn]
    rfl

theorem HandsOut.drain (h : HandsOut s ts after) : s.drain.value.1 = ts ++ after.drain.value.1 := by
  induction h with
  | done => rfl
  | next hn _ ih =>
    rw [drain_next, Logged.andThen, hn, List.cons_append, ← ih]
    rfl

/-- The tokens of the lexemes in front are handed out up to any of them that
becomes a token, and the scanner is then right behind it. -/
theorem handsOut_lexemes {s : Scanner (.ofDialect d)} (hi : s.Informed) {ls more : List Lexeme}
    (ha : s.plain.ahead = ls ++ more) (hs : ∀ l ∈ ls.getLast?, l.shown s.keepUnmatched ≠ []) :
    ∃ after, HandsOut s (s.plain.handed ls) after ∧ after.plain = s.plain.behind ls := by
  -- A lexeme without a token is a step inside of `next`, which ends with a token.
  induction ls generalizing s with
  | nil =>
    have hd : HandsOut s (s.pending ++ []) s.withoutPending := HandsOut.pending .done
    refine ⟨s.withoutPending, hd, ?_⟩
    rw [PlainScanner.behind_nil]
    rfl
  | cons l ls ih =>
    obtain ⟨hl, hls⟩ := PlainScanner.ahead_eq_cons ha
    have he : s.atEnd ≠ true := not_atEnd fun hr => by
      simpa [hr] using lexeme_length_lt (c := s.cursor) hl
    have hw : s.withoutPending.Informed := hi
    have hstep : s.withoutPending.step.value.plain = (s.withoutPending.plain.reads l).value :=
      congrArg Logged.value (step_reads hw hl)
    have hkeep : s.withoutPending.step.value.keepUnmatched = s.keepUnmatched :=
      congrArg PlainScanner.keepUnmatched hstep
    obtain ⟨after, ho, hafter⟩ := ih (s := s.withoutPending.step.value)
      (step_plain (Grammar.numbered_ofDialect d) hw).2
      (by rw [hstep]; exact hls)
      (by
        rw [hkeep]
        exact fun k hm => hs k (by cases ls <;> simp_all))
    rw [hstep, PlainScanner.handed_reads] at ho
    refine ⟨after, .pending (.step rfl he (Lexeme.tokens_ne_nil (by simp) hs) ho), ?_⟩
    rw [hafter, hstep, ← PlainScanner.behind_reads]
    rfl

end Scanner

def Modes.statusAt (ms : Modes) (c : Cursor) : Status :=
  ⟨ms.1, ms.2.length + 1, c.offset, c.current?, c.atEnd⟩

/-- Behind a hit the status is that to which its rule leads. -/
theorem Scanner.status_step_of_hit {g : Grammar} (hg : g.Numbered) {s : Scanner g}
    (h : s.Informed) {hit : Hit} (hf : firstHit? s.cursor (g.rulesIn s.mode) = some hit) :
    s.step.value.status = (hit.rule.move.lead (s.mode, s.outer)).statusAt hit.found.stop := by
  have hs := congrArg Logged.value (step_of_hit hg h hf)
  have hmodes := s.plain.modes_take hit
  have hcursor := s.plain.cursor_take hit
  rw [← hs] at hmodes hcursor
  rw [← show s.plain.modes = (s.mode, s.outer) from rfl, ← hmodes, ← hcursor]
  rfl

/-- Where no rule takes text a step passes over one character in the same modes. -/
theorem Scanner.status_step_of_no_hit {g : Grammar} (hg : g.Numbered) {s : Scanner g}
    (h : s.Informed) (he : s.atEnd ≠ true) (hf : firstHit? s.cursor (g.rulesIn s.mode) = none) :
    s.step.value.status = Modes.statusAt (s.mode, s.outer) s.cursor.advance := by
  obtain ⟨x, rest, hx⟩ := List.exists_cons_of_ne_nil (rest_ne_nil he)
  have hs := step_of_no_hit hg h hf
  rw [PlainScanner.passOver_of_rest (s := s.plain) hx] at hs
  exact congrArg (fun after => after.value.status) hs

/-- The tokens, the log and the last status of a scan from the lexemes of the full
text alone. -/
theorem scan_read (d : Dialect) (keep : Bool) (source : String) :
    let r := scan (.ofDialect d) keep source
    let ls := lexemes d (.root, []) (.ofText source)
    r.value.1 = Lexeme.tokens keep 0 ls ∧ r.records = Lexeme.allRecords (.root, []) 0 ls ∧
      r.value.2.status = (Lexeme.lead (.root, []) ls).statusAt
        ((Cursor.ofText source).past (Lexeme.allChars ls)) := by
  obtain ⟨ht, hs, hr⟩ := Scanner.drain_lexemes (Scanner.informed_onText (.ofDialect d) keep source)
  exact ⟨ht, hr, congrArg PlainScanner.status hs⟩

/-- A scan from the lexemes of the full text. -/
theorem scan_lexemes (d : Dialect) (keep : Bool) (source : String) :
    let r := scan (.ofDialect d) keep source
    let ls := lexemes d (.root, []) (.ofText source)
    r.value.1 = Lexeme.tokens keep 0 ls ∧
      r.value.2.plain.modes = Lexeme.lead (.root, []) ls := by
  obtain ⟨ht, hs, _⟩ := Scanner.drain_lexemes (Scanner.informed_onText (.ofDialect d) keep source)
  exact ⟨ht, congrArg PlainScanner.modes hs⟩

end Highlighter
