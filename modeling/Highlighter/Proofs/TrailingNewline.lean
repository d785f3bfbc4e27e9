import Highlighter.Proofs.Grammar.FinalNewline
import Highlighter.Proofs.Scanner.LexemeRuns

/-!
# A trailing newline

One more newline at the end of a text is either taken by the last lexeme, or
passed over behind it. All other lexemes stay as they are, and so do the modes
in which the scan ends.
-/

set_option autoImplicit false

namespace Highlighter

variable {d : Dialect}

namespace Lexeme

inductive Extends : Lexeme → Lexeme → Prop
  | taken {init : List Piece} {k : Category} {xs : List Char} {move : Move} :
      Extends (.taken (init ++ [(k, xs)]) move) (.taken (init ++ [(k, xs ++ ['\n'])]) move)

variable {l k : Lexeme}

theorem Extends.chars (h : l.Extends k) : k.chars = l.chars ++ ['\n'] := by
  cases h
  simp [Lexeme.chars]

theorem Extends.move (h : l.Extends k) : k.move = l.move := by
  cases h
  rfl

end Lexeme

theorem stable_productions (d : Dialect) (m : Mode) : ∀ p ∈ productions d m, p.Stable :=
  fun _ hp => (inUse_productions hp).stable

theorem taken_newline {ps : List Production} (h : ∀ p ∈ ps, p.Stable) (before rest : List Char) :
    taken? ps before (rest ++ ['\n']) = taken? ps before rest ∨
      ∃ l k, taken? ps before rest = some l ∧ taken? ps before (rest ++ ['\n']) = some k ∧
        l.Extends k ∧ l.chars = rest := by
  induction ps with
  | nil => exact .inl rfl
  | cons p ps ih =>
    obtain ⟨hp, hps⟩ := List.forall_mem_cons.mp h
    rw [taken_cons, taken_cons]
    rcases hp before rest with hs | ⟨init, k, xs, hs, hn, hr⟩
    · rw [hs]
      cases p.pieces? before rest with
      | some pieces => exact .inl rfl
      | none => exact ih hps
    · rw [hs, hn]
      exact .inr ⟨_, _, rfl, rfl, .taken, by simpa [Lexeme.chars] using hr⟩

theorem lexeme_newline (m : Mode) (before : List Char) {rest : List Char} (hne : rest ≠ []) :
    lexeme? d m before (rest ++ ['\n']) = lexeme? d m before rest ∨
      ∃ l k, lexeme? d m before rest = some l ∧ lexeme? d m before (rest ++ ['\n']) = some k ∧
        l.Extends k ∧ l.chars = rest := by
  rcases taken_newline (stable_productions d m) before rest with ht | ⟨l, k, hl, hk, he, hr⟩
  · left
    rw [lexeme?, lexeme?, ht, List.head?_append_of_ne_nil _ hne]
  · exact .inr ⟨l, k, by rw [lexeme?, hl]; rfl, by rw [lexeme?, hk]; rfl, he, hr⟩

/-- At the end of the text nothing takes the newline. -/
theorem lexeme_newline_end (m : Mode) {c : Cursor} (hc : c.rest = []) :
    lexeme? d m c.before ['\n'] = some (.passed '\n') := by
  have hn := lexeme_end (d := d) (m := m) hc
  rw [hc, lexeme?, Option.or_eq_none_iff] at hn
  rcases taken_newline (stable_productions d m) c.before [] with ht | ⟨l, k, hl, _⟩
  · rw [List.nil_append, hn.1] at ht
    rw [lexeme?, ht]
    rfl
  · simp [hl] at hn

def Cursor.extended (c : Cursor) : Cursor := { c with rest := c.rest ++ ['\n'] }

theorem Cursor.extended_past {c : Cursor} {xs : List Char} (h : xs <+: c.rest) :
    c.extended.past xs = (c.past xs).extended :=
  eq_of_halves rfl (List.drop_append_of_le_length h.length_le)

/-- Up to the last lexeme all are the same with one more newline. -/
theorem lexemes_newline (ms : Modes) (c : Cursor) :
    lexemes d ms c.extended = lexemes d ms c ++ [.passed '\n'] ∨
      ∃ ls l k, lexemes d ms c = ls ++ [l] ∧ lexemes d ms c.extended = ls ++ [k] ∧ l.Extends k := by
  -- On the text that is left: a lexeme before the end is the same on both sides,
  -- so both go on from the same place in the same modes.
  induction hn : c.rest.length using Nat.strongRecOn generalizing c ms with
  | ind n ih =>
    by_cases hc : c.rest = []
    · left
      have hrest : c.extended.rest = ['\n'] := by rw [Cursor.extended, hc]; rfl
      have hl : lexeme? d ms.1 c.extended.before c.extended.rest = some (.passed '\n') := by
        rw [hrest]
        exact lexeme_newline_end ms.1 (c := c) hc
      rw [lexemes_end hc, lexemes_last hl hrest.symm]
      rfl
    · rcases lexeme_newline ms.1 c.before hc with hs | ⟨l, k, hl, hk, he, hr⟩
      · obtain ⟨l, hl⟩ := lexeme_of_rest d ms.1 hc
        have hk : lexeme? d ms.1 c.extended.before c.extended.rest = some l := hs.trans hl
        rw [lexemes_of_lexeme ms hl, lexemes_of_lexeme ms hk,
          Cursor.extended_past ⟨_, (lexeme_reads hl).1.1.symm⟩]
        rcases ih _ (hn ▸ lexeme_length_lt hl) (l.move.lead ms) (c.past l.chars) rfl with
          hi | ⟨ls, u, v, hu, hv, he⟩
        · exact .inl (by rw [hi]; rfl)
        · exact .inr ⟨l :: ls, u, v, by rw [hu]; rfl, by rw [hv]; rfl, he⟩
      · right
        have hk : lexeme? d ms.1 c.extended.before c.extended.rest = some k := hk
        exact ⟨[], l, k, lexemes_last hl hr, lexemes_last hk (by rw [he.chars, hr]; rfl), he⟩

theorem Lexeme.Extends.lead {l k : Lexeme} (h : l.Extends k) (ms : Modes) (ls : List Lexeme) :
    Lexeme.lead ms (ls ++ [k]) = Lexeme.lead ms (ls ++ [l]) := by
  simp [Lexeme.lead, h.move]

theorem lead_newline (ms : Modes) (c : Cursor) :
    Lexeme.lead ms (lexemes d ms c.extended) = Lexeme.lead ms (lexemes d ms c) := by
  rcases lexemes_newline (d := d) ms c with h | ⟨ls, l, k, hl, hk, he⟩
  · rw [h, Lexeme.lead_append]
    rfl
  · rw [hl, hk, he.lead]

def Token.extended (t : Token) : Token :=
  { t with text := t.text.push '\n', span := { t.span with stop := t.span.stop + 1 } }

theorem tokensAt_append (n : Nat) (ps qs : List Piece) :
    tokensAt n (ps ++ qs) =
      tokensAt n ps ++ tokensAt (n + Text.bytes (ps.flatMap Prod.snd)) qs := by
  induction ps generalizing n with
  | nil => rfl
  | cons p ps ih =>
    rw [List.cons_append, tokensAt, tokensAt, ih, List.flatMap_cons, Text.bytes_append,
      Nat.add_assoc, List.cons_append]

/-- A lexeme with one more newline has the same tokens, the last one extended. -/
theorem Lexeme.Extends.tokens {l k : Lexeme} (h : l.Extends k) (keep : Bool) (n : Nat) :
    ∃ front last, tokensAt n (l.shown keep) = front ++ [last] ∧
      tokensAt n (k.shown keep) = front ++ [last.extended] := by
  cases h with
  | @taken init c xs move =>
    refine ⟨_, _, tokensAt_append n init [(c, xs)], ?_⟩
    have ht : String.ofList (xs ++ ['\n']) = (String.ofList xs).push '\n' :=
      String.toList_inj.mp (by simp)
    rw [shown, tokensAt_append, tokensAt, tokensAt, ht, Text.bytes_append, ← Nat.add_assoc]
    rfl

theorem Cursor.ofText_push (source : String) :
    ofText (source.push '\n') = (ofText source).extended :=
  eq_of_halves rfl (by simp [ofText, ofChars, extended])

/-- A newline at the end of a text becomes a part of the last token, or is passed
over. The rest of the tokens and the modes at the end stay as they are. -/
theorem scan_newline (d : Dialect) (keep : Bool) (source : String) :
    let r := scan (.ofDialect d) keep source
    let r' := scan (.ofDialect d) keep (source.push '\n')
    r'.value.2.mode = r.value.2.mode ∧ r'.value.2.depth = r.value.2.depth ∧
      ((∃ front last, r.value.1 = front ++ [last] ∧ r'.value.1 = front ++ [last.extended]) ∨
        r'.value.1 = r.value.1 ++ if keep then [⟨.unmatched, "\n",
          ⟨source.utf8ByteSize, source.utf8ByteSize + 1⟩⟩] else []) := by
  intro r r'
  obtain ⟨ht, hm⟩ := scan_lexemes d keep source
  obtain ⟨ht', hm'⟩ := scan_lexemes d keep (source.push '\n')
  rw [Cursor.ofText_push] at ht' hm'
  have hmodes : r'.value.2.plain.modes = r.value.2.plain.modes :=
    hm'.trans ((lead_newline _ _).trans hm.symm)
  refine ⟨congrArg Prod.fst hmodes, congrArg (fun ms : Modes => ms.2.length + 1) hmodes, ?_⟩
  rcases lexemes_newline (d := d) (.root, []) (.ofText source) with h | ⟨ls, l, k, hl, hk, he⟩
  · right
    have hb : Text.bytes (Lexeme.allChars (lexemes d (.root, []) (.ofText source))) =
        source.utf8ByteSize := by
      rw [lexemes_chars, ← Text.utf8ByteSize_ofList]
      exact congrArg String.utf8ByteSize String.ofList_toList
    rw [show r'.value.1 = _ from ht', show r.value.1 = _ from ht, h, Lexeme.tokens_append, hb,
      Nat.zero_add]
    cases keep <;> rfl
  · left
    obtain ⟨front, last, hlast, hlast'⟩ := he.tokens keep (0 + Text.bytes (Lexeme.allChars ls))
    refine ⟨Lexeme.tokens keep 0 ls ++ front, last, ?_, ?_⟩
    · rw [show r.value.1 = _ from ht, hl, Lexeme.tokens_append, Lexeme.tokens, hlast, Lexeme.tokens]
      simp
    · rw [show r'.value.1 = _ from ht', hk, Lexeme.tokens_append, Lexeme.tokens, hlast',
        Lexeme.tokens]
      simp

end Highlighter
