import Highlighter.Proofs.Grammar.NeutralText
import Highlighter.Proofs.Scanner.LexemeRuns

/-!
# Where the dialects agree

A text in which nothing stands that the dialects treat differently is cut into
the same lexemes by both. So their scanners hand out the same tokens, log the
same records and end in the same status, though their rules have other numbers.
-/

set_option autoImplicit false

namespace Highlighter

theorem lexemes_neutral (ms : Modes) {c : Cursor} (h : Text.Neutral c.chars) :
    lexemes .current ms c = lexemes .legacy ms c := by
  fun_induction lexemes .current ms c with
  | case1 ms c hn => rw [lexemes_none ((lexeme_neutral ms.1 h).symm.trans hn)]
  | case2 ms c l hl ih =>
    have hchars := (lexeme_reads hl).1.chars
    rw [lexemes_of_lexeme ms ((lexeme_neutral ms.1 h).symm.trans hl), ih (hchars ▸ h)]

/-- On a text in which nothing stands that the dialects treat differently, both
give the same tokens and records and end in the same status. -/
theorem scan_neutral (keep : Bool) (source : String) (h : Text.Neutral source.toList) :
    let current := scan (.ofDialect .current) keep source
    let legacy := scan (.ofDialect .legacy) keep source
    current.value.1 = legacy.value.1 ∧ current.records = legacy.records ∧
      current.value.2.status = legacy.value.2.status := by
  intro current legacy
  obtain ⟨ht, hr, hs⟩ := scan_read .current keep source
  obtain ⟨ht', hr', hs'⟩ := scan_read .legacy keep source
  have hl : lexemes .current (.root, []) (.ofText source) =
      lexemes .legacy (.root, []) (.ofText source) := lexemes_neutral (.root, []) h
  rw [hl] at ht hr hs
  exact ⟨ht.trans ht'.symm, hr.trans hr'.symm, hs.trans hs'.symm⟩

/-- A reserved word, a number, a name with a capital in it, a comment, a newline
that no rule takes, and a block. -/
theorem scan_neutral_block :
    let source := "if 12 aB//x\n\ntextblock b"
    Text.Neutral source.toList ∧
      (scan (.ofDialect .current) true source).value.1.map Token.category =
        [.keyword, .whitespace, .number, .whitespace, .name, .comment, .unmatched, .keyword,
          .whitespace, .name] ∧
      (scan (.ofDialect .current) true source).records =
        [.unmatched .root '\n' 12, .entered .block 13] ∧
      (scan (.ofDialect .current) true source).value.2.status.depth = 2 := by
  intro source
  have h : Text.Neutral source.toList := by decide +kernel
  obtain ⟨ht, hr, hs⟩ := scan_neutral true source h
  refine ⟨h, (congrArg (List.map Token.category) ht).trans ?_, hr.trans ?_,
    (congrArg Status.depth hs).trans ?_⟩ <;> decide +kernel

end Highlighter
