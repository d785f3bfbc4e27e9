import Highlighter.Proofs.Grammar.Inventory
import Highlighter.Proofs.Scanner.LexemeRuns

/-!
# The option for unmatched characters

The lexemes of a text do not depend on the option, and no production makes a
token for unmatched text. So the option adds tokens of one character each and
has no other effect: the places, the modes and the log of a run stay the same.
-/

set_option autoImplicit false

namespace Highlighter

variable {d : Dialect}

def Token.isMatched (t : Token) : Bool := t.category.isMatched

def Lexeme.Matched : Lexeme → Prop
  | taken pieces _ => ∀ p ∈ pieces, p.1.isMatched = true
  | passed _ => True

theorem Vocabulary.isMatched_classify (v : Vocabulary) (word : String) :
    (v.classify word).isMatched = true := by
  unfold classify
  split
  · rfl
  · split <;> rfl

theorem Production.InUse.matched {p : Production} (h : p.InUse) {before rest : List Char}
    {pieces : List Piece} (hp : p.pieces? before rest = some pieces) :
    ∀ piece ∈ pieces, piece.1.isMatched = true := by
  cases h with
  | whole hk _ =>
    obtain ⟨xs, _, rfl⟩ := Option.map_eq_some_iff.mp hp
    simpa using hk
  | identifier =>
    obtain ⟨xs, _, rfl⟩ := Option.map_eq_some_iff.mp hp
    simp [Vocabulary.isMatched_classify]
  | labelledOpener =>
    simp only [Production.labelledOpener, Option.ite_none_right_eq_some,
      Option.map_eq_some_iff] at hp
    obtain ⟨_, tail, _, rfl⟩ := hp
    simp [Category.isMatched]
  | remoteCall =>
    simp only [Production.remoteCall, Option.ite_none_right_eq_some, Option.some.injEq] at hp
    obtain ⟨_, rfl⟩ := hp
    simp [Category.isMatched]

theorem matched_lexeme {m : Mode} {before rest : List Char} {l : Lexeme}
    (h : lexeme? d m before rest = some l) : l.Matched := by
  rcases lexeme_origin h with ⟨p, hp, pieces, hs, rfl⟩ | ⟨_, x, after, _, rfl⟩
  · exact (inUse_productions hp).matched hs
  · trivial

theorem matched_lexemes (ms : Modes) (c : Cursor) : ∀ l ∈ lexemes d ms c, l.Matched := by
  fun_induction lexemes d ms c with
  | case1 => simp
  | case2 ms c l h ih => exact List.forall_mem_cons.mpr ⟨matched_lexeme h, ih⟩

theorem matched_tokensAt {pieces : List Piece} (h : ∀ p ∈ pieces, p.1.isMatched = true) (n : Nat) :
    ∀ t ∈ tokensAt n pieces, t.isMatched = true := by
  induction pieces generalizing n with
  | nil => simp [tokensAt]
  | cons p pieces ih =>
    obtain ⟨hp, hps⟩ := List.forall_mem_cons.mp h
    exact List.forall_mem_cons.mpr ⟨hp, ih hps _⟩

namespace Lexeme

variable {l : Lexeme} {ls : List Lexeme}

/-- Without the option the unmatched tokens of a lexeme are missing, and only these. -/
theorem tokensAt_shown (h : l.Matched) (n : Nat) :
    tokensAt n (l.shown false) = (tokensAt n (l.shown true)).filter Token.isMatched := by
  cases l with
  | taken pieces move => exact (List.filter_eq_self.mpr (matched_tokensAt h n)).symm
  | passed x => rfl

theorem tokens_filter (h : ∀ l ∈ ls, l.Matched) (n : Nat) :
    tokens false n ls = (tokens true n ls).filter Token.isMatched := by
  induction ls generalizing n with
  | nil => rfl
  | cons l ls ih =>
    obtain ⟨hl, hls⟩ := List.forall_mem_cons.mp h
    rw [tokens, tokens, List.filter_append, tokensAt_shown hl, ih hls]

theorem unmatched_length (h : ∀ l ∈ ls, l.Matched) (keep : Bool) (n : Nat) :
    ∀ t ∈ tokens keep n ls, t.isMatched = false → t.text.length = 1 := by
  induction ls generalizing n with
  | nil => simp [tokens]
  | cons l ls ih =>
    obtain ⟨hl, hls⟩ := List.forall_mem_cons.mp h
    intro t ht hu
    rcases List.mem_append.mp ht with ht | ht
    · cases l with
      | taken pieces move => simp [matched_tokensAt hl n t ht] at hu
      | passed x =>
        cases keep with
        | false => simp [shown, tokensAt] at ht
        | true =>
          obtain rfl : t = _ := by simpa [shown, tokensAt] using ht
          exact String.length_singleton
    · exact ih hls _ t ht hu

end Lexeme

/-- The option adds tokens of one unmatched character each. Without them the
tokens, the place where the scan ends, and the log are as without the option. -/
theorem scan_keepUnmatched (d : Dialect) (source : String) :
    let off := scan (.ofDialect d) false source
    let on := scan (.ofDialect d) true source
    off.value.1 = on.value.1.filter (fun t => t.category != .unmatched) ∧
      (∀ t ∈ on.value.1, t.category = .unmatched → t.text.length = 1) ∧
      (∀ t ∈ off.value.1, t.category ≠ .unmatched) ∧
      off.value.2.status = on.value.2.status ∧ off.records = on.records := by
  intro off on
  obtain ⟨hft, hfs, hfr⟩ :=
    Scanner.drain_lexemes (Scanner.informed_onText (.ofDialect d) false source)
  obtain ⟨hnt, hns, hnr⟩ :=
    Scanner.drain_lexemes (Scanner.informed_onText (.ofDialect d) true source)
  have hm := matched_lexemes (d := d) (.root, []) (.ofText source)
  have hfilter : off.value.1 = on.value.1.filter Token.isMatched := by
    rw [show off.value.1 = _ from hft, show on.value.1 = _ from hnt]
    exact Lexeme.tokens_filter hm 0
  refine ⟨hfilter, ?_, ?_, ?_, hfr.trans hnr.symm⟩
  · intro t ht hu
    rw [show on.value.1 = _ from hnt] at ht
    exact Lexeme.unmatched_length hm true 0 t ht (by simp [Token.isMatched, Category.isMatched, hu])
  · intro t ht
    have hk := (List.mem_filter.mp (hfilter ▸ ht)).2
    simpa [Token.isMatched, Category.isMatched] using hk
  · exact (congrArg PlainScanner.status hfs).trans (congrArg PlainScanner.status hns).symm

end Highlighter
