import Highlighter.Proofs.Grammar.Described
import Highlighter.Proofs.Grammar.Inventory

/-!
# Looking back

Of the text before a place the productions ask one thing: whether it ends in a
word character. Two places with the same text in front, of which this is true of
both or of none, are given the same lexeme.
-/

set_option autoImplicit false

namespace Highlighter

open Cursor (startsWithWord)

variable {before other : List Char}

namespace Cut

def LooksBack (cut : Cut) : Prop := ∀ before other rest,
  startsWithWord before = startsWithWord other → cut before rest = cut other rest

theorem InUse.looksBack {cut : Cut} (h : cut.InUse) : cut.LooksBack := by
  intro before other rest hb
  cases h with
  | literal _ => rfl
  | oneOf _ => rfl
  | restOfLine _ => rfl
  | between _ => rfl
  | word => simp only [Cut.word, hb]
  | hexadecimal => simp only [Cut.hexadecimal, hb]
  | bareOpener => simp only [Cut.bareOpener, hb]
  | bodyLine => rfl

end Cut

theorem Production.InUse.looksBack {p : Production} (h : p.InUse)
    (hb : startsWithWord before = startsWithWord other) (rest : List Char) :
    p.pieces? before rest = p.pieces? other rest := by
  cases h with
  | whole _ hc => rw [whole_pieces, whole_pieces, hc.looksBack before other rest hb]
  | identifier =>
    simp only [Production.identifier, single, Cut.InUse.word.looksBack before other rest hb]
  | labelledOpener => simp only [Production.labelledOpener, hb]
  | remoteCall => rfl

theorem taken_lookBack {ps : List Production} (h : ∀ p ∈ ps, p.InUse)
    (hb : startsWithWord before = startsWithWord other) (rest : List Char) :
    taken? ps before rest = taken? ps other rest := by
  induction ps with
  | nil => rfl
  | cons p ps ih =>
    obtain ⟨hp, hps⟩ := List.forall_mem_cons.mp h
    rw [taken_cons, taken_cons, hp.looksBack hb, ih hps]

theorem lexeme_lookBack (d : Dialect) (m : Mode)
    (hb : startsWithWord before = startsWithWord other) (rest : List Char) :
    lexeme? d m before rest = lexeme? d m other rest := by
  rw [lexeme?, lexeme?, taken_lookBack (fun _ hp => inUse_productions hp) hb]

end Highlighter
