import Mathlib.Data.List.Forall2
import Highlighter.Proofs.Grammar.WordCuts
import Highlighter.Proofs.Scanner.WordSteps

/-!
# Rules and productions

Each rule of the declared grammars is described by one production: it takes
what the production takes, makes the same pieces of it and moves in the same
way. Since the rules of a mode and its productions stand in the same order, the
first rule that takes text at a place is told by the first production that
applies there.
-/

set_option autoImplicit false

namespace Highlighter

open Pattern Declared

/-- The token for a text that is read. -/
theorem Cursor.Reads.tokenTo {c d : Cursor} {xs : List Char} (h : c.Reads xs d) (k : Category) :
    c.tokenTo d k = ⟨k, String.ofList xs, ⟨c.offset, c.offset + Text.bytes xs⟩⟩ := by
  rw [Cursor.tokenTo, h.upTo, h.offset]

theorem tokensAt_cons {c d : Cursor} {xs : List Char} (h : c.Reads xs d) (k : Category)
    (ps : List Piece) :
    tokensAt c.offset ((k, xs) :: ps) = c.tokenTo d k :: tokensAt d.offset ps := by
  rw [tokensAt, h.tokenTo, h.offset]

structure Hit.Gives (hit : Hit) (v : Vocabulary) (c : Cursor) (pieces : List Piece)
    (move : Move) : Prop where
  start : hit.found.start = c
  reads : c.Reads (pieces.flatMap Prod.snd) hit.found.stop
  tokens : hit.rule.reading.tokens v hit.found = tokensAt c.offset pieces
  move : hit.rule.move = move

namespace Production

structure Describes (p : Production) (v : Vocabulary) (r : Rule) : Prop where
  none : ∀ c : Cursor, p.pieces? c.before c.rest = .none → r.pattern.takes? c = .none
  some : ∀ (c : Cursor) (pieces : List Piece), p.pieces? c.before c.rest = .some pieces →
    ∃ m, r.pattern.takes? c = .some m ∧ Hit.Gives ⟨r, m⟩ v c pieces p.move

variable {v : Vocabulary} {r : Rule} {p : Production}

/-- It is enough to look at the paths of the rule, without regard to their order. -/
theorem describes_of_paths (hm : r.move = p.move)
    (sound : ∀ c q, q ∈ r.pattern.paths ⟨c, []⟩ → ∃ pieces,
      p.pieces? c.before c.rest = .some pieces ∧ pieces.flatMap Prod.snd ≠ [] ∧
      c.Reads (pieces.flatMap Prod.snd) q.cursor ∧
      r.reading.tokens v ⟨c, q.cursor, q.captures⟩ = tokensAt c.offset pieces)
    (complete : ∀ (c : Cursor) pieces, p.pieces? c.before c.rest = .some pieces →
      ∃ q, q ∈ r.pattern.paths ⟨c, []⟩) :
    p.Describes v r where
  none c hc := by
    apply takes_of_no_path
    intro q hq
    obtain ⟨pieces, hp, _⟩ := sound c q hq
    simp [hc] at hp
  some c pieces hc := by
    obtain ⟨q, hq⟩ := complete c pieces hc
    obtain ⟨m, hm'⟩ := takes_of_path hq fun q hq => by
      obtain ⟨_, _, hne, hr, _⟩ := sound c q hq
      exact hr.offset_lt hne
    obtain ⟨hs, hmem⟩ := path_of_matchAt (takes_eq_some hm').1
    obtain ⟨pieces', hp, _, hr, ht⟩ := sound c _ hmem
    obtain rfl := Option.some.inj (hp.symm.trans hc)
    obtain ⟨start, stop, captures⟩ := m
    obtain rfl : start = c := hs
    exact ⟨_, hm', rfl, hr, ht, hm⟩

theorem describes_single {category : List Char → Category} {cut : Cut} {move : Move}
    (hm : r.move = move)
    (hk : ∀ m, r.reading.tokens v m = [m.start.tokenTo m.stop (category m.chars)])
    (hc : r.pattern.Cuts cut) (hp : cut.Proper) : (single category cut move).Describes v r := by
  refine describes_of_paths hm ?_ ?_
  · intro c q hq
    obtain ⟨xs, hx, hg⟩ := (hc c q).mp hq
    refine ⟨[(category xs, xs)], Option.map_eq_some_iff.mpr ⟨xs, hx, rfl⟩, ?_, ?_, ?_⟩
    · simpa using (hp _ _ _ hx).2
    · simpa using hg.1
    · rw [hk, tokensAt_cons hg.1, Match.chars, hg.1.upTo]
      rfl
  · intro c pieces h
    obtain ⟨xs, hx, rfl⟩ := Option.map_eq_some_iff.mp h
    obtain ⟨rest, hr⟩ := (hp _ _ _ hx).1
    obtain ⟨d, hd, _⟩ := Cursor.exists_reads hr.symm
    exact ⟨⟨d, []⟩, (hc c _).mpr ⟨xs, hx, hd, rfl⟩⟩

theorem describes_whole {k : Category} {cut : Cut} {move : Move} (hm : r.move = move)
    (hk : r.reading = .whole k) (hc : r.pattern.Cuts cut) (hp : cut.Proper) :
    (whole k cut move).Describes v r := by
  apply describes_single hm _ hc hp
  intro m
  rw [hk, Reading.tokens]

theorem describes_identifier : (identifier v).Describes v Declared.identifier :=
  describes_single rfl (fun _ => rfl) cuts_identifier (Cut.proper_word _)

end Production

end Highlighter
