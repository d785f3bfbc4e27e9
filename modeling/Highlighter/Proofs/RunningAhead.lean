import Highlighter.Proofs.Tiling
import Highlighter.Proofs.UnmatchedOption

/-!
# Running ahead of the tokens

A step may read several tokens, and a scanner that hands them out is already behind
all of them. It is never further ahead: what is pending lies between the token handed
out last and the place of the scanner, without a gap. The mode and the depth are
those behind the match as well, from its first token on.
-/

set_option autoImplicit false

namespace Highlighter

namespace Scanner

section

variable {g : Grammar} {first s u v : Scanner g} {t : Token} {handed rest : List Token}

/-- The last step was taken from `u`; of the tokens that it read, those in `handed` are
handed out and the other ones are pending. -/
structure Behind (u s : Scanner g) (handed : List Token) : Prop where
  fresh : u.pending = []
  notEnd : u.atEnd ≠ true
  tokens : u.step.value.pending = handed ++ s.pending
  same : s.withoutPending = u.step.value.withoutPending

theorem behind_step (hp : s.pending = []) (he : s.atEnd ≠ true) : s.Behind s.step.value [] :=
  ⟨hp, he, rfl, rfl⟩

theorem Behind.handOut (h : u.Behind s handed) (hp : s.pending = t :: rest) :
    u.Behind { s with pending := rest } (handed ++ [t]) where
  fresh := h.fresh
  notEnd := h.notEnd
  tokens := by
    rw [h.tokens, hp]
    simp
  same := h.same

theorem Behind.status (h : u.Behind s handed) : s.status = u.step.value.status :=
  calc s.status = s.withoutPending.status := rfl
    _ = u.step.value.withoutPending.status := by rw [h.same]
    _ = u.step.value.status := rfl

/-- Where tokens are pending, they are those of the last step. -/
theorem Reachable.behind (h : Reachable first s) (hf : first.pending = []) :
    s.pending = [] ∨ ∃ u handed, Reachable first u ∧ u.Behind s handed := by
  induction h with
  | start => exact .inl hf
  | @step s hs hp he _ => exact .inr ⟨s, [], hs, behind_step hp he⟩
  | @handOut s t rest _ hp ih =>
    obtain ⟨u, handed, hu, hb⟩ := ih.resolve_left (by simp [hp])
    exact .inr ⟨u, handed ++ [t], hu, hb.handOut hp⟩

theorem Reachable.next_behind (h : Reachable first s) (hf : first.pending = [])
    (hn : s.next.value = (some t, v)) :
    ∃ u handed, Reachable first u ∧ u.Behind v (handed ++ [t]) := by
  induction s using next_induction with
  | pending s p rest hp =>
    obtain ⟨u, handed, hu, hb⟩ := (h.behind hf).resolve_left (by simp [hp])
    rw [next_pending hp] at hn
    cases hn
    exact ⟨u, handed, hu, hb.handOut hp⟩
  | ended s hp he =>
    rw [next_end hp he] at hn
    cases hn
  | step s hp he ih =>
    rw [next_step hp he] at hn
    exact ih (h.step hp he) hn

inductive Produces (u : Scanner g) (t : Token) : Status → Prop
  | matched {hit : Hit} : (firstMatch u.cursor (g.rulesIn u.mode) u.outlooks).1 = some hit →
      t ∈ hit.rule.reading.tokens g.vocabulary hit.found → t.category ≠ .unmatched →
      Produces u t ((hit.rule.move.lead (u.mode, u.outer)).statusAt hit.found.stop)
  | unmatched : (firstMatch u.cursor (g.rulesIn u.mode) u.outlooks).1 = none →
      t = u.cursor.tokenTo u.cursor.advance .unmatched →
      Produces u t (Modes.statusAt (u.mode, u.outer) u.cursor.advance)

end

variable {d : Dialect} {u v : Scanner (.ofDialect d)} {t : Token} {handed : List Token}

/-- Nothing that is read in a match is in the category of unmatched text. -/
theorem matched_of_hit {m : Mode} {c : Cursor} {hit : Hit} (hne : c.rest ≠ [])
    (hf : firstHit? c ((Grammar.ofDialect d).rulesIn m) = some hit)
    (ht : t ∈ hit.rule.reading.tokens (Grammar.ofDialect d).vocabulary hit.found) :
    t.category ≠ .unmatched := by
  obtain ⟨l, hl⟩ := lexeme_of_rest d m hne
  rcases lexeme_cases hl with ⟨k, pieces, move, hk, rfl, hg⟩ | ⟨_, _, hk, _⟩
  · obtain rfl := Option.some.inj (hk.symm.trans hf)
    rw [vocabulary_ofDialect, hg.tokens] at ht
    have hmatched := matched_tokensAt (matched_lexeme hl) _ t ht
    simpa [Token.isMatched, Category.isMatched] using hmatched
  · cases hk.symm.trans hf

theorem produces_of_mem (hi : u.Informed) (he : u.atEnd ≠ true) (ht : t ∈ u.stepTokens) :
    u.Produces t u.step.value.status := by
  have hg := Grammar.numbered_ofDialect d
  have hfirst := (firstMatch_hold (hg u.mode) hi).1
  rw [stepTokens] at ht
  cases hf : firstHit? u.cursor ((Grammar.ofDialect d).rulesIn u.mode) with
  | some hit =>
    rw [hf] at ht hfirst
    rw [status_step_of_hit hg hi hf]
    exact .matched hfirst ht (matched_of_hit (rest_ne_nil he) hf ht)
  | none =>
    rw [hf] at ht hfirst
    rw [status_step_of_no_hit hg hi he hf]
    refine .unmatched hfirst ?_
    cases hk : u.keepUnmatched with
    | false => simp [hk] at ht
    | true => simpa [hk] using ht

theorem Behind.stepTokens (h : u.Behind v (handed ++ [t])) (hi : u.Informed) :
    u.stepTokens = handed ++ t :: v.pending := by
  have hp := pending_step (Grammar.numbered_ofDialect d) hi h.notEnd
  rw [h.fresh, List.nil_append, h.tokens, List.append_assoc] at hp
  exact hp.symm

/-- What is pending lies between the token handed out last and the scanner. -/
theorem Behind.laid (h : u.Behind v (handed ++ [t])) (hi : u.Informed) :
    ∃ c : Cursor, c.offset = t.span.stop ∧ Laid false c v.pending v.cursor := by
  have htokens := h.stepTokens hi
  have hlaid := stepTokens_adjoin (Grammar.numbered_ofDialect d) (lossless_ofDialect d) hi
    h.notEnd (by simp [htokens])
  have hcursor : u.step.value.cursor = v.cursor := (congrArg Scanner.cursor h.same).symm
  rw [htokens, hcursor] at hlaid
  exact hlaid.behind

/-- A scanner that has handed out a token is ahead of it by the tokens that are pending
and by nothing else: they adjoin from the end of the token to the place of the scanner.
All of them were read by one step, and the mode, the depth and the place are those to
which the rule of that step has led; a character that no rule takes leads to no other
mode. -/
theorem next_ahead {keep : Bool} {source : String} {s v : Scanner (.ofDialect d)} {t : Token}
    (hs : Reachable (.onText (.ofDialect d) keep source) s) (hn : s.next.value = (some t, v)) :
    Adjoin t.span.stop v.pending v.status.position ∧
    (v.status.position = t.span.stop ↔ v.pending = []) ∧
    ∃ u handed, Reachable (.onText (.ofDialect d) keep source) u ∧ u.Behind v (handed ++ [t]) ∧
      u.Produces t v.status := by
  obtain ⟨u, handed, hu, hb⟩ := hs.next_behind rfl hn
  have hi := hu.informed_ofDialect
  obtain ⟨c, hc, hlaid⟩ := hb.laid hi
  rw [← hc]
  refine ⟨hlaid.adjoin, hlaid.offset_eq_iff, u, handed, hu, hb, ?_⟩
  rw [hb.status]
  exact produces_of_mem hi hb.notEnd (by simp [hb.stepTokens hi])

/-- The first token of a match that enters a block, behind a quote that no rule takes. -/
theorem next_ahead_opener :
    let start : Scanner (.ofDialect .current) := .onText _ false "\"textblock a\nb"
    let opener : Token := ⟨.keyword, "textblock", ⟨1, 10⟩⟩
    let v := start.next.value.2
    start.next.value.1 = some opener ∧
      v.pending = [⟨.whitespace, " ", ⟨10, 11⟩⟩, ⟨.name, "a\n", ⟨11, 13⟩⟩] ∧
      v.status = ⟨.block, 2, 13, some 'b', false⟩ ∧
      Adjoin 10 v.pending v.status.position ∧
      ∃ u handed, Reachable start u ∧ u.Behind v (handed ++ [opener]) ∧
        u.Produces opener v.status := by
  intro start opener v
  have hopener : start.next.value.1 = some opener := by decide +kernel
  have hpending : v.pending = [⟨.whitespace, " ", ⟨10, 11⟩⟩, ⟨.name, "a\n", ⟨11, 13⟩⟩] := by
    decide +kernel
  have hstatus : v.status = ⟨.block, 2, 13, some 'b', false⟩ := by decide +kernel
  have hnext : start.next.value = (some opener, v) := Prod.ext hopener rfl
  obtain ⟨hadjoin, _, hread⟩ := next_ahead .start hnext
  exact ⟨hopener, hpending, hstatus, hadjoin, hread⟩

end Scanner

end Highlighter
