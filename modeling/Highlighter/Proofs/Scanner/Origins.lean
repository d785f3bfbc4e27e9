import Highlighter.Proofs.Scanner.Lookahead

/-!
# Where tokens come from

The tokens of a scan are those that the steps from its reachable places read,
and no others. So what holds of the tokens of every step holds of every token,
and a step that goes wrong is seen in the tokens.
-/

set_option autoImplicit false

namespace Highlighter

namespace Scanner

variable {g : Grammar}

theorem not_atEnd {s : Scanner g} (h : s.cursor.rest ≠ []) : s.atEnd ≠ true := by
  simpa [atEnd, Cursor.atEnd] using h

def stepTokens (s : Scanner g) : List Token :=
  match firstHit? s.cursor (g.rulesIn s.mode) with
  | some hit => hit.rule.reading.tokens g.vocabulary hit.found
  | none => if s.keepUnmatched then [s.cursor.tokenTo s.cursor.advance .unmatched] else []

theorem stepTokens_of_hit {s : Scanner g} {hit : Hit}
    (h : firstHit? s.cursor (g.rulesIn s.mode) = some hit) :
    s.stepTokens = hit.rule.reading.tokens g.vocabulary hit.found := by
  rw [stepTokens, h]

theorem pending_step (hg : g.Numbered) {s : Scanner g} (h : s.Informed) (he : s.atEnd ≠ true) :
    s.step.value.pending = s.pending ++ s.stepTokens := by
  rcases step_cases hg h with ⟨hit, hf, hs⟩ | ⟨hf, hs⟩
  · rw [stepTokens_of_hit hf]
    exact (congrArg (fun l => l.value.pending) hs).trans (PlainScanner.pending_take s.plain hit)
  · obtain ⟨x, rest, hx⟩ := List.exists_cons_of_ne_nil (rest_ne_nil he)
    rw [PlainScanner.passOver_of_rest (s := s.plain) hx] at hs
    rw [stepTokens, hf]
    exact congrArg (fun l => l.value.pending) hs

theorem keepUnmatched_step (hg : g.Numbered) {s : Scanner g} (h : s.Informed)
    (he : s.atEnd ≠ true) : s.step.value.keepUnmatched = s.keepUnmatched := by
  rcases step_cases hg h with ⟨hit, _, hs⟩ | ⟨_, hs⟩
  · exact (congrArg (fun l => l.value.keepUnmatched) hs).trans
      (PlainScanner.keepUnmatched_take s.plain hit)
  · obtain ⟨x, rest, hx⟩ := List.exists_cons_of_ne_nil (rest_ne_nil he)
    rw [PlainScanner.passOver_of_rest (s := s.plain) hx] at hs
    exact congrArg (fun l => l.value.keepUnmatched) hs

theorem mem_drain_of_pending {s : Scanner g} {t : Token} (h : t ∈ s.pending) :
    t ∈ s.drain.value.1 := by
  by_cases he : s.atEnd = true
  · rw [drain_end he]
    exact h
  · rw [drain_step he]
    exact List.mem_append_left _ h

theorem Reachable.reaches {first s : Scanner g} (h : Reachable first s) :
    first.cursor.Reaches s.cursor := by
  induction h with
  | start => exact Cursor.reaches_refl _
  | step _ _ _ ih => exact ih.trans (step_reaches _)
  | handOut _ _ ih => exact ih

end Scanner

/-- A token is in the scan exactly if a step from a reachable place reads it. -/
theorem mem_scan {g : Grammar} (hg : g.Numbered) {keep : Bool} {source : String} {t : Token} :
    t ∈ (scan g keep source).value.1 ↔
      ∃ s, Scanner.Reachable (.onText g keep source) s ∧ s.atEnd ≠ true ∧ t ∈ s.stepTokens := by
  have hi := Scanner.informed_onText g keep source
  constructor
  · intro ht
    rcases Scanner.mem_drain .start ht with hp | ⟨s, hs, hp, he, ht⟩
    · simp [Scanner.onText, Scanner.onChars] at hp
    · rw [Scanner.pending_step hg (hs.informed hg hi) he, hp] at ht
      exact ⟨s, hs, he, ht⟩
  · rintro ⟨s, hs, he, ht⟩
    have hw := hs.withoutPending
    have hp := Scanner.pending_step hg (hw.informed hg hi) he
    have hd : t ∈ s.withoutPending.step.value.drain.value.1 := by
      apply Scanner.mem_drain_of_pending
      rw [hp]
      exact ht
    obtain ⟨handed, _, hh, _⟩ := (hw.step rfl he).drain_suffix
    rw [scan, hh]
    exact List.mem_append_right _ hd

end Highlighter
