import Highlighter.Proofs.Scanner.Readings
import Highlighter.Proofs.Scanner.Refinement

/-!
# Two grammars with the same steps

If a step does the same under two grammars, so does every series of commands.
For the steps it is enough that the productions of the one grammar take at every
place what those of the other take there.
-/

set_option autoImplicit false

namespace Highlighter

variable {g g' : Grammar}

def Grammar.Alike (g g' : Grammar) : Prop :=
  ∀ m, ∃ ps ps', Described g.vocabulary (g.ordered m) ps ∧
    Described g'.vocabulary (g'.ordered m) ps' ∧
    ∀ before rest, taken? ps before rest = taken? ps' before rest

namespace PlainScanner

section

variable {s : PlainScanner g} {ps : List Production}

theorem step_of_taken_some (h : Described g.vocabulary (g.ordered s.mode) ps) {l : Lexeme}
    (ht : taken? ps s.cursor.before s.cursor.rest = some l) : s.step = s.reads l := by
  obtain ⟨hit, pieces, move, hf, rfl, hg⟩ := firstHit_of_taken_some h ht
  rw [step, hf]
  exact take_of_gives hg

theorem step_of_taken_none (h : Described g.vocabulary (g.ordered s.mode) ps)
    (ht : taken? ps s.cursor.before s.cursor.rest = none) : s.step = s.passOver := by
  rw [step, firstHit_of_taken_none h ht]

end

def under (g' : Grammar) (s : PlainScanner g) : PlainScanner g' :=
  ⟨s.keepUnmatched, s.cursor, s.mode, s.outer, s.pending⟩

theorem reads_under (s : PlainScanner g) (l : Lexeme) :
    (s.reads l).map (under g') = (s.under g').reads l := rfl

theorem passOver_under (s : PlainScanner g) :
    s.passOver.map (under g') = (s.under g').passOver := by
  unfold passOver
  rw [show (s.under g').cursor.current? = s.cursor.current? from rfl]
  cases s.cursor.current? <;> rfl

/-- A step is the same under the other grammar. -/
theorem step_under (h : g.Alike g') (s : PlainScanner g) :
    s.step.map (under g') = (s.under g').step := by
  obtain ⟨ps, ps', hps, hps', ht⟩ := h s.mode
  cases hl : taken? ps s.cursor.before s.cursor.rest with
  | some l =>
    have hl' := (ht s.cursor.before s.cursor.rest).symm.trans hl
    rw [step_of_taken_some hps hl, step_of_taken_some (s := s.under g') hps' hl', reads_under]
  | none =>
    have hl' := (ht s.cursor.before s.cursor.rest).symm.trans hl
    rw [step_of_taken_none hps hl, step_of_taken_none (s := s.under g') hps' hl', passOver_under]

theorem next_under (h : g.Alike g') (s : PlainScanner g) :
    s.next.map (fun (t, after) => (t, after.under g')) = (s.under g').next := by
  fun_induction next s with
  | case1 s t rest hp => rw [next_pending (s := s.under g') hp]; rfl
  | case2 s hp he => rw [next_end (s := s.under g') hp he]; rfl
  | case3 s hp he _ ih =>
    rw [next_step (s := s.under g') hp he, ← step_under h, Logged.andThen_map, Logged.andThen, ← ih]
    rfl

theorem drain_under (h : g.Alike g') (s : PlainScanner g) :
    s.drain.map (fun (ts, last) => (ts, last.under g')) = (s.under g').drain := by
  fun_induction drain s with
  | case1 s last hl =>
    rw [drain_next (s.under g'), ← next_under h, Logged.andThen_map, Logged.andThen, hl]
    simp [Logged.map, Logged.silent]
  | case2 s t after hl ih =>
    rw [drain_next (s.under g'), ← next_under h, Logged.andThen_map, Logged.andThen, hl]
    dsimp only
    rw [← ih]
    rfl

end PlainScanner

namespace PlainSession

def under (g' : Grammar) (s : PlainSession g) : PlainSession g' :=
  ⟨s.scanner.under g', s.aside.map (PlainScanner.under g')⟩

theorem perform_under (h : g.Alike g') (s : PlainSession g) (k : Command) :
    (s.perform k).map (fun (answer, after) => (answer, after.under g')) =
      (s.under g').perform k := by
  cases k with
  | next =>
    simp only [perform, under, ← PlainScanner.next_under h]
    rfl
  | drain =>
    simp only [perform, under, ← PlainScanner.drain_under h]
    rfl
  | fork => rfl
  | restore =>
    obtain ⟨scanner, aside⟩ := s
    cases aside <;> rfl

theorem performAll_under (h : g.Alike g') (s : PlainSession g) (ks : List Command) :
    (s.performAll ks).map (fun (answers, last) => (answers, last.under g')) =
      (s.under g').performAll ks := by
  induction ks generalizing s with
  | nil => rfl
  | cons k ks ih =>
    rw [performAll, performAll, ← perform_under h, Logged.andThen_map, Logged.map_andThen]
    apply Logged.andThen_congr
    rcases (s.perform k).value with ⟨answer, after⟩
    change _ = ((after.under g').performAll ks).map _
    rw [← ih]
    rfl

end PlainSession

theorem Session.performAll_fst (hg : g.Numbered) (keep : Bool) (source : String)
    (ks : List Command) :
    ((Session.start (.onText g keep source)).performAll ks).map Prod.fst =
      ((PlainSession.start (.onText g keep source)).performAll ks).map Prod.fst := by
  have hi : (Session.start (.onText g keep source)).Informed :=
    ⟨Scanner.informed_onText _ _ _, by simp [Session.start]⟩
  exact congrArg (Logged.map Prod.fst) (Session.performAll_plain hg hi ks)

/-- Under two grammars that take the same a host gets the same answers, statuses
and records from whatever commands. -/
theorem Session.performAll_alike (h : g.Alike g') (hg : g.Numbered) (hg' : g'.Numbered)
    (keep : Bool) (source : String) (ks : List Command) :
    ((Session.start (.onText g keep source)).performAll ks).map Prod.fst =
      ((Session.start (.onText g' keep source)).performAll ks).map Prod.fst := by
  rw [performAll_fst hg, performAll_fst hg']
  exact congrArg (Logged.map Prod.fst)
    (PlainSession.performAll_under h (PlainSession.start (.onText g keep source)) ks)

end Highlighter
