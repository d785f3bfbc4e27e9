import Highlighter.Proofs.Scanner.Lookahead

/-!
# Knowledge never changes a result

A scanner and the scanner that knows nothing go through any series of commands
alike: the tokens, the status after each command and the log are the same.
-/

set_option autoImplicit false

namespace Highlighter

variable {g : Grammar}

namespace Scanner

theorem next_plain (hg : g.Numbered) {s : Scanner g} (h : s.Informed) :
    s.next.map (fun (t, after) => (t, after.plain)) = s.plain.next ∧
      s.next.value.2.Informed := by
  induction s using next_induction with
  | pending s t rest hp =>
    rw [next_pending hp, PlainScanner.next_pending (s := s.plain) hp]
    exact ⟨rfl, h⟩
  | ended s hp he =>
    rw [next_end hp he, PlainScanner.next_end (s := s.plain) hp he]
    exact ⟨rfl, h⟩
  | step s hp he ih =>
    obtain ⟨hs, hi⟩ := step_plain hg h
    obtain ⟨hx, hk⟩ := ih hi
    rw [next_step hp he, PlainScanner.next_step (s := s.plain) hp he, ← hs,
      Logged.andThen_map, Logged.map_andThen]
    exact ⟨Logged.andThen_congr hx, hk⟩

theorem drain_plain (hg : g.Numbered) {s : Scanner g} (h : s.Informed) :
    s.drain.map (fun (ts, last) => (ts, last.plain)) = s.plain.drain ∧
      s.drain.value.2.Informed := by
  obtain ⟨p, hp⟩ : ∃ p, s.plain = p := ⟨_, rfl⟩
  rw [hp]
  fun_induction PlainScanner.drain p generalizing s with
  | case1 p last hl =>
    obtain ⟨hx, hi⟩ := next_plain hg h
    rw [hp] at hx
    rw [drain_next]
    rcases hs : s.next with ⟨⟨t, after⟩, records⟩
    rw [hs] at hx hi
    rw [← hx] at hl
    obtain ⟨rfl, rfl⟩ := Prod.mk.inj hl
    refine ⟨?_, hi⟩
    rw [← hx]
    simp [Logged.andThen, Logged.silent, Logged.map]
  | case2 p t after hl ih =>
    obtain ⟨hx, hi⟩ := next_plain hg h
    rw [hp] at hx
    rw [drain_next]
    rcases hs : s.next with ⟨⟨u, rest⟩, records⟩
    rw [hs] at hx hi
    rw [← hx] at hl
    obtain ⟨rfl, hr⟩ := Prod.mk.inj hl
    obtain ⟨hd, hk⟩ := ih hi hr
    refine ⟨?_, hk⟩
    rw [← hx, ← hd]
    rfl

end Scanner

namespace Session

def plain (s : Session g) : PlainSession g := ⟨s.scanner.plain, s.aside.map Scanner.plain⟩

def Informed (s : Session g) : Prop := s.scanner.Informed ∧ ∀ copy ∈ s.aside, copy.Informed

theorem perform_plain (hg : g.Numbered) {s : Session g} (h : s.Informed) (k : Command) :
    (s.perform k).map (fun (answer, after) => (answer, after.plain)) = s.plain.perform k ∧
      (s.perform k).value.2.Informed := by
  obtain ⟨hs, ha⟩ := h
  cases k with
  | next =>
    obtain ⟨hx, hi⟩ := Scanner.next_plain hg hs
    refine ⟨?_, hi, ha⟩
    simp only [PlainSession.perform, plain, ← hx]
    rfl
  | drain =>
    obtain ⟨hx, hi⟩ := Scanner.drain_plain hg hs
    refine ⟨?_, hi, ha⟩
    simp only [PlainSession.perform, plain, ← hx]
    rfl
  | fork => exact ⟨rfl, hs, List.forall_mem_cons.mpr ⟨hs, ha⟩⟩
  | restore =>
    obtain ⟨scanner, aside⟩ := s
    cases aside with
    | nil => exact ⟨rfl, hs, ha⟩
    | cons copy aside => exact ⟨rfl, List.forall_mem_cons.mp ha⟩

theorem performAll_plain (hg : g.Numbered) {s : Session g} (h : s.Informed) (ks : List Command) :
    (s.performAll ks).map (fun (answers, last) => (answers, last.plain)) =
      s.plain.performAll ks := by
  induction ks generalizing s with
  | nil => rfl
  | cons k ks ih =>
    obtain ⟨hp, hi⟩ := perform_plain hg h k
    rw [performAll, PlainSession.performAll, ← hp, Logged.andThen_map, Logged.map_andThen]
    apply Logged.andThen_congr
    have ha := ih hi
    revert ha
    rcases (s.perform k).value with ⟨answer, after⟩
    intro ha
    change _ = (after.plain.performAll ks).map _
    rw [← ha]
    rfl

end Session

/-- Whatever commands a host gives, the answers, the status after each and the
log do not show that a scanner remembers earlier searches. -/
theorem session_eq_plain (d : Dialect) (keep : Bool) (source : String) (ks : List Command) :
    ((Session.start (.onText (.ofDialect d) keep source)).performAll ks).map Prod.fst =
      ((PlainSession.start (.onText (.ofDialect d) keep source)).performAll ks).map Prod.fst := by
  have hi : (Session.start (.onText (.ofDialect d) keep source)).Informed :=
    ⟨Scanner.informed_onText _ _ _, by simp [Session.start]⟩
  have hp := Session.performAll_plain (Grammar.numbered_ofDialect d) hi ks
  exact congrArg (Logged.map Prod.fst) hp

end Highlighter
