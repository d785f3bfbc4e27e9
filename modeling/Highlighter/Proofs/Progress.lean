import Highlighter.Proofs.Scanner.Readings
import Highlighter.Proofs.Scanner.Sessions
import Highlighter.Proofs.Tiling

/-!
# Scanning ends

Each step goes on by at least one character, whatever stands there, and each
token takes at least one. So the characters of a text bound both the steps of a
run and the tokens that it hands out. A scanner that has handed out nothing is
done, and stays as it is.
-/

set_option autoImplicit false

namespace Highlighter

namespace Scanner

variable {g : Grammar}

inductive Run : Nat → Scanner g → List Token → Scanner g → Prop
  | done (s : Scanner g) : Run 0 s [] s
  | step {n : Nat} {s last : Scanner g} {ts : List Token} : s.pending = [] → s.atEnd ≠ true →
      Run n s.step.value ts last → Run (n + 1) s ts last
  | handOut {n : Nat} {s last : Scanner g} {t : Token} {rest ts : List Token} :
      s.pending = t :: rest → Run n { s with pending := rest } ts last → Run n s (t :: ts) last

variable {n m : Nat} {s u last : Scanner g} {ts us : List Token}

theorem Run.append (h : Run n s ts u) (k : Run m u us last) : Run (n + m) s (ts ++ us) last := by
  induction h with
  | done s =>
    rw [Nat.zero_add]
    exact k
  | step hp he _ ih =>
    rw [Nat.add_right_comm]
    exact .step hp he (ih k)
  | handOut hp _ ih => exact .handOut hp (ih k)

theorem Run.reachable (h : Run n s ts last) : Reachable s last := by
  induction h with
  | done s => exact .start
  | step hp he _ ih => exact (Reachable.start.step hp he).trans ih
  | handOut hp _ ih => exact (Reachable.start.handOut hp).trans ih

theorem Reachable.run (h : Reachable s u) : ∃ n ts, Run n s ts u := by
  induction h with
  | start => exact ⟨0, [], .done s⟩
  | step _ hp he ih =>
    obtain ⟨n, ts, hr⟩ := ih
    exact ⟨n + 1, ts ++ [], hr.append (.step hp he (.done _))⟩
  | handOut _ hp ih =>
    obtain ⟨n, ts, hr⟩ := ih
    exact ⟨n, ts ++ [_], hr.append (.handOut hp (.done _))⟩

theorem run_pending (s : Scanner g) : Run 0 s s.pending s.withoutPending := by
  induction hp : s.pending generalizing s with
  | nil =>
    rw [withoutPending_of_nil hp]
    exact .done s
  | cons t rest ih => exact .handOut hp (ih { s with pending := rest } rfl)

/-- Handing out all tokens is a run. -/
theorem run_drain (s : Scanner g) : ∃ n, Run n s s.drain.value.1 s.drain.value.2 := by
  induction s using drain_induction with
  | ended s he =>
    rw [drain_end he]
    exact ⟨0, run_pending s⟩
  | step s he ih =>
    obtain ⟨n, hr⟩ := ih
    rw [drain_step he]
    exact ⟨0 + (n + 1), (run_pending s).append (.step rfl he hr)⟩

theorem Run.steps_le (h : Run n s ts last) : n + last.cursor.rest.length ≤ s.cursor.rest.length := by
  induction h with
  | done s => omega
  | @step n s last ts _ he _ ih =>
    have hlt := step_length_lt he
    omega
  | handOut _ _ ih => exact ih

/-- Every token takes a character, so tokens and characters left never get more. -/
theorem Run.tokens_le (hn : g.Numbered) (hl : g.Lossless) (hi : s.Informed)
    (h : Run n s ts last) : ts.length + last.pending.length + last.cursor.rest.length ≤
      s.pending.length + s.cursor.rest.length := by
  induction h with
  | done s => simp
  | @step n s last ts hp he _ ih =>
    have hread := (stepTokens_laid hn hl hi he).length_le
    have hleft := ih (step_plain hn hi).2
    rw [pending_step hn hi he, hp, List.nil_append] at hleft
    omega
  | @handOut n s last t rest ts hp _ ih =>
    have hleft : _ ≤ rest.length + s.cursor.rest.length := ih hi
    rw [hp]
    simp only [List.length_cons]
    omega

theorem Reachable.pending_slices {d : Dialect} {keep : Bool} {source : String}
    {s : Scanner (.ofDialect d)} (hs : Reachable (.onText (.ofDialect d) keep source) s) :
    ∀ t ∈ s.pending, t.SliceOf source := by
  have hn := Grammar.numbered_ofDialect d
  induction hs with
  | start => simp [onText, onChars]
  | @step s hs hp he ih =>
    have hi := hs.informed_ofDialect
    rw [pending_step hn hi he, hp, List.nil_append]
    exact (stepTokens_laid hn (lossless_ofDialect d) hi he).slices hs.reaches
  | handOut _ hp ih =>
    rw [hp] at ih
    exact (List.forall_mem_cons.mp ih).2

structure Advances (s : Scanner g) (source : String) : Prop where
  place : ∃ before read after : String, source = before ++ read ++ after ∧ read ≠ "" ∧
    s.status.position = before.utf8ByteSize ∧
    s.step.value.status.position = (before ++ read).utf8ByteSize
  slices : ∀ t ∈ s.step.value.pending, t.SliceOf source

theorem Reachable.advances {d : Dialect} {keep : Bool} {source : String}
    {s : Scanner (.ofDialect d)} (hs : Reachable (.onText (.ofDialect d) keep source) s)
    (he : s.atEnd ≠ true) : s.Advances source := by
  have hn := Grammar.numbered_ofDialect d
  have hi := hs.informed_ofDialect
  obtain ⟨xs, hx⟩ := hs.reaches
  obtain ⟨ys, hy⟩ := s.step_reaches
  obtain ⟨_, hbefore⟩ := Cursor.reads_ofText hx
  obtain ⟨hcut, hbehind⟩ := Cursor.reads_ofText (Cursor.Reads.append hx hy)
  have hne : ys ≠ [] := by
    rintro rfl
    have hlt := step_length_lt he
    rw [Cursor.reads_nil.mp hy] at hlt
    omega
  rw [String.ofList_append] at hcut hbehind
  constructor
  · refine ⟨_, _, _, hcut, ?_, hbefore, hbehind⟩
    simpa using hne
  · rw [pending_step hn hi he]
    intro t ht
    rcases List.mem_append.mp ht with ht | ht
    · exact hs.pending_slices t ht
    · exact (stepTokens_laid hn (lossless_ofDialect d) hi he).slices hs.reaches t ht

structure Exhausted (s : Scanner g) (source : String) : Prop where
  position : s.status.position = source.utf8ByteSize
  atEnd : s.status.atEnd = true
  pending : s.pending = []
  asked : ∀ (n : Nat) (aside : List (Scanner g)),
    (⟨s, aside⟩ : Session g).performAll (List.replicate n .next) =
      .silent (List.replicate n (.token none, s.status), ⟨s, aside⟩)

theorem performAll_exhausted (hp : s.pending = []) (he : s.atEnd = true) (n : Nat)
    (aside : List (Scanner g)) : (⟨s, aside⟩ : Session g).performAll (List.replicate n .next) =
      .silent (List.replicate n (.token none, s.status), ⟨s, aside⟩) := by
  induction n with
  | zero => rfl
  | succ n ih =>
    have hnext : (⟨s, aside⟩ : Session g).perform .next = .silent (.token none, ⟨s, aside⟩) := by
      rw [Session.perform, next_end hp he]
      rfl
    rw [List.replicate_succ, Session.performAll, hnext, Logged.silent_andThen]
    dsimp only
    rw [ih]
    rfl

theorem Reachable.exhausted {d : Dialect} {keep : Bool} {source : String}
    {s : Scanner (.ofDialect d)} (hs : Reachable (.onText (.ofDialect d) keep source) s)
    (hp : s.pending = []) (he : s.atEnd = true) : s.Exhausted source := by
  obtain ⟨xs, hx⟩ := hs.reaches
  obtain ⟨hcut, ho⟩ := Cursor.reads_ofText hx
  have hrest : s.cursor.rest = [] := by simpa [atEnd, Cursor.atEnd] using he
  rw [hrest, String.ofList_nil, String.append_empty] at hcut
  refine ⟨?_, he, hp, performAll_exhausted hp he⟩
  rw [hcut]
  exact ho

/-- Nothing is handed out only where nothing is left. -/
theorem next_none (h : s.next.value.1 = none) :
    s.next.value.2.pending = [] ∧ s.next.value.2.atEnd = true := by
  induction s using next_induction with
  | pending s t rest hp =>
    rw [next_pending hp] at h
    simp [Logged.silent] at h
  | ended s hp he =>
    rw [next_end hp he]
    exact ⟨hp, he⟩
  | step s hp he ih =>
    rw [next_step hp he] at h ⊢
    exact ih h

theorem drain_done (s : Scanner g) :
    s.drain.value.2.pending = [] ∧ s.drain.value.2.atEnd = true := by
  induction s using drain_induction with
  | ended s he =>
    rw [drain_end he]
    exact ⟨rfl, he⟩
  | step s he ih =>
    rw [drain_step he]
    exact ih

end Scanner

/-- Every scanner of a session is a run from the start. A run has at most as
many steps and tokens as the source has characters, goes on with each step
before the end, and is over for good once no token comes. To hand out all
tokens is such a run up to the end. -/
theorem scan_progress (d : Dialect) (keep : Bool) (source : String) :
    let start := Scanner.onText (.ofDialect d) keep source
    (∀ ks, ∀ s ∈ ((Session.start start).performAll ks).value.2.scanners,
      ∃ n ts, start.Run n ts s) ∧
    (∀ n ts s, Scanner.Run n start ts s →
      n ≤ source.length ∧ ts.length ≤ source.length ∧
      (s.atEnd ≠ true → s.Advances source) ∧
      (s.next.value.1 = none → s.next.value.2.Exhausted source)) ∧
    ∃ n, Scanner.Run n start (scan (.ofDialect d) keep source).value.1
        (scan (.ofDialect d) keep source).value.2 ∧
      (scan (.ofDialect d) keep source).value.2.Exhausted source := by
  intro start
  have hlength : start.cursor.rest.length = source.length := String.length_toList
  refine ⟨fun ks s hs => (Session.reachable_start start ks s hs).run, ?_, ?_⟩
  · intro n ts s hr
    have hs := hr.reachable
    have hsteps := hr.steps_le
    have htokens : _ ≤ 0 + start.cursor.rest.length :=
      hr.tokens_le (Grammar.numbered_ofDialect d) (lossless_ofDialect d)
        (Scanner.informed_onText _ keep source)
    refine ⟨by omega, by omega, hs.advances, fun h => ?_⟩
    obtain ⟨hp, he⟩ := Scanner.next_none h
    exact hs.next.exhausted hp he
  · obtain ⟨n, hr⟩ := start.run_drain
    obtain ⟨hp, he⟩ := start.drain_done
    exact ⟨n, hr, hr.reachable.exhausted hp he⟩

end Highlighter
