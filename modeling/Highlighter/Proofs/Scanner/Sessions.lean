import Highlighter.Proofs.Scanner.Runs

/-!
# What a session holds

Whatever a host does with a session, the scanner in use and all copies put aside
are places of one scan: each can be reached from the first scanner by steps and
by handing out tokens. So an invariant of a scan holds in every session.
-/

set_option autoImplicit false

namespace Highlighter

variable {g : Grammar}

namespace Scanner

variable {first s u : Scanner g}

theorem Reachable.trans (h : Reachable first s) (k : Reachable s u) : Reachable first u := by
  induction k with
  | start => exact h
  | step _ hp he ih => exact ih.step hp he
  | handOut _ hp ih => exact ih.handOut hp

theorem Reachable.next (h : Reachable first s) : Reachable first s.next.value.2 := by
  induction s using next_induction with
  | pending s t rest hp =>
    rw [next_pending hp]
    exact h.handOut hp
  | ended s hp he =>
    rw [next_end hp he]
    exact h
  | step s hp he ih =>
    rw [next_step hp he]
    exact ih (h.step hp he)

theorem Reachable.drain (h : Reachable first s) : Reachable first s.drain.value.2 := by
  induction s using drain_induction with
  | ended s he =>
    rw [drain_end he]
    exact h.withoutPending
  | step s he ih =>
    rw [drain_step he]
    exact ih (h.withoutPending.step rfl he)

end Scanner

namespace Session

def scanners (s : Session g) : List (Scanner g) := s.scanner :: s.aside

theorem reachable_perform {first : Scanner g} {s : Session g}
    (h : ∀ c ∈ s.scanners, Scanner.Reachable first c) (k : Command) :
    ∀ c ∈ (s.perform k).value.2.scanners, Scanner.Reachable first c := by
  obtain ⟨hs, ha⟩ := List.forall_mem_cons.mp h
  cases k with
  | next => exact List.forall_mem_cons.mpr ⟨hs.next, ha⟩
  | drain => exact List.forall_mem_cons.mpr ⟨hs.drain, ha⟩
  | fork => exact List.forall_mem_cons.mpr ⟨hs, h⟩
  | restore =>
    obtain ⟨scanner, aside⟩ := s
    cases aside with
    | nil => exact h
    | cons copy aside => exact ha

theorem reachable_performAll {first : Scanner g} {s : Session g}
    (h : ∀ c ∈ s.scanners, Scanner.Reachable first c) (ks : List Command) :
    ∀ c ∈ (s.performAll ks).value.2.scanners, Scanner.Reachable first c := by
  induction ks generalizing s with
  | nil => exact h
  | cons k ks ih => exact ih (reachable_perform h k)

theorem reachable_start (first : Scanner g) (ks : List Command) :
    ∀ c ∈ ((start first).performAll ks).value.2.scanners, Scanner.Reachable first c :=
  reachable_performAll (List.forall_mem_singleton.mpr .start) ks

end Session

end Highlighter
