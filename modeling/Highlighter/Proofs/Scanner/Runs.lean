import Highlighter.Scanner.Session

/-!
# Equations of a run

Handing out one token and handing out all of them, each as a recursion over
steps and without the collected lists. `Scanner.Reachable` is what a host can
bring a scanner to by asking for tokens: from whichever of these places the
rest is handed out, it is the end of what the start would have handed out.
-/

set_option autoImplicit false

namespace Highlighter

namespace Logged

variable {α β γ : Type}

theorem andThen_assoc (x : Logged α) (f : α → Logged β) (k : β → Logged γ) :
    (x.andThen f).andThen k = x.andThen fun a => (f a).andThen k := by
  simp [andThen]

theorem andThen_congr {x : Logged α} {f k : α → Logged β} (h : f x.value = k x.value) :
    x.andThen f = x.andThen k := by
  rw [andThen, andThen, h]

theorem map_andThen (x : Logged α) (f : α → Logged β) (h : β → γ) :
    (x.andThen f).map h = x.andThen fun a => (f a).map h := rfl

theorem andThen_map (x : Logged α) (h : α → β) (f : β → Logged γ) :
    (x.map h).andThen f = x.andThen fun a => f (h a) := rfl

end Logged

namespace Scanner

variable {g : Grammar}

/-! What was collected earlier only stands in front. -/

theorem seekOnto_stop {s : Scanner g} (h : s.atEnd = true ∨ s.pending ≠ []) (log : List Record) :
    s.seekOnto log = ⟨s, log.reverse⟩ := by
  rw [seekOnto]
  rcases h with h | h <;> simp [h]

theorem seekOnto_step {s : Scanner g} (h : s.atEnd ≠ true) (hp : s.pending = [])
    (log : List Record) :
    s.seekOnto log = s.step.value.seekOnto (s.step.records.reverse ++ log) := by
  rw [seekOnto]
  simp [h, hp]

theorem seekOnto_eq (log : List Record) (s : Scanner g) :
    s.seekOnto log = ⟨s.seek.value, log.reverse ++ s.seek.records⟩ := by
  induction hn : s.cursor.rest.length using Nat.strongRecOn generalizing s log with
  | ind n ih =>
    by_cases h : s.atEnd = true ∨ s.pending ≠ []
    · rw [seek, seekOnto_stop h, seekOnto_stop h]
      simp
    · obtain ⟨he, hp⟩ : s.atEnd ≠ true ∧ s.pending = [] := by simpa using h
      have hs := hn ▸ step_length_lt he
      rw [seek, seekOnto_step he hp, seekOnto_step he hp, ih _ hs _ _ rfl,
        ih _ hs (s.step.records.reverse ++ []) _ rfl]
      simp

theorem drainOnto_end {s : Scanner g} (h : s.atEnd = true) (tokens : List Token)
    (log : List Record) :
    s.drainOnto tokens log =
      ⟨((s.pending.reverse ++ tokens).reverse, s.withoutPending), log.reverse⟩ := by
  rw [drainOnto]
  simp [h]

theorem drainOnto_step {s : Scanner g} (h : s.atEnd ≠ true) (tokens : List Token)
    (log : List Record) :
    s.drainOnto tokens log = s.withoutPending.step.value.drainOnto (s.pending.reverse ++ tokens)
      (s.withoutPending.step.records.reverse ++ log) := by
  rw [drainOnto]
  simp [h]

theorem withoutPending_length_lt {s : Scanner g} (h : s.atEnd ≠ true) :
    s.withoutPending.step.value.cursor.rest.length < s.cursor.rest.length :=
  step_length_lt (s := s.withoutPending) h

theorem drainOnto_eq (tokens : List Token) (log : List Record) (s : Scanner g) :
    s.drainOnto tokens log =
      ⟨(tokens.reverse ++ s.drain.value.1, s.drain.value.2), log.reverse ++ s.drain.records⟩ := by
  induction hn : s.cursor.rest.length using Nat.strongRecOn generalizing s tokens log with
  | ind n ih =>
    by_cases h : s.atEnd = true
    · rw [drain, drainOnto_end h, drainOnto_end h]
      simp
    · have hs := hn ▸ withoutPending_length_lt h
      rw [drain, drainOnto_step h, drainOnto_step h, ih _ hs _ _ _ rfl,
        ih _ hs (s.pending.reverse ++ []) (s.withoutPending.step.records.reverse ++ []) _ rfl]
      simp

/-! One token. -/

theorem next_pending {s : Scanner g} {t : Token} {rest : List Token} (h : s.pending = t :: rest) :
    s.next = .silent (some t, { s with pending := rest }) := by
  rw [next, seek, seekOnto_stop (.inr (by simp [h]))]
  simp [Logged.map, Logged.silent, pop, h]

theorem next_end {s : Scanner g} (h : s.pending = []) (he : s.atEnd = true) :
    s.next = .silent (none, s) := by
  rw [next, seek, seekOnto_stop (.inl he)]
  simp [Logged.map, Logged.silent, pop, h]

theorem next_step {s : Scanner g} (h : s.pending = []) (he : s.atEnd ≠ true) :
    s.next = s.step.andThen next := by
  rw [next, seek, seekOnto_step he h, seekOnto_eq]
  simp [Logged.map, Logged.andThen, next]

/-! All tokens. -/

theorem drain_end {s : Scanner g} (h : s.atEnd = true) :
    s.drain = .silent (s.pending, s.withoutPending) := by
  rw [drain, drainOnto_end h]
  simp [Logged.silent]

theorem drain_step {s : Scanner g} (h : s.atEnd ≠ true) :
    s.drain = s.withoutPending.step.andThen fun after =>
      after.drain.map fun (ts, last) => (s.pending ++ ts, last) := by
  rw [drain, drainOnto_step h, drainOnto_eq]
  simp [Logged.map, Logged.andThen]

theorem drain_pending {s : Scanner g} {t : Token} {rest : List Token} (h : s.pending = t :: rest) :
    s.drain = { s with pending := rest }.drain.map fun (ts, last) => (t :: ts, last) := by
  by_cases he : s.atEnd = true
  · rw [drain_end he, drain_end (s := { s with pending := rest }) he, h]
    rfl
  · rw [drain_step he, drain_step (s := { s with pending := rest }) he, h]
    rfl

theorem withoutPending_of_nil {s : Scanner g} (h : s.pending = []) : s.withoutPending = s := by
  cases s
  simp_all [withoutPending]

/-- By the way in which the next token is found: one is pending, the text has
ended, or a step comes first. -/
theorem next_induction {motive : Scanner g → Prop}
    (pending : ∀ s t rest, s.pending = t :: rest → motive s)
    (ended : ∀ s, s.pending = [] → s.atEnd = true → motive s)
    (step : ∀ s, s.pending = [] → s.atEnd ≠ true → motive s.step.value → motive s)
    (s : Scanner g) : motive s := by
  induction hn : s.cursor.rest.length using Nat.strongRecOn generalizing s with
  | ind n ih =>
    cases hp : s.pending with
    | cons t rest => exact pending s t rest hp
    | nil =>
      by_cases he : s.atEnd = true
      · exact ended s hp he
      · exact step s hp he (ih _ (hn ▸ step_length_lt he) _ rfl)

/-- By the way in which all tokens are handed out: the text has ended, or those
pending go first and a step comes next. -/
theorem drain_induction {motive : Scanner g → Prop} (ended : ∀ s, s.atEnd = true → motive s)
    (step : ∀ s, s.atEnd ≠ true → motive s.withoutPending.step.value → motive s)
    (s : Scanner g) : motive s := by
  induction hn : s.cursor.rest.length using Nat.strongRecOn generalizing s with
  | ind n ih =>
    by_cases he : s.atEnd = true
    · exact ended s he
    · exact step s he (ih _ (hn ▸ withoutPending_length_lt he) _ rfl)

/-- Handing out all tokens is asking for the next one until there is none. -/
theorem drain_next (s : Scanner g) :
    s.drain = s.next.andThen fun
      | (none, last) => .silent ([], last)
      | (some t, after) => after.drain.map fun (ts, last) => (t :: ts, last) := by
  induction s using next_induction with
  | pending s t rest hp => rw [next_pending hp, Logged.silent_andThen, drain_pending hp]
  | ended s hp he =>
    rw [next_end hp he, Logged.silent_andThen, drain_end he, withoutPending_of_nil hp, hp]
  | step s hp he ih =>
    rw [next_step hp he, Logged.andThen_assoc, drain_step he, withoutPending_of_nil hp, hp]
    apply Logged.andThen_congr
    rw [← ih]
    rfl

/-- What a host can bring a scanner to by asking for tokens. -/
inductive Reachable (first : Scanner g) : Scanner g → Prop
  | start : Reachable first first
  | step {s : Scanner g} : Reachable first s → s.pending = [] → s.atEnd ≠ true →
      Reachable first s.step.value
  | handOut {s : Scanner g} {t : Token} {rest : List Token} : Reachable first s →
      s.pending = t :: rest → Reachable first { s with pending := rest }

theorem Reachable.withoutPending {first s : Scanner g} (h : Reachable first s) :
    Reachable first s.withoutPending := by
  induction hp : s.pending generalizing s with
  | nil => rwa [withoutPending_of_nil hp]
  | cons t ts ih =>
    have hw := ih (h.handOut hp) rfl
    exact hw

/-- What is still handed out and logged is the end of all that is. -/
theorem Reachable.drain_suffix {first s : Scanner g} (h : Reachable first s) :
    ∃ handed earlier, first.drain.value.1 = handed ++ s.drain.value.1 ∧
      first.drain.records = earlier ++ s.drain.records := by
  induction h with
  | start => exact ⟨[], [], rfl, rfl⟩
  | @step s _ hp he ih =>
    obtain ⟨handed, earlier, hh, hr⟩ := ih
    refine ⟨handed, earlier ++ s.step.records, ?_, ?_⟩
    · rw [hh, drain_step he, withoutPending_of_nil hp, hp]
      rfl
    · rw [hr, drain_step he, withoutPending_of_nil hp, List.append_assoc]
      rfl
  | @handOut s t rest _ hp ih =>
    obtain ⟨handed, earlier, hh, hr⟩ := ih
    refine ⟨handed ++ [t], earlier, ?_, ?_⟩
    · rw [hh, drain_pending hp, List.append_assoc]
      rfl
    · rw [hr, drain_pending hp]
      rfl

/-- Every token handed out is pending after a step from a reachable place, or
was pending at the start. -/
theorem mem_drain {first s : Scanner g} (h : Reachable first s) {t : Token}
    (ht : t ∈ s.drain.value.1) :
    t ∈ s.pending ∨ ∃ u, Reachable first u ∧ u.pending = [] ∧ u.atEnd ≠ true ∧
      t ∈ u.step.value.pending := by
  induction s using drain_induction with
  | ended s he =>
    rw [drain_end he] at ht
    exact .inl ht
  | step s he ih =>
    rw [drain_step he] at ht
    rcases List.mem_append.mp ht with hp | ht
    · exact .inl hp
    · have hw := h.withoutPending
      rcases ih (hw.step rfl he) ht with hp | hu
      · exact .inr ⟨_, hw, rfl, he, hp⟩
      · exact .inr hu

end Scanner

end Highlighter
