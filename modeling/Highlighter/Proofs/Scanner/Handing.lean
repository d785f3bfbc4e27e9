import Highlighter.Proofs.Scanner.LexemeRuns
import Highlighter.Proofs.Scanner.Sessions

/-!
# Handing out the tokens of a lexeme

A step may read several tokens, and they are handed out one at a time, while the
scanner is already behind them. So a token that is handed out belongs to the
lexeme read last: those handed out before it and those pending are its
neighbours there.
-/

set_option autoImplicit false

namespace Highlighter

namespace Scanner

section

variable {g : Grammar} {s v : Scanner g} {t : Token} {ts before after : List Token}

theorem HandsOut.reachable (h : HandsOut s ts v) : Reachable s v := by
  induction h with
  | done => exact .start
  | @next s mid _ _ _ hn _ ih =>
    have hm : Reachable s s.next.value.2 := Reachable.start.next
    rw [hn] at hm
    exact hm.trans ih

theorem drain_withoutPending (s : Scanner g) :
    s.drain.value.1 = s.pending ++ s.withoutPending.drain.value.1 := by
  have hp : HandsOut s (s.pending ++ []) s.withoutPending := .pending .done
  rw [hp.drain, List.append_nil]

theorem drain_eq_cons (h : s.drain.value.1 = t :: ts) :
    ∃ v, s.next.value = (some t, v) ∧ v.drain.value.1 = ts := by
  rw [drain_next, Logged.andThen] at h
  cases hn : s.next.value with
  | mk o v =>
    rw [hn] at h
    cases o with
    | none => cases h
    | some u =>
      obtain ⟨rfl, hv⟩ := List.cons.inj h
      exact ⟨v, rfl, hv⟩

/-- The tokens can be asked for up to any of them. -/
theorem handsOut_of_drain (h : s.drain.value.1 = before ++ t :: after) :
    ∃ u v, HandsOut s before u ∧ u.next.value = (some t, v) ∧ v.drain.value.1 = after := by
  induction before generalizing s with
  | nil =>
    obtain ⟨v, hn, hv⟩ := drain_eq_cons h
    exact ⟨s, v, .done, hn, hv⟩
  | cons b before ih =>
    obtain ⟨mid, hn, hm⟩ := drain_eq_cons h
    obtain ⟨u, v, hu, hv⟩ := ih hm
    exact ⟨u, v, .next hn hu, hv⟩

end

variable {d : Dialect} {keep : Bool} {source : String} {s v : Scanner (.ofDialect d)} {ms : Modes}
  {c : Cursor} {l : Lexeme} {t : Token} {row rest handed ts before after : List Token}

structure Amid (s : Scanner (.ofDialect d)) (ms : Modes) (c : Cursor) (l : Lexeme)
    (row : List Token) : Prop where
  lexeme : lexeme? d ms.1 c.before c.rest = some l
  tokens : tokensAt c.offset (l.shown s.keepUnmatched) = row ++ s.pending
  modes : s.plain.modes = l.move.lead ms

theorem Amid.handOut (h : s.Amid ms c l row) (hp : s.pending = t :: rest) :
    ({ s with pending := rest } : Scanner (.ofDialect d)).Amid ms c l (row ++ [t]) where
  lexeme := h.lexeme
  tokens := by
    have ht := h.tokens
    rwa [hp, List.append_cons] at ht
  modes := h.modes

theorem step_amid (hi : s.Informed) (hp : s.pending = []) (he : s.atEnd ≠ true) :
    ∃ l, s.step.value.Amid s.plain.modes s.cursor l [] := by
  obtain ⟨l, hl⟩ := lexeme_of_rest d s.mode (rest_ne_nil he)
  have hstep := congrArg Logged.value (step_reads hi hl)
  have hkeep : s.step.value.keepUnmatched = s.keepUnmatched :=
    congrArg PlainScanner.keepUnmatched hstep
  have hpending : s.step.value.pending =
      s.pending ++ tokensAt s.cursor.offset (l.shown s.keepUnmatched) :=
    congrArg PlainScanner.pending hstep
  refine ⟨l, hl, ?_, congrArg PlainScanner.modes hstep⟩
  rw [hkeep, hpending, hp]
  rfl

/-- A lexeme without a token moves nothing. -/
theorem Amid.modes_of_hidden (h : s.Amid ms c l []) (hp : s.pending = []) : s.plain.modes = ms := by
  have hmodes := h.modes
  have htokens := h.tokens
  obtain ⟨_, hne⟩ := lexeme_reads h.lexeme
  rw [hp] at htokens
  cases l with
  | passed x => exact hmodes
  | taken pieces move =>
    cases pieces with
    | nil => exact absurd rfl hne
    | cons p ps => cases htokens

/-- The first token of a lexeme: it is read in the modes in which it was asked for. -/
theorem next_amid (hi : s.Informed) (hp : s.pending = []) (hn : s.next.value = (some t, v)) :
    ∃ c l, v.Amid s.plain.modes c l [t] := by
  induction s using next_induction with
  | pending s u rest hq => simp [hp] at hq
  | ended s _ he =>
    rw [next_end hp he] at hn
    cases hn
  | step s _ he ih =>
    obtain ⟨l, hl⟩ := step_amid hi hp he
    rw [next_step hp he] at hn
    cases hq : s.step.value.pending with
    | nil =>
      rw [← hl.modes_of_hidden hq]
      exact ih (step_plain (Grammar.numbered_ofDialect d) hi).2 hq hn
    | cons u rest =>
      rw [Logged.andThen, next_pending hq] at hn
      cases hn
      exact ⟨s.cursor, l, hl.handOut hq⟩

def Handing (s : Scanner (.ofDialect d)) (handed : List Token) : Prop :=
  s.pending = [] ∨ ∃ earlier row ms c l, handed = earlier ++ row ∧ row ≠ [] ∧ s.Amid ms c l row

/-- The token handed out next is the first one of a lexeme that is read in the
present modes, or comes behind a part of one that is handed out. -/
theorem Handing.amid (h : s.Handing handed) (hi : s.Informed) (hn : s.next.value = (some t, v)) :
    ∃ earlier row ms c l, handed = earlier ++ row ∧ (row = [] → s.plain.modes = ms) ∧
      v.Amid ms c l (row ++ [t]) := by
  cases hp : s.pending with
  | nil =>
    obtain ⟨c, l, ha⟩ := next_amid hi hp hn
    exact ⟨handed, [], s.plain.modes, c, l, by simp, fun _ => rfl, ha⟩
  | cons u rest =>
    obtain ⟨earlier, row, ms, c, l, hh, hne, ha⟩ := h.resolve_left (by simp [hp])
    rw [next_pending hp] at hn
    cases hn
    exact ⟨earlier, row, ms, c, l, hh, fun hr => absurd hr hne, ha.handOut hp⟩

theorem Handing.next (h : s.Handing handed) (hi : s.Informed) (hn : s.next.value = (some t, v)) :
    v.Handing (handed ++ [t]) := by
  obtain ⟨earlier, row, ms, c, l, rfl, _, ha⟩ := h.amid hi hn
  exact .inr ⟨earlier, row ++ [t], ms, c, l, List.append_assoc _ _ _, by simp, ha⟩

theorem Handing.handsOut (h : s.Handing handed) (hi : s.Informed) (ho : HandsOut s ts v) :
    v.Handing (handed ++ ts) := by
  induction ho generalizing handed with
  | done =>
    rw [List.append_nil]
    exact h
  | @next s mid after t ts hn _ ih =>
    have hm : mid.Informed := by
      have hr : Reachable s mid := (HandsOut.next hn .done).reachable
      exact hr.informed (Grammar.numbered_ofDialect d) hi
    rw [List.append_cons]
    exact ih (h.next hi hn) hm

/-- Any token of a scan, with the scanner that was asked for it, the scanner
behind it and the lexeme in which it is read. -/
theorem scan_amid (h : (scan (.ofDialect d) keep source).value.1 = before ++ t :: after) :
    ∃ s v earlier row ms c l, HandsOut (.onText (.ofDialect d) keep source) before s ∧
      s.next.value = (some t, v) ∧ before = earlier ++ row ∧ (row = [] → s.plain.modes = ms) ∧
      v.Amid ms c l (row ++ [t]) ∧ after = v.pending ++ v.withoutPending.drain.value.1 := by
  obtain ⟨s, v, ho, hn, hv⟩ := handsOut_of_drain h
  have hi := informed_onText (.ofDialect d) keep source
  have hs : s.Handing ([] ++ before) := Handing.handsOut (.inl rfl) hi ho
  obtain ⟨earlier, row, ms, c, l, hb, hm, ha⟩ := hs.amid ho.reachable.informed_ofDialect hn
  exact ⟨s, v, earlier, row, ms, c, l, ho, hn, hb, hm, ha, by rw [← hv, drain_withoutPending]⟩

end Scanner

end Highlighter
