import Highlighter.Proofs.Grammar.Numbering
import Highlighter.Proofs.Places
import Highlighter.Proofs.Scanner.Plain

/-!
# What a scanner knows is true

An outlook is a statement about the matches of one pattern, seen from where
the scan stands. It stays true when the scan goes on, in whichever mode and by
whichever rules, and a search only replaces it by another true one. So asking
an outlook is the same as looking at the cursor alone, and a step does not
depend on what was known before it.
-/

set_option autoImplicit false

namespace Highlighter

namespace Pattern

theorem search_none {p : Pattern} {c d : Cursor} (h : p.search? c = none) (hd : c.Reaches d) :
    p.matchAt? d = none := by
  fun_induction search? p c with
  | case1 c m hm => simp at h
  | case2 c hm hr =>
    by_cases he : d = c
    · rw [he, hm]
    · exact absurd hr (hd.advance_of_ne he).1
  | case3 c hm hr _ ih =>
    by_cases he : d = c
    · rw [he, hm]
    · exact ih h (hd.advance_of_ne he).2

theorem search_some {p : Pattern} {c : Cursor} {m : Match} (h : p.search? c = some m) :
    p.matchAt? m.start = some m ∧
      ∀ d, c.Reaches d → d.offset < m.start.offset → p.matchAt? d = none := by
  fun_induction search? p c with
  | case1 c m' hm =>
    obtain rfl := Option.some.inj h
    obtain ⟨hs, _⟩ := matchAt_start hm
    rw [hs]
    refine ⟨hm, fun d hd hlt => ?_⟩
    have := hd.offset_le
    omega
  | case2 c hm hr => simp at h
  | case3 c hm hr _ ih =>
    obtain ⟨hs, hb⟩ := ih h
    refine ⟨hs, fun d hd hlt => ?_⟩
    by_cases he : d = c
    · rw [he, hm]
    · exact hb d (hd.advance_of_ne he).2 hlt

end Pattern

namespace Outlook

def Holds : Outlook → Pattern → Cursor → Prop
  | .unknown, _, _ => True
  | .ahead n, p, c =>
    (∃ d m, d.chars = c.chars ∧ d.offset = n ∧ p.matchAt? d = some m) ∧
      ∀ d, c.Reaches d → d.offset < n → p.matchAt? d = none
  | .spent n, p, c =>
    n ≤ c.offset ∧ ∀ d, d.chars = c.chars → n ≤ d.offset → p.matchAt? d = none

theorem Holds.later {k : Outlook} {p : Pattern} {c d : Cursor} (h : k.Holds p c)
    (hd : c.Reaches d) : k.Holds p d := by
  cases k with
  | unknown => trivial
  | ahead n =>
    obtain ⟨⟨e, m, hc, ho, hm⟩, hb⟩ := h
    exact ⟨⟨e, m, hc.trans hd.chars.symm, ho, hm⟩, fun f hf => hb f (hd.trans hf)⟩
  | spent n =>
    obtain ⟨hn, hb⟩ := h
    exact ⟨Nat.le_trans hn hd.offset_le, fun f hf => hb f (hf.trans hd.chars)⟩

theorem Holds.excluded {k : Outlook} {p : Pattern} {c : Cursor} (h : k.Holds p c)
    (he : k.excludes c.offset = true) : p.matchAt? c = none := by
  cases k with
  | unknown => simp [excludes] at he
  | ahead n => exact h.2 c (Cursor.reaches_refl c) (by simpa [excludes] using he)
  | spent n => exact h.2 c rfl h.1

theorem Holds.ask {k : Outlook} {p : Pattern} {c : Cursor} (h : k.Holds p c) :
    (k.ask p c).2.Holds p c := by
  unfold Outlook.ask
  split
  · exact h
  · split
    · rename_i hs
      refine ⟨Nat.le_refl _, fun d hd ho => ?_⟩
      exact Pattern.search_none hs (Cursor.reaches_of_offset_le hd.symm ho)
    · rename_i m hs
      obtain ⟨hm, hb⟩ := Pattern.search_some hs
      exact ⟨⟨m.start, m, (Pattern.search_reaches hs).1.chars, rfl, hm⟩, hb⟩

/-- Knowledge that holds does not change which match is taken. -/
theorem Holds.ask_eq_takes {k : Outlook} {p : Pattern} {c : Cursor} (h : k.Holds p c) :
    (k.ask p c).1 = p.takes? c := by
  unfold Outlook.ask
  split
  · rename_i he
    rw [Pattern.takes?, h.excluded he]
    rfl
  · split
    · rename_i hs
      rw [Pattern.takes?, Pattern.search_none hs (Cursor.reaches_refl c)]
      rfl
    · rename_i m hs
      obtain ⟨hm, hb⟩ := Pattern.search_some hs
      have hr := (Pattern.search_reaches hs).1
      by_cases ho : m.start.offset = c.offset
      · have hc : p.matchAt? c = some m := by
          rw [hr.eq_of_offset ho] at hm
          exact hm
        simp [Match.takenAt, ho, Pattern.takes?, hc, Option.filter]
      · have hlt : c.offset < m.start.offset := Nat.lt_of_le_of_ne hr.offset_le (Ne.symm ho)
        have hc := hb c (Cursor.reaches_refl c) hlt
        simp [Match.takenAt, ho, Pattern.takes?, hc]

end Outlook

namespace Outlooks

def Hold (o : Outlooks) (rules : List Rule) (c : Cursor) : Prop :=
  ∀ n r, rules[n]? = some r → (o.of n).Holds r.pattern c

theorem hold_fresh (size : Nat) (rules : List Rule) (c : Cursor) : (fresh size).Hold rules c := by
  intro n r _
  have hu : (fresh size).of n = .unknown := by
    simp only [of, fresh, Array.getD_eq_getD_getElem?, Array.getElem?_replicate]
    split <;> rfl
  rw [hu]
  trivial

theorem Hold.later {o : Outlooks} {rules : List Rule} {c d : Cursor} (h : o.Hold rules c)
    (hd : c.Reaches d) : o.Hold rules d := fun n r hr => (h n r hr).later hd

theorem of_learn (o : Outlooks) (n i : Nat) (k : Outlook) :
    (o.learn n k).of i = o.of i ∨ i = n ∧ (o.learn n k).of i = k := by
  simp only [of, learn, Array.getD_eq_getD_getElem?, Array.getElem?_setIfInBounds]
  by_cases h : n = i
  · subst h
    by_cases hs : n < o.size <;> simp [hs]
  · simp [h]

theorem Hold.learn {o : Outlooks} {rules : List Rule} {c : Cursor} {n : Nat} {r : Rule}
    {k : Outlook} (h : o.Hold rules c) (hr : rules[n]? = some r) (hk : k.Holds r.pattern c) :
    (o.learn n k).Hold rules c := by
  intro i s hs
  rcases o.of_learn n i k with he | ⟨rfl, he⟩
  · rw [he]
    exact h i s hs
  · rw [he]
    obtain rfl := Option.some.inj (hr.symm.trans hs)
    exact hk

end Outlooks

theorem firstMatch_hold {c : Cursor} {table : List (Nat × Rule)} {o : Outlooks} {rules : List Rule}
    (ht : ∀ n r, (n, r) ∈ table → rules[n]? = some r) (h : o.Hold rules c) :
    (firstMatch c table o).1 = firstHit? c table ∧ (firstMatch c table o).2.Hold rules c := by
  fun_induction firstMatch c table o with
  | case1 o => exact ⟨rfl, h⟩
  | case2 n r rest o m k hk =>
    have hr := ht n r List.mem_cons_self
    have ha := (h n r hr).ask
    have he := (h n r hr).ask_eq_takes
    rw [hk] at ha he
    exact ⟨by rw [firstHit?, ← he], h.learn hr ha⟩
  | case3 n r rest o k hk ih =>
    have hr := ht n r List.mem_cons_self
    have ha := (h n r hr).ask
    have he := (h n r hr).ask_eq_takes
    rw [hk] at ha he
    rw [firstHit?, ← he]
    exact ih (fun i s hs => ht i s (List.mem_cons_of_mem _ hs)) (h.learn hr ha)

namespace Scanner

variable {g : Grammar}

def plain (s : Scanner g) : PlainScanner g :=
  ⟨s.keepUnmatched, s.cursor, s.mode, s.outer, s.pending⟩

def Informed (s : Scanner g) : Prop := s.outlooks.Hold g.rules s.cursor

theorem informed_onText (g : Grammar) (keep : Bool) (source : String) :
    (onText g keep source).Informed := Outlooks.hold_fresh _ _ _

theorem plain_move (s : Scanner g) (n : Nat) (m : Move) :
    (s.move n m).map plain = s.plain.move n m := by
  cases m with
  | stay => rfl
  | enter m => rfl
  | leave =>
    unfold move PlainScanner.move
    rw [show s.plain.outer = s.outer from rfl]
    cases s.outer <;> rfl

theorem plain_take (s : Scanner g) (hit : Hit) : (s.take hit).map plain = s.plain.take hit :=
  plain_move _ _ _

theorem plain_passOver (s : Scanner g) : s.passOver.map plain = s.plain.passOver := by
  unfold passOver PlainScanner.passOver
  rw [show s.plain.cursor.current? = s.cursor.current? from rfl]
  cases s.cursor.current? <;> rfl

theorem outlooks_move (s : Scanner g) (n : Nat) (m : Move) :
    (s.move n m).value.outlooks = s.outlooks := by
  cases m with
  | stay => rfl
  | enter m => rfl
  | leave => cases h : s.outer <;> simp [move, h, Logged.silent]

theorem outlooks_take (s : Scanner g) (hit : Hit) : (s.take hit).value.outlooks = s.outlooks :=
  outlooks_move _ _ _

theorem outlooks_passOver (s : Scanner g) : s.passOver.value.outlooks = s.outlooks := by
  unfold passOver
  cases s.cursor.current? <;> rfl

/-- A step is the step of a scanner that knows nothing, and keeps the knowledge true. -/
theorem step_plain (hg : g.Numbered) {s : Scanner g} (h : s.Informed) :
    s.step.map plain = s.plain.step ∧ s.step.value.Informed := by
  obtain ⟨hf, ho⟩ := firstMatch_hold (hg s.mode) h
  have hr := s.step_reaches
  unfold PlainScanner.step
  rw [show firstHit? s.plain.cursor (g.rulesIn s.plain.mode) = _ from hf.symm]
  unfold Informed step at *
  revert ho hr
  cases hm : firstMatch s.cursor (g.rulesIn s.mode) s.outlooks with
  | mk found o =>
    intro ho hr
    cases found with
    | some hit =>
      refine ⟨plain_take { s with outlooks := o } hit, ?_⟩
      rw [outlooks_take]
      exact ho.later hr
    | none =>
      refine ⟨plain_passOver { s with outlooks := o }, ?_⟩
      rw [outlooks_passOver]
      exact ho.later hr

theorem step_cases (hg : g.Numbered) {s : Scanner g} (h : s.Informed) :
    (∃ hit, firstHit? s.cursor (g.rulesIn s.mode) = some hit ∧
      s.step.map plain = s.plain.take hit) ∨
    (firstHit? s.cursor (g.rulesIn s.mode) = none ∧ s.step.map plain = s.plain.passOver) := by
  rw [(step_plain hg h).1, PlainScanner.step,
    show firstHit? s.plain.cursor (g.rulesIn s.plain.mode) =
      firstHit? s.cursor (g.rulesIn s.mode) from rfl]
  cases hf : firstHit? s.cursor (g.rulesIn s.mode) with
  | some hit => exact .inl ⟨hit, rfl, rfl⟩
  | none => exact .inr ⟨rfl, rfl⟩

theorem step_of_hit (hg : g.Numbered) {s : Scanner g} (h : s.Informed) {hit : Hit}
    (hf : firstHit? s.cursor (g.rulesIn s.mode) = some hit) :
    s.step.map plain = s.plain.take hit := by
  rcases step_cases hg h with ⟨k, hk, hs⟩ | ⟨hk, _⟩
  · obtain rfl := Option.some.inj (hk.symm.trans hf)
    exact hs
  · cases hk.symm.trans hf

theorem step_of_no_hit (hg : g.Numbered) {s : Scanner g} (h : s.Informed)
    (hf : firstHit? s.cursor (g.rulesIn s.mode) = none) : s.step.map plain = s.plain.passOver := by
  rcases step_cases hg h with ⟨k, hk, _⟩ | ⟨_, hs⟩
  · cases hk.symm.trans hf
  · exact hs

theorem Reachable.informed (hg : g.Numbered) {first s : Scanner g} (h : Reachable first s)
    (hi : first.Informed) : s.Informed := by
  induction h with
  | start => exact hi
  | step _ _ _ ih => exact (step_plain hg ih).2
  | handOut _ _ ih => exact ih

end Scanner

end Highlighter
