import Highlighter.Proofs.ModeStack
import Highlighter.Proofs.Scanner.WordSteps

/-!
# The line of a label

The label of a block belongs on the line of its opening word. But line endings are
blanks, and any blanks may stand before the label. So an opening word with nothing
behind it on its line takes the next line as its label if that is a single word. Only
`textblock` at the very end of its line is kept from this: it opens a block without a
label.
-/

set_option autoImplicit false

namespace Highlighter

open Declared

structure Scanner.EntersBlock {g : Grammar} (s : Scanner g) : Prop where
  pending : s.pending = []
  notEnd : s.atEnd ≠ true
  outside : s.mode ≠ .block
  inside : s.step.value.mode = .block

def LabelOnLine (tokens : List Token) : Prop :=
  ∃ opener blanks label : Token, tokens = [opener, blanks, label] ∧ opener.category = .keyword ∧
    blanks.category = .whitespace ∧ label.category = .name ∧ '\n' ∉ blanks.text.toList

def Cursor.LabelBelow (c : Cursor) : Prop :=
  ∃ d e f opener blanks label tail, LabelledLine c d e f opener blanks label tail ∧ '\n' ∈ blanks ∧
    ¬ (opener = "textblock".toList ∧ (['\n'] <+: blanks ∨ ['\r', '\n'] <+: blanks))

/-- Only the opener with a label leads to the mode of a block. -/
theorem labelledOpener_of_enter {d : Dialect} {m : Mode} {n : Nat} {r : Rule}
    (h : (n, r) ∈ (Grammar.ofDialect d).rulesIn m) (hr : r.move = .enter .block) :
    m = .root ∧ r = labelledOpener := by
  have hall : ∀ p ∈ (Grammar.ofDialect d).rulesIn m, p.2.move = .enter .block →
      m = .root ∧ p.2 = labelledOpener := by
    cases d <;> cases m <;> decide
  exact hall _ h hr

variable {d : Dialect} {s : Scanner (.ofDialect d)}

/-- Leaving leads to the outermost mode, or stays there. -/
theorem Placed.lead_leave {m : Mode} {outer : List Mode} {c : Cursor} (h : Placed (m, outer) c) :
    (Move.leave.lead (m, outer)).1 = .root := by
  rcases h with h | ⟨_, ho, _⟩
  · obtain ⟨rfl, rfl⟩ := Prod.mk.inj h
    rfl
  · obtain rfl : outer = [.root] := ho
    rfl

namespace Scanner

/-- A block with a label is entered by its opener only, from the outermost mode. -/
theorem EntersBlock.hit (h : s.EntersBlock) (hi : s.Informed)
    (hp : Placed (s.mode, s.outer) s.cursor) : s.mode = .root ∧ ∃ m,
      firstHit? s.cursor ((Grammar.ofDialect d).rulesIn s.mode) = some ⟨labelledOpener, m⟩ := by
  have hg := Grammar.numbered_ofDialect d
  have hinside := h.inside
  cases hf : firstHit? s.cursor ((Grammar.ofDialect d).rulesIn s.mode) with
  | none =>
    have hmode : s.step.value.mode = s.mode :=
      congrArg Status.mode (status_step_of_no_hit hg hi h.notEnd hf)
    exact absurd (hmode.symm.trans hinside) h.outside
  | some hit =>
    obtain ⟨⟨n, hn⟩, _⟩ := firstHit_mem hf
    have hmode : s.step.value.mode = (hit.rule.move.lead (s.mode, s.outer)).1 :=
      congrArg Status.mode (status_step_of_hit hg hi hf)
    rw [hinside] at hmode
    obtain ⟨r, m⟩ := hit
    cases hr : r.move with
    | stay =>
      rw [hr] at hmode
      exact absurd hmode.symm h.outside
    | leave =>
      rw [hr, hp.lead_leave] at hmode
      cases hmode
    | enter k =>
      rw [hr] at hmode
      obtain rfl : .block = k := hmode
      obtain ⟨hroot, rfl⟩ := labelledOpener_of_enter hn hr
      exact ⟨hroot, m, rfl⟩

variable {e f j : Cursor} {o b l t : List Char}

theorem EntersBlock.line (h : s.EntersBlock) (hi : s.Informed)
    (hp : Placed (s.mode, s.outer) s.cursor) : s.mode = .root ∧
      ∃ e f j o b l t, LabelledLine s.cursor e f j o b l t ∧
        bareOpener.pattern.takes? s.cursor = none := by
  obtain ⟨hm, m, hf⟩ := h.hit hi hp
  have htakes := (firstHit_mem hf).2
  have hpath := (Pattern.path_of_matchAt (Pattern.takes_eq_some htakes).1).2
  obtain ⟨e, f, o, b, l, t, hl, _⟩ := Pattern.mem_paths_labelledOpener.mp hpath
  refine ⟨hm, e, f, m.stop, o, b, l, t, hl, ?_⟩
  cases hbare : bareOpener.pattern.takes? s.cursor with
  | none => rfl
  | some k =>
    have hhit := hf.symm.trans (firstHit_bareOpener hm hl.starts hbare)
    have hrule : labelledOpener = bareOpener := congrArg Hit.rule (Option.some.inj hhit)
    exact absurd hrule (by decide)

theorem entersBlock_of_line (hi : s.Informed) (hp : s.pending = []) (hm : s.mode = .root)
    (hl : LabelledLine s.cursor e f j o b l t) (hb : bareOpener.pattern.takes? s.cursor = none) :
    s.EntersBlock where
  pending := hp
  notEnd := not_atEnd fun hr => by simpa [Cursor.current?, hr] using hl.starts
  outside := by
    rw [hm]
    decide
  inside := by
    obtain ⟨m, hf, _⟩ := firstHit_of_labelledLine hm hl hb
    exact congrArg Status.mode (status_step_of_hit (Grammar.numbered_ofDialect d) hi hf)

/-- The tokens of an opening line are those of a label on its line, if there is no line
ending between them. -/
theorem EntersBlock.labelOnLine_iff (h : s.EntersBlock) (hi : s.Informed) (hm : s.mode = .root)
    (hl : LabelledLine s.cursor e f j o b l t) (hb : bareOpener.pattern.takes? s.cursor = none) :
    LabelOnLine s.step.value.pending ↔ '\n' ∉ b := by
  have htext : (e.tokenTo f .whitespace).text.toList = b := by
    rw [Cursor.tokenTo, hl.blanks_reads.upTo, String.toList_ofList]
  rw [pending_step (Grammar.numbered_ofDialect d) hi h.notEnd, h.pending, List.nil_append,
    stepTokens_labelledOpener hm hl hb]
  constructor
  · rintro ⟨_, blanks, _, ⟨⟩, _, _, _, hline⟩
    rwa [htext] at hline
  · intro hline
    exact ⟨_, _, _, rfl, rfl, rfl, rfl, by rwa [htext]⟩

end Scanner

/-- A block has its label on the line of its opening word, unless the scan comes to an
opening word that has its label on a line further down. -/
theorem labels_on_line_iff (d : Dialect) (keep : Bool) (source : String) :
    (∀ s, Scanner.Reachable (.onText (.ofDialect d) keep source) s → s.EntersBlock →
      LabelOnLine s.step.value.pending) ↔
    ¬ ∃ s, Scanner.Reachable (.onText (.ofDialect d) keep source) s ∧ s.mode = .root ∧
      s.cursor.LabelBelow := by
  constructor
  · rintro h ⟨s, hs, hm, e, f, j, o, b, l, t, hl, hline, hbare⟩
    have hw := hs.withoutPending
    have hi := hw.informed_ofDialect
    have hb := hl.takes_bareOpener_eq_none.mpr hbare
    have henters := Scanner.entersBlock_of_line hi rfl hm hl hb
    exact (henters.labelOnLine_iff hi hm hl hb).mp (h _ hw henters) hline
  · intro h s hs henters
    have hi := hs.informed_ofDialect
    obtain ⟨hm, e, f, j, o, b, l, t, hl, hb⟩ := henters.line hi hs.placed
    refine (henters.labelOnLine_iff hi hm hl hb).mpr fun hline => h ⟨s, hs, hm, ?_⟩
    exact ⟨e, f, j, o, b, l, t, hl, hline, hl.takes_bareOpener_eq_none.mp hb⟩

/-- The next line is taken as the label of a block. -/
theorem label_on_next_line :
    ¬ ∀ s, Scanner.Reachable (.onText (.ofDialect .current) false "textblockex\nnote") s →
      s.EntersBlock → LabelOnLine s.step.value.pending := by
  intro h
  let s : Scanner (.ofDialect .current) := .onText (.ofDialect .current) false "textblockex\nnote"
  have henters : s.EntersBlock := ⟨rfl, by decide, by decide, by decide +kernel⟩
  have hpending : s.step.value.pending = [⟨.keyword, "textblockex", ⟨0, 11⟩⟩,
      ⟨.whitespace, "\n", ⟨11, 12⟩⟩, ⟨.name, "note", ⟨12, 16⟩⟩] := by decide +kernel
  obtain ⟨_, _, _, htokens, _, _, _, hline⟩ := h s .start henters
  rw [hpending] at htokens
  cases htokens
  exact hline (by decide)

end Highlighter
