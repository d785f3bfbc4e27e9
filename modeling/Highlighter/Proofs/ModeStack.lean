import Highlighter.Proofs.BlockBodies
import Highlighter.Proofs.Scanner.Sessions

/-!
# The stack of modes

At most one mode is open inside the outermost one, and it is that of a block.
While it is open the scan stands between two lines. No rule of the outermost
mode leaves a mode, so the guard that keeps the outermost one is never needed.
-/

set_option autoImplicit false

namespace Highlighter

variable {g : Grammar} {d : Dialect}

def Scanner.stack (s : Scanner g) : List Mode := (s.mode :: s.outer).reverse

structure Scanner.Nested (s : Scanner g) (source : String) : Prop where
  stack : s.stack = [.root] ∨ s.stack = [.root, .block] ∨ s.stack = [.root, .blockComment]
  status : s.stack.getLast? = some s.status.mode ∧ s.status.depth = s.stack.length
  place : ∃ before after : String, source = before ++ after ∧
    s.status.position = before.utf8ByteSize ∧
    (s.status.mode = .block ∨ s.status.mode = .blockComment →
      after = "" ∨ ∃ lines : String, before = lines ++ "\n")
  leaves : ∀ hit ∈ (firstMatch s.cursor (g.rulesIn s.mode) s.outlooks).1,
    hit.rule.move = .leave → 1 < s.depth

/-- Between two lines, the text before ends with a newline or nothing follows. -/
theorem Cursor.BetweenLines.cut {source : String} {c : Cursor} {xs : List Char}
    (h : c.BetweenLines) (hx : (Cursor.ofText source).Reads xs c) :
    String.ofList c.rest = "" ∨ ∃ lines : String, String.ofList xs = lines ++ "\n" := by
  rcases h with h | h
  · left
    rw [h, String.ofList_nil]
  · right
    have hb : c.before = xs.reverse ++ [] := hx.2
    rw [hb, List.append_nil, List.head?_reverse] at h
    obtain ⟨ys, rfl⟩ := List.getLast?_eq_some_iff.mp h
    exact ⟨String.ofList ys, String.ofList_append⟩

theorem Placed.stack {s : Scanner (.ofDialect d)} (h : Placed (s.mode, s.outer) s.cursor) :
    s.stack = [.root] ∨ s.stack = [.root, .block] ∨ s.stack = [.root, .blockComment] := by
  rcases h with h | ⟨⟨closer, body, hb⟩, ho, _⟩
  · obtain ⟨hm, ho⟩ := Prod.mk.inj h
    rw [Scanner.stack, hm, ho]
    exact .inl rfl
  · have hm : s.mode = .block ∨ s.mode = .blockComment := by
      revert hb
      cases s.mode <;> intro hb <;> cases hb
      · exact .inl rfl
      · exact .inr rfl
    rw [Scanner.stack, show s.outer = [.root] from ho]
    rcases hm with hm | hm <;> rw [hm]
    · exact .inr (.inl rfl)
    · exact .inr (.inr rfl)

theorem Placed.between {s : Scanner (.ofDialect d)} (h : Placed (s.mode, s.outer) s.cursor)
    (hm : s.mode ≠ .root) : s.outer = [.root] ∧ s.cursor.BetweenLines := by
  rcases h with h | ⟨_, ho, hc⟩
  · exact absurd (Prod.mk.inj h).1 hm
  · exact ⟨ho, hc⟩

theorem move_ne_leave_root (d : Dialect) :
    ∀ p ∈ (Grammar.ofDialect d).rulesIn .root, p.2.move ≠ .leave := by
  cases d <;> decide

theorem Scanner.Reachable.nested {keep : Bool} {source : String} {s : Scanner (.ofDialect d)}
    (hs : Reachable (.onText (.ofDialect d) keep source) s) : s.Nested source := by
  have hp := hs.placed
  refine ⟨hp.stack, ⟨?_, ?_⟩, ?_, ?_⟩
  · rw [stack, List.getLast?_reverse]
    rfl
  · simp [stack, status, depth]
  · obtain ⟨xs, hx⟩ := hs.reaches
    obtain ⟨hcut, ho⟩ := Cursor.reads_ofText hx
    refine ⟨_, _, hcut, ho, fun hm => ?_⟩
    have hroot : s.mode ≠ .root := by
      intro hr
      rcases hm with hm | hm <;> simp [status, hr] at hm
    exact (hp.between hroot).2.cut hx
  · intro hit hh hl
    have hi := hs.informed_ofDialect
    rw [(firstMatch_hold (Grammar.numbered_ofDialect d s.mode) hi).1] at hh
    obtain ⟨⟨n, hn⟩, _⟩ := firstHit_mem hh
    have hroot : s.mode ≠ .root := by
      intro hr
      rw [hr] at hn
      exact move_ne_leave_root d _ hn hl
    rw [depth, (hp.between hroot).1]
    decide

/-- Whatever a host does, the outermost mode is open alone or below that of one
block. This holds of every scanner of the session, and of all that it passes
through from there on. -/
theorem session_nested (d : Dialect) (keep : Bool) (source : String) (ks : List Command) :
    ∀ s ∈ ((Session.start (.onText (.ofDialect d) keep source)).performAll ks).value.2.scanners,
      ∀ u, s.Reachable u → u.Nested source :=
  fun s hs _ hu => ((Session.reachable_start _ ks s hs).trans hu).nested

/-- A copy that was put aside inside a block, taken up again after the text had ended. -/
theorem session_nested_block :
    let session := ((Session.start (.onText (.ofDialect .current) true
      "textblock a\r\nあ\nendtextblock;")).performAll [.next, .fork, .drain, .restore]).value.2
    session.scanner.stack = [.root, .block] ∧ session.scanner.status.position = 13 ∧
      session.scanner.Nested "textblock a\r\nあ\nendtextblock;" := by
  intro session
  have hfacts : session.scanner.stack = [.root, .block] ∧
      session.scanner.status.position = 13 := by
    decide +kernel
  obtain ⟨hstack, hposition⟩ := hfacts
  exact ⟨hstack, hposition,
    session_nested .current true _ _ session.scanner List.mem_cons_self session.scanner .start⟩

end Highlighter
