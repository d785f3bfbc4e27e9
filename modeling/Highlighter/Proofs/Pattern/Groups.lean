import Highlighter.Proofs.Pattern.Reads

/-!
# Groups that leave nothing out

A pattern may be a row of groups, numbered through, with nothing between them
that takes text. `Pattern.groupsFrom` decides whether it is. The captures of a
match then follow on one another from its start to its end, so tokens made of
them lose no character of it.
-/

set_option autoImplicit false

namespace Highlighter

namespace Pattern

def groupless : Pattern → Bool
  | .seq a b => a.groupless && b.groupless
  | .alt a b => a.groupless && b.groupless
  | .group _ _ => false
  | _ => true

def groupsFrom : Pattern → Nat → Option Nat
  | .empty, n => some n
  | .wordEdge, n => some n
  | .textEnd, n => some n
  | .seq a b, n => (a.groupsFrom n).bind b.groupsFrom
  | .group k a, n => if k = n && a.groupless then some (n + 1) else none
  | _, _ => none

end Pattern

inductive Capture.Chain : Nat → Cursor → List Capture → Nat → Cursor → Prop
  | nil (n : Nat) (c : Cursor) : Chain n c [] n c
  | cons {n m : Nat} {c d e : Cursor} {ks : List Capture} : c.Reaches d →
      Chain (n + 1) d ks m e → Chain n c (⟨n, c, d⟩ :: ks) m e

namespace Capture.Chain

theorem append {n m l : Nat} {c d e : Cursor} {ks ls : List Capture} (h : Chain n c ks m d)
    (k : Chain m d ls l e) : Chain n c (ks ++ ls) l e := by
  induction h with
  | nil n c => exact k
  | cons hr _ ih => exact .cons hr (ih k)

theorem number_ge {n m : Nat} {c d : Cursor} {ks : List Capture} (h : Chain n c ks m d) :
    ∀ k ∈ ks, n ≤ k.number := by
  induction h with
  | nil n c => simp
  | cons _ _ ih =>
    intro k hk
    rcases List.mem_cons.mp hk with rfl | hk
    · exact Nat.le_refl _
    · have := ih k hk
      omega

theorem number_eq {n m : Nat} {c d : Cursor} {ks : List Capture} (h : Chain n c ks m d) :
    m = n + ks.length := by
  induction h with
  | nil n c => rfl
  | cons _ _ ih =>
    rw [ih, List.length_cons]
    omega

/-- No number occurs twice, so the latest capture with a number is the one in the chain. -/
theorem find_number {n m : Nat} {c d : Cursor} {ks : List Capture} (h : Chain n c ks m d) :
    ∀ k ∈ ks, ks.reverse.find? (·.number == k.number) = some k := by
  induction h with
  | nil n c => simp
  | @cons n m c d e ks _ ht ih =>
    intro k hk
    rw [List.reverse_cons, List.find?_append]
    rcases List.mem_cons.mp hk with rfl | hk
    · have hn : ks.reverse.find? (·.number == n) = none := by
        rw [List.find?_eq_none]
        intro l hl
        have := ht.number_ge l (List.mem_reverse.mp hl)
        simp
        omega
      rw [hn]
      simp
    · rw [ih k hk]
      rfl

end Capture.Chain

namespace Pattern

theorem captures_of_groupless {a : Pattern} (ha : a.groupless = true) {p q : Path}
    (h : q ∈ a.paths p) : q.captures = p.captures := by
  induction a generalizing p q with
  | empty => rw [mem_paths_empty.mp h]
  | literal s => exact (mem_paths_literal.mp h).2
  | one k =>
    obtain ⟨_, _, hg⟩ := mem_paths_one.mp h
    exact hg.2
  | opt k =>
    rcases mem_paths_opt.mp h with rfl | ⟨_, _, hg⟩
    · rfl
    · exact hg.2
  | star k =>
    obtain ⟨_, _, hg⟩ := mem_paths_star.mp h
    exact hg.2
  | plus k =>
    obtain ⟨_, _, hg⟩ := mem_paths_plus.mp h
    exact hg.2
  | wordEdge => rw [(mem_paths_wordEdge.mp h).2]
  | textEnd => rw [(mem_paths_textEnd.mp h).2]
  | seq a b iha ihb =>
    obtain ⟨hga, hgb⟩ := Bool.and_eq_true_iff.mp ha
    obtain ⟨r, hr, hq⟩ := mem_paths_seq.mp h
    rw [ihb hgb hq, iha hga hr]
  | alt a b iha ihb =>
    obtain ⟨hga, hgb⟩ := Bool.and_eq_true_iff.mp ha
    rcases mem_paths_alt.mp h with h | h
    · exact iha hga h
    · exact ihb hgb h
  | group n a _ => simp [groupless] at ha

/-- The captures of a row of groups, the latest in front, are a chain. -/
theorem chain_of_groupsFrom {a : Pattern} {n m : Nat} (ha : a.groupsFrom n = some m) {p q : Path}
    (h : q ∈ a.paths p) :
    ∃ ks, Capture.Chain n p.cursor ks m q.cursor ∧ q.captures = ks.reverse ++ p.captures := by
  induction a generalizing n m p q with
  | empty =>
    obtain rfl := Option.some.inj ha
    rw [mem_paths_empty.mp h]
    exact ⟨[], .nil _ _, rfl⟩
  | wordEdge =>
    obtain rfl := Option.some.inj ha
    rw [(mem_paths_wordEdge.mp h).2]
    exact ⟨[], .nil _ _, rfl⟩
  | textEnd =>
    obtain rfl := Option.some.inj ha
    rw [(mem_paths_textEnd.mp h).2]
    exact ⟨[], .nil _ _, rfl⟩
  | seq a b iha ihb =>
    obtain ⟨l, hla, hlb⟩ := Option.bind_eq_some_iff.mp ha
    obtain ⟨r, hr, hq⟩ := mem_paths_seq.mp h
    obtain ⟨ks, hk, hc⟩ := iha hla hr
    obtain ⟨ls, hl, hd⟩ := ihb hlb hq
    exact ⟨ks ++ ls, hk.append hl, by rw [hd, hc, List.reverse_append, List.append_assoc]⟩
  | group k a _ =>
    simp only [groupsFrom, Bool.and_eq_true, decide_eq_true_eq] at ha
    split at ha
    · rename_i hg
      obtain rfl := Option.some.inj ha
      obtain ⟨rfl, hl⟩ := hg
      obtain ⟨r, hr, rfl⟩ := mem_paths_group.mp h
      have hc := captures_of_groupless hl hr
      exact ⟨_, .cons (reaches_of_mem_paths hr) (.nil _ _), by simp [hc]⟩
    · simp at ha
  | _ => simp [groupsFrom] at ha

end Pattern

end Highlighter
