import Highlighter.Grammar.Declared

/-!
# Numbers of rules

In a composed grammar a number belongs to one rule, in whichever modes the
rule applies: the numbers that a mode's table gives are places in the full
list. What is known about a rule under its number may then be used in every
mode.
-/

set_option autoImplicit false

namespace Highlighter

namespace Declaration

theorem mem_numbered {n k : Nat} {r : Rule} {rs : List Rule} (h : (k, r) ∈ numbered n rs) :
    n ≤ k ∧ rs[k - n]? = some r := by
  induction rs generalizing n with
  | nil => simp [numbered] at h
  | cons s rs ih =>
    rcases List.mem_cons.mp h with heq | ht
    · obtain ⟨rfl, rfl⟩ := Prod.mk.inj heq
      simp
    · obtain ⟨hle, hr⟩ := ih ht
      have hk : k - n = k - (n + 1) + 1 := by omega
      rw [hk]
      exact ⟨by omega, hr⟩

/-- The own rules of a mode stand together in the full list. -/
theorem rules_at (d : Declaration) (m : Mode) (i : Nat) (r : Rule)
    (h : (d.ownRules m)[i]? = some r) : d.rules[d.rulesBefore m + i]? = some r := by
  have hs : ∃ later, d.rules =
      (Mode.all.takeWhile (· ≠ m)).flatMap d.ownRules ++ (d.ownRules m ++ later) := by
    have hm : ∃ after, Mode.all = Mode.all.takeWhile (· ≠ m) ++ m :: after := by
      cases m <;> exact ⟨_, rfl⟩
    obtain ⟨after, ha⟩ := hm
    refine ⟨after.flatMap d.ownRules, ?_⟩
    rw [rules, ha, List.flatMap_append, List.flatMap_cons, ← ha]
  obtain ⟨later, hl⟩ := hs
  rw [hl, rulesBefore, List.getElem?_append_right (by omega), Nat.add_sub_cancel_left]
  have hi : i < (d.ownRules m).length := (List.getElem?_eq_some_iff.mp h).1
  rw [List.getElem?_append_left hi]
  exact h

theorem mem_ownNumbered {d : Declaration} {m : Mode} {n : Nat} {r : Rule}
    (h : (n, r) ∈ d.ownNumbered m) : d.rules[n]? = some r := by
  obtain ⟨hle, hr⟩ := mem_numbered h
  have hn := d.rules_at m _ r hr
  rwa [Nat.add_sub_of_le hle] at hn

theorem mem_spread {d : Declaration} {n k : Nat} {r : Rule} {cs : List Clause}
    (h : (k, r) ∈ d.spread n cs) :
    (n ≤ k ∧ (cs.filterMap Clause.rule?)[k - n]? = some r) ∨ d.rules[k]? = some r := by
  induction cs generalizing n with
  | nil => simp [spread] at h
  | cons c cs ih =>
    cases c with
    | rule s =>
      rcases List.mem_cons.mp h with heq | ht
      · obtain ⟨rfl, rfl⟩ := Prod.mk.inj heq
        exact .inl (by simp [Clause.rule?])
      · rcases ih ht with ⟨hle, hr⟩ | hr
        · have hk : k - n = k - (n + 1) + 1 := by omega
          refine .inl ⟨by omega, ?_⟩
          rw [hk]
          exact hr
        · exact .inr hr
    | rulesOf m =>
      rcases List.mem_append.mp h with ho | ht
      · exact .inr (mem_ownNumbered ho)
      · exact ih ht

theorem mem_effective {d : Declaration} {m : Mode} {n : Nat} {r : Rule}
    (h : (n, r) ∈ d.effective m) : d.rules[n]? = some r := by
  rcases mem_spread h with ⟨hle, hr⟩ | hr
  · have hn := d.rules_at m _ r hr
    rwa [Nat.add_sub_of_le hle] at hn
  · exact hr

end Declaration

namespace Grammar

def Numbered (g : Grammar) : Prop :=
  ∀ m n r, (n, r) ∈ g.rulesIn m → g.rules[n]? = some r

theorem numbered_compose (dialect : Dialect) (d : Declaration) (v : Vocabulary) :
    (compose dialect d v).Numbered := by
  intro m n r h
  rw [rulesIn_compose] at h
  exact Declaration.mem_effective h

theorem numbered_ofDialect (d : Dialect) : (ofDialect d).Numbered := by
  rw [ofDialect_eq]
  exact numbered_compose _ _ _

end Grammar

theorem vocabulary_ofDialect (d : Dialect) :
    (Grammar.ofDialect d).vocabulary = Vocabulary.ofDialect d := by
  cases d <;> rfl

end Highlighter
