/-!
# Numerals

A number stands in a text as its digits, the highest first. The digits give the
number back in every base up to sixteen, and they are the only characters of it.
-/

set_option autoImplicit false

namespace Highlighter.Text

variable {base n d : Nat} {c : Char}

def digit? (base : Nat) (c : Char) : Option Nat :=
  (List.range base).find? fun d => Nat.digitChar d == c

def numeral? (base : Nat) (cs : List Char) : Option Nat :=
  cs.foldlM (fun n c => (digit? base c).map (base * n + ·)) 0

theorem digit_digitChar (hb : base ≤ 16) (hd : d < base) :
    digit? base (Nat.digitChar d) = some d := by
  have h : ∀ b < 17, ∀ e < b, digit? b (Nat.digitChar e) = some e := by decide
  exact h base (Nat.lt_succ_of_le hb) d hd

theorem mem_toDigits (hb : 1 < base) (h : c ∈ Nat.toDigits base n) :
    ∃ d < base, c = Nat.digitChar d := by
  induction n using Nat.strongRecOn with
  | ind n ih =>
    rw [Nat.toDigits_eq_if hb] at h
    split at h
    · rename_i hn
      exact ⟨n, hn, List.mem_singleton.mp h⟩
    · rename_i hn
      rcases List.mem_append.mp h with h | h
      · exact ih (n / base) (Nat.div_lt_self (by omega) hb) h
      · exact ⟨n % base, Nat.mod_lt _ (by omega), List.mem_singleton.mp h⟩

theorem not_mem_toDigits (hb : 1 < base) (hle : base ≤ 16) (hc : digit? base c = none) :
    c ∉ Nat.toDigits base n := by
  intro h
  obtain ⟨d, hd, rfl⟩ := mem_toDigits hb h
  rw [digit_digitChar hle hd] at hc
  cases hc

theorem numeral_toDigits (hb : 1 < base) (hle : base ≤ 16) (n : Nat) :
    numeral? base (Nat.toDigits base n) = some n := by
  induction n using Nat.strongRecOn with
  | ind n ih =>
    rw [Nat.toDigits_eq_if hb]
    split
    · rename_i hn
      simp [numeral?, digit_digitChar hle hn]
    · rename_i hn
      have hhigh := ih (n / base) (Nat.div_lt_self (by omega) hb)
      have hlow := digit_digitChar hle (Nat.mod_lt n (show 0 < base by omega))
      rw [numeral?] at hhigh ⊢
      rw [List.foldlM_append, hhigh]
      simp [hlow, Nat.div_add_mod]

end Highlighter.Text
