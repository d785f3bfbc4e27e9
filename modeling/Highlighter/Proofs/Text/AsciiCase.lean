import Highlighter.Text.Lowercase

/-!
# The case of ASCII letters

In lower case an ASCII character is one ASCII character, whatever stands beside
it. So a text of such characters goes to lower case letter by letter. In any text the
case of the ASCII letters does not matter: neither for what becomes of them nor for
a capital sigma beside them.
-/

set_option autoImplicit false

namespace Highlighter.Text

theorem lowerChar_ascii : ∀ n < 128, lowerChar (Char.ofNat n) = (Char.ofNat n).toLower := by
  decide +kernel

theorem lowerAt_ascii {c : Char} (h : c.toNat < 128) (before rest : List Char) :
    lowerAt before c rest = [c.toLower] := by
  have hdotted : c ≠ '\u0130' := by
    rintro rfl
    exact absurd h (by decide)
  have hsigma : c ≠ 'Σ' := by
    rintro rfl
    exact absurd h (by decide)
  have hlower := lowerChar_ascii c.toNat h
  rw [Char.ofNat_toNat] at hlower
  rw [lowerAt, if_neg hdotted, if_neg hsigma, hlower]

theorem lowerFrom_ascii {cs : List Char} (h : ∀ c ∈ cs, c.toNat < 128) (before : List Char) :
    lowerFrom before cs = cs.map Char.toLower := by
  induction cs generalizing before with
  | nil => rfl
  | cons c cs ih =>
    obtain ⟨hc, hcs⟩ := List.forall_mem_cons.mp h
    rw [lowerFrom, lowerAt_ascii hc, ih hcs, List.map_cons, List.singleton_append]

theorem toList_toLower (s : String) : s.toLower.toList = s.toList.map Char.toLower :=
  String.toList_map

theorem lowercase_ascii {s : String} (h : ∀ c ∈ s.toList, c.toNat < 128) :
    lowercase s = s.toLower := by
  rw [lowercase, lowerFrom_ascii h, ← toList_toLower, String.ofList_toList]

/-- Nothing but ASCII characters goes to one by the case of its letters. -/
theorem ascii_of_toLower {c : Char} (h : c.toLower.toNat < 128) : c.toNat < 128 := by
  unfold Char.toLower at h
  split at h
  · rename_i hupper
    have hz : c.val.toNat ≤ 'Z'.val.toNat := hupper.2
    have hend : 'Z'.val.toNat < 128 := by decide
    exact Nat.lt_of_le_of_lt hz hend
  · exact h

theorem lowercase_of_toLower {s t : String} (h : s.toLower = t)
    (ht : ∀ c ∈ t.toList, c.toNat < 128) : lowercase s = t := by
  rw [lowercase_ascii, h]
  intro c hc
  apply ascii_of_toLower
  apply ht
  rw [← h, toList_toLower]
  exact List.mem_map_of_mem hc

theorem toLower_of_not_ascii {c : Char} (h : ¬ c.toNat < 128) : c.toLower = c := by
  unfold Char.toLower
  split
  · rename_i hupper
    have hz : c.val.toNat ≤ 'Z'.val.toNat := hupper.2
    have hend : 'Z'.val.toNat < 128 := by decide
    exact absurd (Nat.lt_of_le_of_lt hz hend) h
  · rfl

theorem kinds_toLower (c : Char) :
    isCaseIgnorable c.toLower = isCaseIgnorable c ∧ isCased c.toLower = isCased c := by
  by_cases hc : c.toNat < 128
  · have hkinds : ∀ n < 128, isCaseIgnorable (Char.ofNat n).toLower =
        isCaseIgnorable (Char.ofNat n) ∧
          isCased (Char.ofNat n).toLower = isCased (Char.ofNat n) := by decide +kernel
    have hn := hkinds c.toNat hc
    rwa [Char.ofNat_toNat] at hn
  · rw [toLower_of_not_ascii hc]
    exact ⟨rfl, rfl⟩

theorem meetsCased_toLower (cs : List Char) : meetsCased (cs.map Char.toLower) = meetsCased cs := by
  induction cs with
  | nil => rfl
  | cons c cs ih =>
    obtain ⟨hignorable, hcased⟩ := kinds_toLower c
    rw [List.map_cons, meetsCased, meetsCased, hignorable, hcased, ih]

theorem lowerAt_toLower (before : List Char) (c : Char) (rest : List Char) :
    lowerAt (before.map Char.toLower) c.toLower (rest.map Char.toLower) =
      lowerAt before c rest := by
  by_cases hc : c.toNat < 128
  · have hlower : ∀ n < 128, (Char.ofNat n).toLower.toNat < 128 ∧
        (Char.ofNat n).toLower.toLower = (Char.ofNat n).toLower := by decide +kernel
    obtain ⟨hascii, htwice⟩ := hlower c.toNat hc
    rw [Char.ofNat_toNat] at hascii htwice
    rw [lowerAt_ascii hascii, lowerAt_ascii hc, htwice]
  · rw [toLower_of_not_ascii hc]
    rw [lowerAt, lowerAt, endsWord, endsWord, meetsCased_toLower, meetsCased_toLower]

theorem lowerFrom_toLower (before cs : List Char) :
    lowerFrom (before.map Char.toLower) (cs.map Char.toLower) = lowerFrom before cs := by
  induction cs generalizing before with
  | nil => rfl
  | cons c cs ih =>
    rw [List.map_cons, lowerFrom, lowerFrom, lowerAt_toLower, ← List.map_cons, ih]

/-- The case of ASCII letters is lost in lower case, and nothing else depends on it. -/
theorem lowercase_toLower (s : String) : lowercase s.toLower = lowercase s := by
  rw [lowercase, lowercase, toList_toLower, ← lowerFrom_toLower [] s.toList, List.map_nil]

end Highlighter.Text
