import Highlighter.Text.Lowercase

/-!
# Lower case is final

What a run of the table gives is in no run of it, and neither is what the dotted
capital I and a capital sigma become. So a text in lower case stays as it is, however
many characters came of one and whatever a sigma stood beside.
-/

set_option autoImplicit false

namespace Highlighter.Text

namespace CaseRun

/-- Nothing that the run gives is in the other run: the two lie apart, or the other
one holds every second code point and the run gives those between. -/
def misses (r s : CaseRun) : Bool :=
  Nat.blt (r.apply r.last) s.first || Nat.blt s.last r.lower ||
    (r.first == r.last || r.step == 2) && s.step == 2 && (r.lower + s.first) % 2 == 1

theorem covers_iff {r : CaseRun} {n : Nat} :
    r.covers n = true ↔ (r.first ≤ n ∧ n ≤ r.last) ∧ (n - r.first) % r.step = 0 := by
  simp only [covers, Bool.and_eq_true, decide_eq_true_eq, beq_iff_eq]

theorem not_covers_apply {r s : CaseRun} {n : Nat} (h : r.misses s = true)
    (hn : r.covers n = true) : s.covers (r.apply n) = false := by
  rw [← Bool.not_eq_true]
  intro hs
  obtain ⟨⟨hfirst, hlast⟩, hstep⟩ := covers_iff.mp hn
  obtain ⟨⟨hlow, hhigh⟩, hparity⟩ := covers_iff.mp hs
  simp only [misses, Bool.and_eq_true, Bool.or_eq_true, beq_iff_eq, Nat.blt_eq] at h
  simp only [apply] at h hlow hhigh hparity
  rcases h with (h | h) | ⟨⟨heven, htwo⟩, hodd⟩
  · omega
  · omega
  · rw [htwo] at hparity
    rcases heven with heq | htwo'
    · omega
    · rw [htwo'] at hstep
      omega

def dotted : CaseRun := ⟨0x130, 0x130, 1, 0x69⟩

end CaseRun

open CaseRun

theorem caseRuns_miss : caseRuns.all (fun r => (dotted :: caseRuns).all r.misses) = true := by
  decide +kernel

def Settled (c : Char) : Prop := ∀ r ∈ dotted :: caseRuns, r.covers c.toNat = false

instance : DecidablePred Settled := fun c =>
  inferInstanceAs (Decidable (∀ r ∈ dotted :: caseRuns, r.covers c.toNat = false))

theorem Settled.ne {c x : Char} (h : Settled c) (hx : ¬ Settled x) : c ≠ x := fun hc => hx (hc ▸ h)

theorem Settled.lowerChar_eq {c : Char} (h : Settled c) : lowerChar c = c := by
  have hnone : caseRuns.find? (·.covers c.toNat) = none := by
    rw [List.find?_eq_none]
    intro r hr
    rw [h r (List.mem_cons_of_mem _ hr)]
    exact Bool.false_ne_true
  rw [lowerChar, hnone]

theorem settled_lowerChar {c : Char} (h : c ≠ '\u0130') : Settled (lowerChar c) := by
  rw [lowerChar]
  cases hf : caseRuns.find? (·.covers c.toNat) with
  | none =>
    refine List.forall_mem_cons.mpr ⟨?_, fun r hr => ?_⟩
    · rw [← Bool.not_eq_true]
      intro hc
      obtain ⟨⟨hlow, hhigh⟩, _⟩ := covers_iff.mp hc
      apply h
      rw [← Char.ofNat_toNat c, Nat.le_antisymm hhigh hlow]
      rfl
    · rw [← Bool.not_eq_true]
      exact List.find?_eq_none.mp hf r hr
  | some r =>
    intro s hs
    have hcovers := List.find?_some hf
    have hall := List.all_eq_true.mp caseRuns_miss r (List.mem_of_find?_eq_some hf)
    have hmiss := not_covers_apply (List.all_eq_true.mp hall s hs) hcovers
    dsimp only
    by_cases hvalid : (r.apply c.toNat).isValidChar
    · rw [Char.ofNat, dif_pos hvalid]
      exact hmiss
    · have hzero : Settled '\x00' := by decide +kernel
      rw [Char.ofNat, dif_neg hvalid]
      exact hzero s hs

/-- What comes of a character has no other lower case, whatever stands beside it. -/
theorem settled_of_mem_lowerAt {before rest : List Char} {c x : Char}
    (h : x ∈ lowerAt before c rest) : Settled x := by
  rw [lowerAt] at h
  split at h
  · have hdots : Settled 'i' ∧ Settled '\u0307' := by decide +kernel
    simp only [List.mem_cons, List.not_mem_nil, or_false] at h
    rcases h with rfl | rfl
    · exact hdots.1
    · exact hdots.2
  · rename_i hdotted
    split at h
    · have hsigmas : Settled 'ς' ∧ Settled 'σ' := by decide +kernel
      rw [List.mem_singleton.mp h]
      split
      · exact hsigmas.1
      · exact hsigmas.2
    · rw [List.mem_singleton.mp h]
      exact settled_lowerChar hdotted

theorem settled_of_mem_lowerFrom {before cs : List Char} {x : Char}
    (h : x ∈ lowerFrom before cs) : Settled x := by
  induction cs generalizing before with
  | nil => cases h
  | cons c cs ih =>
    rw [lowerFrom] at h
    exact (List.mem_append.mp h).elim settled_of_mem_lowerAt ih

theorem Settled.lowerAt_eq {c : Char} (h : Settled c) (before rest : List Char) :
    lowerAt before c rest = [c] := by
  rw [lowerAt, if_neg (h.ne (by decide +kernel)), if_neg (h.ne (by decide +kernel)),
    h.lowerChar_eq]

theorem lowerFrom_of_settled {cs : List Char} (h : ∀ c ∈ cs, Settled c) (before : List Char) :
    lowerFrom before cs = cs := by
  induction cs generalizing before with
  | nil => rfl
  | cons c cs ih =>
    obtain ⟨hc, hcs⟩ := List.forall_mem_cons.mp h
    rw [lowerFrom, hc.lowerAt_eq, ih hcs, List.singleton_append]

/-- A text in lower case is its own lower case. -/
theorem lowercase_lowercase (s : String) : lowercase (lowercase s) = lowercase s := by
  have hsettled : ∀ c ∈ lowerFrom [] s.toList, Settled c := fun _ => settled_of_mem_lowerFrom
  rw [lowercase, lowercase, String.toList_ofList, lowerFrom_of_settled hsettled]

end Highlighter.Text
