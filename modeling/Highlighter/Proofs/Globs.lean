import Mathlib.Data.List.Infix
import Mathlib.Data.List.Forall2
import Highlighter.Glob

/-!
# What a file name pattern matches

A name matches a pattern if it can be split into a part for each character of the
pattern: any part for a `*`, one character for a `?`, and the character itself for
any other. The matcher gives back the same answer with one restriction: a `*` that
comes to stand at a `*` of the name takes that character and no more. So it accepts
no name that does not match, and of the names without a `*` it accepts all that do.

It remembers one `*` only, which is enough: an attempt that begins later in the name
is never ahead of an earlier one in the pattern.
-/

set_option autoImplicit false

namespace Highlighter

namespace Glob

def Takes (p : Char) (part : List Char) : Prop :=
  if p = '*' then True else if p = '?' then part.length = 1 else part = [p]

def Matches (pattern name : List Char) : Prop :=
  ∃ parts, List.Forall₂ Takes pattern parts ∧ parts.flatten = name

/-- A split in which each `*` that stands at a `*` of the name takes it alone. -/
inductive Fits : List Char → List Char → Prop
  | done : Fits [] []
  | part {p : Char} {ps part rest : List Char} : Takes p part →
      (p = '*' → (part ++ rest).head? = some '*' → part = ['*']) → Fits ps rest →
      Fits (p :: ps) (part ++ rest)

def FitsEnd (pattern name : List Char) : Prop := ∃ rest, rest <:+ name ∧ Fits pattern rest

section Splits

variable {p x : Char} {ps xs ys : List Char}

theorem takes_star (part : List Char) : Takes '*' part := by
  rw [Takes, if_pos rfl]
  trivial

theorem takes_single (h : p = '?' ∨ p = x) : Takes p [x] := by
  unfold Takes
  split_ifs with hstar hany
  · rfl
  · rw [h.resolve_left hany]

theorem eq_single_of_takes {part : List Char} (h : Takes p part) (hp : p ≠ '*') :
    ∃ c, part = [c] ∧ (p = '?' ∨ p = c) := by
  rw [Takes, if_neg hp] at h
  split at h
  · rename_i hany
    obtain ⟨c, rfl⟩ := List.length_eq_one_iff.mp h
    exact ⟨c, rfl, .inl hany⟩
  · exact ⟨p, h, .inr rfl⟩

theorem Fits.isMatch (h : Fits ps xs) : Matches ps xs := by
  induction h with
  | done => exact ⟨[], .nil, rfl⟩
  | @part p ps part rest htakes _ _ ih =>
    obtain ⟨parts, hparts, hflat⟩ := ih
    exact ⟨part :: parts, .cons htakes hparts, by rw [List.flatten_cons, hflat]⟩

theorem Matches.fits (h : Matches ps xs) (hx : '*' ∉ xs) : Fits ps xs := by
  obtain ⟨parts, hparts, rfl⟩ := h
  induction hparts with
  | nil => exact .done
  | @cons p part ps parts htakes _ ih =>
    rw [List.flatten_cons] at hx ⊢
    refine .part htakes (fun _ hhead => ?_) (ih fun h => hx (List.mem_append_right _ h))
    exact absurd (List.mem_of_mem_head? hhead) hx

theorem fits_nil_cons : ¬ Fits [] (x :: xs) := by
  rintro ⟨⟩

theorem fits_cons : Fits (p :: ps) xs ↔ ∃ part rest, xs = part ++ rest ∧ Takes p part ∧
    (p = '*' → xs.head? = some '*' → part = ['*']) ∧ Fits ps rest := by
  constructor
  · rintro ⟨⟩
    exact ⟨_, _, rfl, ‹_›, ‹_›, ‹_›⟩
  · rintro ⟨part, rest, rfl, htakes, hstar, hfits⟩
    exact .part htakes hstar hfits

/-- A character that stands for the next one of the name takes it and no more. -/
theorem fits_single (h : p = '?' ∨ p = x) : Fits (p :: ps) (x :: xs) ↔ Fits ps xs := by
  rw [fits_cons]
  constructor
  · rintro ⟨part, rest, hx, htakes, hstar, hfits⟩
    have hpart : ∃ c, part = [c] := by
      by_cases hp : p = '*'
      · have hx' : x = '*' := by
          rcases h with rfl | rfl
          · exact absurd hp (by decide)
          · exact hp
        exact ⟨'*', hstar hp (by rw [hx', List.head?_cons])⟩
      · obtain ⟨c, hc, _⟩ := eq_single_of_takes htakes hp
        exact ⟨c, hc⟩
    obtain ⟨c, rfl⟩ := hpart
    obtain ⟨_, rfl⟩ := List.cons.inj hx
    exact hfits
  · intro hfits
    refine ⟨[x], xs, rfl, takes_single h, fun hp hx => ?_, hfits⟩
    rw [Option.some.inj hx]

theorem not_fits_of_ne (hany : p ≠ '?') (hne : p ≠ x) (hstar : p ≠ '*') :
    ¬ Fits (p :: ps) (x :: xs) := by
  rw [fits_cons]
  rintro ⟨part, rest, hx, htakes, _, _⟩
  obtain ⟨c, rfl, hc⟩ := eq_single_of_takes htakes hstar
  obtain ⟨rfl, _⟩ := List.cons.inj hx
  exact hc.elim hany hne

/-- Where the name is used up, only stars may be left. -/
theorem fits_nil : Fits ps [] ↔ ps.all (· == '*') = true := by
  induction ps with
  | nil => exact ⟨fun _ => rfl, fun _ => .done⟩
  | cons p ps ih =>
    rw [fits_cons, List.all_cons, Bool.and_eq_true, beq_iff_eq, ← ih]
    constructor
    · rintro ⟨part, rest, hx, htakes, _, hfits⟩
      obtain ⟨rfl, rfl⟩ := List.append_eq_nil_iff.mp hx.symm
      refine ⟨?_, hfits⟩
      by_contra hp
      obtain ⟨c, hc, _⟩ := eq_single_of_takes htakes hp
      cases hc
    · rintro ⟨rfl, hfits⟩
      exact ⟨[], [], rfl, takes_star [], fun _ hx => (by cases hx), hfits⟩

theorem FitsEnd.mono (h : FitsEnd ps xs) (hs : xs <:+ ys) : FitsEnd ps ys := by
  obtain ⟨rest, hrest, hfits⟩ := h
  exact ⟨rest, hrest.trans hs, hfits⟩

/-- Whatever its first character takes, the rest of a pattern fits an end. -/
theorem Fits.fitsEnd (h : Fits (p :: ps) xs) : FitsEnd ps xs := by
  obtain ⟨part, rest, rfl, _, _, hfits⟩ := fits_cons.mp h
  exact ⟨rest, List.suffix_append part rest, hfits⟩

theorem FitsEnd.tail (h : FitsEnd (p :: ps) xs) : FitsEnd ps xs := by
  obtain ⟨rest, hrest, hfits⟩ := h
  exact hfits.fitsEnd.mono hrest

theorem FitsEnd.fits (h : FitsEnd ps []) : Fits ps [] := by
  obtain ⟨rest, hrest, hfits⟩ := h
  rwa [List.suffix_nil.mp hrest] at hfits

theorem fitsEnd_iff : FitsEnd ps xs ↔ Fits ps xs ∨ FitsEnd ps xs.tail := by
  constructor
  · intro h
    cases xs with
    | nil => exact .inl h.fits
    | cons x xs =>
      obtain ⟨rest, hrest, hfits⟩ := h
      rcases List.suffix_cons_iff.mp hrest with rfl | hrest
      · exact .inl hfits
      · exact .inr ⟨rest, hrest, hfits⟩
  · rintro (hfits | hend)
    · exact ⟨xs, List.suffix_rfl, hfits⟩
    · exact hend.mono (List.tail_suffix xs)

theorem fits_star (h : xs.head? ≠ some '*') : Fits ('*' :: ps) xs ↔ FitsEnd ps xs := by
  constructor
  · exact Fits.fitsEnd
  · rintro ⟨rest, ⟨part, rfl⟩, hfits⟩
    exact .part (takes_star part) (fun _ hx => absurd hx h) hfits

/-- An attempt that begins later is not ahead once the next character is taken. -/
theorem FitsEnd.single (h : FitsEnd (p :: ps) (x :: xs)) (hp : p = '?' ∨ p = x) :
    FitsEnd ps xs := by
  rcases fitsEnd_iff.mp h with hfits | hend
  · exact fitsEnd_iff.mpr (.inl ((fits_single hp).mp hfits))
  · exact hend.tail

end Splits

variable {pattern name : Array Char}

def State.patternLeft (s : State pattern name) : List Char := pattern.toList.drop s.inPattern

def State.nameLeft (s : State pattern name) : List Char := name.toList.drop s.inName

def Retry.patternLeft (r : Retry pattern name) : List Char := pattern.toList.drop (r.star + 1)

def Retry.nameLeft (r : Retry pattern name) : List Char := name.toList.drop (r.taken + 1)

def Retry.Succeeds (r : Retry pattern name) : Prop := FitsEnd r.patternLeft r.nameLeft

def State.Succeeds (s : State pattern name) : Prop :=
  Fits s.patternLeft s.nameLeft ∨ ∃ r ∈ s.retry, r.Succeeds

def State.Ahead (s : State pattern name) : Prop :=
  ∀ r ∈ s.retry, r.Succeeds → FitsEnd s.patternLeft s.nameLeft

inductive Leads (s : State pattern name) : Turn pattern name → Prop
  | ended : s.nameLeft = [] → Leads s (.verdict (s.patternLeft.all (· == '*')))
  | single {t : State pattern name} {p x : Char} : s.patternLeft = p :: t.patternLeft →
      s.nameLeft = x :: t.nameLeft → p = '?' ∨ p = x → t.retry = s.retry → Leads s (.goOn t)
  | star {t : State pattern name} {r : Retry pattern name} {x : Char} :
      s.patternLeft = '*' :: t.patternLeft → s.nameLeft = x :: r.nameLeft → x ≠ '*' →
      t.nameLeft = s.nameLeft → t.retry = some r → r.patternLeft = t.patternLeft →
      Leads s (.goOn t)
  | lost : ¬ Fits s.patternLeft s.nameLeft → s.retry = none → Leads s (.verdict false)
  | again {t : State pattern name} {r next : Retry pattern name} :
      ¬ Fits s.patternLeft s.nameLeft → s.retry = some r → t.patternLeft = r.patternLeft →
      t.nameLeft = r.nameLeft → t.retry = some next → next.patternLeft = r.patternLeft →
      next.nameLeft = r.nameLeft.tail → Leads s (.goOn t)

theorem nameLeft_of_lt {s : State pattern name} (h : s.inName < name.size) :
    s.nameLeft = name[s.inName] :: name.toList.drop (s.inName + 1) := by
  rw [State.nameLeft, List.drop_eq_getElem_cons (by simpa using h), Array.getElem_toList]

theorem patternLeft_of_lt {s : State pattern name} (h : s.inPattern < pattern.size) :
    s.patternLeft = pattern[s.inPattern] :: pattern.toList.drop (s.inPattern + 1) := by
  rw [State.patternLeft, List.drop_eq_getElem_cons (by simpa using h), Array.getElem_toList]

theorem leads_retryFrom {s : State pattern name} (h : s.inName < name.size)
    (hstuck : ¬ Fits s.patternLeft s.nameLeft) : Leads s (s.retryFrom h) := by
  unfold State.retryFrom
  split
  · rename_i hnone
    exact .lost hstuck hnone
  · rename_i r hr
    exact .again hstuck hr rfl rfl rfl rfl (by simp [Retry.nameLeft])

theorem leads_step (s : State pattern name) : Leads s (step s) := by
  unfold step
  split
  · rename_i hn
    have hname := nameLeft_of_lt hn
    split
    · rename_i hp
      have hpattern := patternLeft_of_lt hp
      split
      · rename_i hsingle
        exact .single hpattern hname hsingle rfl
      · rename_i hsingle
        obtain ⟨hany, hne⟩ := not_or.mp hsingle
        split
        · rename_i hstar
          rw [hstar] at hpattern hne
          exact .star hpattern hname (Ne.symm hne) rfl rfl rfl
        · rename_i hstar
          apply leads_retryFrom
          rw [hpattern, hname]
          exact not_fits_of_ne hany hne hstar
    · rename_i hp
      apply leads_retryFrom
      rw [State.patternLeft, List.drop_eq_nil_of_le (by simpa using hp), hname]
      exact fits_nil_cons
  · rename_i hn
    exact .ended (List.drop_eq_nil_of_le (by simpa using hn))

/-- A turn that goes on changes nothing about the outcome. -/
theorem Leads.goOn {s t : State pattern name} (h : Leads s (.goOn t)) (hs : s.Ahead) :
    t.Ahead ∧ (t.Succeeds ↔ s.Succeeds) := by
  cases h with
  | single hp hn hsingle hr =>
    rw [State.Ahead, hp, hn] at hs
    rw [State.Ahead, State.Succeeds, State.Succeeds, hr, hp, hn, fits_single hsingle]
    exact ⟨fun r hmem hlater => (hs r hmem hlater).single hsingle, Iff.rfl⟩
  | @star _ r x hp hn hx hname hr hbehind =>
    have hhead : s.nameLeft.head? ≠ some '*' := by
      rw [hn, List.head?_cons]
      exact fun h => hx (Option.some.inj h)
    have hnow : t.Succeeds ↔ FitsEnd t.patternLeft s.nameLeft := by
      rw [fitsEnd_iff, hn, List.tail_cons, ← hn, State.Succeeds, hr, hname]
      simp only [Option.mem_some_iff, exists_eq_left', Retry.Succeeds, hbehind]
    constructor
    · intro q hq hlater
      rw [hname, ← hnow]
      exact .inr ⟨q, hq, hlater⟩
    · rw [hnow, ← fits_star hhead, ← hp]
      constructor
      · exact .inl
      · rintro (hfits | ⟨q, hq, hlater⟩)
        · exact hfits
        · have hend := hs q hq hlater
          rw [hp] at hend ⊢
          exact (fits_star hhead).mpr hend.tail
  | @again _ r next hstuck hr hp hn hnext hbehind htail =>
    have hnow : t.Succeeds ↔ r.Succeeds := by
      rw [Retry.Succeeds, fitsEnd_iff, State.Succeeds, hnext, hp, hn]
      simp only [Option.mem_some_iff, exists_eq_left', Retry.Succeeds, hbehind, htail]
    constructor
    · intro q hq hlater
      rw [hp, hn]
      exact hnow.mp (.inr ⟨q, hq, hlater⟩)
    · rw [hnow, State.Succeeds, hr]
      simp only [Option.mem_some_iff, exists_eq_left', hstuck, false_or]

theorem Leads.verdict {s : State pattern name} {b : Bool} (h : Leads s (.verdict b))
    (hs : s.Ahead) : b = true ↔ s.Succeeds := by
  cases h with
  | ended hn =>
    rw [← fits_nil, State.Succeeds, hn]
    constructor
    · exact .inl
    · rintro (hfits | ⟨r, hr, hlater⟩)
      · exact hfits
      · have hend := hs r hr hlater
        rw [hn] at hend
        exact hend.fits
  | lost hstuck hr =>
    rw [State.Succeeds, hr]
    simp [hstuck]

/-- While no later attempt is ahead, the run finds out whether one succeeds. -/
theorem run_iff {s : State pattern name} (hs : s.Ahead) : run s = true ↔ s.Succeeds := by
  fun_induction run s with
  | case1 s b hb =>
    have hleads := leads_step s
    rw [hb] at hleads
    exact hleads.verdict hs
  | case2 s t ht _ ih =>
    have hleads := leads_step s
    rw [ht] at hleads
    obtain ⟨hahead, hsame⟩ := hleads.goOn hs
    rw [ih hahead, hsame]

end Glob

theorem globMatches_eq_true (pattern name : String) :
    globMatches pattern name = true ↔ Glob.Fits pattern.toList name.toList := by
  have hahead : (Glob.State.start pattern.toList.toArray name.toList.toArray).Ahead := by
    rintro r ⟨⟩
  rw [globMatches, Glob.run_iff hahead, Glob.State.Succeeds]
  simp [Glob.State.patternLeft, Glob.State.nameLeft, Glob.State.start]

/-- The matcher accepts exactly the names that fit, and these match. So its answer is
right if the name fits or does not match, as it does or does not if it has no `*`. -/
theorem globMatches_iff (pattern name : String) :
    (globMatches pattern name = true ↔ Glob.Fits pattern.toList name.toList) ∧
    ((globMatches pattern name = true ↔ Glob.Matches pattern.toList name.toList) ↔
      (Glob.Matches pattern.toList name.toList → Glob.Fits pattern.toList name.toList)) ∧
    ('*' ∉ name.toList →
      (globMatches pattern name = true ↔ Glob.Matches pattern.toList name.toList)) := by
  have hfits := globMatches_eq_true pattern name
  refine ⟨hfits, ?_, ?_⟩
  · rw [hfits]
    exact ⟨Iff.mpr, fun h => ⟨Glob.Fits.isMatch, h⟩⟩
  · intro hstar
    rw [hfits]
    exact ⟨Glob.Fits.isMatch, fun h => h.fits hstar⟩

/-- Two stars, a `?` and a dot, in a name without a star. -/
theorem globMatches_iff_report :
    '*' ∉ "report.v2.uws".toList ∧ globMatches "*.?2*" "report.v2.uws" = true ∧
      Glob.Matches "*.?2*".toList "report.v2.uws".toList := by
  have hstar : '*' ∉ "report.v2.uws".toList := by decide
  have hmatch : globMatches "*.?2*" "report.v2.uws" = true := by decide +kernel
  obtain ⟨_, _, hright⟩ := globMatches_iff "*.?2*" "report.v2.uws"
  exact ⟨hstar, hmatch, (hright hstar).mp hmatch⟩

/-- The star of the pattern takes the star of the name, and then does not take the
letter behind it. -/
theorem globMatches_star_at_star :
    ¬ (globMatches "*.uws" "*a.uws" = true ↔
      Glob.Matches "*.uws".toList "*a.uws".toList) := by
  have hrefused : globMatches "*.uws" "*a.uws" = false := by decide +kernel
  have hmatch : Glob.Matches "*.uws".toList "*a.uws".toList := by
    refine ⟨[['*', 'a'], ['.'], ['u'], ['w'], ['s']], ?_, rfl⟩
    simp [Glob.Takes]
  rw [hrefused]
  exact fun h => Bool.false_ne_true (h.mpr hmatch)

end Highlighter
