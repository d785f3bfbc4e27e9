import Highlighter.Proofs.Scanner.Readings
import Highlighter.Proofs.Scanner.Sessions

/-!
# Searches that are spared

A step with a record of each search that it makes for a rule. What a scanner knows about
a rule is true of the full source, in whichever mode it was learned, and it suffices to
make no search twice: where one has found nothing none follows for that rule, and where
one has found the next match none follows in front of it.
-/

set_option autoImplicit false

namespace Highlighter

structure Search where
  number : Nat
  offset : Nat
  found : Option Nat
  deriving DecidableEq, Repr

def Outlook.askRecorded (k : Outlook) (number : Nat) (p : Pattern) (c : Cursor) :
    (Option Match × Outlook) × List Search :=
  if k.excludes c.offset then ((none, k), [])
  else
    match p.search? c with
    | none => ((none, .spent c.offset), [⟨number, c.offset, none⟩])
    | some m =>
      ((if m.takenAt c then some m else none, .ahead m.start.offset),
        [⟨number, c.offset, some m.start.offset⟩])

def firstMatchRecorded (c : Cursor) :
    List (Nat × Rule) → Outlooks → (Option Hit × Outlooks) × List Search
  | [], o => ((none, o), [])
  | (n, r) :: rest, o =>
    match (o.of n).askRecorded n r.pattern c with
    | ((some m, k), made) => ((some ⟨r, m⟩, o.learn n k), made)
    | ((none, k), made) =>
      match firstMatchRecorded c rest (o.learn n k) with
      | (found, more) => (found, made ++ more)

theorem Outlook.askRecorded_fst (k : Outlook) (number : Nat) (p : Pattern) (c : Cursor) :
    (k.askRecorded number p c).1 = k.ask p c := by
  unfold askRecorded ask
  split
  · rfl
  · cases p.search? c <;> rfl

theorem firstMatchRecorded_fst (c : Cursor) (table : List (Nat × Rule)) (o : Outlooks) :
    (firstMatchRecorded c table o).1 = firstMatch c table o := by
  fun_induction firstMatchRecorded c table o with
  | case1 o => rfl
  | case2 n r rest o m k made h =>
    have ha := (o.of n).askRecorded_fst n r.pattern c
    rw [h] at ha
    rw [firstMatch, ← ha]
  | case3 n r rest o k made h found more hmore ih =>
    have ha := (o.of n).askRecorded_fst n r.pattern c
    rw [h] at ha
    rw [firstMatch, ← ha]
    rwa [hmore] at ih

def Search.AllowsAt (a : Search) (offset : Nat) : Prop := ∃ n, a.found = some n ∧ n ≤ offset

def Search.Allows (a b : Search) : Prop := a.number = b.number → a.AllowsAt b.offset

/-- Each search was allowed by those before it. What is known now rules out, from the
offset on, any search that they do not allow. -/
structure Spared (past : List Search) (o : Outlooks) (offset : Nat) : Prop where
  pairwise : past.Pairwise Search.Allows
  excludes : ∀ a ∈ past, ∀ q, offset ≤ q → (o.of a.number).excludes q = false → a.AllowsAt q

namespace Outlooks

variable {o : Outlooks} {n i : Nat} {k : Outlook}

theorem size_learn (o : Outlooks) (n : Nat) (k : Outlook) : (o.learn n k).size = o.size :=
  Array.size_setIfInBounds

theorem of_learn_self (h : n < o.size) : (o.learn n k).of n = k := by
  simp [of, learn, h]

theorem of_learn_ne (h : i ≠ n) : (o.learn n k).of i = o.of i := by
  rcases o.of_learn n i k with he | ⟨hi, _⟩
  · exact he
  · exact absurd hi h

end Outlooks

theorem Search.AllowsAt.mono {a : Search} {offset later : Nat} (h : a.AllowsAt offset)
    (hle : offset ≤ later) : a.AllowsAt later := by
  obtain ⟨n, hn, ho⟩ := h
  exact ⟨n, hn, Nat.le_trans ho hle⟩

namespace Spared

variable {past : List Search} {o : Outlooks} {c : Cursor} {n offset later : Nat}
  {table : List (Nat × Rule)}

theorem start (o : Outlooks) (offset : Nat) : Spared [] o offset := ⟨.nil, by simp⟩

theorem mono (h : Spared past o offset) (hle : offset ≤ later) : Spared past o later :=
  ⟨h.pairwise, fun a ha q hq => h.excludes a ha q (Nat.le_trans hle hq)⟩

/-- To a search that the outlook does not rule out another outlook may be learned that
rules out what the search does not allow. -/
theorem search (h : Spared past o c.offset) (hn : n < o.size)
    (hreason : (o.of n).excludes c.offset = false) {k : Outlook} {found : Option Nat}
    (hk : ∀ q, c.offset ≤ q → k.excludes q = false →
      Search.AllowsAt ⟨n, c.offset, found⟩ q) :
    Spared (past ++ [⟨n, c.offset, found⟩]) (o.learn n k) c.offset := by
  have hpast : ∀ a ∈ past, a.number = n → a.AllowsAt c.offset := fun a ha hsame =>
    h.excludes a ha _ (Nat.le_refl _) (by rw [hsame, hreason])
  constructor
  · refine List.pairwise_append.mpr ⟨h.pairwise, List.pairwise_singleton _ _, ?_⟩
    intro a ha b hb hsame
    obtain rfl := List.mem_singleton.mp hb
    exact hpast a ha hsame
  · intro a ha q hq hnot
    rcases List.mem_append.mp ha with ha | ha
    · by_cases hsame : a.number = n
      · exact (hpast a ha hsame).mono hq
      · rw [Outlooks.of_learn_ne hsame] at hnot
        exact h.excludes a ha q hq hnot
    · obtain rfl := List.mem_singleton.mp ha
      rw [Outlooks.of_learn_self hn] at hnot
      exact hk q hq hnot

theorem ask (h : Spared past o c.offset) (hn : n < o.size) (p : Pattern) :
    let asked := (o.of n).askRecorded n p c
    Spared (past ++ asked.2) (o.learn n asked.1.2) c.offset := by
  intro asked
  cases he : (o.of n).excludes c.offset with
  | true =>
    have hasked : asked = ((none, o.of n), []) := by
      simp only [asked, Outlook.askRecorded, he, if_true]
    rw [hasked, List.append_nil]
    refine ⟨h.pairwise, fun a ha q hq hnot => h.excludes a ha q hq ?_⟩
    rcases o.of_learn n a.number (o.of n) with hsame | ⟨hnumber, hsame⟩
    · rwa [hsame] at hnot
    · rwa [hsame, ← hnumber] at hnot
  | false =>
    cases hs : p.search? c with
    | none =>
      have hasked : asked = ((none, .spent c.offset), [⟨n, c.offset, none⟩]) := by
        simp [asked, Outlook.askRecorded, he, hs]
      rw [hasked]
      refine h.search hn he fun q hq hnot => ?_
      simp [Outlook.excludes, hq] at hnot
    | some m =>
      have hasked : asked = ((if m.takenAt c then some m else none, .ahead m.start.offset),
          [⟨n, c.offset, some m.start.offset⟩]) := by
        simp [asked, Outlook.askRecorded, he, hs]
      rw [hasked]
      refine h.search hn he fun q hq hnot => ⟨m.start.offset, rfl, ?_⟩
      simpa [Outlook.excludes] using hnot

theorem firstMatch (h : Spared past o c.offset) (hn : ∀ n r, (n, r) ∈ table → n < o.size) :
    Spared (past ++ (firstMatchRecorded c table o).2) (firstMatchRecorded c table o).1.2 c.offset ∧
      (firstMatchRecorded c table o).1.2.size = o.size := by
  fun_induction firstMatchRecorded c table o generalizing past with
  | case1 o => exact ⟨by rwa [List.append_nil], rfl⟩
  | case2 n r rest o m k made hasked =>
    have ha := h.ask (hn n r List.mem_cons_self) r.pattern
    rw [hasked] at ha
    exact ⟨ha, o.size_learn n k⟩
  | case3 n r rest o k made hasked found more hmore ih =>
    have ha := h.ask (hn n r List.mem_cons_self) r.pattern
    rw [hasked] at ha
    have hsize := o.size_learn n k
    obtain ⟨hb, hs⟩ := ih ha fun i q hi => hsize.symm ▸ hn i q (List.mem_cons_of_mem _ hi)
    rw [hmore] at hb hs
    rw [List.append_assoc] at hb
    exact ⟨hb, hs.trans hsize⟩

end Spared

namespace Scanner

variable {g : Grammar} {first s : Scanner g} {made : List Search}

def searches (s : Scanner g) : List Search :=
  (firstMatchRecorded s.cursor (g.rulesIn s.mode) s.outlooks).2

inductive Searched (first : Scanner g) : List Search → Scanner g → Prop
  | start : Searched first [] first
  | step {made : List Search} {s : Scanner g} : Searched first made s → s.pending = [] →
      s.atEnd ≠ true → Searched first (made ++ s.searches) s.step.value
  | handOut {made : List Search} {s : Scanner g} {t : Token} {rest : List Token} :
      Searched first made s → s.pending = t :: rest → Searched first made { s with pending := rest }

theorem Reachable.searched (h : Reachable first s) : ∃ made, Searched first made s := by
  induction h with
  | start => exact ⟨[], .start⟩
  | step _ hp he ih =>
    obtain ⟨made, hs⟩ := ih
    exact ⟨_, hs.step hp he⟩
  | handOut _ hp ih =>
    obtain ⟨made, hs⟩ := ih
    exact ⟨made, hs.handOut hp⟩

theorem outlooks_step (s : Scanner g) :
    s.step.value.outlooks = (firstMatch s.cursor (g.rulesIn s.mode) s.outlooks).2 := by
  unfold step
  cases firstMatch s.cursor (g.rulesIn s.mode) s.outlooks with
  | mk hit o =>
    cases hit with
    | some hit => exact outlooks_take _ _
    | none => exact outlooks_passOver _

def Outfitted (s : Scanner g) : Prop := s.outlooks.size = g.rules.length

theorem Searched.spared (hg : g.Numbered) (h : Searched first made s) (ho : first.Outfitted) :
    s.Outfitted ∧ Spared made s.outlooks s.cursor.offset := by
  induction h with
  | start => exact ⟨ho, .start _ _⟩
  | @step made s _ _ _ ih =>
    obtain ⟨hsize, hspared⟩ := ih
    have hrules : ∀ n r, (n, r) ∈ g.rulesIn s.mode → n < s.outlooks.size := fun n r hr =>
      hsize ▸ (List.getElem?_eq_some_iff.mp (hg s.mode n r hr)).1
    obtain ⟨hmade, hkept⟩ := hspared.firstMatch hrules
    rw [firstMatchRecorded_fst, ← outlooks_step] at hmade hkept
    exact ⟨hkept.trans hsize, hmade.mono s.step_reaches.offset_le⟩
  | handOut _ _ ih => exact ih

end Scanner

def Pattern.StartsAt (p : Pattern) (source : String) (n : Nat) : Prop :=
  ∃ c m, c.chars = source.toList ∧ c.offset = n ∧ p.matchAt? c = some m

def Outlook.TrueAt : Outlook → Pattern → String → Nat → Prop
  | .unknown, _, _, _ => True
  | .ahead n, p, source, position =>
    p.StartsAt source n ∧ ∀ k, position ≤ k → k < n → ¬ p.StartsAt source k
  | .spent n, p, source, position => n ≤ position ∧ ∀ k, n ≤ k → ¬ p.StartsAt source k

theorem Outlook.Holds.trueAt {k : Outlook} {p : Pattern} {c : Cursor} {source : String}
    (h : k.Holds p c) (hc : c.chars = source.toList) : k.TrueAt p source c.offset := by
  cases k with
  | unknown => trivial
  | ahead n =>
    obtain ⟨⟨d, m, hd, ho, hm⟩, hnone⟩ := h
    refine ⟨⟨d, m, hd.trans hc, ho, hm⟩, ?_⟩
    rintro k hk hlt ⟨e, m, he, rfl, hm⟩
    rw [hnone e (Cursor.reaches_of_offset_le (hc.trans he.symm) hk) hlt] at hm
    cases hm
  | spent n =>
    obtain ⟨hn, hnone⟩ := h
    refine ⟨hn, ?_⟩
    rintro k hk ⟨e, m, he, rfl, hm⟩
    rw [hnone e (he.trans hc.symm) hk] at hm
    cases hm

/-- In every session, and in all that its scanners pass through from there on, there is an
outlook for each rule, and it is true of the source in whichever mode the scanner is.
Each of these scanners is reached with some searches from the first one. Of the searches
with which a scanner is reached, one that has found nothing is the last of its rule, and
behind one that has found a match the next of its rule is not in front of that match. -/
theorem session_outlooks (d : Dialect) (keep : Bool) (source : String) :
    let start := Scanner.onText (.ofDialect d) keep source
    (∀ ks, ∀ s ∈ ((Session.start start).performAll ks).value.2.scanners, ∀ u, s.Reachable u →
      (∀ (n : Nat) (r : Rule), (Grammar.ofDialect d).rules[n]? = some r →
        ∃ k : Outlook, u.outlooks[n]? = some k ∧ k.TrueAt r.pattern source u.status.position) ∧
      ∃ made, start.Searched made u) ∧
    ∀ made u, start.Searched made u → made.Pairwise Search.Allows := by
  intro start
  have hg := Grammar.numbered_ofDialect d
  have hstart : start.Outfitted := Array.size_replicate
  constructor
  · intro ks s hs u hu
    have hreach := (Session.reachable_start start ks s hs).trans hu
    obtain ⟨made, hmade⟩ := hreach.searched
    refine ⟨fun n r hr => ?_, made, hmade⟩
    have hn : n < u.outlooks.size := by
      rw [(hmade.spared hg hstart).1]
      exact (List.getElem?_eq_some_iff.mp hr).1
    have hk := hreach.informed_ofDialect n r hr
    rw [Outlooks.of, Array.getD_eq_getD_getElem?, Array.getElem?_eq_getElem hn] at hk
    exact ⟨_, Array.getElem?_eq_getElem hn, hk.trueAt hreach.reaches.chars⟩
  · intro made u hmade
    exact (hmade.spared hg hstart).2.pairwise

/-- In a copy that is taken up again inside a block: what was learned about quoted text
outside of it, that there is none in double quotes and some behind the next line. -/
theorem session_outlooks_block :
    let source := "if \"textblock\nあ\n'x' //"
    let start := Scanner.onText (.ofDialect .current) false source
    let s := ((Session.start start).performAll
      [.next, .next, .next, .fork, .next, .restore]).value.2.scanner
    s.mode = .blockComment ∧ s.outlooks[6]? = some (.spent 0) ∧
      (∀ k, ¬ (Declared.between '"').StartsAt source k) ∧
      s.outlooks[7]? = some (.ahead 18) ∧ (Declared.between '\x27').StartsAt source 18 ∧
      (∀ k, 14 ≤ k → k < 18 → ¬ (Declared.between '\x27').StartsAt source k) ∧
      ∃ made, start.Searched made s ∧ made.Pairwise Search.Allows := by
  intro source start s
  have hfacts : s.mode = .blockComment ∧ s.status.position = 14 ∧
      s.outlooks[6]? = some (.spent 0) ∧ s.outlooks[7]? = some (.ahead 18) := by
    decide +kernel
  obtain ⟨hmode, hposition, hdouble, hsingle⟩ := hfacts
  have hdoubleRule : (Grammar.ofDialect .current).rules[6]? =
      some ⟨Declared.between '"', .whole .string, .stay⟩ := by decide
  have hsingleRule : (Grammar.ofDialect .current).rules[7]? =
      some ⟨Declared.between '\x27', .whole .string, .stay⟩ := by decide
  obtain ⟨hscanners, hallows⟩ := session_outlooks .current false source
  obtain ⟨htrue, made, hmade⟩ := hscanners _ s List.mem_cons_self s .start
  obtain ⟨double, hd, hnone⟩ := htrue 6 _ hdoubleRule
  obtain ⟨single, hq, hnext⟩ := htrue 7 _ hsingleRule
  obtain rfl := Option.some.inj (hdouble.symm.trans hd)
  obtain rfl := Option.some.inj (hsingle.symm.trans hq)
  rw [hposition] at hnext
  exact ⟨hmode, hdouble, fun k => hnone.2 k (Nat.zero_le k), hsingle, hnext.1, hnext.2, made, hmade,
    hallows made s hmade⟩

end Highlighter
