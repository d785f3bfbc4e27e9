import Highlighter.Grammar.Basic
import Highlighter.Pattern.Match

/-!
# What is known about the next match of a rule

A scan only goes forward. Once a rule has been searched for, the place of its
next match is known until the scan has passed it, and a rule without a match
ahead has none later on. `Outlook` keeps that knowledge for one rule, and
`Outlook.ask` searches only where it does not decide.
-/

set_option autoImplicit false

namespace Highlighter

inductive Outlook where
  | unknown
  | ahead (start : Nat)
  | spent (since : Nat)
  deriving DecidableEq, Repr, Inhabited

def Outlook.excludes : Outlook → Nat → Bool
  | .unknown, _ => false
  | .ahead start, offset => offset < start
  | .spent since, offset => since ≤ offset

abbrev Outlooks := Array Outlook

namespace Outlooks

def fresh (rules : Nat) : Outlooks := Array.replicate rules .unknown

def of (o : Outlooks) (number : Nat) : Outlook := o.getD number .unknown

def learn (o : Outlooks) (number : Nat) (k : Outlook) : Outlooks := o.setIfInBounds number k

end Outlooks

def Match.takenAt (m : Match) (c : Cursor) : Bool :=
  m.start.offset == c.offset && !m.isEmpty

def Outlook.ask (k : Outlook) (p : Pattern) (c : Cursor) : Option Match × Outlook :=
  if k.excludes c.offset then (none, k)
  else
    match p.search? c with
    | none => (none, .spent c.offset)
    | some m => (if m.takenAt c then some m else none, .ahead m.start.offset)

structure Hit where
  rule : Rule
  found : Match
  deriving DecidableEq, Repr

def firstMatch (c : Cursor) : List (Nat × Rule) → Outlooks → Option Hit × Outlooks
  | [], o => (none, o)
  | (n, r) :: rest, o =>
    match (o.of n).ask r.pattern c with
    | (some m, k) => (some ⟨r, m⟩, o.learn n k)
    | (none, k) => firstMatch c rest (o.learn n k)

theorem takenAt_reaches {c : Cursor} {p : Pattern} {m : Match} (h : p.search? c = some m)
    (k : m.takenAt c = true) : m.start = c ∧ c.Reaches m.stop ∧ c.offset < m.stop.offset := by
  obtain ⟨hs, ht⟩ := Pattern.search_reaches h
  simp only [Match.takenAt, Match.isEmpty, Bool.and_eq_true, Bool.not_eq_true', beq_iff_eq,
    beq_eq_false_iff_ne] at k
  obtain rfl := hs.eq_of_offset k.1
  exact ⟨rfl, ht, Nat.lt_of_le_of_ne ht.offset_le k.2⟩

theorem search_of_ask {k : Outlook} {p : Pattern} {c : Cursor} {m : Match}
    (h : (k.ask p c).1 = some m) : p.search? c = some m ∧ m.takenAt c = true := by
  unfold Outlook.ask at h
  split at h
  · simp at h
  · split at h
    · simp at h
    · rename_i found hf
      split at h
      · rename_i ht
        obtain rfl := Option.some.inj h
        exact ⟨hf, ht⟩
      · simp at h

theorem firstMatch_progress {c : Cursor} {rules : List (Nat × Rule)} {o : Outlooks} {hit : Hit}
    (h : (firstMatch c rules o).1 = some hit) :
    hit.found.start = c ∧ c.Reaches hit.found.stop ∧ c.offset < hit.found.stop.offset := by
  fun_induction firstMatch c rules o with
  | case1 => simp at h
  | case2 n r rest o m k hk =>
    obtain rfl := Option.some.inj h
    obtain ⟨hs, ht⟩ := search_of_ask (congrArg Prod.fst hk)
    exact takenAt_reaches hs ht
  | case3 _ _ _ _ _ _ ih => exact ih h

end Highlighter
