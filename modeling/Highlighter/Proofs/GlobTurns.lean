import Highlighter.Glob

/-!
# Turns of the matcher

The state of the matcher carries the bounds of its indices. Here the same walk goes on
bare numbers, with a check at every look-up: a turn that looks behind the end of the
pattern or the name has no result. The walk comes to no such turn. It takes no more
turns than one attempt for each place in the name, each of one turn for each place in
the pattern, and ends with the matcher's answer.
-/

set_option autoImplicit false

namespace Highlighter

namespace Glob

/-- A place of the walk as numbers that nothing bounds. The last `*` is kept with how
much of the name was used up when its present attempt began. -/
structure Indices where
  inPattern : Nat
  inName : Nat
  retry : Option (Nat × Nat)
  deriving DecidableEq, Repr

namespace Indices

def start : Indices := ⟨0, 0, none⟩

inductive Outcome where
  | goOn (i : Indices)
  | verdict (matched : Bool)
  deriving DecidableEq, Repr

def retryFrom (i : Indices) : Outcome :=
  match i.retry with
  | none => .verdict false
  | some (star, taken) => .goOn ⟨star + 1, taken + 1, some (star, taken + 1)⟩

def leftFrom? (text : Array Char) (i : Nat) : Option (List Char) :=
  if i ≤ text.size then some (text.toList.drop i) else none

def turn? (pattern name : Array Char) (i : Indices) : Option Outcome :=
  if i.inName < name.size then
    if i.inPattern < pattern.size then
      pattern[i.inPattern]?.bind fun p => name[i.inName]?.map fun x =>
        if p = '?' ∨ p = x then .goOn ⟨i.inPattern + 1, i.inName + 1, i.retry⟩
        else if p = '*' then .goOn ⟨i.inPattern + 1, i.inName, some (i.inPattern, i.inName)⟩
        else i.retryFrom
    else some i.retryFrom
  else (leftFrom? pattern i.inPattern).map fun left => .verdict (left.all (· == '*'))

inductive Walk (pattern name : Array Char) : Nat → Indices → Indices → Prop
  | done (i : Indices) : Walk pattern name 0 i i
  | turn {n : Nat} {i j last : Indices} : i.turn? pattern name = some (.goOn j) →
      Walk pattern name n j last → Walk pattern name (n + 1) i last

end Indices

variable {pattern name : Array Char}

def State.bare (s : State pattern name) : Indices :=
  ⟨s.inPattern, s.inName, s.retry.map fun r => (r.star, r.taken)⟩

def Turn.bare : Turn pattern name → Indices.Outcome
  | .goOn s => .goOn s.bare
  | .verdict matched => .verdict matched

theorem bare_retryFrom {s : State pattern name} (h : s.inName < name.size) :
    (s.retryFrom h).bare = s.bare.retryFrom := by
  unfold State.retryFrom Indices.retryFrom
  split
  · rename_i hr
    simp [Turn.bare, State.bare, hr]
  · rename_i r hr
    simp [Turn.bare, State.bare, hr]

/-- No turn of the matcher looks out of range. -/
theorem turn_bare (s : State pattern name) : s.bare.turn? pattern name = some (step s).bare := by
  have hpattern : s.bare.inPattern = s.inPattern := rfl
  have hname : s.bare.inName = s.inName := rfl
  unfold Indices.turn? step
  rw [hpattern, hname]
  split
  · rename_i hn
    split
    · rename_i hp
      rw [Array.getElem?_eq_getElem hp, Array.getElem?_eq_getElem hn, Option.bind_some,
        Option.map_some]
      split
      · rfl
      · split
        · rfl
        · rw [bare_retryFrom]
    · rw [bare_retryFrom]
  · rw [Indices.leftFrom?, if_pos s.inPattern_le]
    rfl

/-- A walk that starts at a state goes from state to state, and every turn of it takes
from the budget. -/
theorem state_of_walk {s : State pattern name} {n : Nat} {i : Indices}
    (h : Indices.Walk pattern name n s.bare i) :
    ∃ t : State pattern name, i = t.bare ∧ n + budget t ≤ budget s := by
  obtain ⟨first, hfirst⟩ : ∃ first, s.bare = first := ⟨_, rfl⟩
  rw [hfirst] at h
  induction h generalizing s with
  | done i => exact ⟨s, hfirst.symm, by omega⟩
  | @turn n i j last hturn _ ih =>
    rw [← hfirst, turn_bare] at hturn
    cases hs : step s with
    | verdict matched =>
      rw [hs] at hturn
      cases hturn
    | goOn t =>
      rw [hs] at hturn
      cases hturn
      obtain ⟨u, hu, hbudget⟩ := ih rfl
      have hless := budget_step hs
      exact ⟨u, hu, by omega⟩

theorem walk_run (s : State pattern name) : ∃ n last, Indices.Walk pattern name n s.bare last ∧
    last.turn? pattern name = some (.verdict (run s)) := by
  fun_induction run s with
  | case1 s matched hs => exact ⟨0, s.bare, .done _, by rw [turn_bare, hs]; rfl⟩
  | case2 s t hs _ ih =>
    obtain ⟨n, last, hwalk, hlast⟩ := ih
    exact ⟨n + 1, last, .turn (by rw [turn_bare, hs]; rfl) hwalk, hlast⟩

end Glob

open Glob in
/-- Wherever the walk has come, its indices are in range, and so are the look-ups of the
turn from there. With that turn it has taken no more than the bound. It ends, and ends
with the matcher's answer. -/
theorem globMatches_turns (pattern name : String) :
    let walk := Indices.Walk pattern.toList.toArray name.toList.toArray
    let turn? := Indices.turn? pattern.toList.toArray name.toList.toArray
    (∀ n i, walk n .start i →
      i.inPattern ≤ pattern.length ∧ i.inName ≤ name.length ∧ (∃ outcome, turn? i = some outcome) ∧
        n + 1 ≤ (name.length + 1) * (pattern.length + 1)) ∧
    ∃ n last, walk n .start last ∧ turn? last = some (.verdict (globMatches pattern name)) := by
  intro walk turn?
  constructor
  · intro n i hwalk
    obtain ⟨s, rfl, hbudget⟩ := state_of_walk (s := State.start _ _) hwalk
    have hp := s.inPattern_le
    have hn := s.inName_le
    have hfirst := budget_start pattern.toList.toArray name.toList.toArray
    simp only [List.size_toArray, String.length_toList] at hp hn hfirst
    exact ⟨hp, hn, ⟨_, turn_bare s⟩, by omega⟩
  · exact walk_run (State.start _ _)

/-- The second attempt of a star, behind one that came to nothing. -/
theorem globMatches_turns_retry :
    let walk := Glob.Indices.Walk "*ab".toList.toArray "aab".toList.toArray
    let i : Glob.Indices := ⟨3, 3, some (0, 1)⟩
    walk 5 .start i ∧ i.inPattern ≤ "*ab".length ∧ i.inName ≤ "aab".length ∧
      (∃ outcome, i.turn? "*ab".toList.toArray "aab".toList.toArray = some outcome) ∧
      5 + 1 ≤ ("aab".length + 1) * ("*ab".length + 1) := by
  intro walk i
  have hwalk : walk 5 .start i := by
    refine .turn (j := ⟨1, 0, some (0, 0)⟩) (by decide) ?_
    refine .turn (j := ⟨2, 1, some (0, 0)⟩) (by decide) ?_
    refine .turn (j := ⟨1, 1, some (0, 1)⟩) (by decide) ?_
    refine .turn (j := ⟨2, 2, some (0, 1)⟩) (by decide) ?_
    exact .turn (by decide) (.done i)
  exact ⟨hwalk, (globMatches_turns "*ab" "aab").1 5 i hwalk⟩

end Highlighter
