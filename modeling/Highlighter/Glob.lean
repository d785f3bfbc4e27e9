/-!
# File name patterns

In a pattern `*` stands for any characters, `?` for one, and every other
character for itself. The matcher walks pattern and name together. At a `*`
it remembers where to try again; when the walk fails, the last `*` remembered
takes one more character. No earlier `*` is ever tried again.

`Glob.step` is one turn of that walk. Its state carries the bounds of all
indices, so each look-up is in range, and `Glob.budget`, which every turn
makes smaller, bounds the number of turns.
-/

set_option autoImplicit false

namespace Highlighter

namespace Glob

structure Retry (pattern name : Array Char) where
  star : Nat
  taken : Nat
  star_lt : star < pattern.size
  taken_le : taken ≤ name.size
  deriving DecidableEq, Repr

structure State (pattern name : Array Char) where
  inPattern : Nat
  inName : Nat
  retry : Option (Retry pattern name)
  inPattern_le : inPattern ≤ pattern.size
  inName_le : inName ≤ name.size
  taken_le : ∀ r ∈ retry, r.taken ≤ inName
  deriving DecidableEq, Repr

variable {pattern name : Array Char}

def State.start (pattern name : Array Char) : State pattern name where
  inPattern := 0
  inName := 0
  retry := none
  inPattern_le := Nat.zero_le _
  inName_le := Nat.zero_le _
  taken_le := by simp

inductive Turn (pattern name : Array Char) where
  | goOn (s : State pattern name)
  | verdict (matched : Bool)

def onlyStars (pattern : Array Char) (i : Nat) : Bool :=
  (pattern.toList.drop i).all (· == '*')

def State.retryFrom (s : State pattern name) (h : s.inName < name.size) : Turn pattern name :=
  match k : s.retry with
  | none => .verdict false
  | some r =>
    have bound : r.taken + 1 ≤ name.size := by
      have := s.taken_le r (by simp [k])
      omega
    .goOn
      { inPattern := r.star + 1
        inName := r.taken + 1
        retry := some ⟨r.star, r.taken + 1, r.star_lt, bound⟩
        inPattern_le := r.star_lt
        inName_le := bound
        taken_le := by simp }

/-- A character that the pattern takes literally is tried before the pattern's
character is looked at as a `*`. -/
def step (s : State pattern name) : Turn pattern name :=
  if h : s.inName < name.size then
    if k : s.inPattern < pattern.size then
      if pattern[s.inPattern] = '?' ∨ pattern[s.inPattern] = name[s.inName] then
        .goOn
          { inPattern := s.inPattern + 1
            inName := s.inName + 1
            retry := s.retry
            inPattern_le := k
            inName_le := h
            taken_le := fun r hr => Nat.le_succ_of_le (s.taken_le r hr) }
      else if pattern[s.inPattern] = '*' then
        .goOn
          { inPattern := s.inPattern + 1
            inName := s.inName
            retry := some ⟨s.inPattern, s.inName, k, s.inName_le⟩
            inPattern_le := k
            inName_le := s.inName_le
            taken_le := by simp }
      else s.retryFrom h
    else s.retryFrom h
  else .verdict (onlyStars pattern s.inPattern)

def budget (s : State pattern name) : Nat :=
  (name.size - (s.retry.map (·.taken)).getD 0) * (pattern.size + 1) +
    (pattern.size - s.inPattern)

theorem budget_start (pattern name : Array Char) :
    budget (State.start pattern name) < (name.size + 1) * (pattern.size + 1) := by
  simp only [budget, State.start, Option.map_none, Option.getD_none, Nat.sub_zero,
    Nat.succ_mul]
  omega

theorem budget_retryFrom {s t : State pattern name} {h : s.inName < name.size}
    (hs : s.retryFrom h = .goOn t) : budget t < budget s := by
  unfold State.retryFrom at hs
  split at hs
  · exact absurd hs (by simp)
  · rename_i r k
    obtain rfl := Turn.goOn.inj hs
    have hr := s.taken_le r (by simp [k])
    have hrow : name.size - r.taken = name.size - (r.taken + 1) + 1 := by omega
    simp only [budget, k, Option.map_some, Option.getD_some, hrow, Nat.succ_mul]
    omega

theorem budget_step {s t : State pattern name} (hs : step s = .goOn t) :
    budget t < budget s := by
  unfold step at hs
  split at hs
  · split at hs
    · split at hs
      · obtain rfl := Turn.goOn.inj hs
        simp only [budget]
        omega
      · split at hs
        · rename_i h k _ _
          obtain rfl := Turn.goOn.inj hs
          have hr : (s.retry.map (·.taken)).getD 0 ≤ s.inName := by
            cases hk : s.retry with
            | none => simp
            | some r => simpa using s.taken_le r (by simp [hk])
          have := Nat.mul_le_mul_right (pattern.size + 1) (Nat.sub_le_sub_left hr name.size)
          simp only [budget, Option.map_some, Option.getD_some]
          omega
        · exact budget_retryFrom hs
    · exact budget_retryFrom hs
  · exact absurd hs (by simp)

def run (s : State pattern name) : Bool :=
  match h : step s with
  | .verdict b => b
  | .goOn t =>
    have := budget_step h
    run t
termination_by budget s

end Glob

def globMatches (pattern name : String) : Bool :=
  Glob.run (Glob.State.start pattern.toList.toArray name.toList.toArray)

end Highlighter
