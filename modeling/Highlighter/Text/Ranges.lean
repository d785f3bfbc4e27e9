/-!
# Sorted ranges of code points

A character class of a standard is a finite union of ranges. Both ends of a
range belong to it, the ranges increase and lie apart, so halving the table
finds the only range that can hold a code point.
-/

set_option autoImplicit false

namespace Highlighter.Text

abbrev Ranges := Array (Nat × Nat)

namespace Ranges

def containsBetween (t : Ranges) (n lo hi : Nat) (bound : hi ≤ t.size) : Bool :=
  if h : lo < hi then
    let mid := (lo + hi) / 2
    have inside : mid < t.size := by omega
    if n < t[mid].1 then t.containsBetween n lo mid (by omega)
    else if t[mid].2 < n then t.containsBetween n (mid + 1) hi bound
    else true
  else false
termination_by hi - lo

def contains (t : Ranges) (n : Nat) : Bool :=
  t.containsBetween n 0 t.size (Nat.le_refl _)

end Ranges

end Highlighter.Text
