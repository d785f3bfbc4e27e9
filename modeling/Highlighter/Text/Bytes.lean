/-!
# Byte lengths

Offsets count the bytes of a text in UTF-8. `bytes` measures a text, and
`lastBytes` collects the characters that end a text read backwards, as many
as a byte count covers.
-/

set_option autoImplicit false

namespace Highlighter.Text

def bytes : List Char → Nat
  | [] => 0
  | c :: rest => c.utf8Size + bytes rest

theorem bytes_append (xs ys : List Char) : bytes (xs ++ ys) = bytes xs + bytes ys := by
  induction xs with
  | nil => simp [bytes]
  | cons x xs ih => simp [bytes, ih, Nat.add_assoc]

theorem bytes_reverse (xs : List Char) : bytes xs.reverse = bytes xs := by
  induction xs with
  | nil => rfl
  | cons x xs ih => simp [bytes, bytes_append, ih, Nat.add_comm]

theorem bytes_eq_zero {xs : List Char} (h : bytes xs = 0) : xs = [] := by
  cases xs with
  | nil => rfl
  | cons x xs => have := x.utf8Size_pos; simp [bytes] at h; omega

/-- The characters are put in front of `found`, so they come out in reading
order. -/
def lastBytes (n : Nat) (backwards found : List Char) : List Char :=
  match backwards with
  | [] => found
  | c :: before =>
    if c.utf8Size ≤ n then lastBytes (n - c.utf8Size) before (c :: found) else found

theorem lastBytes_append (xs before found : List Char) :
    lastBytes (bytes xs) (xs ++ before) found = xs.reverse ++ found := by
  induction xs generalizing found with
  | nil =>
    cases before with
    | nil => rfl
    | cons c before => simp [lastBytes, bytes, Nat.not_le.mpr c.utf8Size_pos]
  | cons x xs ih => simp [lastBytes, bytes, ih]

end Highlighter.Text
