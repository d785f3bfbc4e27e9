import Highlighter.Text.Bytes
import Highlighter.Text.Word

/-!
# A place in a text

A cursor stands between two characters. It keeps the text before it
backwards, the text after it, and the number of bytes before it; the last is
determined by the first, and the type says so. Both halves stay at hand, so
a test that looks behind sees the full text and not a slice of it.
-/

set_option autoImplicit false

namespace Highlighter

structure Cursor where
  before : List Char
  rest : List Char
  offset : Nat
  offset_eq : offset = Text.bytes before
  deriving DecidableEq, Repr

namespace Cursor

theorem eq_of_halves {c d : Cursor} (hb : c.before = d.before) (hr : c.rest = d.rest) :
    c = d := by
  obtain ⟨b, r, n, hn⟩ := c
  obtain ⟨b', r', n', hn'⟩ := d
  simp only at hb hr
  subst hb hr hn hn'
  rfl

def ofChars (cs : List Char) : Cursor := ⟨[], cs, 0, rfl⟩

def ofText (s : String) : Cursor := ofChars s.toList

def chars (c : Cursor) : List Char := c.before.reverse ++ c.rest

def current? (c : Cursor) : Option Char := c.rest.head?

def atEnd (c : Cursor) : Bool := c.rest.isEmpty

def advance (c : Cursor) : Cursor :=
  match c.rest with
  | [] => c
  | x :: rest =>
    ⟨x :: c.before, rest, c.offset + x.utf8Size, by simp [Text.bytes, c.offset_eq, Nat.add_comm]⟩

def upTo (c d : Cursor) : List Char :=
  Text.lastBytes (d.offset - c.offset) d.before []

def startsWithWord : List Char → Bool
  | [] => false
  | c :: _ => Text.isWord c

def atWordEdge (c : Cursor) : Bool :=
  startsWithWord c.before != startsWithWord c.rest

def Reaches (c d : Cursor) : Prop :=
  ∃ xs, c.rest = xs ++ d.rest ∧ d.before = xs.reverse ++ c.before

theorem reaches_refl (c : Cursor) : c.Reaches c := ⟨[], rfl, rfl⟩

theorem Reaches.trans {c d e : Cursor} (h : c.Reaches d) (k : d.Reaches e) : c.Reaches e := by
  obtain ⟨xs, hr, hb⟩ := h
  obtain ⟨ys, kr, kb⟩ := k
  exact ⟨xs ++ ys, by simp [hr, kr], by simp [kb, hb]⟩

theorem advance_of_rest {c : Cursor} {x : Char} {rest : List Char} (h : c.rest = x :: rest) :
    c.advance.before = x :: c.before ∧ c.advance.rest = rest ∧
      c.advance.offset = c.offset + x.utf8Size := by
  unfold advance
  split
  · simp_all
  · rename_i y ys hy
    rw [h] at hy
    obtain ⟨rfl, rfl⟩ := List.cons.inj hy
    simp

theorem reaches_advance (c : Cursor) : c.Reaches c.advance := by
  cases h : c.rest with
  | nil =>
    have : c.advance = c := by unfold advance; split <;> simp_all
    rw [this]
    exact reaches_refl c
  | cons x rest =>
    obtain ⟨hb, hr, _⟩ := advance_of_rest h
    exact ⟨[x], by simp [h, hr], by simp [hb]⟩

theorem length_advance_lt {c : Cursor} (h : c.rest ≠ []) :
    c.advance.rest.length < c.rest.length := by
  cases k : c.rest with
  | nil => exact absurd k h
  | cons x rest => simp [(advance_of_rest k).2.1]

theorem Reaches.offset_eq {c d : Cursor} {xs : List Char}
    (hb : d.before = xs.reverse ++ c.before) : d.offset = c.offset + Text.bytes xs := by
  rw [d.offset_eq, c.offset_eq, hb, Text.bytes_append, Text.bytes_reverse, Nat.add_comm]

theorem Reaches.offset_le {c d : Cursor} (h : c.Reaches d) : c.offset ≤ d.offset := by
  obtain ⟨xs, _, hb⟩ := h
  have := Reaches.offset_eq hb
  omega

/-- Between two places on one text the offset decides. -/
theorem Reaches.eq_of_offset {c d : Cursor} (h : c.Reaches d) (k : d.offset = c.offset) :
    d = c := by
  obtain ⟨xs, hr, hb⟩ := h
  have hx : xs = [] := Text.bytes_eq_zero (by have := Reaches.offset_eq hb; omega)
  subst hx
  exact eq_of_halves (by simpa using hb) (by simpa using hr.symm)

theorem Reaches.length_lt {c d : Cursor} (h : c.Reaches d) (k : c.offset < d.offset) :
    d.rest.length < c.rest.length := by
  obtain ⟨xs, hr, hb⟩ := h
  have hx : xs ≠ [] := by
    rintro rfl
    have := Reaches.offset_eq hb
    simp [Text.bytes] at this
    omega
  have := List.length_pos_iff.mpr hx
  rw [hr, List.length_append]
  omega

theorem upTo_of_halves {c d : Cursor} {xs : List Char}
    (hb : d.before = xs.reverse ++ c.before) : c.upTo d = xs := by
  have h : d.offset - c.offset = Text.bytes xs.reverse := by
    rw [Text.bytes_reverse, Reaches.offset_eq hb]
    omega
  rw [upTo, h, hb, Text.lastBytes_append]
  simp

end Cursor

end Highlighter
