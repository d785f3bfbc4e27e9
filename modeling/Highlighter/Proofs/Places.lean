import Highlighter.Cursor

/-!
# What lies between two places

`Cursor.Reads` names the text between two places, where `Cursor.Reaches` only
says that there is one. On one text a place is determined by its offset, and a
smaller offset is an earlier place. Byte lengths agree with those of strings,
so an offset can be compared with a length that the text knows of itself.
-/

set_option autoImplicit false

namespace Highlighter

namespace Text

theorem utf8ByteSize_ofList (cs : List Char) : (String.ofList cs).utf8ByteSize = bytes cs := by
  induction cs with
  | nil => simp [bytes]
  | cons c cs ih =>
    rw [String.ofList_cons, String.utf8ByteSize_append, String.utf8ByteSize_singleton, ih]
    rfl

theorem utf8ByteSize_eq (s : String) : s.utf8ByteSize = bytes s.toList := by
  rw [← utf8ByteSize_ofList, String.ofList_toList]

/-- Two beginnings of one text of the same length are the same. -/
theorem eq_of_bytes_eq {xs ys us vs : List Char} (h : xs ++ us = ys ++ vs)
    (hb : bytes xs = bytes ys) : xs = ys ∧ us = vs := by
  rcases List.append_eq_append_iff.mp h with ⟨as, rfl, rfl⟩ | ⟨as, rfl, rfl⟩
  · have ha : as = [] := bytes_eq_zero (by rw [bytes_append] at hb; omega)
    simp [ha]
  · have ha : as = [] := bytes_eq_zero (by rw [bytes_append] at hb; omega)
    simp [ha]

end Text

namespace Cursor

def Reads (c : Cursor) (xs : List Char) (d : Cursor) : Prop :=
  c.rest = xs ++ d.rest ∧ d.before = xs.reverse ++ c.before

theorem Reads.reaches {c d : Cursor} {xs : List Char} (h : c.Reads xs d) : c.Reaches d := ⟨xs, h⟩

theorem reads_nil {c d : Cursor} : c.Reads [] d ↔ d = c := by
  constructor
  · rintro ⟨hr, hb⟩
    exact eq_of_halves (by simpa using hb) (by simpa using hr.symm)
  · rintro rfl
    exact ⟨rfl, rfl⟩

theorem Reads.append {c d e : Cursor} {xs ys : List Char} (h : c.Reads xs d) (k : d.Reads ys e) :
    c.Reads (xs ++ ys) e :=
  ⟨by rw [h.1, k.1, List.append_assoc], by rw [k.2, h.2, List.reverse_append, List.append_assoc]⟩

theorem reads_advance {c : Cursor} {x : Char} {rest : List Char} (h : c.rest = x :: rest) :
    c.Reads [x] c.advance := by
  obtain ⟨hb, hr, _⟩ := advance_of_rest h
  exact ⟨by simp [h, hr], by simp [hb]⟩

/-- The rest of a text can be cut anywhere. -/
theorem exists_reads {c : Cursor} {xs ys : List Char} (h : c.rest = xs ++ ys) :
    ∃ d, c.Reads xs d ∧ d.rest = ys := by
  induction xs generalizing c with
  | nil => exact ⟨c, reads_nil.mpr rfl, by simpa using h⟩
  | cons x xs ih =>
    have ha := reads_advance h
    have hr : c.advance.rest = xs ++ ys := (advance_of_rest h).2.1
    obtain ⟨d, hd, hy⟩ := ih hr
    exact ⟨d, ha.append hd, hy⟩

theorem Reads.unique {c d e : Cursor} {xs : List Char} (h : c.Reads xs d) (k : c.Reads xs e) :
    d = e := by
  have hr : d.rest = e.rest := List.append_cancel_left (h.1.symm.trans k.1)
  exact eq_of_halves (h.2.trans k.2.symm) hr

theorem reads_append {c e : Cursor} {xs ys : List Char} :
    c.Reads (xs ++ ys) e ↔ ∃ d, c.Reads xs d ∧ d.Reads ys e := by
  constructor
  · intro h
    obtain ⟨d, hd, hy⟩ := exists_reads (h.1.trans (List.append_assoc xs ys e.rest))
    refine ⟨d, hd, hy, ?_⟩
    rw [h.2, hd.2, List.reverse_append, List.append_assoc]
  · rintro ⟨d, h, k⟩
    exact h.append k

theorem reads_cons {c d : Cursor} {x : Char} {xs : List Char} :
    c.Reads (x :: xs) d ↔ c.current? = some x ∧ c.advance.Reads xs d := by
  constructor
  · intro h
    have hr : c.rest = x :: (xs ++ d.rest) := h.1
    obtain ⟨e, he, hd⟩ := reads_append.mp (show c.Reads ([x] ++ xs) d from h)
    rw [(reads_advance hr).unique he]
    exact ⟨by rw [current?, hr]; rfl, hd⟩
  · rintro ⟨hx, hd⟩
    obtain ⟨rest, hr⟩ := List.head?_eq_some_iff.mp hx
    exact (reads_advance hr).append hd

theorem Reads.offset {c d : Cursor} {xs : List Char} (h : c.Reads xs d) :
    d.offset = c.offset + Text.bytes xs := Reaches.offset_eq h.2

theorem Reads.upTo {c d : Cursor} {xs : List Char} (h : c.Reads xs d) : c.upTo d = xs :=
  upTo_of_halves h.2

theorem Reads.offset_lt {c d : Cursor} {xs : List Char} (h : c.Reads xs d) (hx : xs ≠ []) :
    c.offset < d.offset := by
  have hp : Text.bytes xs ≠ 0 := fun h0 => hx (Text.bytes_eq_zero h0)
  have ho := h.offset
  omega

theorem Reads.ne_nil {c d : Cursor} {xs : List Char} (h : c.Reads xs d)
    (ho : c.offset ≠ d.offset) : xs ≠ [] := by
  rintro rfl
  exact ho (by rw [reads_nil.mp h])

theorem Reads.chars {c d : Cursor} {xs : List Char} (h : c.Reads xs d) : d.chars = c.chars := by
  simp only [Cursor.chars, h.1, h.2, List.reverse_append, List.reverse_reverse, List.append_assoc]

theorem Reaches.chars {c d : Cursor} (h : c.Reaches d) : d.chars = c.chars := by
  obtain ⟨xs, hx⟩ := h
  exact Reads.chars hx

theorem Reaches.advance_of_ne {c d : Cursor} (h : c.Reaches d) (hne : d ≠ c) :
    c.rest ≠ [] ∧ c.advance.Reaches d := by
  obtain ⟨xs, hx⟩ := h
  cases xs with
  | nil => exact absurd (reads_nil.mp hx) hne
  | cons x xs =>
    have hr : c.rest = x :: (xs ++ d.rest) := hx.1
    exact ⟨by simp [hr], (reads_cons.mp hx).2.reaches⟩

/-- On one text a smaller offset is an earlier place. -/
theorem reaches_of_offset_le {c d : Cursor} (h : c.chars = d.chars) (ho : c.offset ≤ d.offset) :
    c.Reaches d := by
  simp only [Cursor.chars] at h
  have hc := c.offset_eq
  have hd := d.offset_eq
  rcases List.append_eq_append_iff.mp h with ⟨xs, hb, hr⟩ | ⟨xs, hb, hr⟩
  · refine ⟨xs, hr, ?_⟩
    rw [← List.reverse_reverse d.before, hb, List.reverse_append, List.reverse_reverse]
  · have hb' : c.before = xs.reverse ++ d.before := by
      rw [← List.reverse_reverse c.before, hb, List.reverse_append, List.reverse_reverse]
    have hx : Text.bytes xs = 0 := by
      rw [hb', Text.bytes_append, Text.bytes_reverse] at hc
      omega
    obtain rfl := Text.bytes_eq_zero hx
    exact ⟨[], by simpa using hr.symm, by simpa using hb'.symm⟩

theorem reads_ofText {source : String} {d : Cursor} {xs : List Char}
    (h : (ofText source).Reads xs d) :
    source = String.ofList xs ++ String.ofList d.rest ∧
      d.offset = (String.ofList xs).utf8ByteSize := by
  have hs : source.toList = xs ++ d.rest := h.1
  have ho : d.offset = 0 + Text.bytes xs := h.offset
  constructor
  · rw [← String.ofList_append, ← hs, String.ofList_toList]
  · rw [ho, Nat.zero_add, Text.utf8ByteSize_ofList]

end Cursor

end Highlighter
