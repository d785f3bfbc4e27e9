import Highlighter.Proofs.Places
import Highlighter.Text.Blank

/-!
# Words and their edges

A word read between two word edges has no word character beside it, and the
other way round. Blank characters and line ends are not word characters, so a
word that has them beside it is whole.
-/

set_option autoImplicit false

namespace Highlighter

namespace Text

def blankCodes : List Nat :=
  [0x9, 0xA, 0xB, 0xC, 0xD, 0x20, 0x85, 0xA0, 0x1680, 0x2000, 0x2001, 0x2002, 0x2003, 0x2004,
    0x2005, 0x2006, 0x2007, 0x2008, 0x2009, 0x200A, 0x2028, 0x2029, 0x202F, 0x205F, 0x3000]

theorem toNat_mem_blankCodes {c : Char} (h : isBlank c = true) : c.toNat ∈ blankCodes := by
  simp only [isBlank, Bool.or_eq_true, Bool.and_eq_true, decide_eq_true_eq, beq_iff_eq, Char.le_def,
    UInt32.le_iff_toNat_le] at h
  change ((((((((((9 ≤ c.toNat ∧ c.toNat ≤ 13) ∨ _) ∨ _) ∨ _) ∨ _) ∨
    (0x2000 ≤ c.toNat ∧ c.toNat ≤ 0x200A)) ∨ _) ∨ _) ∨ _) ∨ _) ∨ _ at h
  simp only [blankCodes, List.mem_cons, List.not_mem_nil, or_false]
  rcases h with (((((((((h | rfl) | rfl) | rfl) | rfl) | h) | rfl) | rfl) | rfl) | rfl) | rfl
  · omega
  all_goals first | omega | decide

theorem isWord_of_isBlank {c : Char} (h : isBlank c = true) : isWord c = false := by
  have hb : ∀ n ∈ blankCodes, isWord (Char.ofNat n) = false := by decide +kernel
  have hc := hb _ (toNat_mem_blankCodes h)
  rwa [Char.ofNat_toNat] at hc

theorem isWord_of_isAsciiWord {c : Char} (h : isAsciiWord c = true) : isWord c = true := by
  have hn : c.toNat < 128 := by
    simp only [isAsciiWord, Bool.or_eq_true, Bool.and_eq_true, decide_eq_true_eq, beq_iff_eq,
      Char.le_def, UInt32.le_iff_toNat_le] at h
    change (((97 ≤ c.toNat ∧ c.toNat ≤ 122) ∨ (65 ≤ c.toNat ∧ c.toNat ≤ 90)) ∨
      (48 ≤ c.toNat ∧ c.toNat ≤ 57)) ∨ _ at h
    rcases h with h | rfl
    · omega
    · decide
  rw [isWord, if_pos hn, h]

theorem isWord_of_all {xs : List Char} (h : xs.all isAsciiWord = true) :
    ∀ x ∈ xs, isWord x = true := by
  intro x hx
  exact isWord_of_isAsciiWord (List.all_eq_true.mp h x hx)

/-- A text is cut in one way only into characters of a kind and a rest that
does not start with that kind. -/
theorem cut_unique {p : Char → Bool} {xs ys us vs : List Char} (h : xs ++ us = ys ++ vs)
    (hx : ∀ x ∈ xs, p x = true) (hy : ∀ y ∈ ys, p y = true) (hu : ∀ u ∈ us.head?, p u = false)
    (hv : ∀ v ∈ vs.head?, p v = false) : xs = ys ∧ us = vs := by
  have hk : ∀ {as bs : List Char}, (∀ a ∈ as, p a = true) → (∀ b ∈ bs.head?, p b = false) →
      (as ++ bs).takeWhile p = as := by
    intro as bs ha hb
    rw [List.takeWhile_append_of_pos ha]
    cases bs with
    | nil => simp
    | cons b bs => simp [hb b rfl]
  have hxy : xs = ys := by rw [← hk hx hu, h, hk hy hv]
  subst hxy
  exact ⟨rfl, List.append_cancel_left h⟩

end Text

namespace Cursor

theorem startsWithWord_append {xs ys : List Char} (h : xs ≠ []) :
    startsWithWord (xs ++ ys) = startsWithWord xs := by
  obtain ⟨x, xs, rfl⟩ := List.exists_cons_of_ne_nil h
  rfl

theorem startsWithWord_of_word {xs : List Char} (h : ∀ x ∈ xs, Text.isWord x = true)
    (hne : xs ≠ []) : startsWithWord xs = true := by
  obtain ⟨x, xs, rfl⟩ := List.exists_cons_of_ne_nil hne
  exact h x List.mem_cons_self

theorem startsWithWord_of_blank {xs : List Char} (h : ∀ x ∈ xs, Text.isBlank x = true) :
    startsWithWord xs = false := by
  cases xs with
  | nil => rfl
  | cons x xs => exact Text.isWord_of_isBlank (h x List.mem_cons_self)

theorem head_not_word {xs : List Char} (h : startsWithWord xs = false) :
    ∀ x ∈ xs.head?, Text.isWord x = false := by
  intro x hx
  obtain ⟨ys, rfl⟩ := List.head?_eq_some_iff.mp hx
  exact h

theorem head_not_blank {xs ys : List Char} (h : ∀ x ∈ xs, Text.isWord x = true) (hne : xs ≠ []) :
    ∀ x ∈ (xs ++ ys).head?, Text.isBlank x = false := by
  intro x hx
  obtain ⟨y, xs, rfl⟩ := List.exists_cons_of_ne_nil hne
  obtain rfl : y = x := Option.some.inj hx
  have hw := h y List.mem_cons_self
  cases hb : Text.isBlank y with
  | false => rfl
  | true => simp [Text.isWord_of_isBlank hb] at hw

structure Word (c : Cursor) (w : List Char) (d : Cursor) : Prop where
  reads : c.Reads w d
  before : startsWithWord c.before = false
  after : startsWithWord d.rest = false

/-- From one place at most one word is read. -/
theorem Word.unique {c d e : Cursor} {w u : List Char} (h : c.Word w d) (k : c.Word u e)
    (hw : ∀ x ∈ w, Text.isWord x = true) (hu : ∀ x ∈ u, Text.isWord x = true) :
    w = u ∧ d = e := by
  obtain ⟨rfl, _⟩ := Text.cut_unique (h.reads.1.symm.trans k.reads.1) hw hu
    (head_not_word h.after) (head_not_word k.after)
  exact ⟨rfl, h.reads.unique k.reads⟩

theorem word_iff {c d : Cursor} {w : List Char} (hw : ∀ x ∈ w, Text.isWord x = true)
    (hne : w ≠ []) : c.Word w d ↔ c.atWordEdge = true ∧ c.Reads w d ∧ d.atWordEdge = true := by
  have hc : c.Reads w d → startsWithWord c.rest = true := by
    intro h
    rw [h.1, startsWithWord_append hne]
    exact startsWithWord_of_word hw hne
  have hd : c.Reads w d → startsWithWord d.before = true := by
    intro h
    have hr : w.reverse ≠ [] := by simpa using hne
    rw [h.2, startsWithWord_append hr]
    exact startsWithWord_of_word (by simpa using hw) hr
  constructor
  · rintro ⟨h, hb, ha⟩
    simp [atWordEdge, h, hb, ha, hc h, hd h]
  · rintro ⟨hb, h, ha⟩
    simp only [atWordEdge, hc h, hd h, bne_iff_ne, ne_eq] at hb ha
    exact ⟨h, by simpa using hb, by simpa using ha⟩

end Cursor

end Highlighter
