import Mathlib.Order.Basic
import Mathlib.Tactic.SplitIfs

/-!
# The order of bytes

Texts are ordered as their bytes in UTF-8 are. The codes of two characters differ
before either of them ends, and where they differ first the lesser character
has the lesser byte.
-/

set_option autoImplicit false

namespace Highlighter.Text

def utf8 (s : String) : List UInt8 := s.toUTF8.data.toList

def Below : List UInt8 → List UInt8 → Prop
  | x :: xs, y :: ys => x < y ∨ x = y ∧ Below xs ys
  | _, _ => False

theorem Below.append_lt {xs ys : List UInt8} (h : Below xs ys) (us vs : List UInt8) :
    xs ++ us < ys ++ vs := by
  induction xs generalizing ys with
  | nil => exact h.elim
  | cons x xs ih =>
    cases ys with
    | nil => exact h.elim
    | cons y ys =>
      rw [List.cons_append, List.cons_append, List.cons_lt_cons_iff]
      exact h.imp_right fun ⟨hx, hxs⟩ => ⟨hx, ih hxs⟩

theorem utf8EncodeChar_below {c d : Char} (h : c < d) :
    Below (String.utf8EncodeChar c) (String.utf8EncodeChar d) := by
  have hlt : c.val.toNat < d.val.toNat := h
  have hmax : d.val.toNat < 0x110000 := by rcases d.valid with hd | hd <;> omega
  have htwelve : ∀ n, n / 4096 = n / 64 / 64 := fun n => by omega
  have heighteen : ∀ n, n / 262144 = n / 64 / 64 / 64 := fun n => by omega
  unfold String.utf8EncodeChar
  generalize c.val.toNat = n at hlt ⊢
  generalize d.val.toNat = m at hlt hmax ⊢
  dsimp only
  split_ifs <;>
    simp only [Below, htwelve, heighteen, UInt8.lt_iff_toNat_lt, ← UInt8.toNat_inj,
      UInt8.toNat_ofNat', and_false, or_false] <;>
    omega

theorem utf8_eq (s : String) : utf8 s = s.toList.flatMap String.utf8EncodeChar := by
  conv => lhs; rw [← String.ofList_toList (s := s)]
  rw [utf8, String.toUTF8_eq_toByteArray, String.toByteArray_ofList, List.utf8Encode,
    List.data_toByteArray]

theorem encode_lt {xs ys : List Char} (h : xs < ys) :
    xs.flatMap String.utf8EncodeChar < ys.flatMap String.utf8EncodeChar := by
  induction xs generalizing ys with
  | nil =>
    cases ys with
    | nil => cases h
    | cons y ys =>
      obtain ⟨b, bs, hb⟩ := List.exists_cons_of_ne_nil (String.utf8EncodeChar_ne_nil (c := y))
      rw [List.flatMap_cons, hb]
      exact List.nil_lt_cons _ _
  | cons x xs ih =>
    cases ys with
    | nil => cases h
    | cons y ys =>
      rw [List.flatMap_cons, List.flatMap_cons]
      rcases List.cons_lt_cons_iff.mp h with hx | ⟨rfl, hxs⟩
      · exact (utf8EncodeChar_below hx).append_lt _ _
      · exact List.append_left_lt (ih hxs)

theorem utf8_lt {a b : String} (h : a < b) : utf8 a < utf8 b := by
  rw [utf8_eq, utf8_eq]
  exact encode_lt h

end Highlighter.Text
