import Mathlib.Data.List.DropRight
import Highlighter.Locator
import Highlighter.Proofs.Places

/-!
# A locator has no memory

The line and the column of a place are determined by the text in front of it.
Wherever its queries have led a locator, it holds the place that is true of its
offset. So it answers each query for an offset between two characters as a new
locator would. A query that leads nowhere is answered with the place of the offset
at which the queries before it left the locator, if that is not behind the query.
-/

set_option autoImplicit false

namespace Highlighter

namespace Place

def behind (before : List Char) : Place where
  line := 1 + before.count '\n'
  column := 1 + (before.rtakeWhile (· != '\n')).length

theorem behind_concat (xs : List Char) (c : Char) : behind (xs ++ [c]) = (behind xs).past c := by
  rw [behind, past, List.rtakeWhile_concat, List.count_append]
  by_cases hc : c = '\n'
  · subst hc
    rfl
  · simp [behind, hc, Nat.add_assoc]

theorem behind_append (xs ys : List Char) : behind (xs ++ ys) = ys.foldl past (behind xs) := by
  induction ys generalizing xs with
  | nil => rw [List.append_nil, List.foldl_nil]
  | cons y ys ih =>
    rw [List.foldl_cons, ← behind_concat, ← ih, List.append_assoc, List.singleton_append]

end Place

namespace Text

def Boundary (source : String) (n : Nat) : Prop :=
  ∃ before after : String, source = before ++ after ∧ n = before.utf8ByteSize

theorem toList_cuts {source front rest before after : String} (h : source = front ++ rest)
    (k : source = before ++ after) :
    front.toList ++ rest.toList = before.toList ++ after.toList := by
  rw [← String.toList_append, ← String.toList_append, ← h, k]

end Text

/-- Wherever a cursor stands on a text, it cuts the text in two. -/
theorem Cursor.cut {c : Cursor} {source : String} (h : c.chars = source.toList) :
    source = String.ofList c.before.reverse ++ String.ofList c.rest ∧
      c.offset = (String.ofList c.before.reverse).utf8ByteSize := by
  constructor
  · rw [← String.ofList_append, ← Cursor.chars, h, String.ofList_toList]
  · rw [Text.utf8ByteSize_ofList, Text.bytes_reverse]
    exact c.offset_eq

namespace Locator

variable {l m : Locator} {source : String} {n left now : Nat} {place : Place}
  {text xs ys : List Char}

theorem walk_zero (l : Locator) : l.walk? 0 = some l := by rw [walk?, if_pos rfl]

theorem walk_cons {c : Char} {rest : List Char} (h : l.cursor.rest = c :: rest) (hn : n ≠ 0) :
    l.walk? n = if c.utf8Size ≤ n
      then walk? ⟨l.cursor.advance, l.place.past c⟩ (n - c.utf8Size) else none := by
  rw [walk?, if_neg hn]
  split
  · rename_i hr
    rw [h] at hr
    cases hr
  · rename_i hr
    rw [h] at hr
    obtain ⟨rfl, rfl⟩ := List.cons.inj hr
    rfl

theorem walk_of_reads {d : Cursor} (h : l.cursor.Reads xs d) :
    l.walk? (Text.bytes xs) = some ⟨d, xs.foldl Place.past l.place⟩ := by
  induction xs generalizing l with
  | nil =>
    rw [Cursor.reads_nil.mp h]
    exact l.walk_zero
  | cons x xs ih =>
    obtain ⟨hx, hxs⟩ := Cursor.reads_cons.mp h
    obtain ⟨rest, hr⟩ := List.head?_eq_some_iff.mp hx
    have hpos := x.utf8Size_pos
    rw [Text.bytes, walk_cons hr (by omega), if_pos (Nat.le_add_right _ _), Nat.add_sub_cancel_left]
    exact ih (l := ⟨l.cursor.advance, l.place.past x⟩) hxs

theorem reads_of_walk (h : l.walk? n = some m) :
    ∃ xs, l.cursor.Reads xs m.cursor ∧ n = Text.bytes xs := by
  fun_induction walk? l n with
  | case1 l =>
    obtain rfl := Option.some.inj h
    exact ⟨[], Cursor.reads_nil.mpr rfl, rfl⟩
  | case2 l n hn hr => cases h
  | case3 l n hn c rest hr hlt hle ih =>
    obtain ⟨xs, hxs, hb⟩ := ih h
    refine ⟨c :: xs, (Cursor.reads_advance hr).append hxs, ?_⟩
    rw [Text.bytes]
    omega
  | case4 l n hn c rest hr hlt hle => cases h

structure On (l : Locator) (text : List Char) : Prop where
  chars : l.cursor.chars = text
  place : l.place = Place.behind l.cursor.before.reverse

theorem on_onChars (text : List Char) : (onChars text).On text := ⟨rfl, rfl⟩

theorem On.read {d : Cursor} (h : l.On text) (hr : l.cursor.Reads xs d) :
    On ⟨d, xs.foldl Place.past l.place⟩ text := by
  constructor
  · exact hr.chars.trans h.chars
  · rw [h.place, ← Place.behind_append, hr.2, List.reverse_append, List.reverse_reverse]

theorem On.rewind_eq (h : l.On text) : l.rewind = onChars text := by rw [rewind, h.chars]

theorem moveTo_forward (hn : l.cursor.offset ≤ n) :
    l.moveTo n = (l.walk? (n - l.cursor.offset)).getD l := by
  rw [moveTo, if_neg (Nat.not_lt.mpr hn)]

theorem moveTo_back (hn : n < l.cursor.offset) : l.moveTo n = l.rewind.moveTo n := by
  rw [moveTo_forward (l := l.rewind) (Nat.zero_le n), moveTo, if_pos hn]

theorem On.moveTo_ahead (h : l.On (xs ++ ys)) (hle : l.cursor.offset ≤ Text.bytes xs) :
    (l.moveTo (Text.bytes xs)).On (xs ++ ys) ∧
      (l.moveTo (Text.bytes xs)).cursor.before.reverse = xs := by
  obtain ⟨d, hd, _⟩ := Cursor.exists_reads (c := Cursor.ofChars (xs ++ ys)) rfl
  have hbefore : d.before.reverse = xs := by
    rw [hd.2, Cursor.ofChars, List.append_nil, List.reverse_reverse]
  have hoffset : d.offset = Text.bytes xs := by rw [d.offset_eq, ← Text.bytes_reverse, hbefore]
  obtain ⟨zs, hz⟩ := Cursor.reaches_of_offset_le (h.chars.trans hd.chars.symm) (hoffset ▸ hle)
  have hlen : Text.bytes xs - l.cursor.offset = Text.bytes zs := by
    have ho := Cursor.Reads.offset hz
    omega
  rw [moveTo_forward hle, hlen, walk_of_reads hz, Option.getD_some]
  exact ⟨h.read hz, hbefore⟩

/-- A query for an offset between two characters leads there, from wherever the
locator stands. -/
theorem On.moveTo_there (h : l.On (xs ++ ys)) :
    (l.moveTo (Text.bytes xs)).On (xs ++ ys) ∧
      (l.moveTo (Text.bytes xs)).cursor.before.reverse = xs := by
  by_cases hn : Text.bytes xs < l.cursor.offset
  · rw [moveTo_back hn, h.rewind_eq]
    exact (on_onChars _).moveTo_ahead (Nat.zero_le _)
  · exact h.moveTo_ahead (Nat.not_lt.mp hn)

theorem On.moveTo_nowhere (h : l.On source.toList) (hb : ¬ Text.Boundary source n)
    (hn : l.cursor.offset ≤ n) : l.moveTo n = l := by
  rw [moveTo_forward hn]
  cases hw : l.walk? (n - l.cursor.offset) with
  | none => rfl
  | some m =>
    obtain ⟨xs, hr, hlen⟩ := reads_of_walk hw
    obtain ⟨hcut, hoffset⟩ := Cursor.cut (hr.chars.trans h.chars)
    have hm : n = m.cursor.offset := by
      have ho := hr.offset
      omega
    exact absurd ⟨_, _, hcut, hm.trans hoffset⟩ hb

inductive Answers (source : String) (left n : Nat) : Place → Nat → Prop
  | between {before after : String} : source = before ++ after → n = before.utf8ByteSize →
      Answers source left n (Place.behind before.toList) n
  | startedOver : ¬ Text.Boundary source n → n < left → Answers source left n .start 0
  | stayed {before after : String} : ¬ Text.Boundary source n → left ≤ n →
      source = before ++ after → left = before.utf8ByteSize →
      Answers source left n (Place.behind before.toList) left

inductive AnswersAll (source : String) : Nat → List Nat → List Place → Prop
  | done (left : Nat) : AnswersAll source left [] []
  | query {left n now : Nat} {place : Place} {ns : List Nat} {places : List Place} :
      Answers source left n place now → AnswersAll source now ns places →
      AnswersAll source left (n :: ns) (place :: places)

theorem On.answers (h : l.On source.toList) (n : Nat) :
    Answers source l.cursor.offset n (l.moveTo n).place (l.moveTo n).cursor.offset ∧
      (l.moveTo n).On source.toList := by
  by_cases hb : Text.Boundary source n
  · obtain ⟨before, after, hs, hn⟩ := hb
    rw [hs, String.toList_append] at h
    obtain ⟨hon, hbefore⟩ := h.moveTo_there
    rw [← Text.utf8ByteSize_eq, ← hn, ← String.toList_append, ← hs] at hon
    rw [← Text.utf8ByteSize_eq, ← hn] at hbefore
    have hplace : (l.moveTo n).place = Place.behind before.toList := by rw [hon.place, hbefore]
    have hoffset : (l.moveTo n).cursor.offset = n := by
      rw [Cursor.offset_eq, ← Text.bytes_reverse, hbefore, ← Text.utf8ByteSize_eq, hn]
    rw [hplace, hoffset]
    exact ⟨.between hs hn, hon⟩
  · by_cases hn : n < l.cursor.offset
    · rw [moveTo_back hn, h.rewind_eq, (on_onChars _).moveTo_nowhere hb (Nat.zero_le _)]
      exact ⟨.startedOver hb hn, on_onChars _⟩
    · have hle := Nat.not_lt.mp hn
      obtain ⟨hcut, hoffset⟩ := Cursor.cut h.chars
      rw [h.moveTo_nowhere hb hle, h.place]
      refine ⟨?_, h⟩
      have hstayed := Answers.stayed hb hle hcut hoffset
      rwa [String.toList_ofList] at hstayed

theorem On.answersAll (h : l.On source.toList) (ns : List Nat) :
    AnswersAll source l.cursor.offset ns (l.locateAll ns) := by
  induction ns generalizing l with
  | nil => exact .done _
  | cons n ns ih =>
    obtain ⟨ha, hon⟩ := h.answers n
    exact .query ha (ih hon)

/-- Between two characters the answer is the same wherever the locator was left. -/
theorem Answers.eq_behind {before after : String} (h : Answers source left n place now)
    (hs : source = before ++ after) (hn : n = before.utf8ByteSize) :
    place = Place.behind before.toList := by
  have hb : Text.Boundary source n := ⟨before, after, hs, hn⟩
  cases h with
  | @between front rest hcut hlen =>
    have hbytes : Text.bytes front.toList = Text.bytes before.toList := by
      rw [← Text.utf8ByteSize_eq, ← Text.utf8ByteSize_eq, ← hlen, hn]
    rw [(Text.eq_of_bytes_eq (Text.toList_cuts hcut hs) hbytes).1]
  | startedOver hno _ => exact absurd hb hno
  | stayed hno _ _ _ => exact absurd hb hno

theorem AnswersAll.getElem {before after : String} {ns : List Nat} {places : List Place} {i : Nat}
    (h : AnswersAll source left ns places) (hs : source = before ++ after)
    (hi : ns[i]? = some before.utf8ByteSize) : places[i]? = some (Place.behind before.toList) := by
  induction h generalizing i with
  | done => cases hi
  | query ha _ ih =>
    cases i with
    | zero =>
      rw [List.getElem?_cons_zero] at hi ⊢
      rw [ha.eq_behind hs (Option.some.inj hi)]
    | succ i =>
      rw [List.getElem?_cons_succ] at hi ⊢
      exact ih hi

/-- One locator, asked for any offsets in any order, answers each offset between two
characters with the line and the column that are true of it, whatever it was
asked before. -/
theorem locateAll_memoryless (source : String) (ns : List Nat) :
    AnswersAll source 0 ns ((onText source).locateAll ns) ∧
      ∀ (i : Nat) (before after : String), source = before ++ after →
        ns[i]? = some before.utf8ByteSize →
        ((onText source).locateAll ns)[i]? = some (Place.behind before.toList) := by
  have h : AnswersAll source 0 ns ((onText source).locateAll ns) := (on_onChars _).answersAll ns
  exact ⟨h, fun _ _ _ hs hi => h.getElem hs hi⟩

/-- Asked for the end, for an offset inside a character, for one past the end, and
then for the start of the second line. -/
theorem locateAll_memoryless_history :
    let source := "あ\nb"
    let places := (onText source).locateAll [5, 2, 9, 4]
    (source = "あ\n" ++ "b" ∧ [5, 2, 9, 4][3]? = some "あ\n".utf8ByteSize) ∧
      places = [⟨2, 2⟩, ⟨1, 1⟩, ⟨1, 1⟩, ⟨2, 1⟩] ∧
      places[3]? = some (Place.behind "あ\n".toList) := by
  intro source places
  have hs : source = "あ\n" ++ "b" := by decide +kernel
  have hi : [5, 2, 9, 4][3]? = some "あ\n".utf8ByteSize := by decide +kernel
  have hplaces : places = [⟨2, 2⟩, ⟨1, 1⟩, ⟨1, 1⟩, ⟨2, 1⟩] := by decide +kernel
  obtain ⟨_, hbetween⟩ := locateAll_memoryless source [5, 2, 9, 4]
  exact ⟨⟨hs, hi⟩, hplaces, hbetween 3 _ _ hs hi⟩

end Locator

end Highlighter
