import Highlighter.Proofs.Grammar.Cuts

/-!
# Patterns that cut words

Between two word edges a pattern reads all the word characters in front or
nothing, so what it accepts is asked of that one run. The numbers, the words of
a block and the identifiers are cut in this way.
-/

set_option autoImplicit false

namespace Highlighter

open Pattern Declared

namespace Cursor

theorem startsWithWord_dropWhile (xs : List Char) :
    startsWithWord (xs.dropWhile Text.isWord) = false := by
  induction xs with
  | nil => rfl
  | cons x xs ih =>
    rw [List.dropWhile_cons]
    split
    · exact ih
    · rename_i hx
      exact Bool.eq_false_iff.mpr hx

theorem dropWhile_of_reads {c d : Cursor} {w : List Char}
    (ht : c.rest.takeWhile Text.isWord = w) (hr : c.Reads w d) :
    c.rest.dropWhile Text.isWord = d.rest := by
  have hw : w ++ c.rest.dropWhile Text.isWord = w ++ d.rest := by
    rw [← hr.1, ← ht, List.takeWhile_append_dropWhile]
  exact List.append_cancel_left hw

/-- A word is the whole run of word characters. -/
theorem word_iff_takeWhile {c d : Cursor} {w : List Char} (hw : ∀ x ∈ w, Text.isWord x = true) :
    c.Word w d ↔
      startsWithWord c.before = false ∧ c.rest.takeWhile Text.isWord = w ∧ c.Reads w d := by
  constructor
  · rintro ⟨hr, hb, ha⟩
    refine ⟨hb, ?_, hr⟩
    rw [hr.1, (Text.span_append hw (head_not_word ha)).1]
  · rintro ⟨hb, ht, hr⟩
    exact ⟨hr, hb, dropWhile_of_reads ht hr ▸ startsWithWord_dropWhile _⟩

end Cursor

namespace Pattern

variable {a : Pattern} {accepts : List Char → Bool}

theorem Reads.congr {P Q : List Char → Cursor → Prop} (ha : a.Reads P)
    (h : ∀ xs d, P xs d ↔ Q xs d) : a.Reads Q := by
  intro p q
  simp only [ha p q, h]

theorem cuts_word (hw : ∀ w, accepts w = true → ∀ x ∈ w, Text.isWord x = true)
    (h : ∀ c q, q ∈ a.paths ⟨c, []⟩ ↔
      ∃ w, (w ≠ [] ∧ accepts w = true) ∧ c.Word w q.cursor ∧ q.captures = []) :
    a.Cuts (.word accepts) := by
  intro c q
  simp only [h, Cut.word_eq_some]
  constructor
  · rintro ⟨w, ⟨hne, ha⟩, hword, hk⟩
    obtain ⟨hb, ht, hr⟩ := (Cursor.word_iff_takeWhile (hw w ha)).mp hword
    exact ⟨w, ⟨hb, ht, hne, ha⟩, hr, hk⟩
  · rintro ⟨w, ⟨hb, ht, hne, ha⟩, hr, hk⟩
    exact ⟨w, ⟨hne, ha⟩, (Cursor.word_iff_takeWhile (hw w ha)).mpr ⟨hb, ht, hr⟩, hk⟩

theorem cuts_wholeWord (hw : ∀ w, accepts w = true → ∀ x ∈ w, Text.isWord x = true)
    (ha : a.Reads fun w _ => w ≠ [] ∧ accepts w = true) : (wholeWord a).Cuts (.word accepts) := by
  apply cuts_word hw
  intro c q
  simp only [wholeWord, inOrder, mem_paths_seq, mem_paths_wordEdge, ha _ _]
  constructor
  · rintro ⟨_, ⟨hc, rfl⟩, r, ⟨w, hP, hr, hk⟩, hq, rfl⟩
    exact ⟨w, hP, (Cursor.word_iff (hw w hP.2) hP.1).mpr ⟨hc, hr, hq⟩, hk⟩
  · rintro ⟨w, hP, hword, hk⟩
    obtain ⟨hc, hr, hq⟩ := (Cursor.word_iff (hw w hP.2) hP.1).mp hword
    exact ⟨_, ⟨hc, rfl⟩, q, ⟨w, hP, hr, hk⟩, hq, rfl⟩

end Pattern

namespace Cut

theorem isDigit_eq (x : Char) : digits.accepts x = isDigit x := by
  simp [digits, CharClass.accepts, ClassItem.accepts, isDigit]

theorem isHexDigit_eq (x : Char) : hexDigits.accepts x = isHexDigit x := by
  simp [hexDigits, CharClass.accepts, ClassItem.accepts, isHexDigit, isDigit, Bool.or_assoc]

theorem isCapital_eq (x : Char) : capitals.accepts x = isCapital x := by
  simp [capitals, CharClass.accepts, ClassItem.accepts, isCapital, isDigit, Bool.or_assoc]

theorem isAsciiWord_of_isDigit {x : Char} (h : isDigit x = true) : Text.isAsciiWord x = true := by
  rw [isDigit] at h
  simp only [Text.isAsciiWord, h, Bool.or_true, Bool.true_or]

theorem isAsciiWord_of_isCapital {x : Char} (h : isCapital x = true) :
    Text.isAsciiWord x = true := by
  simp only [isCapital, Bool.or_eq_true] at h
  rcases h with (h | h) | h
  · simp only [Text.isAsciiWord, h, Bool.or_true, Bool.true_or]
  · exact isAsciiWord_of_isDigit h
  · simp only [Text.isAsciiWord, h, Bool.or_true]

/-- Between bounds inside the lower or the upper case letters. -/
theorem isAsciiWord_of_isHexDigit {x : Char} (h : isHexDigit x = true) :
    Text.isAsciiWord x = true := by
  simp only [isHexDigit, Bool.or_eq_true, Bool.and_eq_true, decide_eq_true_eq] at h
  simp only [Text.isAsciiWord, Bool.or_eq_true, Bool.and_eq_true, decide_eq_true_eq]
  rcases h with (h | ⟨hl, hu⟩) | ⟨hl, hu⟩
  · rw [isDigit, Bool.and_eq_true, decide_eq_true_eq, decide_eq_true_eq] at h
    exact .inl (.inr h)
  · exact .inl (.inl (.inl ⟨hl, Char.le_trans hu (by decide)⟩))
  · exact .inl (.inl (.inr ⟨hl, Char.le_trans hu (by decide)⟩))

theorem isWord_of_all {p : Char → Bool} (hp : ∀ x, p x = true → Text.isAsciiWord x = true)
    {w : List Char} (h : w.all p = true) : ∀ x ∈ w, Text.isWord x = true := by
  intro x hx
  exact Text.isWord_of_isAsciiWord (hp x (List.all_eq_true.mp h x hx))

/-- The accepted words are `Na` followed by a run of `N`. -/
theorem isNotANumber_iff {w : List Char} :
    isNotANumber w = true ↔ ∃ ns, ns ≠ [] ∧ (∀ x ∈ ns, x = 'N') ∧ w = "Na".toList ++ ns := by
  simp only [isNotANumber, Bool.and_eq_true, List.isPrefixOf_iff_prefix, bne_iff_ne, ne_eq,
    List.all_eq_true, beq_iff_eq]
  constructor
  · rintro ⟨⟨⟨ns, rfl⟩, hne⟩, hall⟩
    exact ⟨ns, hne, hall, rfl⟩
  · rintro ⟨ns, hne, hall, rfl⟩
    exact ⟨⟨⟨ns, rfl⟩, hne⟩, hall⟩

end Cut

namespace Pattern

theorem reads_plus_all {k : CharClass} {p : Char → Bool} (h : ∀ x, k.accepts x = p x) :
    (plus k).Reads fun w _ => w ≠ [] ∧ w.all p = true := by
  apply (reads_plus k).congr
  intro xs _
  simp only [CharClass.Accepts, h, List.all_eq_true]
  exact And.comm

theorem cuts_decimal : decimal.pattern.Cuts (.word (·.all Cut.isDigit)) :=
  cuts_wholeWord (fun _ => Cut.isWord_of_all fun _ => Cut.isAsciiWord_of_isDigit)
    (reads_plus_all Cut.isDigit_eq)

theorem cuts_capitalWord : capitalWord.pattern.Cuts (.word (·.all Cut.isCapital)) :=
  cuts_wholeWord (fun _ => Cut.isWord_of_all fun _ => Cut.isAsciiWord_of_isCapital)
    (reads_plus_all Cut.isCapital_eq)

theorem cuts_notANumber : notANumber.pattern.Cuts (.word Cut.isNotANumber) := by
  apply cuts_wholeWord
  · intro w hw x hx
    obtain ⟨ns, _, hn, rfl⟩ := Cut.isNotANumber_iff.mp hw
    rcases List.mem_append.mp hx with hx | hx
    · exact Text.isWord_of_all (by decide) x hx
    · rw [hn x hx]
      decide
  · intro p q
    simp only [inOrder, mem_paths_seq, mem_paths_literal, mem_paths_plus, CharClass.Accepts,
      CharClass.accepts, beq_iff_eq, Cut.isNotANumber_iff]
    constructor
    · rintro ⟨r, hr, ns, ⟨hn, hne⟩, hq⟩
      exact ⟨_, ⟨by simp, ns, hne, hn, rfl⟩, Path.goes_append.mpr ⟨r, hr, hq⟩⟩
    · rintro ⟨_, ⟨_, ns, hne, hn, rfl⟩, hg⟩
      obtain ⟨r, hr, hq⟩ := Path.goes_append.mp hg
      exact ⟨r, hr, ns, ⟨hn, hne⟩, hq⟩

theorem cuts_blockCloser (k : Category) :
    (blockCloser k).pattern.Cuts (.word (· == "endtextblock".toList)) := by
  apply cuts_wholeWord
  · intro w hw
    rw [beq_iff_eq.mp hw]
    exact Text.isWord_of_all (by decide)
  · apply (reads_literal "endtextblock").congr
    intro xs _
    rw [beq_iff_eq]
    exact ⟨fun h => ⟨by rw [h]; decide, h⟩, And.right⟩

theorem identifierStart_accepts (x : Char) :
    identifierStart.accepts x = (Text.isAsciiWord x && !Cut.isDigit x) := by
  simp only [identifierStart, CharClass.accepts, ClassItem.accepts, List.any_cons, List.any_nil,
    Bool.or_false, Text.isAsciiWord, Cut.isDigit]
  cases hd : (decide ('0' ≤ x) && decide (x ≤ '9')) with
  | false => simp [Bool.or_assoc]
  | true =>
    have hle : x ≤ '9' := of_decide_eq_true (Bool.and_eq_true_iff.mp hd).2
    have hn : ∀ y : Char, ¬ y ≤ '9' → ¬ y ≤ x := fun y hy h => hy (Char.le_trans h hle)
    have h_ : (x == '_') = false := by
      rw [beq_eq_false_iff_ne]
      rintro rfl
      exact absurd hle (by decide)
    simp [hn 'a' (by decide), hn 'A' (by decide), h_]

theorem cuts_identifier : identifier.pattern.Cuts (.word Cut.isIdentifier) := by
  apply cuts_word
  · intro w hw
    rw [Cut.isIdentifier, Bool.and_eq_true] at hw
    exact Text.isWord_of_all hw.1
  · intro c q
    rw [mem_paths_identifier]
    constructor
    · rintro ⟨x, xs, hx, hxs, hword, hk⟩
      refine ⟨x :: xs, ⟨by simp, ?_⟩, hword, hk⟩
      rw [identifierStart_accepts, Bool.and_eq_true] at hx
      simp only [Cut.isIdentifier, Bool.and_eq_true, List.all_eq_true]
      exact ⟨hxs, hx.2⟩
    · rintro ⟨w, ⟨hne, ha⟩, hword, hk⟩
      obtain ⟨x, xs, rfl⟩ := List.exists_cons_of_ne_nil hne
      simp only [Cut.isIdentifier, Bool.and_eq_true, List.all_eq_true] at ha
      have hx : identifierStart.accepts x = true := by
        rw [identifierStart_accepts, ha.1 x List.mem_cons_self, Bool.true_and]
        exact ha.2
      exact ⟨x, xs, hx, ha.1, hword, hk⟩

end Pattern

/-- A line tail is read in front of a place exactly if it is cut off there. -/
theorem lineTail_iff_cut {tail : List Char} {d e : Cursor} (h : d.Reads tail e) :
    LineTail tail e ↔ Text.lineTail? d.rest = some tail := by
  rw [h.1]
  constructor
  · rintro (rfl | rfl | ⟨rfl | rfl, he⟩)
    · simp [Text.lineTail?]
    · simp [Text.lineTail?]
    · simp [Text.lineTail?, he]
    · simp [Text.lineTail?, he]
  · intro ht
    rw [Text.lineTail?] at ht
    split at ht
    · exact .inl (Option.some.inj ht).symm
    · split at ht
      · exact .inr (.inl (Option.some.inj ht).symm)
      · obtain ⟨hr, ht⟩ := Option.ite_none_right_eq_some.mp ht
        have he : e.rest = [] := by simpa using Option.some.inj ht
        rw [he, List.append_nil] at hr
        exact .inr (.inr ⟨hr, he⟩)

namespace Cut

variable {before rest xs : List Char}

theorem lineTail?_isPrefix {tail : List Char} (h : Text.lineTail? rest = some tail) :
    tail <+: rest := by
  rw [Text.lineTail?] at h
  split at h
  · obtain rfl := Option.some.inj h
    assumption
  · split at h
    · obtain rfl := Option.some.inj h
      assumption
    · obtain ⟨_, h⟩ := Option.ite_none_right_eq_some.mp h
      exact ⟨[], (List.append_nil tail).trans (Option.some.inj h).symm⟩

theorem bareOpener_eq_some : bareOpener before rest = some xs ↔
    (Cursor.startsWithWord before = false ∧ rest.takeWhile Text.isWord = "textblock".toList) ∧
      ∃ tail, Text.lineTail? (rest.dropWhile Text.isWord) = some tail ∧
        "textblock".toList ++ tail = xs := by
  rw [bareOpener, Option.ite_none_right_eq_some, Option.map_eq_some_iff]

theorem hexadecimal_eq_some {d : Dialect} : hexadecimal d before rest = some xs ↔
    ∃ after w, rest = '$' :: after ∧ after.takeWhile Text.isWord = w ∧ xs = '$' :: w ∧ w ≠ [] ∧
      w.all isHexDigit = true ∧ (d = .legacy → Cursor.startsWithWord before = true) := by
  cases rest with
  | nil => simp [hexadecimal]
  | cons x after =>
    simp only [hexadecimal, Option.ite_none_right_eq_some, Option.some.injEq]
    constructor
    · rintro ⟨⟨rfl, hne, ha, hd⟩, rfl⟩
      exact ⟨after, _, rfl, rfl, rfl, hne, ha, hd⟩
    · rintro ⟨after, w, hr, rfl, rfl, hne, ha, hd⟩
      obtain ⟨rfl, rfl⟩ := List.cons.inj hr
      exact ⟨⟨rfl, hne, ha, hd⟩, rfl⟩

theorem proper_bareOpener : bareOpener.Proper := by
  intro before rest xs hx
  obtain ⟨⟨_, hw⟩, tail, ht, rfl⟩ := bareOpener_eq_some.mp hx
  obtain ⟨zs, hz⟩ := lineTail?_isPrefix ht
  exact ⟨⟨zs, by rw [List.append_assoc, hz, ← hw, List.takeWhile_append_dropWhile]⟩, by simp⟩

theorem proper_hexadecimal (d : Dialect) : (hexadecimal d).Proper := by
  intro before rest xs hx
  obtain ⟨after, w, rfl, rfl, rfl, _, _, _⟩ := hexadecimal_eq_some.mp hx
  exact ⟨(List.prefix_append_right_inj ['$']).mpr (List.takeWhile_prefix _), by simp⟩

end Cut

namespace Pattern

theorem cuts_bareOpener : bareOpener.pattern.Cuts .bareOpener := by
  have hw : ∀ x ∈ "textblock".toList, Text.isWord x = true := Text.isWord_of_all (by decide)
  intro c q
  simp only [mem_paths_bareOpener, Cut.bareOpener_eq_some]
  constructor
  · rintro ⟨d, tail, hword, ht, hg⟩
    obtain ⟨hb, hrun, hr⟩ := (Cursor.word_iff_takeWhile hw).mp hword
    have hd := Cursor.dropWhile_of_reads hrun hr
    refine ⟨_, ⟨⟨hb, hrun⟩, tail, ?_, rfl⟩, hr.append hg.1, hg.2⟩
    rw [hd]
    exact (lineTail_iff_cut hg.1).mp ht
  · rintro ⟨_, ⟨⟨hb, hrun⟩, tail, ht, rfl⟩, hr, hk⟩
    obtain ⟨d, hd, hq⟩ := Cursor.reads_append.mp hr
    rw [Cursor.dropWhile_of_reads hrun hd] at ht
    exact ⟨d, tail, (Cursor.word_iff_takeWhile hw).mpr ⟨hb, hrun, hd⟩, (lineTail_iff_cut hq).mpr ht,
      hq, hk⟩

/-- The sign is not a word character, so an edge stands behind it where a word
starts, and before it where a word ends. -/
theorem mem_paths_hexadecimal {d : Dialect} {c : Cursor} {q : Path} :
    q ∈ (hexadecimal d).pattern.paths ⟨c, []⟩ ↔
      ∃ r w, (w ≠ [] ∧ List.all w Cut.isHexDigit = true) ∧
        (d = .legacy → Cursor.startsWithWord c.before = true) ∧
        c.Reads ['$'] r ∧ r.Word w q.cursor ∧ q.captures = [] := by
  have hone : ∀ {p q : Path}, q ∈ (one (.just '$')).paths p ↔ p.Goes q ['$'] := by
    simp [mem_paths_one, CharClass.accepts]
  have hplus := reads_plus_all Cut.isHexDigit_eq
  have hwords : ∀ {w : List Char}, w.all Cut.isHexDigit = true → ∀ x ∈ w, Text.isWord x = true :=
    fun hw => Cut.isWord_of_all (fun _ => Cut.isAsciiWord_of_isHexDigit) hw
  have hword : ∀ {r e : Cursor} {w : List Char}, w ≠ [] ∧ w.all Cut.isHexDigit = true →
      (r.Word w e ↔ _) := fun hw => Cursor.word_iff (hwords hw.2) hw.1
  have hbehind : ∀ {r : Cursor}, c.Reads ['$'] r → Cursor.startsWithWord r.before = false := by
    intro r hr
    rw [hr.2]
    exact (by decide : Text.isWord '$' = false)
  have hbefore : ∀ {r : Cursor}, c.Reads ['$'] r →
      c.atWordEdge = Cursor.startsWithWord c.before := by
    intro r hr
    have hd : Cursor.startsWithWord (['$'] ++ r.rest) = false :=
      (by decide : Text.isWord '$' = false)
    rw [Cursor.atWordEdge, hr.1, hd, Bool.bne_false]
  cases d with
  | current =>
    simp only [hexadecimal, number, inOrder, mem_paths_seq, mem_paths_wordEdge, hone, hplus _ _]
    constructor
    · rintro ⟨r, hr, r, ⟨he, rfl⟩, q, ⟨w, hw, hq⟩, hqe, rfl⟩
      exact ⟨r.cursor, w, hw, by simp, hr.1, (hword hw).mpr ⟨he, hq.1, hqe⟩, hq.2.trans hr.2⟩
    · rintro ⟨r, w, hw, _, hr, hq, hk⟩
      obtain ⟨he, hq, hqe⟩ := (hword hw).mp hq
      exact ⟨⟨r, []⟩, ⟨hr, rfl⟩, _, ⟨he, rfl⟩, q, ⟨w, hw, hq, hk⟩, hqe, rfl⟩
  | legacy =>
    simp only [hexadecimal, number, inOrder, mem_paths_seq, mem_paths_wordEdge, hone, hplus _ _]
    constructor
    · rintro ⟨_, ⟨hc, rfl⟩, r, hr, q, ⟨w, hw, hq⟩, hqe, rfl⟩
      have hs : Cursor.startsWithWord r.cursor.rest = true := by
        rw [hq.1.1, Cursor.startsWithWord_append hw.1]
        exact Cursor.startsWithWord_of_word (hwords hw.2) hw.1
      have he : r.cursor.atWordEdge = true := by
        rw [Cursor.atWordEdge, hbehind hr.1, hs]
        rfl
      exact ⟨r.cursor, w, hw, fun _ => hbefore hr.1 ▸ hc, hr.1, (hword hw).mpr ⟨he, hq.1, hqe⟩,
        hq.2.trans hr.2⟩
    · rintro ⟨r, w, hw, hd, hr, hq, hk⟩
      obtain ⟨_, hq, hqe⟩ := (hword hw).mp hq
      exact ⟨_, ⟨(hbefore hr).trans (hd trivial), rfl⟩, ⟨r, []⟩, ⟨hr, rfl⟩, q, ⟨w, hw, hq, hk⟩,
        hqe, rfl⟩

theorem cuts_hexadecimal (d : Dialect) : (hexadecimal d).pattern.Cuts (.hexadecimal d) := by
  have hw : ∀ w : List Char, w.all Cut.isHexDigit = true → ∀ x ∈ w, Text.isWord x = true :=
    fun _ => Cut.isWord_of_all fun _ => Cut.isAsciiWord_of_isHexDigit
  intro c q
  simp only [mem_paths_hexadecimal, Cut.hexadecimal_eq_some]
  constructor
  · rintro ⟨r, w, ⟨hne, ha⟩, hd, hr, hword, hk⟩
    obtain ⟨_, hrun, hq⟩ := (Cursor.word_iff_takeWhile (hw w ha)).mp hword
    exact ⟨_, ⟨r.rest, w, hr.1, hrun, rfl, hne, ha, hd⟩, hr.append hq, hk⟩
  · rintro ⟨_, ⟨after, w, hrest, hrun, rfl, hne, ha, hd⟩, hg, hk⟩
    obtain ⟨r, hr, hq⟩ := Cursor.reads_append.mp (show c.Reads (['$'] ++ w) q.cursor from hg)
    obtain rfl : after = r.rest := List.tail_eq_of_cons_eq (hrest.symm.trans hr.1)
    have hb : Cursor.startsWithWord r.before = false := by
      rw [hr.2]
      exact (by decide : Text.isWord '$' = false)
    exact ⟨r, w, ⟨hne, ha⟩, hd, hr, (Cursor.word_iff_takeWhile (hw w ha)).mpr ⟨hb, hrun, hq⟩, hk⟩

end Pattern

end Highlighter
