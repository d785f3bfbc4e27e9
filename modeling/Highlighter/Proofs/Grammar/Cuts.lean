import Highlighter.Proofs.Grammar.Lexemes
import Highlighter.Proofs.Grammar.WordRules
import Highlighter.Proofs.Scanner.Plain

/-!
# Patterns that cut

A pattern cuts as a `Cut` says if its paths from any place are exactly the one
path over the text that is cut off. Such a pattern has no choice left: repetition
ends where a character of another kind stands, so no preference between paths
and no going back has a part in what it takes.
-/

set_option autoImplicit false

namespace Highlighter

open Pattern Declared

namespace Cut

variable {before rest xs : List Char}

def Proper (cut : Cut) : Prop :=
  ∀ before rest xs, cut before rest = some xs → xs <+: rest ∧ xs ≠ []

theorem literal_eq_some {ys : List Char} :
    literal ys before rest = some xs ↔ ys <+: rest ∧ ys = xs := by
  simp [literal]

theorem oneOf_eq_some {cs : List Char} :
    oneOf cs before rest = some xs ↔ ∃ x ∈ cs, xs = [x] ∧ [x] <+: rest := by
  cases rest with
  | nil => simp [oneOf]
  | cons y rest =>
    simp only [oneOf, Option.ite_none_right_eq_some, Option.some.injEq, List.cons_prefix_cons,
      List.nil_prefix, and_true]
    constructor
    · rintro ⟨hy, rfl⟩
      exact ⟨y, hy, rfl, rfl⟩
    · rintro ⟨x, hx, rfl, rfl⟩
      exact ⟨hx, rfl⟩

theorem restOfLine_eq_some {mark : List Char} :
    restOfLine mark before rest = some xs ↔ mark <+: rest ∧ Text.through '\n' rest = xs := by
  simp [restOfLine]

theorem between_eq_some {mark : Char} : between mark before rest = some xs ↔
    ∃ ys zs, mark ∉ ys ∧ rest = mark :: (ys ++ mark :: zs) ∧ xs = mark :: (ys ++ [mark]) := by
  cases rest with
  | nil => simp [between]
  | cons y after =>
    simp only [between, Option.ite_none_right_eq_some, Option.some.injEq]
    constructor
    · rintro ⟨⟨rfl, hm⟩, rfl⟩
      obtain ⟨ys, zs, rfl, hy⟩ := List.eq_append_cons_of_mem hm
      exact ⟨ys, zs, hy, rfl, by rw [Text.through_append hy, Text.through_mark]⟩
    · rintro ⟨ys, zs, hy, hr, rfl⟩
      obtain ⟨rfl, rfl⟩ := List.cons.inj hr
      exact ⟨⟨rfl, by simp⟩, by rw [Text.through_append hy, Text.through_mark]⟩

theorem word_eq_some {accepts : List Char → Bool} : word accepts before rest = some xs ↔
    Cursor.startsWithWord before = false ∧ rest.takeWhile Text.isWord = xs ∧ xs ≠ [] ∧
      accepts xs = true := by
  simp only [word, Option.ite_none_right_eq_some, Option.some.injEq]
  constructor
  · rintro ⟨⟨hb, hne, ha⟩, rfl⟩
    exact ⟨hb, rfl, hne, ha⟩
  · rintro ⟨hb, rfl, hne, ha⟩
    exact ⟨⟨hb, hne, ha⟩, rfl⟩

theorem bodyLine_eq_some : bodyLine before rest = some xs ↔
    (∃ x, rest.head? = some x ∧ x ≠ '\n') ∧ Text.through '\n' rest = xs := by
  cases rest with
  | nil => simp [bodyLine]
  | cons x rest => simp [bodyLine]

theorem proper_literal {ys : List Char} (h : ys ≠ []) : (literal ys).Proper := by
  intro before rest xs hx
  obtain ⟨hp, rfl⟩ := literal_eq_some.mp hx
  exact ⟨hp, h⟩

theorem proper_oneOf (cs : List Char) : (oneOf cs).Proper := by
  intro before rest xs hx
  obtain ⟨x, _, rfl, hp⟩ := oneOf_eq_some.mp hx
  exact ⟨hp, by simp⟩

theorem proper_restOfLine {mark : List Char} (h : mark ≠ []) : (restOfLine mark).Proper := by
  intro before rest xs hx
  obtain ⟨⟨_, rfl⟩, rfl⟩ := restOfLine_eq_some.mp hx
  exact ⟨Text.through_isPrefix _ _, Text.through_ne_nil (by simp [h])⟩

theorem proper_between (mark : Char) : (between mark).Proper := by
  intro before rest xs hx
  obtain ⟨ys, zs, _, rfl, rfl⟩ := between_eq_some.mp hx
  exact ⟨⟨zs, by simp⟩, by simp⟩

theorem proper_word (accepts : List Char → Bool) : (word accepts).Proper := by
  intro before rest xs hx
  obtain ⟨_, rfl, hne, _⟩ := word_eq_some.mp hx
  exact ⟨List.takeWhile_prefix _, hne⟩

theorem proper_bodyLine : bodyLine.Proper := by
  intro before rest xs hx
  obtain ⟨⟨x, hr, _⟩, rfl⟩ := bodyLine_eq_some.mp hx
  refine ⟨Text.through_isPrefix _ _, Text.through_ne_nil ?_⟩
  rintro rfl
  simp at hr

end Cut

namespace Pattern

variable {p q : Path}

def Cuts (a : Pattern) (cut : Cut) : Prop :=
  ∀ c q, q ∈ a.paths ⟨c, []⟩ ↔
    ∃ xs, cut c.before c.rest = some xs ∧ Path.Goes ⟨c, []⟩ q xs

theorem cuts_literal (s : String) : (literal s).Cuts (.literal s.toList) := by
  intro c q
  simp only [mem_paths_literal, Cut.literal_eq_some]
  constructor
  · intro hg
    exact ⟨s.toList, ⟨⟨_, hg.1.1.symm⟩, rfl⟩, hg⟩
  · rintro ⟨_, ⟨_, rfl⟩, hg⟩
    exact hg

theorem cuts_one {k : CharClass} {cs : List Char} (h : ∀ x, k.accepts x = true ↔ x ∈ cs) :
    (one k).Cuts (.oneOf cs) := by
  intro c q
  simp only [mem_paths_one, Cut.oneOf_eq_some, h]
  constructor
  · rintro ⟨x, hx, hg⟩
    exact ⟨[x], ⟨x, hx, rfl, ⟨_, hg.1.1.symm⟩⟩, hg⟩
  · rintro ⟨_, ⟨x, hx, rfl, _⟩, hg⟩
    exact ⟨x, hx, hg⟩

theorem accepts_notNewline {xs : List Char} : CharClass.notNewline.Accepts xs ↔ '\n' ∉ xs := by
  simp only [CharClass.Accepts, CharClass.accepts, bne_iff_ne, ne_eq]
  exact ⟨fun h hn => h _ hn rfl, fun h x hx hn => h (hn ▸ hx)⟩

theorem mem_paths_lineEnd :
    q ∈ lineEnd.paths p ↔ p.Goes q ['\n'] ∨ p.cursor.rest = [] ∧ q = p := by
  simp [lineEnd, mem_paths_alt, mem_paths_one, mem_paths_textEnd, CharClass.accepts]

/-- What is left of the line, without a newline and then the end of the line. -/
theorem goes_through : (∃ r xs, '\n' ∉ xs ∧ p.Goes r xs ∧ q ∈ lineEnd.paths r) ↔
    p.Goes q (Text.through '\n' p.cursor.rest) := by
  simp only [mem_paths_lineEnd]
  constructor
  · rintro ⟨r, xs, hx, hr, hq | ⟨he, rfl⟩⟩
    · have hg := Path.goes_append.mpr ⟨r, hr, hq⟩
      rwa [hg.1.1, List.append_assoc, Text.through_append hx, List.singleton_append,
        Text.through_mark]
    · have hrest : p.cursor.rest = xs := by rw [hr.1.1, he, List.append_nil]
      rwa [hrest, Text.through_eq_self hx]
  · intro hg
    rcases Text.through_cases '\n' p.cursor.rest with ⟨ys, zs, hy, hrest, ht⟩ | ⟨hn, ht⟩
    · rw [ht] at hg
      obtain ⟨r, hr, hq⟩ := Path.goes_append.mp hg
      exact ⟨r, ys, hy, hr, .inl hq⟩
    · rw [ht] at hg
      have he : q.cursor.rest = [] := by simpa using hg.1.1
      exact ⟨q, _, hn, hg, .inr ⟨he, rfl⟩⟩

theorem cuts_lineComment : lineComment.pattern.Cuts (.restOfLine "//".toList) := by
  intro c q
  simp only [lineComment, inOrder, mem_paths_seq, mem_paths_literal, mem_paths_star,
    accepts_notNewline, Cut.restOfLine_eq_some]
  have hthrough : ∀ r : Path, Path.Goes ⟨c, []⟩ r "//".toList →
      Text.through '\n' c.rest = "//".toList ++ Text.through '\n' r.cursor.rest := by
    intro r hr
    rw [hr.1.1, Text.through_append (by decide)]
  constructor
  · rintro ⟨r, hr, t, ⟨xs, hx, ht⟩, hq⟩
    refine ⟨_, ⟨⟨_, hr.1.1.symm⟩, rfl⟩, ?_⟩
    rw [hthrough r hr]
    exact Path.goes_append.mpr ⟨r, hr, goes_through.mp ⟨t, xs, hx, ht, hq⟩⟩
  · rintro ⟨_, ⟨⟨after, ha⟩, rfl⟩, hg⟩
    obtain ⟨d, hd, _⟩ := Cursor.exists_reads ha.symm
    have hr : Path.Goes ⟨c, []⟩ ⟨d, []⟩ "//".toList := ⟨hd, rfl⟩
    rw [hthrough _ hr] at hg
    obtain ⟨r', hr', hq⟩ := Path.goes_append.mp hg
    rw [hd.unique hr'.1] at hq
    obtain ⟨t, xs, hx, ht, hq⟩ := goes_through.mpr hq
    exact ⟨r', hr', t, ⟨xs, hx, ht⟩, hq⟩

theorem cuts_blockLine (k : Category) : (blockLine k).pattern.Cuts .bodyLine := by
  intro c q
  simp only [blockLine, inOrder, mem_paths_seq, mem_paths_plus, accepts_notNewline,
    Cut.bodyLine_eq_some]
  constructor
  · rintro ⟨r, ⟨xs, ⟨hx, hne⟩, hr⟩, hq⟩
    obtain ⟨x, xs, rfl⟩ := List.exists_cons_of_ne_nil hne
    refine ⟨_, ⟨⟨x, (Cursor.reads_cons.mp hr.1).1, ?_⟩, rfl⟩, goes_through.mp ⟨r, _, hx, hr, hq⟩⟩
    rintro rfl
    exact hx List.mem_cons_self
  · rintro ⟨_, ⟨⟨x, hx, hn⟩, rfl⟩, hg⟩
    obtain ⟨r, xs, hxs, hr, hq⟩ := goes_through.mpr hg
    refine ⟨r, ⟨xs, ⟨hxs, ?_⟩, hr⟩, hq⟩
    rintro rfl
    obtain rfl := Path.goes_nil.mp hr
    rcases mem_paths_lineEnd.mp hq with hq | ⟨he, _⟩
    · have hy := (Cursor.reads_cons.mp hq.1).1
      exact hn (Option.some.inj (hx.symm.trans hy))
    · have he : c.rest = [] := he
      simp [he] at hx

theorem cuts_between (mark : Char) : (Declared.between mark).Cuts (.between mark) := by
  have hout : ∀ {xs}, (CharClass.noneOf [.single mark]).Accepts xs ↔ mark ∉ xs := by
    intro xs
    simp only [CharClass.Accepts, CharClass.accepts, ClassItem.accepts, List.any_cons, List.any_nil,
      Bool.or_false, Bool.not_eq_true', beq_eq_false_iff_ne, ne_eq]
    exact ⟨fun h hm => h _ hm rfl, fun h x hx hm => h (hm ▸ hx)⟩
  have hone : ∀ {p q : Path}, q ∈ (one (.just mark)).paths p ↔ p.Goes q [mark] := by
    simp [mem_paths_one, CharClass.accepts]
  intro c q
  simp only [Declared.between, inOrder, mem_paths_seq, mem_paths_star, hone, hout,
    Cut.between_eq_some]
  constructor
  · rintro ⟨r, hr, t, ⟨ys, hy, ht⟩, hq⟩
    have hg := Path.goes_append.mpr ⟨r, hr, Path.goes_append.mpr ⟨t, ht, hq⟩⟩
    exact ⟨_, ⟨ys, q.cursor.rest, hy, by simpa using hg.1.1, rfl⟩, hg⟩
  · rintro ⟨_, ⟨ys, zs, hy, _, rfl⟩, hg⟩
    obtain ⟨r, hr, hg⟩ :=
      Path.goes_append.mp (show Path.Goes _ q ([mark] ++ (ys ++ [mark])) from hg)
    obtain ⟨t, ht, hq⟩ := Path.goes_append.mp hg
    exact ⟨r, hr, t, ⟨ys, hy, ht⟩, hq⟩

end Pattern

end Highlighter
