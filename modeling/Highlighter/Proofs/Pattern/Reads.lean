import Highlighter.Pattern.Match
import Highlighter.Proofs.Places

/-!
# What a pattern reads

Each constructor of a pattern gets one law that says which paths it has,
without regard to their order. A pattern is then taken apart, or put together,
by rewriting. The second half is a test on the first character: a pattern that
may not start with it reads nothing of a text that does.
-/

set_option autoImplicit false

namespace Highlighter

namespace CharClass

def Accepts (k : CharClass) (xs : List Char) : Prop := ∀ x ∈ xs, k.accepts x = true

theorem acceptsNext_iff {k : CharClass} {c : Cursor} :
    k.acceptsNext c = true ↔ ∃ x, c.current? = some x ∧ k.accepts x = true := by
  unfold acceptsNext
  cases c.current? <;> simp

theorem mem_runs {k : CharClass} {c d : Cursor} {shorter : List Cursor} :
    d ∈ k.runs c shorter ↔ (∃ xs, k.Accepts xs ∧ c.Reads xs d) ∨ d ∈ shorter := by
  fun_induction runs k c shorter with
  | case1 c shorter hk _ ih =>
    obtain ⟨x, hx, hax⟩ := acceptsNext_iff.mp hk
    rw [ih, List.mem_cons]
    constructor
    · rintro (⟨xs, ha, hr⟩ | rfl | h)
      · exact .inl ⟨x :: xs, List.forall_mem_cons.mpr ⟨hax, ha⟩, Cursor.reads_cons.mpr ⟨hx, hr⟩⟩
      · exact .inl ⟨[], by simp [Accepts], Cursor.reads_nil.mpr rfl⟩
      · exact .inr h
    · rintro (⟨xs, ha, hr⟩ | h)
      · cases xs with
        | nil => exact .inr (.inl (Cursor.reads_nil.mp hr))
        | cons y ys => exact .inl ⟨ys, (List.forall_mem_cons.mp ha).2, (Cursor.reads_cons.mp hr).2⟩
      · exact .inr (.inr h)
  | case2 c shorter hk =>
    rw [List.mem_cons]
    constructor
    · rintro (rfl | h)
      · exact .inl ⟨[], by simp [Accepts], Cursor.reads_nil.mpr rfl⟩
      · exact .inr h
    · rintro (⟨xs, ha, hr⟩ | h)
      · cases xs with
        | nil => exact .inl (Cursor.reads_nil.mp hr)
        | cons y ys =>
          exact absurd (acceptsNext_iff.mpr
            ⟨y, (Cursor.reads_cons.mp hr).1, (List.forall_mem_cons.mp ha).1⟩) hk
      · exact .inr h

end CharClass

theorem Cursor.afterLiteral_iff {c d : Cursor} {xs : List Char} :
    c.afterLiteral? xs = some d ↔ c.Reads xs d := by
  induction xs generalizing c with
  | nil => rw [reads_nil]; simp [afterLiteral?, eq_comm]
  | cons x xs ih =>
    rw [reads_cons, ← ih]
    by_cases h : c.current? = some x <;> simp [afterLiteral?, h]

def Path.Goes (p q : Path) (xs : List Char) : Prop :=
  p.cursor.Reads xs q.cursor ∧ q.captures = p.captures

def Path.Takes (n : Nat) (p q : Path) (xs : List Char) : Prop :=
  p.cursor.Reads xs q.cursor ∧ q.captures = ⟨n, p.cursor, q.cursor⟩ :: p.captures

theorem Path.goes_nil {p q : Path} : p.Goes q [] ↔ q = p := by
  rw [Goes, Cursor.reads_nil]
  constructor
  · rintro ⟨hc, hk⟩
    cases p
    cases q
    simp_all
  · rintro rfl
    exact ⟨rfl, rfl⟩

theorem Path.goes_append {p q : Path} {xs ys : List Char} :
    p.Goes q (xs ++ ys) ↔ ∃ r, p.Goes r xs ∧ r.Goes q ys := by
  simp only [Goes, Cursor.reads_append]
  constructor
  · rintro ⟨⟨d, hx, hy⟩, hk⟩
    exact ⟨⟨d, p.captures⟩, ⟨hx, rfl⟩, hy, hk⟩
  · rintro ⟨r, ⟨hx, hr⟩, hy, hk⟩
    exact ⟨⟨r.cursor, hx, hy⟩, hk.trans hr⟩

theorem Path.goes_map {p q : Path} {ds : List Cursor} {P : List Char → Prop}
    (h : ∀ d, d ∈ ds ↔ ∃ xs, P xs ∧ p.cursor.Reads xs d) :
    q ∈ ds.map ({ p with cursor := · }) ↔ ∃ xs, P xs ∧ p.Goes q xs := by
  constructor
  · intro hq
    obtain ⟨d, hd, rfl⟩ := List.mem_map.mp hq
    obtain ⟨xs, hP, hr⟩ := (h d).mp hd
    exact ⟨xs, hP, hr, rfl⟩
  · rintro ⟨xs, hP, hr, hk⟩
    refine List.mem_map.mpr ⟨q.cursor, (h _).mpr ⟨xs, hP, hr⟩, ?_⟩
    rw [← hk]

namespace Pattern

variable {a b : Pattern} {k : CharClass} {p q : Path}

theorem mem_paths_empty : q ∈ empty.paths p ↔ q = p := by simp [paths]

theorem mem_paths_literal {s : String} : q ∈ (literal s).paths p ↔ p.Goes q s.toList := by
  have h : ∀ d, d ∈ (p.cursor.afterLiteral? s.toList).toList ↔
      ∃ xs, xs = s.toList ∧ p.cursor.Reads xs d := by
    intro d
    rw [Option.mem_toList, Cursor.afterLiteral_iff]
    simp
  rw [paths, Path.goes_map h]
  simp

theorem mem_paths_one : q ∈ (one k).paths p ↔ ∃ x, k.accepts x = true ∧ p.Goes q [x] := by
  simp only [paths, Path.Goes, Cursor.reads_cons, Cursor.reads_nil]
  by_cases h : k.acceptsNext p.cursor = true
  · obtain ⟨x, hx, ha⟩ := CharClass.acceptsNext_iff.mp h
    rw [if_pos h, List.mem_singleton]
    constructor
    · rintro rfl
      exact ⟨x, ha, ⟨hx, rfl⟩, rfl⟩
    · rintro ⟨_, _, ⟨_, hc⟩, hk⟩
      cases q
      simp_all
  · rw [if_neg h]
    constructor
    · simp
    · rintro ⟨x, ha, ⟨hx, _⟩, _⟩
      exact absurd (CharClass.acceptsNext_iff.mpr ⟨x, hx, ha⟩) h

theorem mem_paths_star : q ∈ (star k).paths p ↔ ∃ xs, k.Accepts xs ∧ p.Goes q xs := by
  have h : ∀ d, d ∈ k.runs p.cursor [] ↔ ∃ xs, k.Accepts xs ∧ p.cursor.Reads xs d := by
    intro d
    simp [CharClass.mem_runs]
  rw [paths, Path.goes_map h]

theorem mem_paths_plus :
    q ∈ (plus k).paths p ↔ ∃ xs, (k.Accepts xs ∧ xs ≠ []) ∧ p.Goes q xs := by
  have hs : q ∈ (plus k).paths p ↔ ∃ r ∈ (one k).paths p, q ∈ (star k).paths r := by
    simp only [paths]
    by_cases h : k.acceptsNext p.cursor = true <;> simp [h]
  simp only [hs, mem_paths_one, mem_paths_star]
  constructor
  · rintro ⟨r, ⟨x, hx, hr⟩, xs, ha, hq⟩
    exact ⟨[x] ++ xs, ⟨List.forall_mem_cons.mpr ⟨hx, ha⟩, by simp⟩,
      Path.goes_append.mpr ⟨r, hr, hq⟩⟩
  · rintro ⟨xs, ⟨ha, hne⟩, hg⟩
    obtain ⟨x, ys, rfl⟩ := List.exists_cons_of_ne_nil hne
    obtain ⟨hx, hys⟩ := List.forall_mem_cons.mp ha
    obtain ⟨r, hr, hq⟩ := Path.goes_append.mp (show p.Goes q ([x] ++ ys) from hg)
    exact ⟨r, ⟨x, hx, hr⟩, ys, hys, hq⟩

theorem mem_paths_opt :
    q ∈ (opt k).paths p ↔ q = p ∨ ∃ x, k.accepts x = true ∧ p.Goes q [x] := by
  have hs : q ∈ (opt k).paths p ↔ q = p ∨ q ∈ (one k).paths p := by
    simp only [paths]
    by_cases h : k.acceptsNext p.cursor = true <;> simp [h, or_comm]
  rw [hs, mem_paths_one]

theorem mem_paths_wordEdge : q ∈ wordEdge.paths p ↔ p.cursor.atWordEdge = true ∧ q = p := by
  by_cases h : p.cursor.atWordEdge = true <;> simp [paths, h]

theorem mem_paths_textEnd : q ∈ textEnd.paths p ↔ p.cursor.rest = [] ∧ q = p := by
  have he : p.cursor.atEnd = true ↔ p.cursor.rest = [] := List.isEmpty_iff
  by_cases h : p.cursor.atEnd = true
  · simp [paths, h, he.mp h]
  · simp [paths, h, mt he.mpr h]

theorem mem_paths_seq : q ∈ (seq a b).paths p ↔ ∃ r ∈ a.paths p, q ∈ b.paths r := by
  simp [paths]

theorem mem_paths_alt : q ∈ (alt a b).paths p ↔ q ∈ a.paths p ∨ q ∈ b.paths p := by
  simp [paths]

theorem mem_paths_group {n : Nat} :
    q ∈ (group n a).paths p ↔
      ∃ r ∈ a.paths p, q = ⟨r.cursor, ⟨n, p.cursor, r.cursor⟩ :: r.captures⟩ := by
  simp [paths, eq_comm]

def Reads (a : Pattern) (P : List Char → Cursor → Prop) : Prop :=
  ∀ p q, q ∈ a.paths p ↔ ∃ xs, P xs q.cursor ∧ p.Goes q xs

theorem reads_literal (s : String) : (literal s).Reads fun xs _ => xs = s.toList := by
  intro p q
  simp [mem_paths_literal]

theorem reads_one (k : CharClass) :
    (one k).Reads fun xs _ => ∃ x, k.accepts x = true ∧ xs = [x] := by
  intro p q
  rw [mem_paths_one]
  constructor
  · rintro ⟨x, hx, hg⟩
    exact ⟨[x], ⟨x, hx, rfl⟩, hg⟩
  · rintro ⟨_, ⟨x, hx, rfl⟩, hg⟩
    exact ⟨x, hx, hg⟩

theorem reads_plus (k : CharClass) : (plus k).Reads fun xs _ => k.Accepts xs ∧ xs ≠ [] := by
  intro p q
  exact mem_paths_plus

theorem Reads.alt {P Q : List Char → Cursor → Prop} (ha : a.Reads P) (hb : b.Reads Q) :
    (Pattern.alt a b).Reads fun xs d => P xs d ∨ Q xs d := by
  intro p q
  rw [mem_paths_alt, ha p q, hb p q, ← exists_or]
  simp only [or_and_right]

theorem Reads.group {P : List Char → Cursor → Prop} (ha : a.Reads P) {n : Nat} :
    q ∈ (group n a).paths p ↔ ∃ xs, P xs q.cursor ∧ p.Takes n q xs := by
  rw [mem_paths_group]
  constructor
  · rintro ⟨r, hr, hq⟩
    obtain ⟨xs, hP, hg⟩ := (ha p r).mp hr
    subst hq
    exact ⟨xs, hP, hg.1, by rw [hg.2]⟩
  · rintro ⟨xs, hP, hr, hk⟩
    have hi : ⟨q.cursor, p.captures⟩ ∈ a.paths p := (ha p _).mpr ⟨xs, hP, hr, rfl⟩
    refine ⟨_, hi, ?_⟩
    rw [← hk]

theorem matchAt_eq_none {c : Cursor} : a.matchAt? c = none ↔ ∀ q, q ∉ a.paths ⟨c, []⟩ := by
  simp [matchAt?, List.eq_nil_iff_forall_not_mem]

theorem path_of_matchAt {c : Cursor} {m : Match} (h : a.matchAt? c = some m) :
    m.start = c ∧ ⟨m.stop, m.captures⟩ ∈ a.paths ⟨c, []⟩ := by
  simp only [matchAt?, Option.map_eq_some_iff] at h
  obtain ⟨q, hq, rfl⟩ := h
  exact ⟨rfl, List.mem_of_head? hq⟩

def readsNothing : Pattern → Bool
  | .empty => true
  | .wordEdge => true
  | .textEnd => true
  | _ => false

def shuns (x : Char) : Pattern → Bool
  | .literal s => s.toList.head?.any (· != x)
  | .one k => !k.accepts x
  | .plus k => !k.accepts x
  | .textEnd => true
  | .seq a b => a.shuns x || (a.readsNothing && b.shuns x)
  | .alt a b => a.shuns x && b.shuns x
  | .group _ a => a.shuns x
  | _ => false

theorem eq_of_readsNothing (ha : a.readsNothing = true) (h : q ∈ a.paths p) : q = p := by
  cases a with
  | empty => exact mem_paths_empty.mp h
  | wordEdge => exact (mem_paths_wordEdge.mp h).2
  | textEnd => exact (mem_paths_textEnd.mp h).2
  | _ => simp [readsNothing] at ha

theorem head_of_goes {x y : Char} {ys : List Char} (h : p.Goes q (y :: ys))
    (hx : p.cursor.current? = some x) : y = x :=
  Option.some.inj ((Cursor.reads_cons.mp h.1).1.symm.trans hx)

theorem not_mem_paths_of_shuns {x : Char} (ha : a.shuns x = true)
    (hx : p.cursor.current? = some x) : q ∉ a.paths p := by
  intro h
  induction a generalizing p q with
  | literal s =>
    have hg := mem_paths_literal.mp h
    simp only [shuns] at ha
    cases hs : s.toList with
    | nil => simp [hs] at ha
    | cons y ys =>
      rw [hs] at hg ha
      simp [head_of_goes hg hx] at ha
  | one k =>
    obtain ⟨y, hy, hg⟩ := mem_paths_one.mp h
    simp [shuns, ← head_of_goes hg hx, hy] at ha
  | plus k =>
    obtain ⟨xs, ⟨hxs, hne⟩, hg⟩ := mem_paths_plus.mp h
    obtain ⟨y, ys, rfl⟩ := List.exists_cons_of_ne_nil hne
    simp [shuns, ← head_of_goes hg hx, hxs y List.mem_cons_self] at ha
  | textEnd =>
    have hr := (mem_paths_textEnd.mp h).1
    simp [Cursor.current?, hr] at hx
  | seq a b iha ihb =>
    obtain ⟨r, hr, hq⟩ := mem_paths_seq.mp h
    simp only [shuns, Bool.or_eq_true, Bool.and_eq_true] at ha
    rcases ha with ha | ⟨hn, hb⟩
    · exact iha ha hx hr
    · rw [eq_of_readsNothing hn hr] at hq
      exact ihb hb hx hq
  | alt a b iha ihb =>
    simp only [shuns, Bool.and_eq_true] at ha
    rcases mem_paths_alt.mp h with h | h
    · exact iha ha.1 hx h
    · exact ihb ha.2 hx h
  | group n a ih =>
    obtain ⟨r, hr, _⟩ := mem_paths_group.mp h
    exact ih ha hx hr
  | _ => simp [shuns] at ha

end Pattern

end Highlighter
