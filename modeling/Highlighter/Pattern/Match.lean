import Highlighter.Cursor
import Highlighter.Pattern.Basic

/-!
# Matching

`Pattern.paths` lists every way a pattern can be read from a place, the
preferred way first: the first choice before the second, the longer
repetition before the shorter. `Pattern.matchAt?` takes the first, and
`Pattern.search?` the first place, going on from a cursor, where there is
one. Every place is judged on the full text.
-/

set_option autoImplicit false

namespace Highlighter

structure Capture where
  number : Nat
  start : Cursor
  stop : Cursor
  deriving DecidableEq, Repr

structure Path where
  cursor : Cursor
  captures : List Capture
  deriving DecidableEq, Repr

namespace CharClass

def acceptsNext (k : CharClass) (c : Cursor) : Bool :=
  c.current?.any k.accepts

theorem rest_ne_nil {k : CharClass} {c : Cursor} (h : k.acceptsNext c = true) : c.rest ≠ [] := by
  intro hr
  simp [acceptsNext, Cursor.current?, hr] at h

/-- All places at the end of a repetition from `c` on, the farthest first,
followed by `shorter`. -/
def runs (k : CharClass) (c : Cursor) (shorter : List Cursor) : List Cursor :=
  if h : k.acceptsNext c = true then
    have := Cursor.length_advance_lt (rest_ne_nil h)
    k.runs c.advance (c :: shorter)
  else c :: shorter
termination_by c.rest.length

end CharClass

def Cursor.afterLiteral? (c : Cursor) : List Char → Option Cursor
  | [] => some c
  | x :: xs => if c.current? = some x then c.advance.afterLiteral? xs else none

namespace Pattern

def paths : Pattern → Path → List Path
  | .empty, p => [p]
  | .literal s, p => (p.cursor.afterLiteral? s.toList).toList.map ({ p with cursor := · })
  | .one k, p => if k.acceptsNext p.cursor then [{ p with cursor := p.cursor.advance }] else []
  | .opt k, p => if k.acceptsNext p.cursor then [{ p with cursor := p.cursor.advance }, p] else [p]
  | .star k, p => (k.runs p.cursor []).map ({ p with cursor := · })
  | .plus k, p =>
    if k.acceptsNext p.cursor then (k.runs p.cursor.advance []).map ({ p with cursor := · }) else []
  | .wordEdge, p => if p.cursor.atWordEdge then [p] else []
  | .textEnd, p => if p.cursor.atEnd then [p] else []
  | .seq a b, p => (a.paths p).flatMap b.paths
  | .alt a b, p => a.paths p ++ b.paths p
  | .group n a, p =>
    (a.paths p).map fun q => { q with captures := ⟨n, p.cursor, q.cursor⟩ :: q.captures }

end Pattern

structure Match where
  start : Cursor
  stop : Cursor
  captures : List Capture
  deriving DecidableEq, Repr

namespace Match

def chars (m : Match) : List Char := m.start.upTo m.stop

def isEmpty (m : Match) : Bool := m.start.offset == m.stop.offset

def capture? (m : Match) (number : Nat) : Option Capture :=
  m.captures.find? (·.number == number)

end Match

namespace Pattern

def matchAt? (p : Pattern) (c : Cursor) : Option Match :=
  (p.paths ⟨c, []⟩).head?.map fun q => ⟨c, q.cursor, q.captures⟩

def search? (p : Pattern) (c : Cursor) : Option Match :=
  match p.matchAt? c with
  | some m => some m
  | none =>
    if h : c.rest = [] then none
    else
      have := Cursor.length_advance_lt h
      p.search? c.advance
termination_by c.rest.length

end Pattern

namespace CharClass

theorem reaches_of_mem_runs {k : CharClass} {c d : Cursor} {shorter : List Cursor}
    (h : d ∈ k.runs c shorter) : c.Reaches d ∨ d ∈ shorter := by
  fun_induction runs k c shorter with
  | case1 c shorter hk _ ih =>
    rcases ih h with h | h
    · exact .inl (c.reaches_advance.trans h)
    · rcases List.mem_cons.mp h with rfl | h
      · exact .inl (Cursor.reaches_refl _)
      · exact .inr h
  | case2 c shorter hk =>
    rcases List.mem_cons.mp h with rfl | h
    · exact .inl (Cursor.reaches_refl _)
    · exact .inr h

end CharClass

theorem Cursor.reaches_afterLiteral {c d : Cursor} {xs : List Char}
    (h : c.afterLiteral? xs = some d) : c.Reaches d := by
  induction xs generalizing c with
  | nil =>
    obtain rfl := Option.some.inj h
    exact Cursor.reaches_refl _
  | cons x xs ih =>
    simp only [afterLiteral?] at h
    split at h
    · exact c.reaches_advance.trans (ih h)
    · exact absurd h (by simp)

namespace Pattern

/-- Reading a pattern never goes back. -/
theorem reaches_of_mem_paths {a : Pattern} {p q : Path} (h : q ∈ a.paths p) :
    p.cursor.Reaches q.cursor := by
  induction a generalizing p q with
  | empty =>
    simp only [paths, List.mem_singleton] at h
    subst h
    exact Cursor.reaches_refl _
  | literal s =>
    simp only [paths, List.mem_map, Option.mem_toList] at h
    obtain ⟨d, hd, rfl⟩ := h
    exact Cursor.reaches_afterLiteral hd
  | one k =>
    simp only [paths] at h
    split at h
    · simp only [List.mem_singleton] at h
      subst h
      exact Cursor.reaches_advance _
    · simp at h
  | opt k =>
    simp only [paths] at h
    split at h
    · simp only [List.mem_cons, List.not_mem_nil, or_false] at h
      rcases h with rfl | rfl
      · exact Cursor.reaches_advance _
      · exact Cursor.reaches_refl _
    · simp only [List.mem_singleton] at h
      subst h
      exact Cursor.reaches_refl _
  | star k =>
    simp only [paths, List.mem_map] at h
    obtain ⟨d, hd, rfl⟩ := h
    simpa using CharClass.reaches_of_mem_runs hd
  | plus k =>
    simp only [paths] at h
    split at h
    · simp only [List.mem_map] at h
      obtain ⟨d, hd, rfl⟩ := h
      exact (Cursor.reaches_advance _).trans (by simpa using CharClass.reaches_of_mem_runs hd)
    · simp at h
  | wordEdge =>
    simp only [paths] at h
    split at h
    · simp only [List.mem_singleton] at h
      subst h
      exact Cursor.reaches_refl _
    · simp at h
  | textEnd =>
    simp only [paths] at h
    split at h
    · simp only [List.mem_singleton] at h
      subst h
      exact Cursor.reaches_refl _
    · simp at h
  | seq a b iha ihb =>
    simp only [paths, List.mem_flatMap] at h
    obtain ⟨r, hr, hq⟩ := h
    exact (iha hr).trans (ihb hq)
  | alt a b iha ihb =>
    simp only [paths, List.mem_append] at h
    exact h.elim iha ihb
  | group n a ih =>
    simp only [paths, List.mem_map] at h
    obtain ⟨r, hr, rfl⟩ := h
    have := ih hr
    exact this

theorem matchAt_start {p : Pattern} {c : Cursor} {m : Match} (h : p.matchAt? c = some m) :
    m.start = c ∧ c.Reaches m.stop := by
  simp only [matchAt?, Option.map_eq_some_iff] at h
  obtain ⟨q, hq, rfl⟩ := h
  exact ⟨rfl, reaches_of_mem_paths (List.mem_of_head? hq)⟩

theorem search_reaches {p : Pattern} {c : Cursor} {m : Match} (h : p.search? c = some m) :
    c.Reaches m.start ∧ m.start.Reaches m.stop := by
  fun_induction search? p c with
  | case1 c m' hm =>
    obtain rfl := Option.some.inj h
    obtain ⟨hs, hr⟩ := matchAt_start hm
    exact ⟨hs ▸ Cursor.reaches_refl _, hs ▸ hr⟩
  | case2 c hm hr => simp at h
  | case3 c hm hr _ ih => exact ⟨c.reaches_advance.trans (ih h).1, (ih h).2⟩

end Pattern

end Highlighter
