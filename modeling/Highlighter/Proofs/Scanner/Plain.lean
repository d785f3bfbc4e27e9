import Highlighter.Proofs.Pattern.Reads
import Highlighter.Proofs.Scanner.Runs

/-!
# A scanner without knowledge

The same scan with nothing kept about matches ahead: at each step the rules of
the present mode are tried in their order, at the cursor alone, and the first
that takes text there wins. Handing out all tokens is asking for the next one
until there is none.
-/

set_option autoImplicit false

namespace Highlighter

def Pattern.takes? (p : Pattern) (c : Cursor) : Option Match :=
  (p.matchAt? c).filter fun m => !m.isEmpty

def firstHit? (c : Cursor) : List (Nat × Rule) → Option Hit
  | [] => none
  | (_, r) :: rest =>
    match r.pattern.takes? c with
    | some m => some ⟨r, m⟩
    | none => firstHit? c rest

theorem Pattern.takes_eq_some {p : Pattern} {c : Cursor} {m : Match} (h : p.takes? c = some m) :
    p.matchAt? c = some m ∧ c.Reaches m.stop ∧ c.offset < m.stop.offset := by
  obtain ⟨hm, he⟩ := Option.filter_eq_some_iff.mp h
  obtain ⟨hs, hr⟩ := Pattern.matchAt_start hm
  have hne : m.start.offset ≠ m.stop.offset := by simpa [Match.isEmpty] using he
  rw [hs] at hne
  exact ⟨hm, hr, Nat.lt_of_le_of_ne hr.offset_le hne⟩

theorem firstHit_mem {c : Cursor} {rules : List (Nat × Rule)} {hit : Hit}
    (h : firstHit? c rules = some hit) :
    (∃ n, (n, hit.rule) ∈ rules) ∧ hit.rule.pattern.takes? c = some hit.found := by
  fun_induction firstHit? c rules with
  | case1 => simp at h
  | case2 n r rest m hm =>
    obtain rfl := Option.some.inj h
    exact ⟨⟨n, List.mem_cons_self⟩, hm⟩
  | case3 n r rest hm ih =>
    obtain ⟨⟨k, hk⟩, ht⟩ := ih h
    exact ⟨⟨k, List.mem_cons_of_mem _ hk⟩, ht⟩

theorem Pattern.takes_of_path {p : Pattern} {c : Cursor} {q : Path} (hq : q ∈ p.paths ⟨c, []⟩)
    (ho : ∀ q ∈ p.paths ⟨c, []⟩, c.offset < q.cursor.offset) : ∃ m, p.takes? c = some m := by
  have hm : p.matchAt? c ≠ none := fun hn => Pattern.matchAt_eq_none.mp hn q hq
  obtain ⟨m, hm⟩ := Option.ne_none_iff_exists'.mp hm
  obtain ⟨hs, hp⟩ := Pattern.path_of_matchAt hm
  have hlt := ho _ hp
  refine ⟨m, Option.filter_eq_some_iff.mpr ⟨hm, ?_⟩⟩
  rw [Match.isEmpty, hs]
  simpa using Nat.ne_of_lt hlt

theorem Pattern.takes_of_no_path {p : Pattern} {c : Cursor} (h : ∀ q, q ∉ p.paths ⟨c, []⟩) :
    p.takes? c = none := by
  rw [Pattern.takes?, Pattern.matchAt_eq_none.mpr h]
  rfl

theorem Pattern.takes_of_shuns {p : Pattern} {c : Cursor} {x : Char} (hp : p.shuns x = true)
    (hx : c.current? = some x) : p.takes? c = none :=
  Pattern.takes_of_no_path fun _ => Pattern.not_mem_paths_of_shuns hp hx

/-- Rules that take nothing at the place are passed by. -/
theorem firstHit_skip {c : Cursor} {before rules : List (Nat × Rule)}
    (h : ∀ p ∈ before, p.2.pattern.takes? c = none) :
    firstHit? c (before ++ rules) = firstHit? c rules := by
  induction before with
  | nil => rfl
  | cons p before ih =>
    obtain ⟨hp, ht⟩ := List.forall_mem_cons.mp h
    rw [List.cons_append, firstHit?, hp]
    exact ih ht

structure PlainScanner (g : Grammar) where
  keepUnmatched : Bool
  cursor : Cursor
  mode : Mode
  outer : List Mode
  pending : List Token
  deriving DecidableEq, Repr

namespace PlainScanner

variable {g : Grammar}

def onText (g : Grammar) (keepUnmatched : Bool) (source : String) : PlainScanner g where
  keepUnmatched := keepUnmatched
  cursor := Cursor.ofText source
  mode := .root
  outer := []
  pending := []

def status (s : PlainScanner g) : Status where
  mode := s.mode
  depth := s.outer.length + 1
  position := s.cursor.offset
  current := s.cursor.current?
  atEnd := s.cursor.atEnd

def move (s : PlainScanner g) (offset : Nat) : Move → Logged (PlainScanner g)
  | .stay => .silent s
  | .enter m => ⟨{ s with mode := m, outer := s.mode :: s.outer }, [.entered m offset]⟩
  | .leave =>
    match s.outer with
    | [] => .silent s
    | m :: outer => ⟨{ s with mode := m, outer := outer }, [.left s.mode offset]⟩

def take (s : PlainScanner g) (hit : Hit) : Logged (PlainScanner g) :=
  let read := hit.rule.reading.tokens g.vocabulary hit.found
  { s with cursor := hit.found.stop, pending := s.pending ++ read }.move
    hit.found.start.offset hit.rule.move

def passOver (s : PlainScanner g) : Logged (PlainScanner g) :=
  match s.cursor.current? with
  | none => .silent s
  | some c =>
    let after := s.cursor.advance
    let read := if s.keepUnmatched then [s.cursor.tokenTo after .unmatched] else []
    ⟨{ s with cursor := after, pending := s.pending ++ read },
      [.unmatched s.mode c s.cursor.offset]⟩

def step (s : PlainScanner g) : Logged (PlainScanner g) :=
  match firstHit? s.cursor (g.rulesIn s.mode) with
  | some hit => s.take hit
  | none => s.passOver

/-- A move changes the modes only. -/
theorem move_frame (s : PlainScanner g) (n : Nat) (m : Move) :
    (s.move n m).value.cursor = s.cursor ∧ (s.move n m).value.pending = s.pending ∧
      (s.move n m).value.keepUnmatched = s.keepUnmatched := by
  cases m with
  | stay => exact ⟨rfl, rfl, rfl⟩
  | enter m => exact ⟨rfl, rfl, rfl⟩
  | leave =>
    unfold move
    cases s.outer <;> exact ⟨rfl, rfl, rfl⟩

theorem cursor_take (s : PlainScanner g) (hit : Hit) :
    (s.take hit).value.cursor = hit.found.stop := (move_frame _ _ _).1

theorem pending_take (s : PlainScanner g) (hit : Hit) :
    (s.take hit).value.pending =
      s.pending ++ hit.rule.reading.tokens g.vocabulary hit.found := (move_frame _ _ _).2.1

theorem keepUnmatched_take (s : PlainScanner g) (hit : Hit) :
    (s.take hit).value.keepUnmatched = s.keepUnmatched := (move_frame _ _ _).2.2

theorem passOver_of_rest {s : PlainScanner g} {x : Char} {rest : List Char}
    (h : s.cursor.rest = x :: rest) :
    s.passOver = ⟨{ s with
      cursor := s.cursor.advance
      pending := s.pending ++
        if s.keepUnmatched then [s.cursor.tokenTo s.cursor.advance .unmatched] else [] },
      [.unmatched s.mode x s.cursor.offset]⟩ := by
  have hc : s.cursor.current? = some x := by rw [Cursor.current?, h]; rfl
  simp only [passOver, hc]

theorem step_length_lt {s : PlainScanner g} (h : s.cursor.atEnd ≠ true) :
    s.step.value.cursor.rest.length < s.cursor.rest.length := by
  unfold step
  split
  · rename_i hit hh
    obtain ⟨_, hr, ho⟩ := Pattern.takes_eq_some (firstHit_mem hh).2
    rw [cursor_take]
    exact hr.length_lt ho
  · have hne : s.cursor.rest ≠ [] := by simpa [Cursor.atEnd] using h
    obtain ⟨x, rest, hx⟩ := List.exists_cons_of_ne_nil hne
    rw [passOver_of_rest hx]
    exact Cursor.length_advance_lt hne

def next (s : PlainScanner g) : Logged (Option Token × PlainScanner g) :=
  match s.pending with
  | t :: rest => .silent (some t, { s with pending := rest })
  | [] =>
    if h : s.cursor.atEnd = true then .silent (none, s)
    else
      have := step_length_lt h
      ⟨s.step.value.next.value, s.step.records ++ s.step.value.next.records⟩
termination_by s.cursor.rest.length

theorem next_pending {s : PlainScanner g} {t : Token} {rest : List Token}
    (h : s.pending = t :: rest) : s.next = .silent (some t, { s with pending := rest }) := by
  rw [next, h]

theorem next_end {s : PlainScanner g} (h : s.pending = []) (he : s.cursor.atEnd = true) :
    s.next = .silent (none, s) := by
  rw [next]
  simp [h, he]

theorem next_step {s : PlainScanner g} (h : s.pending = []) (he : s.cursor.atEnd ≠ true) :
    s.next = s.step.andThen next := by
  rw [next]
  simp [h, he, Logged.andThen]

/-- A token handed out leaves less to read, or as much and fewer pending. -/
theorem next_shrinks {s after : PlainScanner g} {t : Token} (h : s.next.value = (some t, after)) :
    after.cursor.rest.length < s.cursor.rest.length ∨
      after.cursor.rest.length = s.cursor.rest.length ∧
        after.pending.length < s.pending.length := by
  fun_induction next s with
  | case1 s u rest hp =>
    obtain ⟨_, rfl⟩ := Prod.mk.inj h
    exact .inr ⟨rfl, by simp [hp]⟩
  | case2 s hp he =>
    obtain ⟨hn, _⟩ := Prod.mk.inj h
    simp at hn
  | case3 s hp he hl ih =>
    left
    rcases ih h with hlt | ⟨heq, _⟩
    · exact Nat.lt_trans hlt hl
    · rw [heq]
      exact hl

def drain (s : PlainScanner g) : Logged (List Token × PlainScanner g) :=
  match _h : s.next.value with
  | (none, last) => ⟨([], last), s.next.records⟩
  | (some t, after) =>
    ⟨(t :: after.drain.value.1, after.drain.value.2), s.next.records ++ after.drain.records⟩
termination_by (s.cursor.rest.length, s.pending.length)
decreasing_by exact Prod.lex_def.mpr (next_shrinks _h)

theorem drain_next (s : PlainScanner g) :
    s.drain = s.next.andThen fun
      | (none, last) => .silent ([], last)
      | (some t, after) => after.drain.map fun (ts, last) => (t :: ts, last) := by
  rw [drain, Logged.andThen]
  split <;> simp [*, Logged.silent, Logged.map]

end PlainScanner

structure PlainSession (g : Grammar) where
  scanner : PlainScanner g
  aside : List (PlainScanner g)
  deriving DecidableEq, Repr

namespace PlainSession

variable {g : Grammar}

def start (s : PlainScanner g) : PlainSession g := ⟨s, []⟩

def perform (s : PlainSession g) : Command → Logged (Answer × PlainSession g)
  | .next => s.scanner.next.map fun (t, after) => (.token t, { s with scanner := after })
  | .drain => s.scanner.drain.map fun (ts, after) => (.tokens ts, { s with scanner := after })
  | .fork => .silent (.forked, { s with aside := s.scanner :: s.aside })
  | .restore =>
    match s.aside with
    | [] => .silent (.restored false, s)
    | copy :: aside => .silent (.restored true, ⟨copy, aside⟩)

def performAll (s : PlainSession g) :
    List Command → Logged (List (Answer × Status) × PlainSession g)
  | [] => .silent ([], s)
  | k :: ks =>
    (s.perform k).andThen fun (answer, after) =>
      (after.performAll ks).map fun (answers, last) =>
        ((answer, after.scanner.status) :: answers, last)

end PlainSession

end Highlighter
