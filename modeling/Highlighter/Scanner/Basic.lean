import Highlighter.Log
import Highlighter.Scanner.Outlook

/-!
# The scanner

A scanner stands in a text under one grammar. It holds its modes, the tokens
that are read but not yet handed out, and what it knows about the matches
ahead. One step takes the first match of the present mode, or passes over one
character that no rule takes. A step from before the end always goes forward.
-/

set_option autoImplicit false

namespace Highlighter

structure Scanner (g : Grammar) where
  keepUnmatched : Bool
  cursor : Cursor
  mode : Mode
  outer : List Mode
  pending : List Token
  outlooks : Outlooks
  deriving DecidableEq, Repr

def Cursor.tokenTo (start stop : Cursor) (category : Category) : Token :=
  ⟨category, String.ofList (start.upTo stop), ⟨start.offset, stop.offset⟩⟩

def Capture.tokens (k : Capture) (category : Category) : List Token :=
  if k.start.offset == k.stop.offset then [] else [k.start.tokenTo k.stop category]

namespace Reading

def groupTokens (m : Match) : Nat → List Category → List Token
  | _, [] => []
  | n, k :: ks =>
    ((m.capture? n).map (·.tokens k)).getD [] ++ groupTokens m (n + 1) ks

def tokens (v : Vocabulary) (m : Match) : Reading → List Token
  | .whole k => [m.start.tokenTo m.stop k]
  | .groups ks => groupTokens m 1 ks
  | .word => [m.start.tokenTo m.stop (v.classify (String.ofList m.chars))]

end Reading

namespace Scanner

variable {g : Grammar}

def onChars (g : Grammar) (keepUnmatched : Bool) (cs : List Char) : Scanner g where
  keepUnmatched := keepUnmatched
  cursor := Cursor.ofChars cs
  mode := .root
  outer := []
  pending := []
  outlooks := .fresh g.size

def onText (g : Grammar) (keepUnmatched : Bool) (source : String) : Scanner g :=
  onChars g keepUnmatched source.toList

def atEnd (s : Scanner g) : Bool := s.cursor.atEnd

def depth (s : Scanner g) : Nat := s.outer.length + 1

def move (s : Scanner g) (offset : Nat) : Move → Logged (Scanner g)
  | .stay => .silent s
  | .enter m => ⟨{ s with mode := m, outer := s.mode :: s.outer }, [.entered m offset]⟩
  | .leave =>
    match s.outer with
    | [] => .silent s
    | m :: outer => ⟨{ s with mode := m, outer := outer }, [.left s.mode offset]⟩

def take (s : Scanner g) (hit : Hit) : Logged (Scanner g) :=
  let read := hit.rule.reading.tokens g.vocabulary hit.found
  { s with cursor := hit.found.stop, pending := s.pending ++ read }.move
    hit.found.start.offset hit.rule.move

def passOver (s : Scanner g) : Logged (Scanner g) :=
  match s.cursor.current? with
  | none => .silent s
  | some c =>
    let after := s.cursor.advance
    let read := if s.keepUnmatched then [s.cursor.tokenTo after .unmatched] else []
    ⟨{ s with cursor := after, pending := s.pending ++ read },
      [.unmatched s.mode c s.cursor.offset]⟩

def step (s : Scanner g) : Logged (Scanner g) :=
  match firstMatch s.cursor (g.rulesIn s.mode) s.outlooks with
  | (some hit, o) => { s with outlooks := o }.take hit
  | (none, o) => { s with outlooks := o }.passOver

theorem cursor_move (s : Scanner g) (n : Nat) (m : Move) :
    (s.move n m).value.cursor = s.cursor := by
  cases m with
  | stay => rfl
  | enter m => rfl
  | leave => cases h : s.outer <;> simp [move, h, Logged.silent]

theorem cursor_take (s : Scanner g) (hit : Hit) : (s.take hit).value.cursor = hit.found.stop := by
  simp [take, cursor_move]

theorem cursor_passOver (s : Scanner g) : s.passOver.value.cursor = s.cursor.advance := by
  unfold passOver
  split
  · rename_i h
    cases hr : s.cursor.rest with
    | nil => simp [Logged.silent, Cursor.advance, hr]
    | cons x rest => simp [Cursor.current?, hr] at h
  · rfl

theorem step_reaches (s : Scanner g) : s.cursor.Reaches s.step.value.cursor := by
  unfold step
  split
  · rename_i h
    rw [cursor_take]
    exact (firstMatch_progress (congrArg Prod.fst h)).2.1
  · rw [cursor_passOver]
    exact Cursor.reaches_advance _

theorem rest_ne_nil {s : Scanner g} (h : s.atEnd ≠ true) : s.cursor.rest ≠ [] := by
  simpa [atEnd, Cursor.atEnd] using h

theorem step_length_lt {s : Scanner g} (h : s.atEnd ≠ true) :
    s.step.value.cursor.rest.length < s.cursor.rest.length := by
  unfold step
  split
  · rename_i k
    obtain ⟨_, hr, hl⟩ := firstMatch_progress (congrArg Prod.fst k)
    rw [cursor_take]
    exact hr.length_lt hl
  · rw [cursor_passOver]
    exact Cursor.length_advance_lt (rest_ne_nil h)

end Scanner

end Highlighter
