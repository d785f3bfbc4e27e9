import Highlighter.Scanner.Run

/-!
# A session with a scanner

A host asks a scanner for tokens, may put a copy of it aside, and may go back
to the copy it put aside last. Copies share nothing: what happens to one has
no effect on the others.
-/

set_option autoImplicit false

namespace Highlighter

inductive Command where
  | next
  | drain
  | fork
  | restore
  deriving DecidableEq, Repr

inductive Answer where
  | token (t : Option Token)
  | tokens (ts : List Token)
  | forked
  | restored (done : Bool)
  deriving DecidableEq, Repr

structure Session (g : Grammar) where
  scanner : Scanner g
  aside : List (Scanner g)
  deriving DecidableEq, Repr

namespace Session

variable {g : Grammar}

def start (s : Scanner g) : Session g := ⟨s, []⟩

def perform (s : Session g) : Command → Logged (Answer × Session g)
  | .next => s.scanner.next.map fun (t, after) => (.token t, { s with scanner := after })
  | .drain => s.scanner.drain.map fun (ts, after) => (.tokens ts, { s with scanner := after })
  | .fork => .silent (.forked, { s with aside := s.scanner :: s.aside })
  | .restore =>
    match s.aside with
    | [] => .silent (.restored false, s)
    | copy :: aside => .silent (.restored true, ⟨copy, aside⟩)

def performAll (s : Session g) : List Command → Logged (List (Answer × Status) × Session g)
  | [] => .silent ([], s)
  | k :: ks =>
    (s.perform k).andThen fun (answer, after) =>
      (after.performAll ks).map fun (answers, last) =>
        ((answer, after.scanner.status) :: answers, last)

end Session

end Highlighter
