import Highlighter.Scanner.Basic

/-!
# Handing out tokens

`Scanner.next` hands out one token and steps only when none is pending, so a
scan goes no further than it is asked to. `Scanner.drain` hands out all that
are left. Both keep what they have collected in reverse while they run.
-/

set_option autoImplicit false

namespace Highlighter

structure Status where
  mode : Mode
  depth : Nat
  position : Nat
  current : Option Char
  atEnd : Bool
  deriving DecidableEq, Repr

namespace Scanner

variable {g : Grammar}

def status (s : Scanner g) : Status where
  mode := s.mode
  depth := s.depth
  position := s.cursor.offset
  current := s.cursor.current?
  atEnd := s.atEnd

def seekOnto (log : List Record) (s : Scanner g) : Logged (Scanner g) :=
  if h : s.atEnd = true then ⟨s, log.reverse⟩
  else if s.pending.isEmpty then
    have := step_length_lt h
    let one := s.step
    one.value.seekOnto (one.records.reverse ++ log)
  else ⟨s, log.reverse⟩
termination_by s.cursor.rest.length

def seek (s : Scanner g) : Logged (Scanner g) := s.seekOnto []

def pop (s : Scanner g) : Option Token × Scanner g :=
  match s.pending with
  | [] => (none, s)
  | t :: rest => (some t, { s with pending := rest })

def next (s : Scanner g) : Logged (Option Token × Scanner g) := s.seek.map pop

def withoutPending (s : Scanner g) : Scanner g := { s with pending := [] }

/-- `tokens` and `log` hold what was collected earlier, the latest first. -/
def drainOnto (tokens : List Token) (log : List Record) (s : Scanner g) :
    Logged (List Token × Scanner g) :=
  if h : s.atEnd = true then
    ⟨((s.pending.reverse ++ tokens).reverse, s.withoutPending), log.reverse⟩
  else
    have : s.withoutPending.step.value.cursor.rest.length < s.cursor.rest.length :=
      step_length_lt (s := s.withoutPending) h
    let one := s.withoutPending.step
    one.value.drainOnto (s.pending.reverse ++ tokens) (one.records.reverse ++ log)
termination_by s.cursor.rest.length

def drain (s : Scanner g) : Logged (List Token × Scanner g) := s.drainOnto [] []

end Scanner

def scan (g : Grammar) (keepUnmatched : Bool) (source : String) :
    Logged (List Token × Scanner g) :=
  (Scanner.onText g keepUnmatched source).drain

end Highlighter
