import Highlighter.Text.Blank
import Highlighter.Text.Word

/-!
# Patterns

A pattern is built from tests on one character, repeated tests, tests of the
place itself, sequence, choice and numbered groups. Repetition is over one
character class at a time. Choice and repetition have a preference, which
`Highlighter.Pattern.Match` spells out.
-/

set_option autoImplicit false

namespace Highlighter

inductive ClassItem where
  | single (c : Char)
  | range (first last : Char)
  deriving DecidableEq, Repr

def ClassItem.accepts : ClassItem → Char → Bool
  | .single x, c => c == x
  | .range x y, c => x ≤ c && c ≤ y

inductive CharClass where
  | just (c : Char)
  | word
  | blank
  | notNewline
  | oneOf (items : List ClassItem)
  | noneOf (items : List ClassItem)
  deriving DecidableEq, Repr

def CharClass.accepts : CharClass → Char → Bool
  | .just x, c => c == x
  | .word, c => Text.isWord c
  | .blank, c => Text.isBlank c
  | .notNewline, c => c != '\n'
  | .oneOf items, c => items.any (·.accepts c)
  | .noneOf items, c => !items.any (·.accepts c)

inductive Pattern where
  | empty
  | literal (s : String)
  | one (k : CharClass)
  | opt (k : CharClass)
  | star (k : CharClass)
  | plus (k : CharClass)
  | wordEdge
  | textEnd
  | seq (first second : Pattern)
  | alt (preferred other : Pattern)
  | group (number : Nat) (inner : Pattern)
  deriving DecidableEq, Repr

namespace Pattern

def inOrder : List Pattern → Pattern
  | [] => .empty
  | [p] => p
  | p :: ps => .seq p (inOrder ps)

def anyWord : List String → Pattern
  | [] => .one (.oneOf [])
  | [w] => .literal w
  | w :: ws => .alt (.literal w) (anyWord ws)

def lineEnd : Pattern := .alt (.one (.just '\n')) .textEnd

end Pattern

end Highlighter
