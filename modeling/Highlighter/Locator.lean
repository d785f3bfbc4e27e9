import Highlighter.Cursor

/-!
# Lines and columns

A locator turns byte offsets into line and column, both counted from one,
columns in characters. It goes forward from where it stands and starts over
for an earlier offset. An offset inside a character, or past the end, leads
nowhere, and the locator stays where it is.
-/

set_option autoImplicit false

namespace Highlighter

structure Place where
  line : Nat
  column : Nat
  deriving DecidableEq, Repr

def Place.start : Place := ⟨1, 1⟩

def Place.past (p : Place) (c : Char) : Place :=
  if c = '\n' then ⟨p.line + 1, 1⟩ else ⟨p.line, p.column + 1⟩

structure Locator where
  cursor : Cursor
  place : Place
  deriving DecidableEq, Repr

namespace Locator

def onChars (cs : List Char) : Locator := ⟨Cursor.ofChars cs, .start⟩

def onText (source : String) : Locator := onChars source.toList

def rewind (l : Locator) : Locator := onChars l.cursor.chars

def walk? (l : Locator) (n : Nat) : Option Locator :=
  if n = 0 then some l
  else
    match h : l.cursor.rest with
    | [] => none
    | c :: _ =>
      have := Cursor.length_advance_lt (c := l.cursor) (by simp [h])
      if c.utf8Size ≤ n then walk? ⟨l.cursor.advance, l.place.past c⟩ (n - c.utf8Size) else none
termination_by l.cursor.rest.length

def moveTo (l : Locator) (position : Nat) : Locator :=
  let base := if position < l.cursor.offset then l.rewind else l
  (base.walk? (position - base.cursor.offset)).getD base

def locateAll (l : Locator) : List Nat → List Place
  | [] => []
  | n :: ns => (l.moveTo n).place :: (l.moveTo n).locateAll ns

end Locator

end Highlighter
