import Highlighter.Text.Hidden

/-!
# Quoted text

A quoted text stands between two marks. The mark, the backslash and the four
common controls are written with a backslash, a hidden character by its
number, and every other character as itself.
-/

set_option autoImplicit false

namespace Highlighter.Text

def numbered (c : Char) : List Char :=
  ['\\', 'u', '\x7b'] ++ Nat.toDigits 16 c.toNat ++ ['\x7d']

def escape (mark c : Char) : List Char :=
  if c = '\x00' then ['\\', '0']
  else if c = '\t' then ['\\', 't']
  else if c = '\r' then ['\\', 'r']
  else if c = '\n' then ['\\', 'n']
  else if c = '\\' || c = mark then ['\\', c]
  else if isHidden c then numbered c
  else [c]

def quotedWith (mark : Char) (cs : List Char) : List Char :=
  mark :: (cs.flatMap (escape mark) ++ [mark])

def quote (s : String) : String := String.ofList (quotedWith '"' s.toList)

def quoteChar (c : Char) : String := String.ofList (quotedWith '\x27' [c])

end Highlighter.Text
