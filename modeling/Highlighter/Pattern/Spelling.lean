import Highlighter.Pattern.Basic

/-!
# The written form of patterns

`Pattern.spelling` writes a pattern in the usual notation: `\b` for a word
edge, `\z` for the end of the text, brackets around a class. A character
with a meaning of its own gets a backslash, and which characters these are
depends on whether it stands inside brackets. A choice inside a sequence is
enclosed without being numbered.
-/

set_option autoImplicit false

namespace Highlighter

namespace Pattern.Spelling

def escaped (special : List Char) (c : Char) : List Char :=
  if c = '\n' then ['\\', 'n']
  else if c = '\r' then ['\\', 'r']
  else if special.contains c then ['\\', c]
  else [c]

def outside : Char → List Char := escaped "\\.+*?()|[]\x7b\x7d^$".toList

def inside : Char → List Char := escaped "-[]\\^".toList

def item : ClassItem → List Char
  | .single c => inside c
  | .range x y => inside x ++ ['-'] ++ inside y

def charClass : CharClass → List Char
  | .just c => outside c
  | .word => ['\\', 'w']
  | .blank => ['\\', 's']
  | .notNewline => ['.']
  | .oneOf items => ['['] ++ items.flatMap item ++ [']']
  | .noneOf items => ['[', '^'] ++ items.flatMap item ++ [']']

def isChoice : Pattern → Bool
  | .alt _ _ => true
  | _ => false

def enclosed (choice : Bool) (text : List Char) : List Char :=
  if choice then ['(', '?', ':'] ++ text ++ [')'] else text

def chars : Pattern → List Char
  | .empty => []
  | .literal s => s.toList.flatMap outside
  | .one k => charClass k
  | .opt k => charClass k ++ ['?']
  | .star k => charClass k ++ ['*']
  | .plus k => charClass k ++ ['+']
  | .wordEdge => ['\\', 'b']
  | .textEnd => ['\\', 'z']
  | .seq a b => enclosed (isChoice a) (chars a) ++ enclosed (isChoice b) (chars b)
  | .alt a b => chars a ++ ['|'] ++ chars b
  | .group _ a => ['('] ++ chars a ++ [')']

end Pattern.Spelling

def Pattern.spelling (p : Pattern) : String :=
  String.ofList (Spelling.chars p)

end Highlighter
