import Highlighter.Token

/-!
# JSON text

The values that a token needs, and their two written forms: one without any
space, and one that gives each element and each member a line of its own. In a
string only the quotation mark, the backslash and the characters below U+0020
are escaped; all others stand as they are.
-/

set_option autoImplicit false

namespace Highlighter

inductive Json where
  | number (n : Nat)
  | string (s : String)
  | array (items : List Json)
  | object (members : List (String × Json))
  deriving Repr

namespace Json

def digits (n : Nat) : List Char := Nat.toDigits 10 n

def controlNumber (n : Nat) : List Char :=
  ['\\', 'u', '0', '0', Nat.digitChar (n / 16), Nat.digitChar (n % 16)]

def escape (c : Char) : List Char :=
  if c = '"' then ['\\', '"']
  else if c = '\\' then ['\\', '\\']
  else if c = '\x08' then ['\\', 'b']
  else if c = '\t' then ['\\', 't']
  else if c = '\n' then ['\\', 'n']
  else if c = '\x0c' then ['\\', 'f']
  else if c = '\r' then ['\\', 'r']
  else if c.toNat < 0x20 then controlNumber c.toNat
  else [c]

def quoted (s : String) : List Char := '"' :: (s.toList.flatMap escape ++ ['"'])

structure Layout where
  opening : Nat → List Char
  separator : Nat → List Char
  closing : Nat → List Char
  colon : List Char

namespace Layout

def newline (depth : Nat) : List Char := '\n' :: List.replicate (2 * depth) ' '

def compact : Layout := ⟨fun _ => [], fun _ => [','], fun _ => [], [':']⟩

def pretty : Layout where
  opening depth := newline (depth + 1)
  separator depth := ',' :: newline (depth + 1)
  closing depth := newline depth
  colon := [':', ' ']

end Layout

def enclose (layout : Layout) (depth : Nat) (left right : Char) (isEmpty : Bool)
    (content : List Char) : List Char :=
  if isEmpty then [left, right]
  else left :: (layout.opening depth ++ content ++ layout.closing depth ++ [right])

mutual

def write (layout : Layout) (depth : Nat) : Json → List Char
  | .number n => digits n
  | .string s => quoted s
  | .array items => enclose layout depth '[' ']' items.isEmpty (writeItems layout depth items)
  | .object members =>
    enclose layout depth '\x7b' '\x7d' members.isEmpty (writeMembers layout depth members)

def writeItems (layout : Layout) (depth : Nat) : List Json → List Char
  | [] => []
  | [x] => write layout (depth + 1) x
  | x :: y :: rest =>
    write layout (depth + 1) x ++ layout.separator depth ++ writeItems layout depth (y :: rest)

def writeMembers (layout : Layout) (depth : Nat) : List (String × Json) → List Char
  | [] => []
  | [(k, x)] => quoted k ++ layout.colon ++ write layout (depth + 1) x
  | (k, x) :: y :: rest =>
    quoted k ++ layout.colon ++ write layout (depth + 1) x ++ layout.separator depth ++
      writeMembers layout depth (y :: rest)

end

def compact (j : Json) : String := String.ofList (write .compact 0 j)

def pretty (j : Json) : String := String.ofList (write .pretty 0 j)

end Json

def Span.json (s : Span) : Json := .object [("start", .number s.start), ("end", .number s.stop)]

def Token.json (t : Token) : Json :=
  .object [("kind", .string t.category.label), ("value", .string t.text), ("span", t.span.json)]

end Highlighter
