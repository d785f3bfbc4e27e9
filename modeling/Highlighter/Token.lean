import Highlighter.Text.Quoted

/-!
# Tokens

A token is a piece of the text with its category and its place. Places are
byte offsets; the end of a span is the offset behind its last byte.
-/

set_option autoImplicit false

namespace Highlighter

inductive Category where
  | keyword
  | declaration
  | name
  | whitespace
  | comment
  | string
  | number
  | punctuation
  | operator
  | literal
  | unmatched
  deriving DecidableEq, Repr

namespace Category

def all : List Category :=
  [keyword, declaration, name, whitespace, comment, string, number, punctuation, operator,
    literal, unmatched]

def label : Category → String
  | keyword => "Keyword"
  | declaration => "Keyword.Declaration"
  | name => "Name"
  | whitespace => "Whitespace"
  | comment => "Comment"
  | string => "String"
  | number => "Number"
  | punctuation => "Punctuation"
  | operator => "Operator"
  | literal => "Literal"
  | unmatched => "Error"

def styleClass : Category → String
  | keyword => "k"
  | declaration => "kd"
  | name => "n"
  | whitespace => "w"
  | comment => "c"
  | string => "s"
  | number => "m"
  | punctuation => "p"
  | operator => "o"
  | literal => "l"
  | unmatched => "err"

theorem mem_all (c : Category) : c ∈ all := by cases c <;> decide

theorem label_injective {a b : Category} (h : a.label = b.label) : a = b := by
  revert h
  cases a <;> cases b <;> decide

end Category

structure Span where
  start : Nat
  stop : Nat
  deriving DecidableEq, Repr

namespace Span

def length (s : Span) : Nat := s.stop - s.start

def isEmpty (s : Span) : Bool := s.start == s.stop

theorem isEmpty_iff_length {s : Span} (h : s.start ≤ s.stop) :
    s.isEmpty = true ↔ s.length = 0 := by
  simp only [isEmpty, length, beq_iff_eq]
  omega

end Span

structure Token where
  category : Category
  text : String
  span : Span
  deriving DecidableEq, Repr

def Token.display (t : Token) : String :=
  t.category.label ++ "(" ++ Text.quote t.text ++ ")"

end Highlighter
