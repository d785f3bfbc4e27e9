import Highlighter.Pattern.Spelling
import Highlighter.Vocabulary

/-!
# Scanning rules

A mode is a situation of the scan; the rules that apply depend on it. A rule
has a pattern, a reading that turns a match into tokens, and a move that may
enter a mode or leave the present one. A mode lists its own rules and may
take over the rules of other modes.
-/

set_option autoImplicit false

namespace Highlighter

inductive Mode where
  | root
  | string
  | whitespace
  | comment
  | block
  | blockComment
  | number
  deriving DecidableEq, Repr

namespace Mode

def all : List Mode := [root, string, whitespace, comment, block, blockComment, number]

def label : Mode → String
  | root => "root"
  | string => "string"
  | whitespace => "whitespace"
  | comment => "comment"
  | block => "textblock"
  | blockComment => "tbcomment"
  | number => "number"

def title : Mode → String
  | root => "Root"
  | string => "String"
  | whitespace => "Whitespace"
  | comment => "Comment"
  | block => "TextBlock"
  | blockComment => "TbComment"
  | number => "Number"

theorem mem_all (m : Mode) : m ∈ all := by cases m <;> decide

end Mode

inductive Reading where
  | whole (category : Category)
  | groups (categories : List Category)
  | word
  deriving DecidableEq, Repr

inductive Move where
  | stay
  | enter (mode : Mode)
  | leave
  deriving DecidableEq, Repr

structure Rule where
  pattern : Pattern
  reading : Reading
  move : Move := .stay
  deriving DecidableEq, Repr

inductive Clause where
  | rule (r : Rule)
  | rulesOf (mode : Mode)
  deriving DecidableEq, Repr

def Clause.rule? : Clause → Option Rule
  | .rule r => some r
  | .rulesOf _ => none

end Highlighter
