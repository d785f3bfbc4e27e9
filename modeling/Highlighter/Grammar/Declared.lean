import Highlighter.Grammar.Basic

/-!
# The two declared grammars

The dialects differ in the comment mark of two slashes and a dash, in the
place of the word edge of a `$` number, in capital words, which the legacy
dialect reads as constants, and in the underscore, which there is an operator.
-/

set_option autoImplicit false

namespace Highlighter

open Pattern

namespace Declared

def digits : CharClass := .oneOf [.range '0' '9']

def hexDigits : CharClass := .oneOf [.range '0' '9', .range 'a' 'f', .range 'A' 'F']

def identifierStart : CharClass := .oneOf [.range 'a' 'z', .range 'A' 'Z', .single '_']

def identifierRest : CharClass :=
  .oneOf [.range 'a' 'z', .range 'A' 'Z', .single '_', .range '0' '9']

def capitals : CharClass := .oneOf [.range 'A' 'Z', .range '0' '9', .single '_']

def operators : Dialect → CharClass
  | .current => .oneOf (",=.:?><|+-*/!#".toList.map .single)
  | .legacy => .oneOf (",=.:?><|_+-*/!#".toList.map .single)

def punctuation : CharClass := .oneOf ("()[]\x7b\x7d@;".toList.map .single)

def between (mark : Char) : Pattern :=
  inOrder [.one (.just mark), .star (.noneOf [.single mark]), .one (.just mark)]

def wholeWord (p : Pattern) : Pattern := inOrder [.wordEdge, p, .wordEdge]

def bareOpener : Rule where
  pattern := inOrder [.wordEdge, .literal "textblock", .wordEdge, .opt (.just '\r'), lineEnd]
  reading := .whole .keyword
  move := .enter .blockComment

def labelledOpener : Rule where
  pattern := inOrder [.wordEdge, .group 1 (anyWord ["textblock", "textblockex"]), .wordEdge,
    .group 2 (.plus .blank), .group 3 (inOrder [.plus .word, .opt (.just '\r'), lineEnd])]
  reading := .groups [.keyword, .whitespace, .name]
  move := .enter .block

def remoteCall : Rule where
  pattern := inOrder [.group 1 (.literal "call"), .group 2 (.plus .blank),
    .group 3 (.literal "url"), .group 4 (.one (.just '[')),
    .group 5 (.plus (.noneOf [.single ']'])), .group 6 (.one (.just ']'))]
  reading := .groups [.keyword, .whitespace, .keyword, .punctuation, .literal, .punctuation]

def identifier : Rule where
  pattern := inOrder [.wordEdge, .one identifierStart, .star identifierRest, .wordEdge]
  reading := .word

def lineComment : Rule where
  pattern := inOrder [.literal "//", .star .notNewline, lineEnd]
  reading := .whole .comment

def blockCloser (category : Category) : Rule where
  pattern := wholeWord (.literal "endtextblock")
  reading := .whole category
  move := .leave

def blockLine (category : Category) : Rule where
  pattern := inOrder [.plus .notNewline, lineEnd]
  reading := .whole category

def number (p : Pattern) : Rule where
  pattern := p
  reading := .whole .number

def decimal : Rule := number (wholeWord (.plus digits))

def hexadecimal : Dialect → Rule
  | .current => number (inOrder [.one (.just '$'), .wordEdge, .plus hexDigits, .wordEdge])
  | .legacy => number (inOrder [.wordEdge, .one (.just '$'), .plus hexDigits, .wordEdge])

def capitalWord : Rule := number (wholeWord (.plus capitals))

def notANumber : Rule := number (wholeWord (inOrder [.literal "Na", .plus (.just 'N')]))

end Declared

open Declared in
def Declaration.ofDialect (d : Dialect) : Declaration
  | .root =>
    [.rulesOf .comment, .rulesOf .whitespace, .rulesOf .string, .rulesOf .number,
      .rule bareOpener, .rule labelledOpener, .rule remoteCall,
      .rule ⟨.one (operators d), .whole .operator, .stay⟩,
      .rule ⟨.one Declared.punctuation, .whole .punctuation, .stay⟩,
      .rule identifier]
  | .string =>
    [.rule ⟨between '"', .whole .string, .stay⟩, .rule ⟨between '\x27', .whole .string, .stay⟩]
  | .whitespace =>
    [.rule ⟨.literal " ", .whole .whitespace, .stay⟩,
      .rule ⟨.literal "\u3000", .whole .whitespace, .stay⟩]
  | .comment =>
    match d with
    | .current => [.rule ⟨.literal "//-", .whole .comment, .stay⟩, .rule lineComment]
    | .legacy => [.rule lineComment]
  | .block => [.rule (blockCloser .keyword), .rule (blockLine .string)]
  | .blockComment => [.rule (blockCloser .comment), .rule (blockLine .comment)]
  | .number =>
    match d with
    | .current => [.rule decimal, .rule (hexadecimal .current), .rule notANumber]
    | .legacy =>
      [.rule decimal, .rule (hexadecimal .legacy), .rule capitalWord, .rule notANumber]

namespace Grammar

def current : Grammar :=
  compose .current (.ofDialect .current) (.ofDialect .current)

def legacy : Grammar :=
  compose .legacy (.ofDialect .legacy) (.ofDialect .legacy)

def ofDialect : Dialect → Grammar
  | .current => current
  | .legacy => legacy

theorem ofDialect_eq (d : Dialect) : ofDialect d = compose d (.ofDialect d) (.ofDialect d) := by
  cases d <;> rfl

end Grammar

end Highlighter
