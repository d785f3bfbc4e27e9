import Highlighter.Token

/-!
# Dialects and their reserved words

The language has two documented revisions. The later one reserves the words
of exception handling and five more declaration words. Spelling is exact:
a word in other letter case is an ordinary name.
-/

set_option autoImplicit false

namespace Highlighter

inductive Dialect where
  | current
  | legacy
  deriving DecidableEq, Repr, Inhabited

def Dialect.title : Dialect → String
  | .current => "Current"
  | .legacy => "Legacy"

def controlWords : List String :=
  ["print", "for", "in", "next", "endfor", "async", "await", "if", "then", "else", "elseif",
    "endif", "var", "ref", "args", "prms", "while", "wend", "repeat", "until", "break",
    "continue"]

def exceptionWords : List String := ["try", "except", "finally", "endtry"]

def declarationWords : List String :=
  ["dim", "public", "const", "function", "procedure", "fend", "hashtbl", "hash", "endhash",
    "enum", "endenum", "select", "selend", "with", "endwith", "module", "endmodule", "class",
    "endclass"]

def laterDeclarationWords : List String := ["case", "default", "def_dll", "struct", "endstruct"]

structure Vocabulary where
  control : List String
  declarations : List String
  deriving DecidableEq, Repr

namespace Vocabulary

def ofDialect : Dialect → Vocabulary
  | .current =>
    ⟨controlWords ++ exceptionWords, declarationWords ++ laterDeclarationWords⟩
  | .legacy => ⟨controlWords, declarationWords⟩

def classify (v : Vocabulary) (word : String) : Category :=
  if v.declarations.contains word then .declaration
  else if v.control.contains word then .keyword
  else .name

def listing (v : Vocabulary) : List (String × Category) :=
  ((v.control ++ v.declarations).map fun w => (w, v.classify w)).mergeSort
    fun a b => decide (a.1 ≤ b.1)

end Vocabulary

theorem reserved_nodup (d : Dialect) :
    ((Vocabulary.ofDialect d).control ++ (Vocabulary.ofDialect d).declarations).Nodup := by
  cases d <;> decide

end Highlighter
