import Highlighter.Glob
import Highlighter.Grammar.Declared
import Highlighter.Log

/-!
# Languages

A language that a host can send text to: its name, the aliases it is called
by, the patterns of its file names, and its grammar.
-/

set_option autoImplicit false

namespace Highlighter

structure Language where
  name : String
  aliases : List String
  filenames : List String
  grammar : Grammar
  deriving DecidableEq, Repr

def isPathSeparator (c : Char) : Bool := c == '/' || c == '\\'

def baseName (file : String) : String :=
  String.ofList (file.toList.reverse.takeWhile fun c => !isPathSeparator c).reverse

namespace Language

def builtin (d : Dialect) : Logged Language where
  value := ⟨"UWSCR", ["uwscr"], ["*.uws"], .ofDialect d⟩
  records := [.composed (Grammar.ofDialect d).size d]

def matchesFile (l : Language) (file : String) : Bool :=
  l.filenames.any fun p => globMatches p (baseName file)

end Language

end Highlighter
