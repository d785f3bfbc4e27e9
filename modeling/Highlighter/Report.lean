import Highlighter.Json
import Highlighter.Locator

/-!
# Reports

The two forms in which the tokens of a text are printed. The text form has a
line for each token: its place, its category, its style class and its text in
quotes, set apart by tabs. The quotes leave no tab and no newline raw.
-/

set_option autoImplicit false

namespace Highlighter

inductive Format where
  | text
  | json
  deriving DecidableEq, Repr

namespace Report

def line (p : Place) (t : Token) : String :=
  toString p.line ++ ":" ++ toString p.column ++ "\t" ++ t.category.label ++ "\t" ++
    t.category.styleClass ++ "\t" ++ Text.quote t.text ++ "\n"

def lines (l : Locator) : List Token → List String
  | [] => []
  | t :: ts =>
    let here := l.moveTo t.span.start
    line here.place t :: lines here ts

def text (source : String) (tokens : List Token) : String :=
  String.join (lines (.onText source) tokens)

def compact (tokens : List Token) : String := (Json.array (tokens.map Token.json)).compact

def json (tokens : List Token) : String := (Json.array (tokens.map Token.json)).pretty ++ "\n"

def render (f : Format) (source : String) (tokens : List Token) : String :=
  match f with
  | .text => text source tokens
  | .json => json tokens

end Report

end Highlighter
