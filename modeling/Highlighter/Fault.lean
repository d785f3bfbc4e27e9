import Highlighter.Text.Quoted

/-!
# Faults

What can go wrong, by cause. A fault has a name, a message, and for most
causes a hint that says what to look at.
-/

set_option autoImplicit false

namespace Highlighter

inductive Fault where
  | invalidPattern (pattern reason : String)
  | unknownLanguage (name : String)
  | duplicateAlias (name : String)
  | unreadable (path reason : String)
  deriving DecidableEq, Repr

namespace Fault

def name : Fault → String
  | invalidPattern _ _ => "InvalidPattern"
  | unknownLanguage _ => "UnknownLanguage"
  | duplicateAlias _ => "DuplicateAlias"
  | unreadable _ _ => "Io"

def message : Fault → String
  | invalidPattern p reason => "invalid pattern " ++ Text.quote p ++ ": " ++ reason
  | unknownLanguage n => "unknown language " ++ Text.quote n
  | duplicateAlias a => "alias " ++ Text.quote a ++ " already registered"
  | unreadable path reason => "cannot read " ++ Text.quote path ++ ": " ++ reason

def hint? : Fault → Option String
  | invalidPattern p reason => some ("Pattern `" ++ p ++ "` does not compile: " ++ reason)
  | unknownLanguage n =>
    some ("No lexer is registered under `" ++ n ++ "`, is the alias spelled correctly?")
  | duplicateAlias a => some ("Alias `" ++ a ++ "` is already registered")
  | unreadable _ _ => none

def report (f : Fault) : String :=
  "Error: " ++ f.name ++ " (" ++ f.hint?.getD f.message ++ ")\n"

end Fault

end Highlighter
