import Std.Data.TreeMap
import Highlighter.Fault
import Highlighter.Language
import Highlighter.Text.Lowercase

/-!
# The registry

Languages in the order of their registration, and an index from aliases in
lower case to places in that order. Registering checks every alias before it
changes anything, so a language is registered under all of its aliases or not
at all. A look-up by file name takes the earliest language that matches.
-/

set_option autoImplicit false

namespace Highlighter

structure Registry where
  languages : List Language
  index : Std.TreeMap String Nat

namespace Registry

def empty : Registry := ⟨[], ∅⟩

def size (r : Registry) : Nat := r.languages.length

def isEmpty (r : Registry) : Bool := r.languages.isEmpty

def aliases (r : Registry) : List String := r.index.keys

def keysOf (l : Language) : List String := l.aliases.map Text.lowercase

def clash? (r : Registry) (l : Language) : Option String :=
  (keysOf l).find? r.index.contains

def indexed (index : Std.TreeMap String Nat) (place : Nat) (keys : List String) :
    Std.TreeMap String Nat :=
  keys.foldl (fun t k => t.insert k place) index

def add (r : Registry) (l : Language) : Registry :=
  ⟨r.languages ++ [l], indexed r.index r.size (keysOf l)⟩

def register (r : Registry) (l : Language) : Logged (Option Fault × Registry) :=
  match r.clash? l with
  | some key => .silent (some (.duplicateAlias key), r)
  | none => ⟨(none, r.add l), [.registered l.name l.aliases]⟩

def withBuiltin (d : Dialect) : Logged Registry :=
  (Language.builtin d).andThen fun l => (empty.register l).map (·.2)

def byAlias (r : Registry) (name : String) : Except Fault Language :=
  match r.index[Text.lowercase name]?.bind (r.languages[·]?) with
  | some l => .ok l
  | none => .error (.unknownLanguage name)

def forFile? (r : Registry) (file : String) : Option Language :=
  r.languages.find? (·.matchesFile file)

def fallbackAlias : String := "uwscr"

def route (r : Registry) (name file : Option String) : Logged (Except Fault Language) :=
  match name with
  | some n => .silent (r.byAlias n)
  | none =>
    match file.bind r.forFile? with
    | some l => .silent (.ok l)
    | none => ⟨r.byAlias fallbackAlias, [.unrouted file]⟩

end Registry

end Highlighter
