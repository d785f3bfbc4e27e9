import Highlighter.Cli.Arguments

/-!
# Where a request comes from

The file and the language of a request are as they were given: the file is an
argument, and the language is an argument or the rest of one.
-/

set_option autoImplicit false

namespace Highlighter.Cli

variable {arguments rest : List String} {argument path value : String} {cs : List Char}
  {r s : Request}

def Given (arguments : List String) (value : String) : Prop :=
  ∃ argument ∈ arguments, value.toList <:+ argument.toList

structure Request.From (r : Request) (arguments : List String) : Prop where
  file : ∀ path ∈ r.file, path ∈ arguments
  language : ∀ name ∈ r.language, Given arguments name

def Parsed.From (p : Parsed) (arguments : List String) : Prop :=
  ∀ r, p = .run r → r.From arguments

def Turn.From (arguments : List String) : Turn → Prop
  | .goOn r => r.From arguments
  | .await r _ => r.From arguments
  | .filesOnly r => r.From arguments
  | .stop p => p.From arguments

theorem Given.whole (h : value ∈ arguments) : Given arguments value :=
  ⟨value, h, List.suffix_rfl⟩

theorem Given.ending (h : argument ∈ arguments) (hcs : cs <:+ argument.toList) :
    Given arguments (String.ofList cs) :=
  ⟨argument, h, by rwa [String.toList_ofList]⟩

end Highlighter.Cli
