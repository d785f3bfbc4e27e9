import Highlighter.Rule

/-!
# Log records

What the library reports about its work is part of a result, as data.
`Record.text` is the line that a reader of the log sees: the level, then the
message.
-/

set_option autoImplicit false

namespace Highlighter

inductive Record where
  | composed (rules : Nat) (dialect : Dialect)
  | registered (name : String) (aliases : List String)
  | unrouted (file : Option String)
  | entered (mode : Mode) (offset : Nat)
  | left (mode : Mode) (offset : Nat)
  | unmatched (mode : Mode) (character : Char) (offset : Nat)
  deriving DecidableEq, Repr

namespace Record

def quotedList (texts : List String) : String :=
  "[" ++ ", ".intercalate (texts.map Text.quote) ++ "]"

def quotedOption : Option String → String
  | none => "None"
  | some s => "Some(" ++ Text.quote s ++ ")"

def text : Record → String
  | composed n d => "DEBUG compiled " ++ toString n ++ " rules for " ++ d.title ++ " dialect"
  | registered name aliases => "DEBUG registered " ++ name ++ " as " ++ quotedList aliases
  | unrouted file => "DEBUG no filename match for " ++ quotedOption file ++ ", using uwscr"
  | entered m n => "DEBUG push " ++ m.label ++ " at " ++ toString n
  | left m n => "DEBUG pop Some(" ++ m.title ++ ") at " ++ toString n
  | unmatched m c n =>
    "TRACE no rule of " ++ m.label ++ " matched " ++ Text.quoteChar c ++ " at " ++ toString n

def isDebug : Record → Bool
  | unmatched _ _ _ => false
  | _ => true

end Record

structure Logged (α : Type) where
  value : α
  records : List Record
  deriving Repr

namespace Logged

variable {α β : Type}

def silent (a : α) : Logged α := ⟨a, []⟩

def map (f : α → β) (x : Logged α) : Logged β := ⟨f x.value, x.records⟩

def andThen (x : Logged α) (f : α → Logged β) : Logged β :=
  ⟨(f x.value).value, x.records ++ (f x.value).records⟩

theorem silent_andThen (a : α) (f : α → Logged β) : (silent a).andThen f = f a := by
  simp [silent, andThen]

end Logged

end Highlighter
