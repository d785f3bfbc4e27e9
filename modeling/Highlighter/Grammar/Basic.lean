import Highlighter.Rule

/-!
# Grammars

A grammar is composed from a declaration: for each mode, its clauses. The
rules are numbered through, mode after mode. A rule that another mode takes
over keeps its number, so it is one and the same rule wherever it applies.
What a mode takes over is only what the other mode has of its own.
-/

set_option autoImplicit false

namespace Highlighter

abbrev Declaration := Mode → List Clause

namespace Declaration

def ownRules (d : Declaration) (m : Mode) : List Rule := (d m).filterMap Clause.rule?

def rules (d : Declaration) : List Rule := Mode.all.flatMap d.ownRules

def rulesBefore (d : Declaration) (m : Mode) : Nat :=
  ((Mode.all.takeWhile (· ≠ m)).flatMap d.ownRules).length

def numbered : Nat → List Rule → List (Nat × Rule)
  | _, [] => []
  | n, r :: rs => (n, r) :: numbered (n + 1) rs

def ownNumbered (d : Declaration) (m : Mode) : List (Nat × Rule) :=
  numbered (d.rulesBefore m) (d.ownRules m)

def spread (d : Declaration) : Nat → List Clause → List (Nat × Rule)
  | _, [] => []
  | n, .rule r :: cs => (n, r) :: d.spread (n + 1) cs
  | n, .rulesOf m :: cs => d.ownNumbered m ++ d.spread n cs

def effective (d : Declaration) (m : Mode) : List (Nat × Rule) :=
  d.spread (d.rulesBefore m) (d m)

end Declaration

structure Grammar where
  dialect : Dialect
  rules : List Rule
  table : List (Mode × List (Nat × Rule))
  vocabulary : Vocabulary
  deriving DecidableEq, Repr

namespace Grammar

def compose (dialect : Dialect) (d : Declaration) (vocabulary : Vocabulary) : Grammar where
  dialect := dialect
  rules := d.rules
  table := Mode.all.map fun m => (m, d.effective m)
  vocabulary := vocabulary

def size (g : Grammar) : Nat := g.rules.length

def rulesIn (g : Grammar) (m : Mode) : List (Nat × Rule) :=
  (g.table.lookup m).getD []

theorem rulesIn_compose (dialect : Dialect) (d : Declaration) (v : Vocabulary) (m : Mode) :
    (compose dialect d v).rulesIn m = d.effective m := by
  cases m <;> rfl

end Grammar

end Highlighter
