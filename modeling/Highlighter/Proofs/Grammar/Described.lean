import Highlighter.Proofs.Grammar.GroupProductions

/-!
# The declared grammars are described

In every mode of both dialects the rules and the productions correspond one to
one and in order. So the hit of a mode at a place is given by what the first
production that applies takes there.
-/

set_option autoImplicit false

namespace Highlighter

open Pattern Declared

def Described (v : Vocabulary) (rules : List Rule) (ps : List Production) : Prop :=
  List.Forall₂ (fun r p => p.Describes v r) rules ps

def Grammar.ordered (g : Grammar) (m : Mode) : List Rule := (g.rulesIn m).map Prod.snd

namespace Production

variable (d : Dialect) (v : Vocabulary)

theorem comments_described :
    Described v ((Grammar.ofDialect d).ordered .comment) (comments d) := by
  have hline : (whole .comment (.restOfLine "//".toList)).Describes v lineComment :=
    describes_whole rfl rfl cuts_lineComment (Cut.proper_restOfLine (by decide))
  cases d with
  | current =>
    exact .cons (describes_whole rfl rfl (cuts_literal "//-") (Cut.proper_literal (by decide)))
      (.cons hline .nil)
  | legacy => exact .cons hline .nil

theorem blanks_described :
    Described v ((Grammar.ofDialect d).ordered .whitespace) Production.blanks := by
  have hblank : ∀ s : String, s.toList ≠ [] →
      (whole .whitespace (.literal s.toList)).Describes v ⟨.literal s, .whole .whitespace, .stay⟩ :=
    fun s hs => describes_whole rfl rfl (cuts_literal s) (Cut.proper_literal hs)
  cases d <;> exact .cons (hblank " " (by decide)) (.cons (hblank "\u3000" (by decide)) .nil)

theorem strings_described : Described v ((Grammar.ofDialect d).ordered .string) strings := by
  have hmark : ∀ mark, (whole .string (.between mark)).Describes v
      ⟨Declared.between mark, .whole .string, .stay⟩ := fun mark =>
    describes_whole rfl rfl (cuts_between mark) (Cut.proper_between mark)
  cases d <;> exact .cons (hmark _) (.cons (hmark _) .nil)

theorem numbers_described : Described v ((Grammar.ofDialect d).ordered .number) (numbers d) := by
  have hword : ∀ {p : Pattern} {accepts : List Char → Bool}, p.Cuts (.word accepts) →
      (whole .number (.word accepts)).Describes v (number p) := fun hc =>
    describes_whole rfl rfl hc (Cut.proper_word _)
  have hhex : (whole .number (.hexadecimal d)).Describes v (hexadecimal d) := by
    cases d <;> exact describes_whole rfl rfl (cuts_hexadecimal _) (Cut.proper_hexadecimal _)
  cases d with
  | current => exact .cons (hword cuts_decimal) (.cons hhex (.cons (hword cuts_notANumber) .nil))
  | legacy =>
    exact .cons (hword cuts_decimal) (.cons hhex (.cons (hword cuts_capitalWord)
      (.cons (hword cuts_notANumber) .nil)))

theorem block_described (closer body : Category) :
    Described v [blockCloser closer, blockLine body] (Production.block closer body) :=
  .cons (describes_whole rfl rfl (cuts_blockCloser closer) (Cut.proper_word _))
    (.cons (describes_whole rfl rfl (cuts_blockLine body) Cut.proper_bodyLine) .nil)

theorem oneOf_described (k : Category) (cs : List Char) :
    (whole k (.oneOf cs)).Describes v ⟨.one (.oneOf (cs.map .single)), .whole k, .stay⟩ := by
  refine describes_whole rfl rfl (cuts_one ?_) (Cut.proper_oneOf cs)
  simp [CharClass.accepts, ClassItem.accepts]

def leadingRules : List Rule :=
  (Grammar.ofDialect d).ordered .comment ++ (Grammar.ofDialect d).ordered .whitespace ++
    (Grammar.ofDialect d).ordered .string ++ (Grammar.ofDialect d).ordered .number ++
    [Declared.bareOpener, Declared.labelledOpener, Declared.remoteCall,
      ⟨.one (Declared.operators d), .whole .operator, .stay⟩,
      ⟨.one Declared.punctuation, .whole .punctuation, .stay⟩]

def leading : List Production :=
  comments d ++ Production.blanks ++ strings ++ numbers d ++
    [whole .keyword .bareOpener (.enter .blockComment), labelledOpener, remoteCall,
      whole .operator (.oneOf (operators d)), whole .punctuation (.oneOf "()[]\x7b\x7d@;".toList)]

theorem leading_described : Described v (leadingRules d) (leading d) := by
  have hbare : (whole .keyword .bareOpener (.enter .blockComment)).Describes v
      Declared.bareOpener := describes_whole rfl rfl cuts_bareOpener Cut.proper_bareOpener
  have hoperator : (whole .operator (.oneOf (operators d))).Describes v
      ⟨.one (Declared.operators d), .whole .operator, .stay⟩ := by
    cases d <;> exact oneOf_described _ _ _
  exact List.rel_append (List.rel_append (List.rel_append (List.rel_append
    (comments_described d v) (blanks_described d v)) (strings_described d v))
    (numbers_described d v)) (.cons hbare (.cons (describes_labelledOpener v)
      (.cons (describes_remoteCall v) (.cons hoperator (.cons (oneOf_described v _ _) .nil)))))

theorem productions_root :
    productions d .root = leading d ++ [identifier (.ofDialect d)] := by
  rw [leading, List.append_assoc]
  rfl

theorem root_described :
    Described (.ofDialect d) ((Grammar.ofDialect d).ordered .root) (productions d .root) := by
  have hroot : (Grammar.ofDialect d).ordered .root = leadingRules d ++ [Declared.identifier] := by
    cases d <;> rfl
  rw [hroot, productions_root]
  exact List.rel_append (leading_described d _) (.cons describes_identifier .nil)

end Production

/-- In all modes but the outermost nothing is looked up. -/
theorem inner_described (d : Dialect) (v : Vocabulary) {m : Mode} (hm : m ≠ .root) :
    Described v ((Grammar.ofDialect d).ordered m) (productions d m) := by
  cases m with
  | root => exact absurd rfl hm
  | string => exact Production.strings_described d v
  | whitespace => exact Production.blanks_described d v
  | comment => exact Production.comments_described d v
  | block => cases d <;> exact Production.block_described v _ _
  | blockComment => cases d <;> exact Production.block_described v _ _
  | number => exact Production.numbers_described d v

theorem productions_described (d : Dialect) (m : Mode) :
    Described (.ofDialect d) ((Grammar.ofDialect d).ordered m) (productions d m) := by
  by_cases hm : m = .root
  · rw [hm]
    exact Production.root_described d
  · exact inner_described d _ hm

theorem taken_cons (p : Production) (ps : List Production) (before rest : List Char) :
    taken? (p :: ps) before rest =
      match p.pieces? before rest with
      | some pieces => some (.taken pieces p.move)
      | none => taken? ps before rest := by
  rw [taken?, List.findSome?_cons]
  cases p.pieces? before rest <;> rfl

section

variable {before rest : List Char}

theorem taken_append (ps qs : List Production) (before rest : List Char) :
    taken? (ps ++ qs) before rest = (taken? ps before rest).or (taken? qs before rest) :=
  List.findSome?_append

theorem taken_cons_congr {p q : Production} {ps qs : List Production}
    (hp : p.pieces? before rest = q.pieces? before rest) (hm : p.move = q.move)
    (hs : taken? ps before rest = taken? qs before rest) :
    taken? (p :: ps) before rest = taken? (q :: qs) before rest := by
  rw [taken_cons, taken_cons, hp, hm, hs]

theorem taken_of_some {p : Production} {pieces : List Piece} (ps : List Production)
    (hp : p.pieces? before rest = some pieces) :
    taken? (p :: ps) before rest = some (.taken pieces p.move) := by
  rw [taken_cons, hp]

/-- A production that takes nothing at a place is passed by. -/
theorem taken_skip {p : Production} (ps : List Production)
    (hp : p.pieces? before rest = none) :
    taken? (p :: ps) before rest = taken? ps before rest := by
  rw [taken_cons, hp]

end

variable {v : Vocabulary} {rules : List (Nat × Rule)} {ps : List Production} {c : Cursor}

/-- Where no production applies no rule takes text. -/
theorem firstHit_of_taken_none (h : Described v (rules.map Prod.snd) ps)
    (hc : taken? ps c.before c.rest = none) : firstHit? c rules = none := by
  induction rules generalizing ps with
  | nil => rfl
  | cons numbered rules ih =>
    cases h with
    | @cons _ p _ ps hr ht =>
      rw [taken_cons] at hc
      cases hp : p.pieces? c.before c.rest with
      | some pieces => simp [hp] at hc
      | none =>
        rw [hp] at hc
        rw [firstHit?, hr.none c hp]
        exact ih ht hc

/-- The first production that applies gives the hit. -/
theorem firstHit_of_taken_some (h : Described v (rules.map Prod.snd) ps) {l : Lexeme}
    (hc : taken? ps c.before c.rest = some l) :
    ∃ hit pieces move, firstHit? c rules = some hit ∧ l = .taken pieces move ∧
      hit.Gives v c pieces move := by
  induction rules generalizing ps with
  | nil =>
    cases h
    simp [taken?] at hc
  | cons numbered rules ih =>
    cases h with
    | @cons _ p _ ps hr ht =>
      rw [taken_cons] at hc
      cases hp : p.pieces? c.before c.rest with
      | some pieces =>
        rw [hp] at hc
        obtain ⟨m, hm, hg⟩ := hr.some c pieces hp
        exact ⟨_, pieces, p.move, by rw [firstHit?, hm], (Option.some.inj hc).symm, hg⟩
      | none =>
        rw [hp] at hc
        rw [firstHit?, hr.none c hp]
        exact ih ht hc

end Highlighter
