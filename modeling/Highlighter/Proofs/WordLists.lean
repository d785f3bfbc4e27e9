import Highlighter.Proofs.Grammar.WordLists
import Highlighter.Proofs.Scanner.Alike

/-!
# Looking words up is trying lists of them

A host cannot tell a scanner that looks words up in the vocabulary from one that
tries the reserved words, list by list, before it takes an identifier for a name.
-/

set_option autoImplicit false

namespace Highlighter

variable {d : Dialect} {keywords declarations : List String}

theorem Grammar.alike_wordLists (hk : keywords.Perm (Vocabulary.ofDialect d).control)
    (hd : declarations.Perm (Vocabulary.ofDialect d).declarations) :
    (ofDialect d).Alike (wordLists d keywords declarations) := by
  intro m
  obtain ⟨hik, hid⟩ := reserved_identifiers d
  have hdescribed := productions_described d m
  rw [← vocabulary_ofDialect] at hdescribed
  exact ⟨_, _, hdescribed, spelledProductions_described (hik.perm hk) (hid.perm hd) m,
    fun before rest => (taken_spelledProductions hk hd m before rest).symm⟩

/-- Whatever commands a host gives, the answers, the status after each and the log
are those of a scanner with the reserved words in its rules, in whichever order
the words of each list are tried. -/
theorem session_eq_wordLists (d : Dialect) (keep : Bool) (source : String)
    (hk : keywords.Perm (Vocabulary.ofDialect d).control)
    (hd : declarations.Perm (Vocabulary.ofDialect d).declarations) (ks : List Command) :
    ((Session.start (.onText (.ofDialect d) keep source)).performAll ks).map Prod.fst =
      ((Session.start (.onText (.wordLists d keywords declarations) keep source)).performAll
        ks).map Prod.fst :=
  Session.performAll_alike (Grammar.alike_wordLists hk hd) (Grammar.numbered_ofDialect d)
    (Grammar.numbered_compose _ _ _) keep source ks

/-- With the lists backwards: one word that starts another of them, one word that
starts a name, and a copy that is put aside between the two. -/
theorem session_eq_wordLists_reversed :
    let words := Vocabulary.ofDialect .legacy
    let session := Session.start
      (.onText (.wordLists .legacy words.control.reverse words.declarations.reverse) false
        "elseif hash2")
    words.control.reverse.Perm words.control ∧ words.declarations.reverse.Perm words.declarations ∧
      (session.performAll [.next, .fork, .drain, .restore]).value.1.map Prod.fst =
        [.token (some ⟨.keyword, "elseif", ⟨0, 6⟩⟩), .forked,
          .tokens [⟨.whitespace, " ", ⟨6, 7⟩⟩, ⟨.name, "hash2", ⟨7, 12⟩⟩], .restored true] := by
  intro words session
  have hk := List.reverse_perm words.control
  have hd := List.reverse_perm words.declarations
  have h := session_eq_wordLists .legacy false "elseif hash2" hk hd [.next, .fork, .drain, .restore]
  refine ⟨hk, hd, (congrArg (fun r => r.value.map Prod.fst) h).symm.trans ?_⟩
  decide +kernel

end Highlighter
