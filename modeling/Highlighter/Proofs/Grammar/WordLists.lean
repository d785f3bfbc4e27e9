import Highlighter.Proofs.Grammar.Described

/-!
# Word lists in place of the vocabulary

The same grammars with nothing looked up. Where a rule gives a word the category
that the vocabulary has for it, there are three rules: one with a choice of the
words that are keywords, one with a choice of those that declare, and the old
pattern for all other words. A choice takes the first of its words that stands
between word edges, and that is the whole word in front or nothing. So it does
not matter that some words are the start of others, nor how they are arranged.
-/

set_option autoImplicit false

namespace Highlighter

open Pattern Declared

def Clause.spelledOut (keywords declarations : List String) : Clause → List Clause
  | .rule r =>
    if r.reading = .word then
      [.rule ⟨wholeWord (anyWord keywords), .whole .keyword, r.move⟩,
        .rule ⟨wholeWord (anyWord declarations), .whole .declaration, r.move⟩,
        .rule ⟨r.pattern, .whole .name, r.move⟩]
    else [.rule r]
  | .rulesOf m => [.rulesOf m]

def Declaration.spelledOut (d : Declaration) (keywords declarations : List String) : Declaration :=
  fun m => (d m).flatMap (Clause.spelledOut keywords declarations)

def Grammar.wordLists (d : Dialect) (keywords declarations : List String) : Grammar :=
  compose d ((Declaration.ofDialect d).spelledOut keywords declarations) ⟨[], []⟩

namespace Pattern

/-- A choice of words reads each of them, whichever is preferred. -/
theorem reads_anyWord (ws : List String) :
    (anyWord ws).Reads fun xs _ => String.ofList xs ∈ ws := by
  have hword : ∀ w : String, (literal w).Reads fun xs _ => String.ofList xs = w := by
    intro w
    apply (reads_literal w).congr
    exact fun xs _ => ⟨fun h => by rw [h, String.ofList_toList],
      fun h => by rw [← h, String.toList_ofList]⟩
  fun_induction anyWord ws with
  | case1 =>
    apply (reads_one _).congr
    simp [CharClass.accepts]
  | case2 w => simpa using hword w
  | case3 w ws _ ih =>
    apply ((hword w).alt ih).congr
    simp

end Pattern

namespace Cut

variable {before rest w : List Char} {accepts : List Char → Bool}

/-- Where a word is read, another cut that reads words reads the same word or nothing. -/
theorem word_of_word (h : word accepts before rest = some w) (accepts' : List Char → Bool) :
    word accepts' before rest = if accepts' w = true then some w else none := by
  obtain ⟨hb, rfl, hne, _⟩ := word_eq_some.mp h
  simp [word, hb, hne]

theorem word_none_of_imp {accepts' : List Char → Bool} (h : word accepts before rest = none)
    (ha : ∀ w, accepts' w = true → accepts w = true) : word accepts' before rest = none := by
  rw [Option.eq_none_iff_forall_ne_some] at h ⊢
  intro w hw
  obtain ⟨hb, hr, hne, hw⟩ := word_eq_some.mp hw
  exact h w (word_eq_some.mpr ⟨hb, hr, hne, ha w hw⟩)

def isListed (ws : List String) (w : List Char) : Bool := ws.contains (String.ofList w)

theorem isListed_iff {ws : List String} {w : List Char} :
    isListed ws w = true ↔ String.ofList w ∈ ws := List.contains_iff_mem

end Cut

def AllIdentifiers (ws : List String) : Prop :=
  ∀ w ∈ ws, w.toList ≠ [] ∧ Cut.isIdentifier w.toList = true

instance (ws : List String) : Decidable (AllIdentifiers ws) :=
  inferInstanceAs (Decidable (∀ w ∈ ws, _))

theorem reserved_identifiers (d : Dialect) :
    AllIdentifiers (Vocabulary.ofDialect d).control ∧
      AllIdentifiers (Vocabulary.ofDialect d).declarations := by
  cases d <;> decide

variable {ws : List String}

theorem AllIdentifiers.listed (h : AllIdentifiers ws) {w : List Char}
    (hw : Cut.isListed ws w = true) : w ≠ [] ∧ Cut.isIdentifier w = true := by
  have hm := h _ (Cut.isListed_iff.mp hw)
  rwa [String.toList_ofList] at hm

theorem AllIdentifiers.perm {ws' : List String} (h : AllIdentifiers ws') (hp : ws.Perm ws') :
    AllIdentifiers ws := fun w hm => h w (hp.mem_iff.mp hm)

theorem Pattern.cuts_anyWord (h : AllIdentifiers ws) :
    (wholeWord (anyWord ws)).Cuts (.word (Cut.isListed ws)) := by
  apply cuts_wholeWord
  · intro w hw
    have hi := (h.listed hw).2
    rw [Cut.isIdentifier, Bool.and_eq_true] at hi
    exact Text.isWord_of_all hi.1
  · apply (reads_anyWord ws).congr
    intro xs _
    rw [← Cut.isListed_iff]
    exact ⟨fun hx => ⟨(h.listed hx).1, hx⟩, And.right⟩

section

variable {v : Vocabulary} {word : String}

theorem Vocabulary.classify_of_declaration (h : word ∈ v.declarations) :
    v.classify word = .declaration := by
  simp [classify, h]

theorem Vocabulary.classify_of_neither (hc : word ∉ v.control) (hd : word ∉ v.declarations) :
    v.classify word = .name := by
  simp [classify, hc, hd]

/-- No word is in both lists, so it does not matter which of them is asked first. -/
theorem classify_of_control {d : Dialect} (h : word ∈ (Vocabulary.ofDialect d).control) :
    (Vocabulary.ofDialect d).classify word = .keyword := by
  have hd : word ∉ (Vocabulary.ofDialect d).declarations :=
    fun hm => (List.nodup_append.mp (reserved_nodup d)).2.2 _ h _ hm rfl
  simp [Vocabulary.classify, h, hd]

end

namespace Production

def listedWords (keywords declarations : List String) : List Production :=
  [whole .keyword (.word (Cut.isListed keywords)),
    whole .declaration (.word (Cut.isListed declarations)), whole .name (.word Cut.isIdentifier)]

variable {d : Dialect} {keywords declarations : List String}

section

variable {before rest w : List Char} {accepts : List Char → Bool} (k : Category)
  (hw : Cut.word accepts before rest = some w)
include hw

theorem listed_pieces (h : Cut.isListed ws w = true) :
    (whole k (.word (Cut.isListed ws))).pieces? before rest = some [(k, w)] := by
  rw [whole_pieces, Cut.word_of_word hw, if_pos h, Option.map_some]

theorem not_listed_pieces (h : ¬ Cut.isListed ws w = true) :
    (whole k (.word (Cut.isListed ws))).pieces? before rest = none := by
  rw [whole_pieces, Cut.word_of_word hw, if_neg h, Option.map_none]

end

/-- Looking a word up is looking for it in one list and then in the other. -/
theorem taken_listedWords (hk : keywords.Perm (Vocabulary.ofDialect d).control)
    (hd : declarations.Perm (Vocabulary.ofDialect d).declarations) (before rest : List Char) :
    taken? (listedWords keywords declarations) before rest =
      taken? [identifier (.ofDialect d)] before rest := by
  cases hw : Cut.word Cut.isIdentifier before rest with
  | none =>
    have hik := (reserved_identifiers d).1.perm hk
    have hid := (reserved_identifiers d).2.perm hd
    have hnk := Cut.word_none_of_imp hw fun w h => (hik.listed h).2
    have hnd := Cut.word_none_of_imp hw fun w h => (hid.listed h).2
    simp [listedWords, identifier, single, taken_cons, whole_pieces, hw, hnk, hnd]
  | some w =>
    have hlooked : (identifier (.ofDialect d)).pieces? before rest =
        some [((Vocabulary.ofDialect d).classify (String.ofList w), w)] := by
      simp only [identifier, single, hw, Option.map_some]
    rw [taken_of_some _ hlooked, listedWords]
    by_cases hc : Cut.isListed keywords w = true
    · rw [taken_of_some _ (listed_pieces .keyword hw hc),
        classify_of_control (hk.mem_iff.mp (Cut.isListed_iff.mp hc))]
      rfl
    · have hc' := mt (fun h => Cut.isListed_iff.mpr (hk.mem_iff.mpr h)) hc
      rw [taken_skip _ (not_listed_pieces .keyword hw hc)]
      by_cases hm : Cut.isListed declarations w = true
      · rw [taken_of_some _ (listed_pieces .declaration hw hm),
          Vocabulary.classify_of_declaration (hd.mem_iff.mp (Cut.isListed_iff.mp hm))]
        rfl
      · have hm' := mt (fun h => Cut.isListed_iff.mpr (hd.mem_iff.mpr h)) hm
        have hname : (whole .name (.word Cut.isIdentifier)).pieces? before rest =
            some [(.name, w)] := by
          rw [whole_pieces, hw, Option.map_some]
        rw [taken_skip _ (not_listed_pieces .declaration hw hm), taken_of_some _ hname,
          Vocabulary.classify_of_neither hc' hm']
        rfl

end Production

open Production in
def spelledProductions (d : Dialect) (keywords declarations : List String) : Mode → List Production
  | .root => leading d ++ listedWords keywords declarations
  | m => productions d m

variable {d : Dialect} {keywords declarations : List String}

theorem spelledProductions_of_ne {m : Mode} (hm : m ≠ .root) :
    spelledProductions d keywords declarations m = productions d m := by
  cases m with
  | root => exact absurd rfl hm
  | _ => rfl

theorem taken_spelledProductions (hk : keywords.Perm (Vocabulary.ofDialect d).control)
    (hd : declarations.Perm (Vocabulary.ofDialect d).declarations) (m : Mode)
    (before rest : List Char) :
    taken? (spelledProductions d keywords declarations m) before rest =
      taken? (productions d m) before rest := by
  by_cases hm : m = .root
  · rw [hm, spelledProductions, Production.productions_root, taken_append, taken_append,
      Production.taken_listedWords hk hd]
  · rw [spelledProductions_of_ne hm]

theorem Grammar.ordered_wordLists {m : Mode} (hm : m ≠ .root) :
    (wordLists d keywords declarations).ordered m = (ofDialect d).ordered m := by
  cases m with
  | root => exact absurd rfl hm
  | _ => cases d <;> rfl

theorem Grammar.ordered_wordLists_root :
    (wordLists d keywords declarations).ordered .root =
      Production.leadingRules d ++ [⟨wholeWord (anyWord keywords), .whole .keyword, .stay⟩,
        ⟨wholeWord (anyWord declarations), .whole .declaration, .stay⟩,
        ⟨identifier.pattern, .whole .name, .stay⟩] := by
  cases d <;> rfl

theorem spelledProductions_described (hk : AllIdentifiers keywords)
    (hd : AllIdentifiers declarations) (m : Mode) :
    Described ⟨[], []⟩ ((Grammar.wordLists d keywords declarations).ordered m)
      (spelledProductions d keywords declarations m) := by
  by_cases hm : m = .root
  · have hlist : ∀ {ws : List String} {k : Category}, AllIdentifiers ws →
        (Production.whole k (.word (Cut.isListed ws))).Describes ⟨[], []⟩
          ⟨wholeWord (anyWord ws), .whole k, .stay⟩ := fun h =>
      Production.describes_whole rfl rfl (cuts_anyWord h) (Cut.proper_word _)
    rw [hm, Grammar.ordered_wordLists_root]
    exact List.rel_append (Production.leading_described d _) (.cons (hlist hk) (.cons (hlist hd)
      (.cons (Production.describes_whole rfl rfl cuts_identifier (Cut.proper_word _)) .nil)))
  · rw [Grammar.ordered_wordLists hm, spelledProductions_of_ne hm]
    exact inner_described d _ hm

end Highlighter
