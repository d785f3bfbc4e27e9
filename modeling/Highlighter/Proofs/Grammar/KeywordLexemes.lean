import Highlighter.Proofs.Grammar.Inventory
import Highlighter.Proofs.Grammar.WordCuts

/-!
# Keywords in lexemes

Few productions make keywords: those of the block openers, of the closing word,
of remote calls and of the words that are looked up. So the word of a keyword
says what else is in its lexeme, in which mode it is read and which move follows.
-/

set_option autoImplicit false

namespace Highlighter

def Category.isReserved (k : Category) : Bool := k == .keyword || k == .declaration

namespace Vocabulary

variable {v : Vocabulary} {word : String}

theorem mem_declarations_of_classify (h : v.classify word = .declaration) :
    word ∈ v.declarations := by
  by_contra hd
  by_cases hc : word ∈ v.control <;> simp [classify, hd, hc] at h

theorem mem_control_of_classify (h : v.classify word = .keyword) : word ∈ v.control := by
  by_contra hc
  by_cases hd : word ∈ v.declarations <;> simp [classify, hd, hc] at h

end Vocabulary

def lineEnds : List String := ["", "\r", "\n", "\r\n"]

theorem mem_lineEnds {rest tail : List Char} (h : Text.lineTail? rest = some tail) :
    String.ofList tail ∈ lineEnds := by
  rw [Text.lineTail?] at h
  split at h
  · obtain rfl := Option.some.inj h
    decide
  · split at h
    · obtain rfl := Option.some.inj h
      decide
    · obtain ⟨hr, h⟩ := Option.ite_none_right_eq_some.mp h
      obtain rfl := Option.some.inj h
      rcases hr with rfl | rfl <;> decide

namespace Production

inductive Reserving (d : Dialect) : Mode → Production → Prop
  | identifier : Reserving d .root (identifier (.ofDialect d))
  | remoteCall : Reserving d .root remoteCall
  | labelledOpener : Reserving d .root labelledOpener
  | bareOpener : Reserving d .root (whole .keyword .bareOpener (.enter .blockComment))
  | closer : Reserving d .block (whole .keyword (.word (· == "endtextblock".toList)) .leave)

def Unreserved (p : Production) : Prop :=
  ∃ k cut move, k.isReserved = false ∧ p = whole k cut move

theorem unreserved_whole {k : Category} (cut : Cut) (move : Move) (h : k.isReserved = false) :
    (whole k cut move).Unreserved := ⟨k, cut, move, h, rfl⟩

variable {d : Dialect} {m : Mode} {p : Production}

theorem unreserved_comments (h : p ∈ comments d) : p.Unreserved := by
  cases d <;> simp only [comments, List.mem_cons, List.not_mem_nil, or_false] at h
  · rcases h with rfl | rfl <;> exact unreserved_whole _ _ rfl
  · rw [h]
    exact unreserved_whole _ _ rfl

theorem unreserved_blanks (h : p ∈ blanks) : p.Unreserved := by
  simp only [blanks, List.mem_cons, List.not_mem_nil, or_false] at h
  rcases h with rfl | rfl <;> exact unreserved_whole _ _ rfl

theorem unreserved_strings (h : p ∈ strings) : p.Unreserved := by
  simp only [strings, List.mem_cons, List.not_mem_nil, or_false] at h
  rcases h with rfl | rfl <;> exact unreserved_whole _ _ rfl

theorem unreserved_numbers (h : p ∈ numbers d) : p.Unreserved := by
  cases d <;> simp only [numbers, List.mem_cons, List.not_mem_nil, or_false] at h
  · rcases h with rfl | rfl | rfl <;> exact unreserved_whole _ _ rfl
  · rcases h with rfl | rfl | rfl | rfl <;> exact unreserved_whole _ _ rfl

theorem reserving_or_unreserved (h : p ∈ productions d m) : Reserving d m p ∨ p.Unreserved := by
  cases m with
  | root =>
    simp only [productions, List.mem_append, List.mem_cons, List.not_mem_nil, or_false] at h
    rcases h with (((h | h) | h) | h) | rfl | rfl | rfl | rfl | rfl | rfl
    · exact .inr (unreserved_comments h)
    · exact .inr (unreserved_blanks h)
    · exact .inr (unreserved_strings h)
    · exact .inr (unreserved_numbers h)
    · exact .inl .bareOpener
    · exact .inl .labelledOpener
    · exact .inl .remoteCall
    · exact .inr (unreserved_whole _ _ rfl)
    · exact .inr (unreserved_whole _ _ rfl)
    · exact .inl .identifier
  | string => exact .inr (unreserved_strings h)
  | whitespace => exact .inr (unreserved_blanks h)
  | comment => exact .inr (unreserved_comments h)
  | number => exact .inr (unreserved_numbers h)
  | block =>
    simp only [productions, block, List.mem_cons, List.not_mem_nil, or_false] at h
    rcases h with rfl | rfl
    · exact .inl .closer
    · exact .inr (unreserved_whole _ _ rfl)
  | blockComment =>
    simp only [productions, block, List.mem_cons, List.not_mem_nil, or_false] at h
    rcases h with rfl | rfl <;> exact .inr (unreserved_whole _ _ rfl)

end Production

def callPieces (blanks inner : List Char) : List Piece :=
  [(.keyword, "call".toList), (.whitespace, blanks), (.keyword, "url".toList),
    (.punctuation, ['[']), (.literal, inner), (.punctuation, [']'])]

/-- A keyword in a lexeme, between the pieces in front of it and those behind it.
The first argument is the mode in which the lexeme is read, the last one the
move that follows it. -/
inductive KeywordIn (d : Dialect) : Mode → List Piece → List Char → List Piece → Move → Prop
  | control {w : List Char} : String.ofList w ∈ (Vocabulary.ofDialect d).control →
      KeywordIn d .root [] w [] .stay
  | call {blanks inner : List Char} :
      KeywordIn d .root [] "call".toList ((callPieces blanks inner).drop 1) .stay
  | address {blanks inner : List Char} :
      KeywordIn d .root ((callPieces blanks inner).take 2) "url".toList
        ((callPieces blanks inner).drop 3) .stay
  | labelledOpener {opener blanks label : List Char} :
      opener = "textblock".toList ∨ opener = "textblockex".toList →
      KeywordIn d .root [] opener [(.whitespace, blanks), (.name, label)] (.enter .block)
  | bareOpener {tail : List Char} : String.ofList tail ∈ lineEnds →
      KeywordIn d .root [] ("textblock".toList ++ tail) [] (.enter .blockComment)
  | closer : KeywordIn d .block [] "endtextblock".toList [] .leave

section

variable {d : Dialect} {m : Mode} {keep : Bool} {before rest xs : List Char} {l : Lexeme}
  {ps qs : List Piece}

/-- Where no piece behind the first one is a keyword, a keyword is the first piece. -/
theorem keyword_first {a : Piece} {us : List Piece} (h : a :: us = ps ++ (.keyword, xs) :: qs)
    (hu : ∀ u ∈ us, u.1 ≠ .keyword) : ps = [] ∧ a = (.keyword, xs) ∧ us = qs := by
  rcases List.cons_eq_append_iff.mp h with ⟨hps, hc⟩ | ⟨more, _, rfl⟩
  · obtain ⟨ha, hq⟩ := List.cons.inj hc
    exact ⟨hps, ha.symm, hq.symm⟩
  · exact absurd rfl (hu (.keyword, xs) (by simp))

theorem keyword_call {blanks inner : List Char}
    (h : callPieces blanks inner = ps ++ (.keyword, xs) :: qs) :
    KeywordIn d .root ps xs qs .stay := by
  rcases List.cons_eq_append_iff.mp h with ⟨rfl, hc⟩ | ⟨second, rfl, hsecond⟩
  · obtain ⟨hx, rfl⟩ := List.cons.inj hc
    obtain ⟨_, rfl⟩ := Prod.mk.inj hx
    exact .call
  · rcases List.cons_eq_append_iff.mp hsecond with ⟨_, hc⟩ | ⟨third, rfl, hthird⟩
    · cases hc
    · obtain ⟨rfl, hx, rfl⟩ := keyword_first hthird (by simp)
      obtain ⟨_, rfl⟩ := Prod.mk.inj hx
      exact .address

theorem keyword_pieces {p : Production} {pieces : List Piece} (hp : p ∈ productions d m)
    (h : p.pieces? before rest = some pieces) (hs : pieces = ps ++ (.keyword, xs) :: qs) :
    KeywordIn d m ps xs qs p.move := by
  rcases Production.reserving_or_unreserved hp with hr | ⟨k, cut, move, hk, rfl⟩
  · cases hr with
    | identifier =>
      obtain ⟨w, _, rfl⟩ := Option.map_eq_some_iff.mp h
      obtain ⟨rfl, hx, rfl⟩ := keyword_first hs (by simp)
      obtain ⟨hc, rfl⟩ := Prod.mk.inj hx
      exact .control (Vocabulary.mem_control_of_classify hc)
    | remoteCall =>
      simp only [Production.remoteCall, Option.ite_none_right_eq_some, Option.some.injEq] at h
      obtain ⟨_, rfl⟩ := h
      exact keyword_call hs
    | labelledOpener =>
      simp only [Production.labelledOpener, Option.ite_none_right_eq_some,
        Option.map_eq_some_iff] at h
      obtain ⟨⟨_, ho, _⟩, tail, _, rfl⟩ := h
      obtain ⟨rfl, hx, rfl⟩ := keyword_first hs (by simp)
      obtain ⟨_, rfl⟩ := Prod.mk.inj hx
      exact .labelledOpener ho
    | bareOpener =>
      obtain ⟨w, hw, rfl⟩ := Option.map_eq_some_iff.mp h
      obtain ⟨rfl, hx, rfl⟩ := keyword_first hs (by simp)
      obtain ⟨_, rfl⟩ := Prod.mk.inj hx
      obtain ⟨_, tail, ht, rfl⟩ := Cut.bareOpener_eq_some.mp hw
      exact .bareOpener (mem_lineEnds ht)
    | closer =>
      obtain ⟨w, hw, rfl⟩ := Option.map_eq_some_iff.mp h
      obtain ⟨rfl, hx, rfl⟩ := keyword_first hs (by simp)
      obtain ⟨_, rfl⟩ := Prod.mk.inj hx
      obtain ⟨_, _, _, ha⟩ := Cut.word_eq_some.mp hw
      obtain rfl : w = "endtextblock".toList := beq_iff_eq.mp ha
      exact .closer
  · obtain ⟨w, _, rfl⟩ := Option.map_eq_some_iff.mp h
    obtain ⟨_, hx, _⟩ := keyword_first hs (by simp)
    obtain ⟨rfl, _⟩ := Prod.mk.inj hx
    cases hk

theorem declaration_pieces {p : Production} {pieces : List Piece} (hp : p ∈ productions d m)
    (h : p.pieces? before rest = some pieces) (hs : (.declaration, xs) ∈ pieces) :
    String.ofList xs ∈ (Vocabulary.ofDialect d).declarations := by
  rcases Production.reserving_or_unreserved hp with hr | ⟨k, cut, move, hk, rfl⟩
  · cases hr with
    | identifier =>
      obtain ⟨w, _, rfl⟩ := Option.map_eq_some_iff.mp h
      obtain ⟨hc, rfl⟩ := Prod.mk.inj (List.mem_singleton.mp hs)
      exact Vocabulary.mem_declarations_of_classify hc.symm
    | remoteCall =>
      simp only [Production.remoteCall, Option.ite_none_right_eq_some, Option.some.injEq] at h
      obtain ⟨_, rfl⟩ := h
      simp at hs
    | labelledOpener =>
      simp only [Production.labelledOpener, Option.ite_none_right_eq_some,
        Option.map_eq_some_iff] at h
      obtain ⟨_, tail, _, rfl⟩ := h
      simp at hs
    | bareOpener | closer =>
      obtain ⟨w, _, rfl⟩ := Option.map_eq_some_iff.mp h
      cases List.mem_singleton.mp hs
  · obtain ⟨w, _, rfl⟩ := Option.map_eq_some_iff.mp h
    obtain ⟨rfl, _⟩ := Prod.mk.inj (List.mem_singleton.mp hs)
    cases hk

/-- A character passed over is of no other category than its own. -/
theorem shown_passed {x : Char} {k : Category} (h : (k, xs) ∈ (Lexeme.passed x).shown keep) :
    k = .unmatched := by
  cases keep with
  | false => cases h
  | true => exact (Prod.mk.inj (List.mem_singleton.mp h)).1

theorem lexeme_keyword (h : lexeme? d m before rest = some l)
    (hs : l.shown keep = ps ++ (.keyword, xs) :: qs) : KeywordIn d m ps xs qs l.move := by
  rcases lexeme_origin h with ⟨p, hp, pieces, hpieces, rfl⟩ | ⟨_, x, after, _, rfl⟩
  · exact keyword_pieces hp hpieces hs
  · have hm : (.keyword, xs) ∈ (Lexeme.passed x).shown keep := by simp [hs]
    cases shown_passed hm

theorem lexeme_declaration (h : lexeme? d m before rest = some l)
    (hs : (.declaration, xs) ∈ l.shown keep) :
    String.ofList xs ∈ (Vocabulary.ofDialect d).declarations := by
  rcases lexeme_origin h with ⟨p, hp, pieces, hpieces, rfl⟩ | ⟨_, x, after, _, rfl⟩
  · exact declaration_pieces hp hpieces hs
  · cases shown_passed hs

end

end Highlighter
