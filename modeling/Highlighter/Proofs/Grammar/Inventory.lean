import Highlighter.Proofs.Grammar.Lexemes

/-!
# The productions in use

Which cuts and productions occur in the modes of the grammars. What holds of
each of them holds in every mode, however the modes are composed.
-/

set_option autoImplicit false

namespace Highlighter

def Category.isMatched (k : Category) : Bool := k != .unmatched

inductive Cut.InUse : Cut → Prop
  | literal {xs : List Char} : Text.Unbroken xs → InUse (literal xs)
  | oneOf {cs : List Char} : Text.Unbroken cs → InUse (oneOf cs)
  | restOfLine {mark : List Char} : Text.Unbroken mark → InUse (restOfLine mark)
  | between {mark : Char} : Text.Unbroken [mark] → InUse (between mark)
  | word {accepts : List Char → Bool} : InUse (word accepts)
  | hexadecimal {d : Dialect} : InUse (hexadecimal d)
  | bareOpener : InUse bareOpener
  | bodyLine : InUse bodyLine

namespace Production

inductive InUse : Production → Prop
  | whole {k : Category} {cut : Cut} {move : Move} :
      k.isMatched = true → cut.InUse → InUse (whole k cut move)
  | identifier {v : Vocabulary} : InUse (identifier v)
  | labelledOpener : InUse labelledOpener
  | remoteCall : InUse remoteCall

variable {p : Production}

theorem inUse_comments {d : Dialect} (h : p ∈ comments d) : p.InUse := by
  have hline : (Production.whole .comment (.restOfLine "//".toList)).InUse :=
    .whole rfl (.restOfLine (by decide))
  cases d with
  | current =>
    simp only [comments, List.mem_cons, List.not_mem_nil, or_false] at h
    rcases h with rfl | rfl
    · exact .whole rfl (.literal (by decide))
    · exact hline
  | legacy =>
    obtain rfl := List.mem_singleton.mp h
    exact hline

theorem inUse_blanks (h : p ∈ blanks) : p.InUse := by
  simp only [blanks, List.mem_cons, List.not_mem_nil, or_false] at h
  rcases h with rfl | rfl <;> exact .whole rfl (.literal (by decide))

theorem inUse_strings (h : p ∈ strings) : p.InUse := by
  simp only [strings, List.mem_cons, List.not_mem_nil, or_false] at h
  rcases h with rfl | rfl <;> exact .whole rfl (.between (by decide))

theorem inUse_numbers {d : Dialect} (h : p ∈ numbers d) : p.InUse := by
  cases d <;> simp only [numbers, List.mem_cons, List.not_mem_nil, or_false] at h
  · rcases h with rfl | rfl | rfl
    · exact .whole rfl .word
    · exact .whole rfl .hexadecimal
    · exact .whole rfl .word
  · rcases h with rfl | rfl | rfl | rfl
    · exact .whole rfl .word
    · exact .whole rfl .hexadecimal
    · exact .whole rfl .word
    · exact .whole rfl .word

theorem inUse_block {closer body : Category} (hc : closer.isMatched = true)
    (hb : body.isMatched = true) (h : p ∈ block closer body) : p.InUse := by
  simp only [block, List.mem_cons, List.not_mem_nil, or_false] at h
  rcases h with rfl | rfl
  · exact .whole hc .word
  · exact .whole hb .bodyLine

end Production

theorem inUse_productions {d : Dialect} {m : Mode} {p : Production} (h : p ∈ productions d m) :
    p.InUse := by
  cases m with
  | root =>
    simp only [productions, List.mem_append, List.mem_cons, List.not_mem_nil, or_false] at h
    rcases h with (((h | h) | h) | h) | rfl | rfl | rfl | rfl | rfl | rfl
    · exact Production.inUse_comments h
    · exact Production.inUse_blanks h
    · exact Production.inUse_strings h
    · exact Production.inUse_numbers h
    · exact .whole rfl .bareOpener
    · exact .labelledOpener
    · exact .remoteCall
    · exact .whole rfl (.oneOf (by cases d <;> decide))
    · exact .whole rfl (.oneOf (by decide))
    · exact .identifier
  | string => exact Production.inUse_strings h
  | whitespace => exact Production.inUse_blanks h
  | comment => exact Production.inUse_comments h
  | block => exact Production.inUse_block rfl rfl h
  | blockComment => exact Production.inUse_block rfl rfl h
  | number => exact Production.inUse_numbers h

theorem taken_eq_some {ps : List Production} {before rest : List Char} {l : Lexeme}
    (h : taken? ps before rest = some l) :
    ∃ p ∈ ps, ∃ pieces, p.pieces? before rest = some pieces ∧ l = .taken pieces p.move := by
  obtain ⟨p, hp, hl⟩ := List.exists_of_findSome?_eq_some h
  obtain ⟨pieces, hs, rfl⟩ := Option.map_eq_some_iff.mp hl
  exact ⟨p, hp, pieces, hs, rfl⟩

/-- A lexeme comes from a production of the mode, or is a character that none takes. -/
theorem lexeme_origin {d : Dialect} {m : Mode} {before rest : List Char} {l : Lexeme}
    (h : lexeme? d m before rest = some l) :
    (∃ p ∈ productions d m, ∃ pieces, p.pieces? before rest = some pieces ∧
      l = .taken pieces p.move) ∨
    (taken? (productions d m) before rest = none ∧
      ∃ x after, rest = x :: after ∧ l = .passed x) := by
  cases ht : taken? (productions d m) before rest with
  | some k =>
    obtain rfl : k = l := by simpa [lexeme?, ht] using h
    exact .inl (taken_eq_some ht)
  | none =>
    obtain ⟨x, hx, rfl⟩ : ∃ x, rest.head? = some x ∧ .passed x = l := by simpa [lexeme?, ht] using h
    obtain ⟨after, ha⟩ := List.head?_eq_some_iff.mp hx
    exact .inr ⟨rfl, x, after, ha, rfl⟩

end Highlighter
