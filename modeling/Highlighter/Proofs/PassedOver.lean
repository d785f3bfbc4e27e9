import Highlighter.Proofs.UnmatchedOption

/-!
# Characters that are passed over

The log of a complete run names the characters that are passed over, in their order and
with their offsets. They are the characters of the source that no matched token covers,
and one is logged exactly where a scanner comes to a character that no rule of its mode
takes.
-/

set_option autoImplicit false

namespace Highlighter

def Text.withOffsets : Nat → List Char → List (Nat × Char)
  | _, [] => []
  | n, x :: xs => (n, x) :: withOffsets (n + x.utf8Size) xs

def Record.skipped? : Record → Option (Nat × Char)
  | unmatched _ x n => some (n, x)
  | _ => none

def Token.matchedAt (t : Token) (n : Nat) : Bool :=
  t.isMatched && t.span.start ≤ n && n < t.span.stop

def Token.ofSkipped (p : Nat × Char) : Token :=
  ⟨.unmatched, String.singleton p.2, ⟨p.1, p.1 + p.2.utf8Size⟩⟩

def matchedLength (ts : List Token) : Nat :=
  ((ts.filter Token.isMatched).flatMap (·.text.toList)).length

def Lexeme.skipped : Nat → List Lexeme → List (Nat × Char)
  | _, [] => []
  | n, taken pieces _ :: ls => skipped (n + Text.bytes (pieces.flatMap Prod.snd)) ls
  | n, passed x :: ls => (n, x) :: skipped (n + Text.bytes [x]) ls

namespace Text

variable {n k : Nat} {x : Char} {xs : List Char}

theorem withOffsets_append (n : Nat) (xs ys : List Char) :
    withOffsets n (xs ++ ys) = withOffsets n xs ++ withOffsets (n + bytes xs) ys := by
  induction xs generalizing n with
  | nil => rfl
  | cons x xs ih =>
    rw [List.cons_append, withOffsets, withOffsets, ih, bytes, Nat.add_assoc]
    rfl

theorem withOffsets_range (h : (k, x) ∈ withOffsets n xs) : n ≤ k ∧ k < n + bytes xs := by
  induction xs generalizing n with
  | nil => cases h
  | cons y ys ih =>
    have hpos := y.utf8Size_pos
    rw [bytes]
    rcases List.mem_cons.mp h with heq | h
    · cases heq
      omega
    · obtain ⟨hle, hlt⟩ := ih h
      omega

end Text

section

variable {n k : Nat} {x : Char} {ps : List Piece}

theorem matchedLength_append (ts us : List Token) :
    matchedLength (ts ++ us) = matchedLength ts + matchedLength us := by
  rw [matchedLength, List.filter_append, List.flatMap_append, List.length_append]
  rfl

theorem any_matchedAt_eq_false (ts : List Token)
    (h : ∀ t ∈ ts, t.isMatched = false ∨ k < t.span.start ∨ t.span.stop ≤ k) :
    ts.any (·.matchedAt k) = false := by
  rw [List.any_eq_false]
  intro t ht hk
  simp only [Token.matchedAt, Bool.and_eq_true, decide_eq_true_eq] at hk
  obtain ⟨⟨hmatched, hstart⟩, hstop⟩ := hk
  rcases h t ht with hunmatched | hlt | hle
  · rw [hmatched] at hunmatched
    cases hunmatched
  · omega
  · omega

theorem tokensAt_range (n : Nat) (ps : List Piece) : ∀ t ∈ tokensAt n ps, n ≤ t.span.start ∧
    t.span.stop ≤ n + Text.bytes (ps.flatMap Prod.snd) := by
  induction ps generalizing n with
  | nil => simp [tokensAt]
  | cons p ps ih =>
    rw [List.flatMap_cons, Text.bytes_append]
    intro t ht
    rcases List.mem_cons.mp ht with rfl | ht
    · exact ⟨Nat.le_refl _, by dsimp only; omega⟩
    · obtain ⟨hstart, hstop⟩ := ih _ t ht
      omega

/-- Every character of the pieces is in one of their tokens. -/
theorem any_matchedAt_tokensAt (h : ∀ p ∈ ps, p.1.isMatched = true)
    (hx : (k, x) ∈ Text.withOffsets n (ps.flatMap Prod.snd)) :
    (tokensAt n ps).any (·.matchedAt k) = true := by
  induction ps generalizing n with
  | nil => cases hx
  | cons p ps ih =>
    obtain ⟨hp, hps⟩ := List.forall_mem_cons.mp h
    rw [List.flatMap_cons, Text.withOffsets_append] at hx
    rw [tokensAt, List.any_cons, Bool.or_eq_true]
    rcases List.mem_append.mp hx with hx | hx
    · left
      obtain ⟨hle, hlt⟩ := Text.withOffsets_range hx
      simp [Token.matchedAt, Token.isMatched, hp, hle, hlt]
    · exact .inr (ih hps hx)

theorem matchedLength_tokensAt (h : ∀ p ∈ ps, p.1.isMatched = true) (n : Nat) :
    matchedLength (tokensAt n ps) = (ps.flatMap Prod.snd).length := by
  rw [matchedLength, List.filter_eq_self.mpr (matched_tokensAt h n)]
  induction ps generalizing n with
  | nil => rfl
  | cons p ps ih =>
    rw [tokensAt, List.flatMap_cons, List.length_append, ih (List.forall_mem_cons.mp h).2,
      List.flatMap_cons, List.length_append, String.toList_ofList]

end

namespace Lexeme

variable {keep : Bool} {l : Lexeme} {ls : List Lexeme}

theorem shown_range (n : Nat) : ∀ t ∈ tokensAt n (l.shown keep), n ≤ t.span.start ∧
    t.span.stop ≤ n + Text.bytes l.chars := by
  cases l with
  | taken pieces move => exact tokensAt_range n pieces
  | passed x =>
    cases keep with
    | false => simp [shown, tokensAt]
    | true => exact tokensAt_range n [(.unmatched, [x])]

theorem tokens_start (keep : Bool) (n : Nat) (ls : List Lexeme) :
    ∀ t ∈ tokens keep n ls, n ≤ t.span.start := by
  induction ls generalizing n with
  | nil => simp [tokens]
  | cons l ls ih =>
    intro t ht
    rcases List.mem_append.mp ht with ht | ht
    · exact (shown_range n t ht).1
    · have hstart := ih _ t ht
      omega

theorem isMatched_passed {x : Char} (n : Nat) :
    ∀ t ∈ tokensAt n ((passed x).shown keep), t.isMatched = false := by
  cases keep with
  | false => simp [shown, tokensAt]
  | true => simp [shown, tokensAt, Token.isMatched, Category.isMatched]

theorem allRecords_skipped (ms : Modes) (n : Nat) (ls : List Lexeme) :
    (allRecords ms n ls).filterMap Record.skipped? = skipped n ls := by
  induction ls generalizing ms n with
  | nil => rfl
  | cons l ls ih =>
    obtain ⟨m, outer⟩ := ms
    rw [allRecords, List.filterMap_append, ih]
    cases l with
    | passed x => rfl
    | taken pieces move =>
      cases move with
      | stay => rfl
      | enter k => rfl
      | leave => cases outer <;> rfl

/-- The characters that are passed over are those in no matched token. -/
theorem skipped_eq_filter (h : ∀ l ∈ ls, l.Matched) (keep : Bool) (n : Nat) :
    skipped n ls = (Text.withOffsets n (allChars ls)).filter
      fun p => !(tokens keep n ls).any (·.matchedAt p.1) := by
  induction ls generalizing n with
  | nil => rfl
  | cons l ls ih =>
    obtain ⟨hl, hls⟩ := List.forall_mem_cons.mp h
    have hhere : ∀ p ∈ Text.withOffsets n l.chars,
        (tokens keep n (l :: ls)).any (·.matchedAt p.1) =
          (tokensAt n (l.shown keep)).any (·.matchedAt p.1) := by
      intro p hp
      have hlt := (Text.withOffsets_range hp).2
      rw [tokens, List.any_append, any_matchedAt_eq_false (tokens _ _ _), Bool.or_false]
      intro t ht
      have hstart := tokens_start keep _ ls t ht
      omega
    have hbehind : ∀ p ∈ Text.withOffsets (n + Text.bytes l.chars) (allChars ls),
        (tokens keep n (l :: ls)).any (·.matchedAt p.1) =
          (tokens keep (n + Text.bytes l.chars) ls).any (·.matchedAt p.1) := by
      intro p hp
      have hle := (Text.withOffsets_range hp).1
      rw [tokens, List.any_append, any_matchedAt_eq_false (tokensAt _ _), Bool.false_or]
      intro t ht
      have hstop := (shown_range n t ht).2
      omega
    rw [allChars_cons, Text.withOffsets_append, List.filter_append,
      List.filter_congr fun p hp => by rw [hhere p hp],
      List.filter_congr (l := Text.withOffsets (n + _) _) fun p hp => by rw [hbehind p hp],
      ← ih hls]
    cases l with
    | taken pieces move =>
      have hnone : (Text.withOffsets n (taken pieces move).chars).filter
          (fun p => !(tokensAt n pieces).any (·.matchedAt p.1)) = [] := by
        rw [List.filter_eq_nil_iff]
        intro p hp
        rw [any_matchedAt_tokensAt hl hp]
        decide
      rw [shown, hnone]
      rfl
    | passed x =>
      have hall : (Text.withOffsets n (passed x).chars).filter
          (fun p => !(tokensAt n ((passed x).shown keep)).any (·.matchedAt p.1)) = [(n, x)] := by
        rw [List.filter_eq_self.mpr]
        · rfl
        · intro p _
          rw [any_matchedAt_eq_false _ fun t ht => .inl (isMatched_passed n t ht)]
          rfl
      rw [hall]
      rfl

theorem unmatched_tokens (h : ∀ l ∈ ls, l.Matched) (n : Nat) :
    (tokens true n ls).filter (!·.isMatched) = (skipped n ls).map Token.ofSkipped := by
  induction ls generalizing n with
  | nil => rfl
  | cons l ls ih =>
    obtain ⟨hl, hls⟩ := List.forall_mem_cons.mp h
    rw [tokens, List.filter_append, ih hls]
    cases l with
    | taken pieces move =>
      have hnone : (tokensAt n pieces).filter (!·.isMatched) = [] := by
        rw [List.filter_eq_nil_iff]
        intro t ht
        simp [matched_tokensAt hl n t ht]
      rw [shown, hnone]
      rfl
    | passed x => rfl

/-- Each character is passed over or in a matched token. -/
theorem skipped_length (h : ∀ l ∈ ls, l.Matched) (keep : Bool) (n : Nat) :
    (skipped n ls).length + matchedLength (tokens keep n ls) = (allChars ls).length := by
  induction ls generalizing n with
  | nil => rfl
  | cons l ls ih =>
    obtain ⟨hl, hls⟩ := List.forall_mem_cons.mp h
    have hrest := ih hls (n + Text.bytes l.chars)
    rw [tokens, matchedLength_append, allChars_cons, List.length_append, ← hrest]
    cases l with
    | taken pieces move =>
      rw [shown, matchedLength_tokensAt hl]
      simp only [skipped, chars]
      omega
    | passed x =>
      have hnone : matchedLength (tokensAt n ((passed x).shown keep)) = 0 := by
        rw [matchedLength, List.filter_eq_nil_iff.mpr]
        · rfl
        · intro t ht
          simp [isMatched_passed n t ht]
      rw [hnone]
      simp only [skipped, chars, List.length_cons, List.length_nil]
      omega

end Lexeme

theorem firstHit_eq_none {c : Cursor} {rules : List (Nat × Rule)} :
    firstHit? c rules = none ↔ ∀ p ∈ rules, p.2.pattern.takes? c = none := by
  induction rules with
  | nil => simp [firstHit?]
  | cons p rules ih =>
    rw [firstHit?, List.forall_mem_cons, ← ih]
    cases p.2.pattern.takes? c <;> simp

theorem Move.unmatched_not_mem_records {m : Mode} {x : Char} {n : Nat} (move : Move) (ms : Modes)
    (offset : Nat) : .unmatched m x n ∉ move.records ms offset := by
  obtain ⟨k, outer⟩ := ms
  cases move with
  | stay => simp [records]
  | enter k => simp [records]
  | leave => cases outer <;> simp [records]

namespace Scanner

variable {g : Grammar} {first s : Scanner g} {r : Record}

structure PassesOver (s : Scanner g) (m : Mode) (x : Char) (n : Nat) : Prop where
  mode : s.mode = m
  offset : s.cursor.offset = n
  current : s.cursor.current? = some x
  untaken : ∀ p ∈ g.rulesIn m, p.2.pattern.takes? s.cursor = none

/-- Every record of a run is written by a step from a reachable place. -/
theorem mem_records (h : Reachable first s) (hr : r ∈ s.drain.records) :
    ∃ u, Reachable first u ∧ u.atEnd ≠ true ∧ r ∈ u.step.records := by
  induction s using drain_induction with
  | ended s he =>
    rw [drain_end he] at hr
    cases hr
  | step s he ih =>
    rw [drain_step he] at hr
    have hw := h.withoutPending
    rcases List.mem_append.mp hr with hr | hr
    · exact ⟨_, hw, he, hr⟩
    · exact ih (hw.step rfl he) hr

/-- A step passes over a character exactly where no rule takes text. -/
theorem mem_step_records (hg : g.Numbered) (hi : s.Informed) (he : s.atEnd ≠ true) {m : Mode}
    {x : Char} {n : Nat} : .unmatched m x n ∈ s.step.records ↔ s.PassesOver m x n := by
  rcases step_cases hg hi with ⟨hit, hf, hs⟩ | ⟨hf, hs⟩
  · have hlog := congrArg Logged.records hs
    rw [PlainScanner.take, PlainScanner.move_eq_lead] at hlog
    constructor
    · intro hr
      rw [show s.step.records = _ from hlog] at hr
      exact absurd hr (Move.unmatched_not_mem_records _ _ _)
    · intro h
      rw [h.mode, firstHit_eq_none.mpr h.untaken] at hf
      cases hf
  · obtain ⟨y, rest, hy⟩ := List.exists_cons_of_ne_nil (rest_ne_nil he)
    have hlog := congrArg Logged.records hs
    rw [PlainScanner.passOver_of_rest (s := s.plain) hy] at hlog
    have hcurrent : s.cursor.current? = some y := by rw [Cursor.current?, hy, List.head?_cons]
    rw [show s.step.records = [.unmatched s.mode y s.cursor.offset] from hlog, List.mem_singleton]
    constructor
    · rintro ⟨⟩
      exact ⟨rfl, rfl, hcurrent, firstHit_eq_none.mp hf⟩
    · rintro ⟨rfl, rfl, hx, _⟩
      rw [Option.some.inj (hx.symm.trans hcurrent)]

/-- A character is logged as passed over exactly where a scanner of the run passes over it. -/
theorem mem_drain_records (hg : g.Numbered) (hi : first.Informed) {m : Mode} {x : Char} {n : Nat} :
    .unmatched m x n ∈ first.drain.records ↔ ∃ s, Reachable first s ∧ s.PassesOver m x n := by
  constructor
  · intro hr
    obtain ⟨s, hs, he, hr⟩ := mem_records .start hr
    exact ⟨s, hs, (mem_step_records hg (hs.informed hg hi) he).mp hr⟩
  · rintro ⟨s, hs, h⟩
    have hw := hs.withoutPending
    have he : s.withoutPending.atEnd ≠ true := not_atEnd fun hr => by
      simpa [Cursor.current?, show s.cursor.rest = [] from hr] using h.current
    have hpass : s.withoutPending.PassesOver m x n := ⟨h.mode, h.offset, h.current, h.untaken⟩
    obtain ⟨_, earlier, _, hlog⟩ := hw.drain_suffix
    rw [hlog, drain_step he]
    exact List.mem_append_right _ (List.mem_append_left _
      ((mem_step_records hg (hw.informed hg hi) he).mpr hpass))

end Scanner

end Highlighter
