import Highlighter.Proofs.BlockBodies
import Highlighter.Proofs.PassedOver

/-!
# The log of a scan

What the log of a complete run tells. Modes are entered and left in turns, and replayed
from the outermost mode on the log leads to the modes in which the scan ends. The
characters that are passed over are those that no matched token covers, and each is
logged in the mode in which no rule takes it. With the option for unmatched characters
they are the unmatched tokens, and with the matched ones they make up the source.
-/

set_option autoImplicit false

namespace Highlighter

def Record.applied? : Record → List Mode → Option (List Mode)
  | entered m _, modes => some (m :: modes)
  | left m _, k :: n :: outer => if m = k then some (n :: outer) else none
  | unmatched m _ _, k :: outer => if m = k then some (k :: outer) else none
  | _, _ => none

def replay? (modes : List Mode) (log : List Record) : Option (List Mode) :=
  log.foldlM (fun modes r => r.applied? modes) modes

/-- Modes are entered and left in turns at offsets that increase from `n` on. The mode
that is open may be left, and without one a mode may be entered. -/
inductive InTurns : Option Mode → Nat → List Record → Prop
  | done (opened : Option Mode) (n : Nat) : InTurns opened n []
  | enter {n k : Nat} {m : Mode} {log : List Record} : n ≤ k → InTurns (some m) (k + 1) log →
      InTurns none n (.entered m k :: log)
  | leave {n k : Nat} {m : Mode} {log : List Record} : n ≤ k → InTurns none (k + 1) log →
      InTurns (some m) n (.left m k :: log)

theorem InTurns.mono {opened : Option Mode} {n k : Nat} {log : List Record}
    (h : InTurns opened n log) (hle : k ≤ n) : InTurns opened k log := by
  cases h with
  | done => exact .done _ _
  | enter hn hlog => exact .enter (Nat.le_trans hle hn) hlog
  | leave hn hlog => exact .leave (Nat.le_trans hle hn) hlog

theorem replay_append (modes : List Mode) (log more : List Record) :
    replay? modes (log ++ more) = (replay? modes log).bind (replay? · more) :=
  List.foldlM_append

def Modes.opened : Modes → Option Mode
  | (_, []) => none
  | (m, _ :: _) => some m

theorem Lexeme.replay_records (l : Lexeme) (ms : Modes) (n : Nat) :
    replay? (ms.1 :: ms.2) (l.records ms n) = some ((l.move.lead ms).1 :: (l.move.lead ms).2) := by
  obtain ⟨m, outer⟩ := ms
  cases l with
  | passed x => simp [records, replay?, Record.applied?, move, Move.lead]
  | taken pieces move =>
    cases move with
    | stay => rfl
    | enter k => rfl
    | leave =>
      cases outer with
      | nil => rfl
      | cons k outer =>
        simp [records, replay?, Record.applied?, Move.records, Lexeme.move, Move.lead]

theorem Lexeme.replay_allRecords (ms : Modes) (n : Nat) (ls : List Lexeme) :
    replay? (ms.1 :: ms.2) (allRecords ms n ls) = some ((lead ms ls).1 :: (lead ms ls).2) := by
  induction ls generalizing ms n with
  | nil => rfl
  | cons l ls ih =>
    rw [allRecords, replay_append, replay_records, Option.bind_some, ih]
    rfl

theorem Record.applied_unmatched {m : Mode} {x : Char} {n : Nat} {modes after : List Mode}
    (h : (unmatched m x n).applied? modes = some after) : after = modes := by
  cases modes with
  | nil => cases h
  | cons k outer => exact (Option.some.inj (Option.ite_none_right_eq_some.mp h).2).symm

/-- Without the records of characters that are passed over the modes are the same. -/
theorem replay_debug {modes after : List Mode} {log : List Record}
    (h : replay? modes log = some after) :
    replay? modes (log.filter Record.isDebug) = some after := by
  induction log generalizing modes with
  | nil => exact h
  | cons r log ih =>
    obtain ⟨mid, hr, hlog⟩ := Option.bind_eq_some_iff.mp h
    cases hd : r.isDebug with
    | true =>
      rw [List.filter_cons_of_pos hd]
      exact Option.bind_eq_some_iff.mpr ⟨mid, hr, ih hlog⟩
    | false =>
      rw [List.filter_cons_of_neg (by simp [hd])]
      cases r with
      | unmatched m x n =>
        rw [← Record.applied_unmatched hr]
        exact ih hlog
      | _ => cases hd

section

variable {d : Dialect} {ms : Modes} {c e : Cursor} {l : Lexeme} {log : List Record}

theorem Placed.outer_eq {m k : Mode} {outer : List Mode} (h : Placed (m, k :: outer) c) :
    k :: outer = [.root] := by
  rcases h with hroot | ⟨_, houter, _⟩
  · cases hroot
  · exact houter

/-- One lexeme and then the log behind it. -/
theorem Placed.turn (h : Placed ms c) (hafter : Placed (l.move.lead ms) e)
    (ho : c.offset < e.offset) (hlog : InTurns (l.move.lead ms).opened e.offset log) :
    InTurns ms.opened c.offset ((l.records ms c.offset).filter Record.isDebug ++ log) := by
  obtain ⟨m, outer⟩ := ms
  cases l with
  | passed x => exact hlog.mono ho.le
  | taken pieces move =>
    cases move with
    | stay => exact hlog.mono ho.le
    | enter k =>
      cases hafter.outer_eq
      exact .enter (Nat.le_refl _) (hlog.mono ho)
    | leave =>
      cases outer with
      | nil => exact hlog.mono ho.le
      | cons k outer =>
        cases h.outer_eq
        exact .leave (Nat.le_refl _) (hlog.mono ho)

theorem Placed.inTurns (h : Placed ms c) : InTurns ms.opened c.offset
    ((Lexeme.allRecords ms c.offset (lexemes d ms c)).filter Record.isDebug) := by
  fun_induction lexemes d ms c with
  | case1 ms c hl => exact .done _ _
  | case2 ms c l hl ih =>
    obtain ⟨hr, hne⟩ := lexeme_reads hl
    have hafter := h.step hl
    rw [Lexeme.allRecords, List.filter_append]
    exact h.turn hafter (hr.offset_lt hne) (ih hafter)

end

structure Scanner.Replayed {g : Grammar} (first : Scanner g) (source : String)
    (run : Logged (List Token × Scanner g)) : Prop where
  turns : InTurns none 0 (run.records.filter Record.isDebug)
  modes : replay? [.root] (run.records.filter Record.isDebug) =
    some (run.value.2.mode :: run.value.2.outer)
  replay : replay? [.root] run.records = some (run.value.2.mode :: run.value.2.outer)
  untaken : ∀ m x n, .unmatched m x n ∈ run.records ↔
    ∃ s, Reachable first s ∧ s.PassesOver m x n
  uncovered : run.records.filterMap Record.skipped? =
    (Text.withOffsets 0 source.toList).filter fun p => !run.value.1.any (·.matchedAt p.1)
  kept : first.keepUnmatched = true → run.value.1.filter (!·.isMatched) =
    (run.records.filterMap Record.skipped?).map Token.ofSkipped
  count : (run.records.filterMap Record.skipped?).length + matchedLength run.value.1 =
    source.length

/-- The log of a scan replays it: the modes that it enters and leaves, and the characters
that it passes over. -/
theorem scan_replayed (d : Dialect) (keep : Bool) (source : String) :
    (Scanner.onText (.ofDialect d) keep source).Replayed source
      (scan (.ofDialect d) keep source) := by
  let run := scan (.ofDialect d) keep source
  let ls := lexemes d (.root, []) (.ofText source)
  have hmatched := matched_lexemes (d := d) (.root, []) (.ofText source)
  have hchars : Lexeme.allChars ls = source.toList := lexemes_chars _ _
  obtain ⟨htokens, hmodes⟩ := scan_lexemes d keep source
  obtain ⟨_, hlog, _⟩ := scan_read d keep source
  have hreplay : replay? [.root] run.records = some (run.value.2.mode :: run.value.2.outer) := by
    have hlead := Lexeme.replay_allRecords (.root, []) 0 ls
    rw [← hmodes] at hlead
    rw [show run.records = _ from hlog]
    exact hlead
  have hskipped : run.records.filterMap Record.skipped? = Lexeme.skipped 0 ls := by
    rw [show run.records = _ from hlog, Lexeme.allRecords_skipped]
  constructor
  · have hplaced : Placed (.root, []) (.ofText source) := .inl rfl
    rw [show (scan (.ofDialect d) keep source).records = _ from hlog]
    exact hplaced.inTurns
  · exact replay_debug hreplay
  · exact hreplay
  · exact fun m x n => Scanner.mem_drain_records (Grammar.numbered_ofDialect d)
      (Scanner.informed_onText _ keep source)
  · rw [hskipped, htokens, ← hchars]
    exact Lexeme.skipped_eq_filter hmatched keep 0
  · intro hkeep
    obtain rfl : keep = true := hkeep
    rw [hskipped, htokens]
    exact Lexeme.unmatched_tokens hmatched 0
  · rw [hskipped, htokens, ← String.length_toList, ← hchars]
    exact Lexeme.skipped_length hmatched keep 0

/-- A quote that nothing closes, and an empty line in a block. -/
example : (scan (.ofDialect .current) false "\"textblock\n\nendtextblock").records =
    [.unmatched .root '"' 0, .entered .blockComment 1, .unmatched .blockComment '\n' 11,
      .left .blockComment 12] := by
  decide +kernel

end Highlighter
