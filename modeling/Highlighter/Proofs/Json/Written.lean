import Highlighter.Proofs.Json.Reader

/-!
# What is written

A written value denotes itself, in every layout that puts nothing but blanks around its
marks. By the grammar it denotes nothing else.
-/

set_option autoImplicit false

namespace Highlighter.Json

mutual

def value : Json → Value
  | .number n => .number n
  | .string s => .string s
  | .array items => .array (values items)
  | .object members => .object (memberValues members)

def values : List Json → List Value
  | [] => []
  | x :: rest => value x :: values rest

def memberValues : List (String × Json) → List (String × Value)
  | [] => []
  | (k, x) :: rest => (k, value x) :: memberValues rest

end

def Around (mark : Char) (cs : List Char) : Prop :=
  ∃ before after, Blank before ∧ Blank after ∧ cs = before ++ mark :: after

structure Layout.Spaced (l : Layout) : Prop where
  opening : ∀ depth, Blank (l.opening depth)
  separator : ∀ depth, Around ',' (l.separator depth)
  closing : ∀ depth, Blank (l.closing depth)
  colon : Around ':' l.colon

instance (cs : List Char) : Decidable (Blank cs) :=
  List.decidableBAll (fun c => isBlank c = true) cs

theorem blank_nil : Blank [] := by decide

theorem spaced_compact : Layout.compact.Spaced where
  opening _ := blank_nil
  separator _ := ⟨[], [], blank_nil, blank_nil, rfl⟩
  closing _ := blank_nil
  colon := ⟨[], [], blank_nil, blank_nil, rfl⟩

theorem blank_newline (depth : Nat) : Blank (Layout.newline depth) := by
  intro c hc
  rcases List.mem_cons.mp hc with rfl | hc
  · decide
  · rw [List.eq_of_mem_replicate hc]
    decide

theorem spaced_pretty : Layout.pretty.Spaced where
  opening _ := blank_newline _
  separator _ := ⟨[], _, blank_nil, blank_newline _, rfl⟩
  closing _ := blank_newline _
  colon := ⟨[], [' '], blank_nil, by decide, rfl⟩

/-! ## Strings and numbers -/

theorem unit_control : ∀ n < 0x20,
    unit? '0' '0' (Nat.digitChar (n / 16)) (Nat.digitChar (n % 16)) = some n := by
  decide

theorem letter_escape (c : Char) : Letter (escape c) c := by
  unfold escape
  split_ifs with hquote hbackslash hback htab hnewline hform hreturn hcontrol
  · rw [hquote]
    exact .named rfl
  · rw [hbackslash]
    exact .named rfl
  · rw [hback]
    exact .named rfl
  · rw [htab]
    exact .named rfl
  · rw [hnewline]
    exact .named rfl
  · rw [hform]
    exact .named rfl
  · rw [hreturn]
    exact .named rfl
  · have hletter := Letter.unit (unit_control c.toNat hcontrol) fun hs => by
      have := hs.1
      omega
    rwa [Char.ofNat_toNat] at hletter
  · exact .plain (Nat.not_lt.mp hcontrol) hquote hbackslash

theorem letters_flatMap (cs : List Char) : Letters (cs.flatMap escape) cs := by
  induction cs with
  | nil => exact .nil
  | cons c cs ih => exact .cons (letter_escape c) ih

theorem quoted_quoted (s : String) : Quoted (quoted s) s := .mk (letters_flatMap s.toList)

/-- A zero at the start is the only digit. -/
theorem digits_head {n : Nat} (h : (digits n).head? = some '0') : n = 0 := by
  induction n using Nat.strongRecOn with
  | ind n ih =>
    rw [digits, Nat.toDigits_eq_if (by decide)] at h
    split at h
    · exact Nat.digitChar_eq_zero.mp (Option.some.inj h)
    · rename_i hn
      obtain ⟨c, cs, hc⟩ := List.exists_cons_of_ne_nil (Nat.toDigits_ne_nil (n := n / 10) (b := 10))
      have hhigh := ih (n / 10) (by omega) (by rw [digits, hc]; rw [hc] at h; exact h)
      omega

theorem digits_isDigit {n : Nat} : ∀ c ∈ digits n, c.isDigit = true :=
  fun _ hc => Nat.isDigit_of_mem_toDigits (by decide) (by decide) hc

def Numeral.ofNat (n : Nat) : Numeral where
  negative := false
  whole := ⟨digits n, Nat.toDigits_ne_nil, digits_isDigit⟩
  fraction := none
  exponent := none
  whole_eq h := by rw [digits_head h]; rfl

theorem spells_digits (n : Nat) : Spells (digits n) (.number n) := by
  have htext : (Numeral.ofNat n).text = digits n := by simp [Numeral.text, Numeral.ofNat]
  have hvalue : (Numeral.ofNat n).value = n := by
    have hdecimal : decimal (digits n) = n := Nat.ofDigitChars_ten_toDigits
    rw [← Rat.intCast_natCast]
    simp [Numeral.value, Numeral.ofNat, Numeral.places, Numeral.power, scaled, signed, hdecimal]
  have h := Spells.number (Numeral.ofNat n)
  rwa [htext, hvalue] at h

/-! ## Containers -/

variable {l : Layout}

/-- The elements of an array and the members of an object are put together in the
same way. -/
theorem listed_more {α : Type} {Entry : List Char → α → Prop} {before after xs ys sep : List Char}
    {a : α} {as : List α} (hsep : Around ',' sep)
    (hfirst : ∀ gap, Blank gap → Entry (before ++ xs ++ gap) a)
    (hrest : ∀ gap, Blank gap → Listed Entry (gap ++ ys ++ after) as) :
    Listed Entry (before ++ (xs ++ sep ++ ys) ++ after) (a :: as) := by
  obtain ⟨front, back, hfront, hback, rfl⟩ := hsep
  have h := Listed.more (hfirst front hfront) (hrest back hback)
  simpa only [List.append_assoc, List.cons_append] using h

theorem member_colon {Part : List Char → Value → Prop} {before after xs colon : List Char}
    {v : Value} (hcolon : Around ':' colon) (hb : Blank before) (ha : Blank after) (k : String)
    (hv : Part xs v) : Member Part (before ++ (quoted k ++ colon ++ xs) ++ after) (k, v) := by
  obtain ⟨front, back, hfront, hback, rfl⟩ := hcolon
  have h := Member.mk (.mk hb (quoted_quoted k) hfront) (.mk hback hv ha)
  simpa only [List.append_assoc, List.cons_append] using h

theorem enclosed_enclose {α : Type} {Entry : List Char → α → Prop} {xs : List Char} {as : List α}
    {empty : Bool} {left right : Char} {depth : Nat} (hempty : empty = true → as = [])
    (hfull : empty = false → Listed Entry (l.opening depth ++ xs ++ l.closing depth) as) :
    Enclosed left right Entry (enclose l depth left right empty xs) as := by
  cases empty with
  | true =>
    rw [hempty rfl]
    exact .empty blank_nil
  | false => exact .full (hfull rfl)

mutual

theorem spells_write (hl : l.Spaced) : ∀ (j : Json) (depth : Nat), Spells (write l depth j) (value j)
  | .number n, _ => spells_digits n
  | .string s, _ => .string (quoted_quoted s)
  | .array items, depth =>
    .array (enclosed_enclose (fun h => by rw [List.isEmpty_iff.mp h]; rfl) fun h =>
      listed_items hl items depth _ _ (List.isEmpty_eq_false_iff.mp h) (hl.opening depth)
        (hl.closing depth))
  | .object members, depth =>
    .object (enclosed_enclose (fun h => by rw [List.isEmpty_iff.mp h]; rfl) fun h =>
      listed_members hl members depth _ _ (List.isEmpty_eq_false_iff.mp h) (hl.opening depth)
        (hl.closing depth))

theorem listed_items (hl : l.Spaced) : ∀ (items : List Json) (depth : Nat)
    (before after : List Char), items ≠ [] → Blank before → Blank after →
      Listed (Padded Spells) (before ++ writeItems l depth items ++ after) (values items)
  | [], _, _, _, hne, _, _ => absurd rfl hne
  | [x], depth, _, _, _, hb, ha => .last (.mk hb (spells_write hl x (depth + 1)) ha)
  | x :: y :: rest, depth, _, _, _, hb, ha =>
    listed_more (hl.separator depth) (fun _ hgap => .mk hb (spells_write hl x (depth + 1)) hgap)
      fun gap hgap => listed_items hl (y :: rest) depth gap _ (List.cons_ne_nil _ _) hgap ha

theorem listed_members (hl : l.Spaced) : ∀ (members : List (String × Json)) (depth : Nat)
    (before after : List Char), members ≠ [] → Blank before → Blank after →
      Listed (Member Spells) (before ++ writeMembers l depth members ++ after)
        (memberValues members)
  | [], _, _, _, hne, _, _ => absurd rfl hne
  | [(k, x)], depth, _, _, _, hb, ha =>
    .last (member_colon hl.colon hb ha k (spells_write hl x (depth + 1)))
  | (k, x) :: y :: rest, depth, _, _, _, hb, ha =>
    listed_more (hl.separator depth)
      (fun _ hgap => member_colon hl.colon hb hgap k (spells_write hl x (depth + 1)))
      fun gap hgap => listed_members hl (y :: rest) depth gap _ (List.cons_ne_nil _ _) hgap ha

end

/-- What is written for a value denotes that value and no other. -/
theorem denotes_write (hl : l.Spaced) (j : Json) {after : List Char} (ha : Blank after) (v : Value) :
    Denotes (write l 0 j ++ after) v ↔ v = value j := by
  have h : Denotes (write l 0 j ++ after) (value j) := .mk blank_nil (spells_write hl j 0) ha
  constructor
  · exact fun k => k.unique h
  · rintro rfl
    exact h

end Highlighter.Json
