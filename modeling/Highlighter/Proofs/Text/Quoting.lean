import Highlighter.Proofs.Lines
import Highlighter.Proofs.Text.Numerals
import Highlighter.Text.Quoted

/-!
# Reading quoted text

What stands between two quotation marks can be read back, character by character,
for each one is written so that it shows where it ends. A mark that is not
escaped ends the text, and no tab and no newline is left raw.
-/

set_option autoImplicit false

namespace Highlighter.Text

def named? (c : Char) : Option Char :=
  if c = '0' then some '\x00'
  else if c = 't' then some '\t'
  else if c = 'r' then some '\r'
  else if c = 'n' then some '\n'
  else if c = '\\' || c = '"' then some c
  else none

def readNumbered : List Char → Option (Char × List Char)
  | [] => none
  | c :: cs =>
    if c = '\x7b' then
      match cs.dropWhile (· != '\x7d') with
      | [] => none
      | _ :: rest =>
        (numeral? 16 (cs.takeWhile (· != '\x7d'))).map fun n => (Char.ofNat n, rest)
    else none

def readEscaped : List Char → Option (Char × List Char)
  | [] => none
  | c :: cs => if c = 'u' then readNumbered cs else (named? c).map fun x => (x, cs)

def readChar : List Char → Option (Char × List Char)
  | [] => none
  | c :: cs => if c = '\\' then readEscaped cs else if c = '"' then none else some (c, cs)

variable {c x : Char} {cs rest : List Char}

theorem readNumbered_shortens (h : readNumbered cs = some (x, rest)) : rest.length < cs.length := by
  cases cs with
  | nil => cases h
  | cons c cs =>
    rw [readNumbered] at h
    split at h
    · split at h
      · cases h
      · rename_i y ys hd
        obtain ⟨n, _, hn⟩ := Option.map_eq_some_iff.mp h
        obtain ⟨_, rfl⟩ := Prod.mk.inj hn
        have hlen := (List.dropWhile_suffix (l := cs) (· != '\x7d')).length_le
        rw [hd] at hlen
        simp only [List.length_cons] at hlen ⊢
        omega
    · cases h

theorem readEscaped_shortens (h : readEscaped cs = some (x, rest)) : rest.length < cs.length := by
  cases cs with
  | nil => cases h
  | cons c cs =>
    rw [readEscaped] at h
    split at h
    · exact Nat.lt_succ_of_lt (readNumbered_shortens h)
    · obtain ⟨y, _, hy⟩ := Option.map_eq_some_iff.mp h
      obtain ⟨_, rfl⟩ := Prod.mk.inj hy
      exact Nat.lt_succ_self _

theorem readChar_shortens (h : readChar cs = some (x, rest)) : rest.length < cs.length := by
  cases cs with
  | nil => cases h
  | cons c cs =>
    rw [readChar] at h
    split at h
    · exact Nat.lt_succ_of_lt (readEscaped_shortens h)
    · split at h
      · cases h
      · obtain ⟨_, rfl⟩ := Prod.mk.inj (Option.some.inj h)
        exact Nat.lt_succ_self _

def unescape (cs : List Char) : Option (List Char) :=
  if cs = ['"'] then some []
  else
    match h : readChar cs with
    | none => none
    | some (x, rest) =>
      have := readChar_shortens h
      (unescape rest).map (x :: ·)
termination_by cs.length

def unquote : List Char → Option (List Char)
  | [] => none
  | c :: cs => if c = '"' then unescape cs else none

theorem readNumbered_numbered (c : Char) (rest : List Char) :
    readNumbered ('\x7b' :: (Nat.toDigits 16 c.toNat ++ '\x7d' :: rest)) = some (c, rest) := by
  have hdigits : ∀ x ∈ Nat.toDigits 16 c.toNat, (x != '\x7d') = true := by
    intro x hx
    rw [bne_iff_ne]
    rintro rfl
    exact not_mem_toDigits (by decide) (by decide) (by decide) hx
  have hbrace : ∀ y ∈ ('\x7d' :: rest).head?, (y != '\x7d') = false := by simp
  obtain ⟨ht, hd⟩ := span_append hdigits hbrace
  rw [readNumbered, if_pos rfl, ht, hd, numeral_toDigits (by decide) (by decide)]
  simp

/-- A written character is read back, whatever stands behind it. -/
theorem readChar_escape (c : Char) (rest : List Char) :
    readChar (escape '"' c ++ rest) = some (c, rest) := by
  unfold escape
  split_ifs with hzero htab hreturn hnewline hmark hhidden
  · rw [hzero]
    rfl
  · rw [htab]
    rfl
  · rw [hreturn]
    rfl
  · rw [hnewline]
    rfl
  · rcases (by simpa using hmark : c = '\\' ∨ c = '"') with rfl | rfl <;> rfl
  · simp only [numbered, List.append_assoc, List.cons_append, List.nil_append]
    exact readNumbered_numbered c rest
  · obtain ⟨hbackslash, hquote⟩ : c ≠ '\\' ∧ c ≠ '"' := by simpa using hmark
    rw [List.singleton_append, readChar, if_neg hbackslash, if_neg hquote]

theorem unescape_of_readChar (h : readChar cs = some (x, rest)) :
    unescape cs = (unescape rest).map (x :: ·) := by
  rw [unescape]
  split
  · rename_i hend
    rw [hend] at h
    cases h
  · split
    · rename_i hnone
      rw [h] at hnone
      cases hnone
    · rename_i hsome
      rw [h] at hsome
      obtain ⟨rfl, rfl⟩ := Prod.mk.inj (Option.some.inj hsome)
      rfl

theorem unescape_escape (cs : List Char) :
    unescape (cs.flatMap (escape '"') ++ ['"']) = some cs := by
  induction cs with
  | nil => rw [unescape, List.flatMap_nil, List.nil_append, if_pos rfl]
  | cons c cs ih =>
    rw [List.flatMap_cons, List.append_assoc, unescape_of_readChar (readChar_escape c _), ih,
      Option.map_some]

theorem unquote_quoted (cs : List Char) : unquote (quotedWith '"' cs) = some cs := by
  rw [quotedWith, unquote, if_pos rfl, unescape_escape]

def IsField (xs : List Char) : Prop := '\t' ∉ xs ∧ '\n' ∉ xs

instance (xs : List Char) : Decidable (IsField xs) := inferInstanceAs (Decidable (_ ∧ _))

theorem IsField.append {xs ys : List Char} (h : IsField xs) (k : IsField ys) :
    IsField (xs ++ ys) := by
  constructor
  · rw [List.mem_append, not_or]
    exact ⟨h.1, k.1⟩
  · rw [List.mem_append, not_or]
    exact ⟨h.2, k.2⟩

theorem isField_toDigits {base : Nat} (hb : 1 < base) (hle : base ≤ 16) (n : Nat) :
    IsField (Nat.toDigits base n) := by
  have hnone : ∀ b ≤ 16, digit? b '\t' = none ∧ digit? b '\n' = none := by decide
  exact ⟨not_mem_toDigits hb hle (hnone base hle).1, not_mem_toDigits hb hle (hnone base hle).2⟩

theorem isField_escape (c : Char) : IsField (escape '"' c) := by
  unfold escape
  split_ifs with hzero htab hreturn hnewline hmark hhidden
  · decide
  · decide
  · decide
  · decide
  · rcases (by simpa using hmark : c = '\\' ∨ c = '"') with rfl | rfl <;> decide
  · have hopening : IsField ['\\', 'u', '\x7b'] := by decide
    have hdigits := isField_toDigits (show 1 < 16 by decide) (Nat.le_refl 16) c.toNat
    exact (hopening.append hdigits).append (by decide)
  · simp [IsField, Ne.symm htab, Ne.symm hnewline]

theorem isField_quotedWith (cs : List Char) : IsField (quotedWith '"' cs) := by
  have hmark : IsField ['"'] := by decide
  have hbody : IsField (cs.flatMap (escape '"')) := by
    constructor
    · rw [List.mem_flatMap]
      exact fun ⟨c, _, hc⟩ => (isField_escape c).1 hc
    · rw [List.mem_flatMap]
      exact fun ⟨c, _, hc⟩ => (isField_escape c).2 hc
  exact hmark.append (hbody.append hmark)

end Highlighter.Text
