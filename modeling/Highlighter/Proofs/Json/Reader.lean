import Highlighter.Proofs.Json.Grammar
import Highlighter.Proofs.Lines

/-!
# Reading JSON

A reader that goes through a text once. Each of its parts reads what the grammar
derives and stops where that ends: the text behind a number starts with none of the
characters that could continue the number, and behind a padded value stands a mark or
nothing. So the value that a text denotes is the one that is read, and no text denotes
two values.
-/

set_option autoImplicit false

namespace Highlighter.Json

def skip (cs : List Char) : List Char := cs.dropWhile isBlank

def readDigits (cs : List Char) : Option (List Char × List Char) :=
  if (cs.takeWhile Char.isDigit).isEmpty then none
  else some (cs.takeWhile Char.isDigit, cs.dropWhile Char.isDigit)

def readSign (signs : List Char) : List Char → List Char × List Char
  | [] => ([], [])
  | c :: cs => if c ∈ signs then ([c], cs) else ([], c :: cs)

def readFraction : List Char → Option (List Char × List Char)
  | [] => some ([], [])
  | c :: cs => if c = '.' then readDigits cs else some ([], c :: cs)

def readExponent : List Char → Option (Int × List Char)
  | [] => some (0, [])
  | c :: cs =>
    if c = 'e' ∨ c = 'E' then
      let (sign, cs) := readSign ['+', '-'] cs
      (readDigits cs).map fun (ds, rest) => (signed (sign == ['-']) (decimal ds), rest)
    else some (0, c :: cs)

def readNumber (cs : List Char) : Option (Rat × List Char) := do
  let (sign, cs) := readSign ['-'] cs
  let (whole, cs) ← readDigits cs
  if whole.head? = some '0' ∧ whole ≠ ['0'] then none
  else
    let (places, cs) ← readFraction cs
    let (power, cs) ← readExponent cs
    return (scaled (sign == ['-']) (whole ++ places) (power - places.length), cs)

def readUnit : List Char → Option (Nat × List Char)
  | a :: b :: c :: d :: rest => (unit? a b c d).map fun n => (n, rest)
  | _ => none

instance (n : Nat) : Decidable (IsSurrogate n) := inferInstanceAs (Decidable (_ ∧ _))

instance (high low : Nat) : Decidable (IsPair high low) := inferInstanceAs (Decidable (_ ∧ _))

def readNumbered (cs : List Char) : Option (Char × List Char) := do
  let (n, cs) ← readUnit cs
  if IsSurrogate n then
    match cs with
    | '\\' :: 'u' :: cs =>
      let (low, cs) ← readUnit cs
      if IsPair n low then some (paired n low, cs) else none
    | _ => none
  else some (Char.ofNat n, cs)

def readLetter : List Char → Option (Char × List Char)
  | [] => none
  | [c] => if c.toNat < 0x20 ∨ c = '"' ∨ c = '\\' then none else some (c, [])
  | c :: letter :: cs =>
    if c = '\\' then
      if letter = 'u' then readNumbered cs
      else (escapes.lookup letter).map fun x => (x, cs)
    else if c.toNat < 0x20 ∨ c = '"' then none
    else some (c, letter :: cs)

def readLetters : Nat → List Char → Option (List Char × List Char)
  | 0, _ => none
  | _ + 1, [] => none
  | n + 1, c :: cs =>
    if c = '"' then some ([], cs)
    else do
      let (x, cs) ← readLetter (c :: cs)
      let (xs, cs) ← readLetters n cs
      return (x :: xs, cs)

def readQuoted : List Char → Option (String × List Char)
  | [] => none
  | c :: cs =>
    if c = '"' then (readLetters (cs.length + 1) cs).map fun (xs, rest) => (String.ofList xs, rest)
    else none

section Parts

variable {α : Type}

def readPadded (read : List Char → Option (α × List Char)) (cs : List Char) :
    Option (α × List Char) :=
  (read (skip cs)).map fun (a, rest) => (a, skip rest)

def readListed (right : Char) (read : List Char → Option (α × List Char)) :
    Nat → List Char → Option (List α × List Char)
  | 0, _ => none
  | n + 1, cs => do
    let (a, cs) ← read cs
    match cs with
    | [] => none
    | c :: cs =>
      if c = right then some ([a], cs)
      else if c = ',' then (readListed right read n cs).map fun (as, rest) => (a :: as, rest)
      else none

def readEnclosed (right : Char) (read : List Char → Option (α × List Char)) (cs : List Char) :
    Option (List α × List Char) :=
  match skip cs with
  | [] => none
  | c :: rest => if c = right then some ([], rest) else readListed right read (cs.length + 1) cs

end Parts

def readMember (read : List Char → Option (Value × List Char)) (cs : List Char) :
    Option ((String × Value) × List Char) := do
  let (k, cs) ← readPadded readQuoted cs
  match cs with
  | [] => none
  | c :: cs =>
    if c = ':' then (readPadded read cs).map fun (v, rest) => ((k, v), rest) else none

def readWord (cs : List Char) : Option (Value × List Char) :=
  (words.find? fun w => w.1.isPrefixOf cs).map fun w => (w.2, cs.drop w.1.length)

def readValue : Nat → List Char → Option (Value × List Char)
  | 0, _ => none
  | _ + 1, [] => none
  | n + 1, c :: cs =>
    if c = '"' then (readQuoted (c :: cs)).map fun (s, rest) => (.string s, rest)
    else if c = '[' then
      (readEnclosed ']' (readPadded (readValue n)) cs).map fun (vs, rest) => (.array vs, rest)
    else if c = '\x7b' then
      (readEnclosed '\x7d' (readMember (readValue n)) cs).map fun (ms, rest) => (.object ms, rest)
    else if c = '-' ∨ c.isDigit then
      (readNumber (c :: cs)).map fun (q, rest) => (.number q, rest)
    else readWord (c :: cs)

def read (text : List Char) : Option Value :=
  match readPadded (readValue (text.length + 1)) text with
  | some (v, []) => some v
  | _ => none

/-! ## What may stand behind -/

variable {rest : List Char}

def Stops (rest : List Char) : Prop :=
  ∀ c ∈ rest.head?, c.isDigit = false ∧ c ≠ '.' ∧ c ≠ 'e' ∧ c ≠ 'E'

def marks : List Char := [',', ':', ']', '\x7d']

def Closed (rest : List Char) : Prop := ∀ c ∈ rest.head?, c ∈ marks

theorem closed_cons {c : Char} (h : c ∈ marks) (rest : List Char) :
    Closed (c :: rest) := by
  rintro x ⟨⟩
  exact h

theorem Closed.head_not_blank (h : Closed rest) : ∀ c ∈ rest.head?, isBlank c = false := by
  intro c hc
  have hall : ∀ x ∈ marks, isBlank x = false := by simp [marks, isBlank]
  exact hall c (h c hc)

theorem skip_append {before cs : List Char} (h : Blank before)
    (hc : ∀ c ∈ cs.head?, isBlank c = false) : skip (before ++ cs) = cs :=
  (Text.span_append h hc).2

/-- Behind a value stand blanks and then a mark. -/
theorem Closed.stops {after : List Char} (h : Closed rest) (ha : Blank after) :
    Stops (after ++ rest) := by
  have hblank : ∀ x : Char, isBlank x = true →
      x.isDigit = false ∧ x ≠ '.' ∧ x ≠ 'e' ∧ x ≠ 'E' := by
    intro x hx
    simp only [isBlank, Bool.or_eq_true, beq_iff_eq] at hx
    rcases hx with ((rfl | rfl) | rfl) | rfl <;> decide
  have hmark : ∀ x ∈ marks,
      x.isDigit = false ∧ x ≠ '.' ∧ x ≠ 'e' ∧ x ≠ 'E' := by simp [marks]
  cases after with
  | nil => exact fun c hc => hmark c (h c hc)
  | cons a after =>
    rintro c ⟨⟩
    exact hblank _ (ha _ List.mem_cons_self)

/-! ## Numbers -/

theorem readDigits_append (ds : Digits) (h : ∀ c ∈ rest.head?, c.isDigit = false) :
    readDigits (ds.chars ++ rest) = some (ds.chars, rest) := by
  obtain ⟨ht, hd⟩ := Text.span_append ds.decimal h
  rw [readDigits, ht, hd, List.isEmpty_eq_false_iff.mpr ds.nonempty]
  rfl

theorem Digits.head (ds : Digits) : ∃ d cs, ds.chars = d :: cs ∧ d.isDigit = true := by
  obtain ⟨d, cs, hds⟩ := List.exists_cons_of_ne_nil ds.nonempty
  exact ⟨d, cs, hds, ds.decimal d (by rw [hds]; exact List.mem_cons_self)⟩

theorem Digits.not_sign (ds : Digits) {signs : List Char} (h : ∀ c ∈ signs, c.isDigit = false) :
    ∀ c ∈ (ds.chars ++ rest).head?, c ∉ signs := by
  obtain ⟨d, cs, hds, hd⟩ := ds.head
  rw [hds]
  rintro c ⟨⟩ hc
  rw [h d hc] at hd
  cases hd

theorem readSign_append {signs sign cs : List Char} (hs : sign = [] ∨ ∃ c ∈ signs, sign = [c])
    (hc : ∀ c ∈ cs.head?, c ∉ signs) : readSign signs (sign ++ cs) = (sign, cs) := by
  rcases hs with rfl | ⟨c, hmem, rfl⟩
  · cases cs with
    | nil => rfl
    | cons c cs => exact if_neg (hc c rfl)
  · exact if_pos hmem

theorem readExponent_append (e : Option Exponent) (h : Stops rest) :
    readExponent ((e.map Exponent.text).getD [] ++ rest) =
      some ((e.map Exponent.value).getD 0, rest) := by
  cases e with
  | none =>
    cases rest with
    | nil => rfl
    | cons c rest =>
      obtain ⟨_, _, he, hE⟩ := h c rfl
      exact if_neg (not_or.mpr ⟨he, hE⟩)
  | some e =>
    have hsign : e.sign = [] ∨ ∃ c ∈ ['+', '-'], e.sign = [c] := by simpa using e.sign_eq
    have hdigits := readDigits_append e.digits fun c hc => (h c hc).1
    simp only [Option.map_some, Option.getD_some, Exponent.text, List.cons_append, readExponent,
      if_pos e.mark_eq, List.append_assoc]
    rw [readSign_append hsign (e.digits.not_sign (by simp)), hdigits]
    rfl

/-- Neither an exponent nor what stops a number begins with a digit or a point. -/
theorem exponent_head (e : Option Exponent) (h : Stops rest) :
    ∀ c ∈ ((e.map Exponent.text).getD [] ++ rest).head?, c.isDigit = false ∧ c ≠ '.' := by
  cases e with
  | none => exact fun c hc => ⟨(h c hc).1, (h c hc).2.1⟩
  | some e =>
    rintro c ⟨⟩
    rcases e.mark_eq with hm | hm <;> rw [hm] <;> decide

theorem readFraction_append (f : Option Digits)
    (h : ∀ c ∈ rest.head?, c.isDigit = false ∧ c ≠ '.') :
    readFraction ((f.map fun ds => '.' :: ds.chars).getD [] ++ rest) =
      some ((f.map Digits.chars).getD [], rest) := by
  cases f with
  | none =>
    cases rest with
    | nil => rfl
    | cons c rest => exact if_neg (h c rfl).2
  | some ds => exact readDigits_append ds fun c hc => (h c hc).1

/-- A fraction begins with a point, so the digits before it end there. -/
theorem fraction_head (f : Option Digits) (h : ∀ c ∈ rest.head?, c.isDigit = false ∧ c ≠ '.') :
    ∀ c ∈ ((f.map fun ds => '.' :: ds.chars).getD [] ++ rest).head?, c.isDigit = false := by
  cases f with
  | none => exact fun c hc => (h c hc).1
  | some ds =>
    rintro c ⟨⟩
    decide

theorem readNumber_append (n : Numeral) (h : Stops rest) :
    readNumber (n.text ++ rest) = some (n.value, rest) := by
  have hexponent := exponent_head n.exponent h
  have hwhole := readDigits_append n.whole (fraction_head n.fraction hexponent)
  have hsign : (if n.negative then ['-'] else []) = [] ∨
      ∃ c ∈ ['-'], (if n.negative then ['-'] else []) = [c] := by
    cases n.negative <;> simp
  have hnegative : ((if n.negative then ['-'] else []) == ['-']) = n.negative := by
    cases n.negative <;> rfl
  have hzero : ¬ (n.whole.chars.head? = some '0' ∧ n.whole.chars ≠ ['0']) :=
    fun hz => hz.2 (n.whole_eq hz.1)
  rw [Numeral.text, List.append_assoc, List.append_assoc, List.append_assoc, readNumber,
    readSign_append hsign (n.whole.not_sign (by simp))]
  simp only [hwhole, Option.bind_eq_bind, Option.bind_some, if_neg hzero, hnegative,
    readFraction_append n.fraction hexponent, readExponent_append n.exponent h]
  rfl

/-! ## Strings -/

theorem Letter.head {xs : List Char} {c : Char} (h : Letter xs c) :
    ∃ d ds, xs = d :: ds ∧ d ≠ '"' := by
  cases h with
  | plain _ hquote _ => exact ⟨c, [], rfl, hquote⟩
  | named _ => exact ⟨_, _, rfl, by decide⟩
  | unit _ _ => exact ⟨_, _, rfl, by decide⟩
  | pair _ _ _ => exact ⟨_, _, rfl, by decide⟩

theorem readLetter_append {xs : List Char} {c : Char} (h : Letter xs c) (rest : List Char) :
    readLetter (xs ++ rest) = some (c, rest) := by
  cases h with
  | plain hlow hquote hbackslash =>
    have hlow' : ¬ c.toNat < 0x20 := Nat.not_lt.mpr hlow
    cases rest <;> simp [readLetter, hlow', hquote, hbackslash]
  | @named letter c hc =>
    have hletter : letter ≠ 'u' := by
      rintro rfl
      cases hc
    simp [readLetter, hletter, hc]
  | unit hn hs => simp [readLetter, readNumbered, readUnit, hn, hs]
  | pair hhigh hlow hp =>
    have hs : IsSurrogate _ := ⟨hp.1.1, by have := hp.1.2; omega⟩
    simp [readLetter, readNumbered, readUnit, hhigh, hlow, hp, hs]

theorem readLetters_append {xs cs : List Char} (h : Letters xs cs) {n : Nat}
    (hn : cs.length < n) (rest : List Char) :
    readLetters n (xs ++ '"' :: rest) = some (cs, rest) := by
  induction h generalizing n with
  | nil =>
    obtain ⟨n, rfl⟩ := Nat.exists_eq_add_one_of_ne_zero (Nat.ne_of_gt hn)
    rfl
  | @cons xs ys cs c hc _ ih =>
    obtain ⟨n, rfl⟩ := Nat.exists_eq_add_one_of_ne_zero (Nat.ne_zero_of_lt hn)
    have hrest := ih (Nat.lt_of_succ_lt_succ hn)
    have hletter := readLetter_append hc (ys ++ '"' :: rest)
    obtain ⟨d, ds, rfl, hd⟩ := hc.head
    rw [List.append_assoc, List.cons_append, readLetters, if_neg hd, ← List.cons_append, hletter]
    simp [hrest]

theorem Letters.length_le {xs cs : List Char} (h : Letters xs cs) : cs.length ≤ xs.length := by
  induction h with
  | nil => exact Nat.le_refl _
  | cons hc _ ih =>
    obtain ⟨d, ds, rfl, _⟩ := hc.head
    simp only [List.length_cons, List.length_append] at ih ⊢
    omega

theorem readQuoted_append {xs : List Char} {s : String} (h : Quoted xs s) (rest : List Char) :
    readQuoted (xs ++ rest) = some (s, rest) := by
  cases h with
  | @mk xs s hs =>
    have hlength : s.toList.length < (xs ++ '"' :: rest).length + 1 := by
      have := hs.length_le
      simp only [List.length_append]
      omega
    rw [List.cons_append, List.append_assoc, List.singleton_append, readQuoted, if_pos rfl,
      readLetters_append hs hlength, Option.map_some]
    simp only [String.ofList_toList]

/-! ## Containers -/

def Starts (cs : List Char) : Prop :=
  ∃ c rest, cs = c :: rest ∧ isBlank c = false ∧ c ∉ marks

theorem Starts.append {cs : List Char} (h : Starts cs) (rest : List Char) :
    Starts (cs ++ rest) := by
  obtain ⟨c, cs, rfl, hc⟩ := h
  exact ⟨c, cs ++ rest, rfl, hc⟩

theorem Starts.head_not_blank {cs : List Char} (h : Starts cs) :
    ∀ c ∈ cs.head?, isBlank c = false := by
  obtain ⟨c, cs, rfl, hc, _⟩ := h
  rintro x ⟨⟩
  exact hc

section Parts

variable {α : Type} {Part Entry : List Char → α → Prop}
  {part entry : List Char → Option (α × List Char)} {xs : List Char} {left right : Char}

def Bare (part : List Char → Option (α × List Char)) (xs : List Char) (a : α) : Prop :=
  Starts xs ∧ ∀ rest, Stops rest → part (xs ++ rest) = some (a, rest)

def Whole (part : List Char → Option (α × List Char)) (xs : List Char) (a : α) : Prop :=
  ∀ rest, Closed rest → Starts (skip (xs ++ rest)) ∧ part (xs ++ rest) = some (a, rest)

theorem whole_padded {a : α} (h : Padded Part xs a)
    (hpart : ∀ ys b, Part ys b → ys.length ≤ xs.length → Bare part ys b) :
    Whole (readPadded part) xs a := by
  cases h with
  | @mk before ys after a hbefore hys hafter =>
    intro rest hrest
    obtain ⟨hstarts, hread⟩ := hpart ys a hys (by simp only [List.length_append]; omega)
    have hfront : skip (before ++ (ys ++ (after ++ rest))) = ys ++ (after ++ rest) :=
      skip_append hbefore (hstarts.append _).head_not_blank
    have hback : skip (after ++ rest) = rest := skip_append hafter hrest.head_not_blank
    rw [List.append_assoc, List.append_assoc, readPadded, hfront, hread _ (hrest.stops hafter)]
    exact ⟨hstarts.append _, by simp only [Option.map_some, hback]⟩

theorem comma_mem : ',' ∈ marks := by decide

theorem right_mem (h : right = ']' ∨ right = '\x7d') : right ∈ marks := by
  rcases h with rfl | rfl <;> decide

theorem readListed_append {as : List α} (h : Listed Entry xs as)
    (hentry : ∀ ys a, Entry ys a → ys.length ≤ xs.length → Whole entry ys a)
    (hright : right = ']' ∨ right = '\x7d') {n : Nat} (hn : as.length ≤ n) (rest : List Char) :
    readListed right entry n (xs ++ right :: rest) = some (as, rest) := by
  induction h generalizing n with
  | @last xs a ha =>
    obtain ⟨n, rfl⟩ := Nat.exists_eq_add_one_of_ne_zero (Nat.ne_of_gt hn)
    obtain ⟨_, hread⟩ := hentry xs a ha (Nat.le_refl _) _ (closed_cons (right_mem hright) rest)
    rw [readListed, hread]
    simp
  | @more xs ys a as ha _ ih =>
    obtain ⟨n, rfl⟩ := Nat.exists_eq_add_one_of_ne_zero (Nat.ne_zero_of_lt hn)
    have hcomma : ',' ≠ right := by rcases hright with rfl | rfl <;> decide
    have hys : readListed right entry n (ys ++ right :: rest) = some (as, rest) := by
      refine ih (fun zs b hb hle => hentry zs b hb ?_) (Nat.le_of_succ_le_succ hn)
      simp only [List.length_append, List.length_cons]
      omega
    obtain ⟨_, hread⟩ := hentry xs a ha (by simp) _
      (closed_cons comma_mem (ys ++ right :: rest))
    rw [List.append_assoc, List.cons_append, readListed, hread]
    simp [hcomma, hys]

theorem Listed.length_le {as : List α} (h : Listed Entry xs as) : as.length ≤ xs.length + 1 := by
  induction h with
  | last _ => exact Nat.le_add_left _ _
  | more _ _ ih =>
    simp only [List.length_append, List.length_cons]
    omega

theorem Listed.starts {as : List α} (h : Listed Entry xs as)
    (hentry : ∀ ys a, Entry ys a → ys.length ≤ xs.length → Whole entry ys a) {rest : List Char}
    (hrest : Closed rest) : Starts (skip (xs ++ rest)) := by
  cases h with
  | last ha => exact (hentry _ _ ha (Nat.le_refl _) rest hrest).1
  | @more xs ys a as ha _ =>
    rw [List.append_assoc, List.cons_append]
    exact (hentry xs a ha (by simp) _ (closed_cons comma_mem _)).1

theorem readEnclosed_append {as : List α} (h : Enclosed left right Entry xs as)
    (hentry : ∀ ys a, Entry ys a → ys.length < xs.length → Whole entry ys a)
    (hright : right = ']' ∨ right = '\x7d') :
    ∃ ys, xs = left :: ys ∧ ∀ rest, readEnclosed right entry (ys ++ rest) = some (as, rest) := by
  have hmark := right_mem hright
  cases h with
  | @empty ys hys =>
    refine ⟨_, rfl, fun rest => ?_⟩
    have hclosed : Closed (right :: rest) := closed_cons hmark rest
    rw [List.append_assoc, List.singleton_append, readEnclosed,
      skip_append hys hclosed.head_not_blank]
    exact if_pos rfl
  | @full ys as hys =>
    refine ⟨_, rfl, fun rest => ?_⟩
    have hlisted : ∀ zs a, Entry zs a → zs.length ≤ ys.length → Whole entry zs a := by
      intro zs a ha hle
      refine hentry zs a ha ?_
      simp only [List.length_cons, List.length_append]
      omega
    have hn : as.length ≤ (ys ++ right :: rest).length + 1 := by
      have := hys.length_le
      simp only [List.length_append]
      omega
    obtain ⟨c, cs, hskip, _, hc⟩ := hys.starts hlisted (closed_cons hmark rest)
    have hne : c ≠ right := by
      rintro rfl
      exact hc hmark
    rw [List.append_assoc, List.singleton_append, readEnclosed, hskip]
    dsimp only
    rw [if_neg hne, readListed_append hys hlisted hright hn]

end Parts

theorem bare_quoted {xs : List Char} {s : String} (h : Quoted xs s) : Bare readQuoted xs s := by
  refine ⟨?_, fun rest _ => readQuoted_append h rest⟩
  cases h with
  | mk _ => exact ⟨'"', _, rfl, by decide, by decide⟩

theorem whole_member {Part : List Char → Value → Prop} {part : List Char → Option (Value × List Char)}
    {xs : List Char} {m : String × Value} (h : Member Part xs m)
    (hpart : ∀ ys v, Part ys v → ys.length ≤ xs.length → Bare part ys v) :
    Whole (readMember part) xs m := by
  cases h with
  | @mk us ys k v hk hv =>
    intro rest hrest
    have hkey := whole_padded hk fun _ _ hs _ => bare_quoted hs
    have hvalue : Whole (readPadded part) ys v := by
      refine whole_padded hv fun zs w hw hle => hpart zs w hw ?_
      simp only [List.length_append, List.length_cons]
      omega
    obtain ⟨hstarts, hread⟩ := hkey (':' :: (ys ++ rest)) (closed_cons (by decide) _)
    obtain ⟨_, hread'⟩ := hvalue rest hrest
    rw [List.append_assoc, List.cons_append, readMember, hread]
    refine ⟨hstarts, ?_⟩
    simp [hread']

/-! ## Values -/

theorem Numeral.head (n : Numeral) : ∃ c cs, n.text = c :: cs ∧ (c = '-' ∨ c.isDigit = true) := by
  obtain ⟨d, ds, hds, hd⟩ := n.whole.head
  rw [Numeral.text, hds]
  cases n.negative with
  | true => exact ⟨'-', _, rfl, .inl rfl⟩
  | false => exact ⟨d, _, rfl, .inr hd⟩

theorem Enclosed.head {α : Type} {left right : Char} {Entry : List Char → α → Prop}
    {xs : List Char} {as : List α} (h : Enclosed left right Entry xs as) :
    ∃ ys, xs = left :: ys := by
  cases h with
  | empty _ => exact ⟨_, rfl⟩
  | full _ => exact ⟨_, rfl⟩

/-- A number begins with nothing that another part begins with. -/
theorem first_of_number {c : Char} (h : c = '-' ∨ c.isDigit = true) :
    (c ≠ '"' ∧ c ≠ '[' ∧ c ≠ '\x7b') ∧ isBlank c = false ∧ c ∉ marks := by
  have hother : ∀ x ∈ ['"', '[', '\x7b', ' ', '\t', '\n', '\r'] ++ marks,
      x ≠ '-' ∧ x.isDigit = false := by simp [marks]
  have hc : c ∉ ['"', '[', '\x7b', ' ', '\t', '\n', '\r'] ++ marks := by
    intro hmem
    obtain ⟨hminus, hdigit⟩ := hother c hmem
    rw [hdigit] at h
    exact h.elim hminus Bool.false_ne_true
  simp only [List.mem_append, List.mem_cons, List.not_mem_nil, or_false, not_or] at hc
  obtain ⟨⟨hquote, hbracket, hbrace, hblanks⟩, hmark⟩ := hc
  refine ⟨⟨hquote, hbracket, hbrace⟩, ?_, hmark⟩
  simp [isBlank, hblanks]

theorem Spells.starts {xs : List Char} {v : Value} (h : Spells xs v) : Starts xs := by
  cases h with
  | word hw =>
    simp only [words, List.mem_cons, Prod.mk.injEq, List.not_mem_nil, or_false] at hw
    rcases hw with ⟨rfl, _⟩ | ⟨rfl, _⟩ | ⟨rfl, _⟩ <;> exact ⟨_, _, rfl, by decide, by decide⟩
  | number n =>
    obtain ⟨c, cs, hn, hc⟩ := n.head
    exact ⟨c, cs, hn, (first_of_number hc).2⟩
  | string hs => exact (bare_quoted hs).1
  | array ha =>
    obtain ⟨ys, rfl⟩ := ha.head
    exact ⟨_, _, rfl, by decide, by decide⟩
  | object ho =>
    obtain ⟨ys, rfl⟩ := ho.head
    exact ⟨_, _, rfl, by decide, by decide⟩

/-- Every value is shorter than the container that it stands in, so the length of the
text is depth enough. -/
theorem readValue_append {n : Nat} {xs : List Char} {v : Value} (h : Spells xs v)
    (hn : xs.length < n) {rest : List Char} (hr : Stops rest) :
    readValue n (xs ++ rest) = some (v, rest) := by
  induction n generalizing xs v rest with
  | zero => exact absurd hn (Nat.not_lt_zero _)
  | succ n ih =>
    have hinner : ∀ ys w, Spells ys w → ys.length < xs.length → Bare (readValue n) ys w :=
      fun ys w hw hlt => ⟨hw.starts, fun after ha => ih hw (by omega) ha⟩
    cases h with
    | word hw =>
      simp only [words, List.mem_cons, Prod.mk.injEq, List.not_mem_nil, or_false] at hw
      rcases hw with ⟨rfl, rfl⟩ | ⟨rfl, rfl⟩ | ⟨rfl, rfl⟩ <;> rfl
    | number m =>
      obtain ⟨c, cs, hc, hfirst⟩ := m.head
      obtain ⟨⟨hquote, hbracket, hbrace⟩, _⟩ := first_of_number hfirst
      have hread := readNumber_append m hr
      rw [hc, List.cons_append] at hread ⊢
      rw [readValue, if_neg hquote, if_neg hbracket, if_neg hbrace, if_pos hfirst, hread]
      rfl
    | @string _ s hs =>
      have hread := readQuoted_append hs rest
      cases hs with
      | mk _ =>
        rw [List.cons_append] at hread ⊢
        rw [readValue, if_pos rfl, hread]
        rfl
    | @array _ items ha =>
      have hitem : ∀ ys w, Padded Spells ys w → ys.length < xs.length →
          Whole (readPadded (readValue n)) ys w :=
        fun ys w hw hlt => whole_padded hw fun zs u hu hle => hinner zs u hu (by omega)
      obtain ⟨ys, rfl, hread⟩ := readEnclosed_append ha hitem (.inl rfl)
      rw [List.cons_append, readValue, if_neg (by decide), if_pos rfl, hread]
      rfl
    | @object _ members ho =>
      have hmember : ∀ ys m, Member Spells ys m → ys.length < xs.length →
          Whole (readMember (readValue n)) ys m :=
        fun ys m hm hlt => whole_member hm fun zs u hu hle => hinner zs u hu (by omega)
      obtain ⟨ys, rfl, hread⟩ := readEnclosed_append ho hmember (.inr rfl)
      rw [List.cons_append, readValue, if_neg (by decide), if_neg (by decide), if_pos rfl, hread]
      rfl

/-- The reader gives the value that a text denotes. -/
theorem Denotes.read {text : List Char} {v : Value} (h : Denotes text v) :
    read text = some v := by
  have hvalue : Whole (readPadded (readValue (text.length + 1))) text v :=
    whole_padded h fun _ _ hs hle =>
      ⟨hs.starts, fun _ hr => readValue_append hs (Nat.lt_succ_of_le hle) hr⟩
  obtain ⟨_, hread⟩ := hvalue [] (by rintro c ⟨⟩)
  rw [List.append_nil] at hread
  rw [Json.read, hread]

theorem Denotes.unique {text : List Char} {v w : Value} (h : Denotes text v)
    (k : Denotes text w) : v = w := Option.some.inj (h.read.symm.trans k.read)

/-- Half a surrogate pair stands for no character. -/
example (v : Value) : ¬ Denotes "\"\\ud83d\"".toList v := by
  have hread : (read "\"\\ud83d\"".toList).isNone = true := by decide
  intro h
  rw [h.read] at hread
  cases hread

end Highlighter.Json
