import Highlighter.Proofs.Locations
import Highlighter.Proofs.Text.Quoting
import Highlighter.Proofs.Tiling
import Highlighter.Report

/-!
# The text form can be read back

The text form has a line for each token, and each line has four fields between
tabs: neither a tab nor a newline is left raw in any of them. From the lines the
place, the category and the text of each token are read back. So what was printed
for two texts of which nothing was left out is the same only if the texts are.
-/

set_option autoImplicit false

namespace Highlighter

namespace Text

def firstBytes (n : Nat) : List Char → List Char
  | [] => []
  | c :: cs => if c.utf8Size ≤ n then c :: firstBytes (n - c.utf8Size) cs else []

theorem firstBytes_append (xs ys : List Char) : firstBytes (bytes xs) (xs ++ ys) = xs := by
  induction xs with
  | nil =>
    cases ys with
    | nil => rfl
    | cons y ys => exact if_neg (Nat.not_le.mpr y.utf8Size_pos)
  | cons x xs ih =>
    rw [List.cons_append, firstBytes, bytes, if_pos (Nat.le_add_right _ _),
      Nat.add_sub_cancel_left, ih]

end Text

namespace Place

variable {p q r : Place}

def ofOffset (source : String) (n : Nat) : Place := behind (Text.firstBytes n source.toList)

theorem ofOffset_cut {source before after : String} {n : Nat} (hs : source = before ++ after)
    (hn : n = before.utf8ByteSize) : ofOffset source n = behind before.toList := by
  rw [ofOffset, hs, hn, String.toList_append, Text.utf8ByteSize_eq, Text.firstBytes_append]

def Before (p q : Place) : Prop := p.line < q.line ∨ p.line = q.line ∧ p.column < q.column

theorem Before.trans (h : p.Before q) (k : q.Before r) : p.Before r := by
  unfold Before at *
  omega

theorem before_past (p : Place) (c : Char) : p.Before (p.past c) := by
  unfold Before past
  split <;> simp

theorem before_behind {xs ys : List Char} (h : ys ≠ []) :
    (behind xs).Before (behind (xs ++ ys)) := by
  induction ys using List.reverseRecOn with
  | nil => exact absurd rfl h
  | append_singleton ys y ih =>
    rw [← List.append_assoc, behind_concat]
    by_cases hy : ys = []
    · rw [hy, List.append_nil]
      exact before_past _ y
    · exact (ih hy).trans (before_past _ y)

theorem before_ofOffset {source : String} {n m : Nat} (hn : Text.Boundary source n)
    (hm : Text.Boundary source m) (h : n < m) : (ofOffset source n).Before (ofOffset source m) := by
  obtain ⟨front, after, hs, rfl⟩ := hn
  obtain ⟨longer, rest, hs', rfl⟩ := hm
  rw [ofOffset_cut hs rfl, ofOffset_cut hs' rfl]
  rw [Text.utf8ByteSize_eq, Text.utf8ByteSize_eq] at h
  rcases List.append_eq_append_iff.mp (Text.toList_cuts hs hs') with ⟨ys, hy, _⟩ | ⟨ys, hy, _⟩
  · rw [hy]
    apply before_behind
    rintro rfl
    rw [hy, List.append_nil] at h
    exact Nat.lt_irrefl _ h
  · rw [hy, Text.bytes_append] at h
    omega

end Place

namespace Report

structure Row where
  place : Place
  category : Category
  text : String
  deriving DecidableEq, Repr

def Row.ofToken (source : String) (t : Token) : Row :=
  ⟨.ofOffset source t.span.start, t.category, t.text⟩

def readPlace (cs : List Char) : Option Place :=
  match cs.splitOn ':' with
  | [line, column] => do
    let n ← Text.numeral? 10 line
    let m ← Text.numeral? 10 column
    return ⟨n, m⟩
  | _ => none

def category? (label style : List Char) : Option Category :=
  Category.all.find? fun k => k.label.toList == label && k.styleClass.toList == style

def readRow (cs : List Char) : Option Row :=
  match cs.splitOn '\t' with
  | [place, label, style, quoted] => do
    let p ← readPlace place
    let k ← category? label style
    let text ← Text.unquote quoted
    return ⟨p, k, String.ofList text⟩
  | _ => none

def read (printed : String) : Option (List Row) :=
  (Text.lines printed.toList).mapM fun l => readRow l.dropLast

def placeField (p : Place) : List Char :=
  [':'].intercalate [Nat.toDigits 10 p.line, Nat.toDigits 10 p.column]

def fields (p : Place) (t : Token) : List (List Char) :=
  [placeField p, t.category.label.toList, t.category.styleClass.toList,
    Text.quotedWith '"' t.text.toList]

def row (p : Place) (t : Token) : List Char := ['\t'].intercalate (fields p t)

theorem toList_line (p : Place) (t : Token) : (line p t).toList = row p t ++ ['\n'] := by
  simp [line, row, fields, placeField, List.intercalate, Text.quote]

theorem readPlace_placeField (p : Place) : readPlace (placeField p) = some p := by
  have hcolon : ∀ n, ':' ∉ Nat.toDigits 10 n := fun n =>
    Text.not_mem_toDigits (by decide) (by decide) (by decide)
  rw [readPlace, placeField, List.splitOn_intercalate ':' (by simp [hcolon]) (by simp)]
  simp only [Text.numeral_toDigits (show 1 < 10 by decide) (show 10 ≤ 16 by decide)]
  rfl

theorem category_label (k : Category) : category? k.label.toList k.styleClass.toList = some k := by
  cases k <;> rfl

theorem isField_placeField (p : Place) : Text.IsField (placeField p) := by
  have hdigits := Text.isField_toDigits (show 1 < 10 by decide) (show 10 ≤ 16 by decide)
  have hcolon : Text.IsField [':'] := by decide
  rw [placeField, List.intercalate_cons_cons, List.intercalate_singleton]
  exact ((hdigits _).append hcolon).append (hdigits _)

theorem isField_names (k : Category) :
    Text.IsField k.label.toList ∧ Text.IsField k.styleClass.toList := by
  cases k <;> decide

theorem isField_fields (p : Place) (t : Token) : ∀ f ∈ fields p t, Text.IsField f := by
  simp only [fields, List.forall_mem_cons]
  exact ⟨isField_placeField p, (isField_names _).1, (isField_names _).2,
    Text.isField_quotedWith _, by simp⟩

theorem readRow_row (p : Place) (t : Token) : readRow (row p t) = some ⟨p, t.category, t.text⟩ := by
  have htab : ∀ f ∈ fields p t, '\t' ∉ f := fun f hf => (isField_fields p t f hf).1
  rw [readRow, row, List.splitOn_intercalate '\t' htab (by simp [fields])]
  simp only [fields, readPlace_placeField, category_label, Text.unquote_quoted]
  simp

/-- Between the fields stand as many marks as there are fields, less one. -/
theorem count_intercalate {mark c : Char} {fs : List (List Char)} (h : ∀ f ∈ fs, c ∉ f) :
    ([mark].intercalate fs).count c = if mark = c then fs.length - 1 else 0 := by
  induction fs with
  | nil => simp
  | cons f fs ih =>
    obtain ⟨hf, hfs⟩ := List.forall_mem_cons.mp h
    cases fs with
    | nil => simp [List.count_eq_zero.mpr hf]
    | cons k ks =>
      rw [List.intercalate_cons_cons, List.count_append, List.count_append, ih hfs,
        List.count_eq_zero.mpr hf, List.count_singleton]
      by_cases hm : mark = c
      · simp [hm, Nat.add_comm]
      · simp [hm]

theorem row_tabs (p : Place) (t : Token) : (row p t).count '\t' = 3 := by
  rw [row, count_intercalate fun f hf => (isField_fields p t f hf).1]
  rfl

theorem row_newline (p : Place) (t : Token) : '\n' ∉ row p t := by
  rw [← List.count_eq_zero, row, count_intercalate fun f hf => (isField_fields p t f hf).2]
  rfl

theorem lines_eq {l : Locator} {source : String} {ts : List Token} (h : l.On source.toList)
    (hb : ∀ t ∈ ts, Text.Boundary source t.span.start) :
    lines l ts = ts.map fun t => line (.ofOffset source t.span.start) t := by
  induction ts generalizing l with
  | nil => rfl
  | cons t ts ih =>
    obtain ⟨⟨before, after, hs, hn⟩, hts⟩ := List.forall_mem_cons.mp hb
    obtain ⟨ha, hon⟩ := h.answers t.span.start
    rw [List.map_cons, Place.ofOffset_cut hs hn, ← ha.eq_behind hs hn, ← ih hon hts]
    rfl

def rowOf (source : String) (t : Token) : List Char := row (.ofOffset source t.span.start) t

variable {source : String} {ts : List Token}

theorem toList_text (hb : ∀ t ∈ ts, Text.Boundary source t.span.start) :
    (text source ts).toList = ((ts.map (rowOf source)).map (· ++ ['\n'])).flatten := by
  have hon : (Locator.onText source).On source.toList := Locator.on_onChars _
  rw [text, lines_eq hon hb, String.toList_join, List.flatMap_map, List.map_map]
  simp only [toList_line]
  rfl

theorem text_lines (hb : ∀ t ∈ ts, Text.Boundary source t.span.start) :
    Text.lines (text source ts).toList = (ts.map (rowOf source)).map (· ++ ['\n']) := by
  rw [toList_text hb]
  apply Text.lines_flatten_map
  intro r hr
  obtain ⟨t, _, rfl⟩ := List.mem_map.mp hr
  exact row_newline _ t

theorem readRow_rowOf (source : String) (t : Token) :
    readRow (rowOf source t ++ ['\n']).dropLast = some (Row.ofToken source t) := by
  rw [List.dropLast_concat]
  exact readRow_row _ t

theorem read_text (hb : ∀ t ∈ ts, Text.Boundary source t.span.start) :
    read (text source ts) = some (ts.map (Row.ofToken source)) := by
  rw [read, text_lines hb]
  clear hb
  induction ts with
  | nil => rfl
  | cons t ts ih =>
    rw [List.map_cons, List.map_cons, List.mapM_cons, readRow_rowOf, ih]
    rfl

structure Shows (source : String) (ts : List Token) (printed : String) : Prop where
  lines : Text.lines printed.toList =
    ts.map fun t => (line (.ofOffset source t.span.start) t).toList
  framed : ∀ l ∈ Text.lines printed.toList, l.count '\n' = 1 ∧ l.count '\t' = 3
  placed : ∀ t ∈ ts, ∃ before after : String, source = before ++ t.text ++ after ∧
    t.span.start = before.utf8ByteSize ∧
    Place.ofOffset source t.span.start = Place.behind before.toList
  increasing : ts.Pairwise fun a b =>
    (Place.ofOffset source a.span.start).Before (.ofOffset source b.span.start)
  read : Report.read printed = some (ts.map (Row.ofToken source))

theorem boundary_of_sliceOf {t : Token} (h : t.SliceOf source) :
    Text.Boundary source t.span.start := by
  obtain ⟨before, after, hs, hstart, _⟩ := h.cut
  exact ⟨before, t.text ++ after, by rw [hs, String.append_assoc], hstart⟩

theorem shows_text (hs : ∀ t ∈ ts, t.SliceOf source)
    (hp : ts.Pairwise fun a b => a.span.start < b.span.start) :
    Shows source ts (text source ts) := by
  have hb : ∀ t ∈ ts, Text.Boundary source t.span.start := fun t ht => boundary_of_sliceOf (hs t ht)
  refine ⟨?_, ?_, ?_, ?_, read_text hb⟩
  · rw [text_lines hb, List.map_map]
    simp only [toList_line]
    rfl
  · rw [text_lines hb, List.map_map]
    intro l hl
    obtain ⟨t, _, rfl⟩ := List.mem_map.mp hl
    dsimp only [Function.comp_apply, rowOf]
    rw [List.count_append, List.count_append, List.count_eq_zero.mpr (row_newline _ t), row_tabs]
    decide
  · intro t ht
    obtain ⟨before, after, hcut, hstart, _⟩ := (hs t ht).cut
    exact ⟨before, after, hcut, hstart,
      Place.ofOffset_cut (hcut.trans (String.append_assoc ..)) hstart⟩
  · exact hp.imp_of_mem fun ha hk hlt => Place.before_ofOffset (hb _ ha) (hb _ hk) hlt

theorem shows_scan (d : Dialect) (keep : Bool) (source : String) :
    Shows source (scan (.ofDialect d) keep source).value.1
      (text source (scan (.ofDialect d) keep source).value.1) := by
  obtain ⟨e, _, hl⟩ := scan_laid d keep source
  exact shows_text (hl.slices (Cursor.reaches_refl _)) (hl.pairwise.imp And.left)

end Report

/-- The text form of a scan has one line for each token, in order, and can be read
back. Where nothing is left out it gives the source back, so it is the text form of
no other source. -/
theorem text_shows (d : Dialect) (keep : Bool) (source : String) :
    let tokens := (scan (.ofDialect d) keep source).value.1
    Report.Shows source tokens (Report.text source tokens) ∧
      (keep = true → String.join (tokens.map Token.text) = source ∧
        ∀ (d' : Dialect) (other : String),
          Report.text other (scan (.ofDialect d') true other).value.1 =
            Report.text source tokens → other = source) := by
  intro tokens
  have hshows := Report.shows_scan d keep source
  refine ⟨hshows, ?_⟩
  rintro rfl
  refine ⟨scan_concat d source, fun d' other heq => ?_⟩
  have hother := (Report.shows_scan d' true other).read
  rw [heq, hshows.read] at hother
  have htexts := congrArg (List.map Report.Row.text) (Option.some.inj hother)
  rw [List.map_map, List.map_map] at htexts
  rw [← scan_concat d source, ← scan_concat d' other]
  exact congrArg String.join htexts.symm

/-- A wide character, and everything that has to be escaped in a line. -/
theorem text_shows_escapes :
    let source := "あ\t\n\"\\"
    let tokens := (scan (.ofDialect .current) true source).value.1
    let printed := "1:1\tError\terr\t\"あ\"\n1:2\tError\terr\t\"\\t\"\n" ++
      "1:3\tError\terr\t\"\\n\"\n2:1\tError\terr\t\"\\\"\"\n2:2\tError\terr\t\"\\\\\"\n"
    Report.text source tokens = printed ∧ Report.Shows source tokens printed ∧
      String.join (tokens.map Token.text) = source ∧
      ∀ (d' : Dialect) (other : String),
        Report.text other (scan (.ofDialect d') true other).value.1 = printed → other = source := by
  intro source tokens printed
  have hprinted : Report.text source tokens = printed := by decide +kernel
  obtain ⟨hshows, hwhole⟩ := text_shows .current true source
  obtain ⟨hjoin, hother⟩ := hwhole rfl
  rw [← hprinted]
  exact ⟨rfl, hshows, hjoin, hother⟩

end Highlighter
