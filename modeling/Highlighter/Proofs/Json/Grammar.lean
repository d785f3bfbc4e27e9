import Highlighter.Json
import Highlighter.Proofs.Text.Numerals

/-!
# The grammar of JSON

The texts that the standard allows, with the value that each of them denotes: blanks
around values and marks, the three words, numbers with a fraction and an exponent,
strings with all their escapes, arrays and objects. A number denotes the rational
number that it writes, so two spellings of one number have the same value. An escape
for half a surrogate pair stands for no character, so only whole pairs are allowed.
-/

set_option autoImplicit false

namespace Highlighter.Json

inductive Value where
  | null
  | boolean (b : Bool)
  | number (q : Rat)
  | string (s : String)
  | array (items : List Value)
  | object (members : List (String × Value))

def isBlank (c : Char) : Bool := c == ' ' || c == '\t' || c == '\n' || c == '\r'

def Blank (cs : List Char) : Prop := ∀ c ∈ cs, isBlank c = true

def words : List (List Char × Value) :=
  [(['n', 'u', 'l', 'l'], .null), (['t', 'r', 'u', 'e'], .boolean true),
    (['f', 'a', 'l', 's', 'e'], .boolean false)]

structure Digits where
  chars : List Char
  nonempty : chars ≠ []
  decimal : ∀ c ∈ chars, c.isDigit = true

structure Exponent where
  mark : Char
  sign : List Char
  digits : Digits
  mark_eq : mark = 'e' ∨ mark = 'E'
  sign_eq : sign = [] ∨ sign = ['+'] ∨ sign = ['-']

structure Numeral where
  negative : Bool
  whole : Digits
  fraction : Option Digits
  exponent : Option Exponent
  whole_eq : whole.chars.head? = some '0' → whole.chars = ['0']

def decimal (ds : List Char) : Nat := Nat.ofDigitChars 10 ds 0

def signed (negative : Bool) (n : Nat) : Int := if negative then -n else n

def scaled (negative : Bool) (ds : List Char) (power : Int) : Rat :=
  signed negative (decimal ds) * (10 : Rat) ^ power

def Exponent.text (e : Exponent) : List Char := e.mark :: (e.sign ++ e.digits.chars)

def Exponent.value (e : Exponent) : Int := signed (e.sign == ['-']) (decimal e.digits.chars)

namespace Numeral

def places (n : Numeral) : List Char := (n.fraction.map Digits.chars).getD []

def power (n : Numeral) : Int := (n.exponent.map Exponent.value).getD 0

def text (n : Numeral) : List Char :=
  (if n.negative then ['-'] else []) ++ n.whole.chars ++
    (n.fraction.map fun ds => '.' :: ds.chars).getD [] ++
    (n.exponent.map Exponent.text).getD []

def value (n : Numeral) : Rat :=
  scaled n.negative (n.whole.chars ++ n.places) (n.power - n.places.length)

end Numeral

def escapes : List (Char × Char) :=
  [('"', '"'), ('\\', '\\'), ('/', '/'), ('b', '\x08'), ('f', '\x0c'), ('n', '\n'), ('r', '\r'),
    ('t', '\t')]

def unit? (a b c d : Char) : Option Nat := Text.numeral? 16 ([a, b, c, d].map Char.toLower)

def IsSurrogate (n : Nat) : Prop := 0xD800 ≤ n ∧ n < 0xE000

def IsPair (high low : Nat) : Prop :=
  (0xD800 ≤ high ∧ high < 0xDC00) ∧ 0xDC00 ≤ low ∧ low < 0xE000

def paired (high low : Nat) : Char := Char.ofNat (0x10000 + (high - 0xD800) * 0x400 + (low - 0xDC00))

inductive Letter : List Char → Char → Prop
  | plain {c : Char} : 0x20 ≤ c.toNat → c ≠ '"' → c ≠ '\\' → Letter [c] c
  | named {letter c : Char} : escapes.lookup letter = some c → Letter ['\\', letter] c
  | unit {a b c d : Char} {n : Nat} : unit? a b c d = some n → ¬ IsSurrogate n →
      Letter ['\\', 'u', a, b, c, d] (Char.ofNat n)
  | pair {a b c d e f g h : Char} {high low : Nat} : unit? a b c d = some high →
      unit? e f g h = some low → IsPair high low →
      Letter ['\\', 'u', a, b, c, d, '\\', 'u', e, f, g, h] (paired high low)

inductive Letters : List Char → List Char → Prop
  | nil : Letters [] []
  | cons {xs ys cs : List Char} {c : Char} : Letter xs c → Letters ys cs →
      Letters (xs ++ ys) (c :: cs)

inductive Quoted : List Char → String → Prop
  | mk {xs : List Char} {s : String} : Letters xs s.toList → Quoted ('"' :: (xs ++ ['"'])) s

section Parts

variable {α : Type}

inductive Padded (Part : List Char → α → Prop) : List Char → α → Prop
  | mk {before xs after : List Char} {a : α} : Blank before → Part xs a → Blank after →
      Padded Part (before ++ xs ++ after) a

inductive Listed (Entry : List Char → α → Prop) : List Char → List α → Prop
  | last {xs : List Char} {a : α} : Entry xs a → Listed Entry xs [a]
  | more {xs ys : List Char} {a : α} {as : List α} : Entry xs a → Listed Entry ys as →
      Listed Entry (xs ++ ',' :: ys) (a :: as)

inductive Enclosed (left right : Char) (Entry : List Char → α → Prop) : List Char → List α → Prop
  | empty {xs : List Char} : Blank xs → Enclosed left right Entry (left :: (xs ++ [right])) []
  | full {xs : List Char} {as : List α} : Listed Entry xs as →
      Enclosed left right Entry (left :: (xs ++ [right])) as

end Parts

inductive Member (Part : List Char → Value → Prop) : List Char → String × Value → Prop
  | mk {xs ys : List Char} {k : String} {v : Value} : Padded Quoted xs k → Padded Part ys v →
      Member Part (xs ++ ':' :: ys) (k, v)

inductive Spells : List Char → Value → Prop
  | word {xs : List Char} {v : Value} : (xs, v) ∈ words → Spells xs v
  | number (n : Numeral) : Spells n.text (.number n.value)
  | string {xs : List Char} {s : String} : Quoted xs s → Spells xs (.string s)
  | array {xs : List Char} {items : List Value} : Enclosed '[' ']' (Padded Spells) xs items →
      Spells xs (.array items)
  | object {xs : List Char} {members : List (String × Value)} :
      Enclosed '\x7b' '\x7d' (Member Spells) xs members → Spells xs (.object members)

def Denotes (text : List Char) (v : Value) : Prop := Padded Spells text v

end Highlighter.Json
