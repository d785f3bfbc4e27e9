import Highlighter.Proofs.Json.Written
import Highlighter.Report

/-!
# The JSON form can be read back

The JSON form of a list of tokens denotes one value by the grammar of JSON, the same in
the layout of the report and in the layout without spaces. From that value all of the
tokens are read back: the category from its dotted name, the text with every character,
and both ends of the span in full. So no other list of tokens has the same JSON form.
-/

set_option autoImplicit false

namespace Highlighter

namespace Json.Value

def member? (key : String) : Value → Option Value
  | .object members => members.lookup key
  | _ => none

def items? : Value → Option (List Value)
  | .array items => some items
  | _ => none

def text? : Value → Option String
  | .string s => some s
  | _ => none

def natural? : Value → Option Nat
  | .number q => if q.den = 1 ∧ 0 ≤ q.num then some q.num.toNat else none
  | _ => none

theorem natural_number (n : Nat) : natural? (.number n) = some n := by
  simp [natural?]

end Json.Value

open Json (Value)

def Category.named? (label : String) : Option Category := all.find? (·.label == label)

theorem Category.named_label (k : Category) : named? k.label = some k := by
  cases k <;> rfl

def Span.ofValue? (v : Value) : Option Span := do
  let start ← (← v.member? "start").natural?
  let stop ← (← v.member? "end").natural?
  return ⟨start, stop⟩

def Token.ofValue? (v : Value) : Option Token := do
  let category ← Category.named? (← (← v.member? "kind").text?)
  let text ← (← v.member? "value").text?
  let span ← Span.ofValue? (← v.member? "span")
  return ⟨category, text, span⟩

theorem Span.ofValue_json (s : Span) : Span.ofValue? (Json.value s.json) = some s := by
  simp [Span.json, Json.value, Json.memberValues, Span.ofValue?, Value.member?, List.lookup_cons,
    Value.natural_number]

theorem Token.ofValue_json (t : Token) : Token.ofValue? (Json.value t.json) = some t := by
  simp [Token.json, Json.value, Json.memberValues, Token.ofValue?, Value.member?, List.lookup_cons,
    Value.text?, Category.named_label, Span.ofValue_json]

namespace Report

def tokens? (v : Value) : Option (List Token) := do (← v.items?).mapM Token.ofValue?

def value (ts : List Token) : Value := Json.value (.array (ts.map Token.json))

theorem mapM_values (ts : List Token) :
    (Json.values (ts.map Token.json)).mapM Token.ofValue? = some ts := by
  induction ts with
  | nil => rfl
  | cons t ts ih =>
    rw [List.map_cons, Json.values, List.mapM_cons, Token.ofValue_json, ih]
    rfl

theorem tokens_value (ts : List Token) : tokens? (value ts) = some ts := by
  rw [value, Json.value]
  exact mapM_values ts

theorem value_injective {ts us : List Token} (h : value us = value ts) : us = ts := by
  have htokens := tokens_value us
  rw [h, tokens_value] at htokens
  exact (Option.some.inj htokens).symm

theorem denotes_compact (ts : List Token) (v : Value) :
    Json.Denotes (compact ts).toList v ↔ v = value ts := by
  have h := Json.denotes_write Json.spaced_compact (.array (ts.map Token.json)) Json.blank_nil v
  rw [compact, Json.compact, String.toList_ofList]
  rwa [List.append_nil] at h

/-- Behind the value stands the newline of the last line. -/
theorem denotes_json (ts : List Token) (v : Value) :
    Json.Denotes (json ts).toList v ↔ v = value ts := by
  have hnewline : Json.Blank "\n".toList := by decide
  rw [json, Json.pretty, String.toList_append, String.toList_ofList]
  exact Json.denotes_write Json.spaced_pretty _ hnewline v

/-- Texts that denote the same values come from the same tokens. -/
theorem eq_of_denotes {ts us : List Token} {text : List Token → String}
    (hdenotes : ∀ ts v, Json.Denotes (text ts).toList v ↔ v = value ts)
    (h : text us = text ts) : us = ts := by
  have hvalue : Json.Denotes (text ts).toList (value us) := h ▸ (hdenotes us _).mpr rfl
  exact value_injective ((hdenotes ts _).mp hvalue)

end Report

/-- Both JSON forms of a list of tokens denote one value, from which the tokens are read
back. So they are the JSON forms of no other list. -/
theorem json_denotes (source : String) (ts : List Token) :
    (∀ v, Json.Denotes (Report.compact ts).toList v ↔ v = Report.value ts) ∧
    (∀ v, Json.Denotes (Report.render .json source ts).toList v ↔ v = Report.value ts) ∧
    Report.tokens? (Report.value ts) = some ts ∧
    (∀ us, Report.compact us = Report.compact ts → us = ts) ∧
    ∀ other us, Report.render .json other us = Report.render .json source ts → us = ts :=
  ⟨Report.denotes_compact ts, Report.denotes_json ts, Report.tokens_value ts,
    fun _ h => Report.eq_of_denotes Report.denotes_compact h,
    fun _ _ h => Report.eq_of_denotes Report.denotes_json h⟩

/-- A quotation mark, a control character and an end that no double holds. -/
theorem json_denotes_escapes :
    let t : Token := ⟨.literal, "\"\x01é", ⟨9007199254740993, 18446744073709551615⟩⟩
    let text := "[\x7b\"kind\":\"Literal\",\"value\":\"\\\"\\u0001é\"," ++
      "\"span\":\x7b\"start\":9007199254740993,\"end\":18446744073709551615\x7d\x7d]"
    Report.compact [t] = text ∧ ∀ us, Report.compact us = text → us = [t] := by
  intro t text
  have htext : Report.compact [t] = text := by decide
  exact ⟨htext, fun us h => (json_denotes "" [t]).2.2.2.1 us (h.trans htext.symm)⟩

end Highlighter
