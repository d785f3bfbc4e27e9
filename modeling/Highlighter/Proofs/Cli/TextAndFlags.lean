import Highlighter.Cli.Run
import Highlighter.Proofs.Routes

/-!
# The text and the flags

A command knows only the built-in language, so whatever file name it is given the
file leads to that language. What it answers is therefore determined by the text and
by the flags: it is the same for the text on standard input and for the text in a
file of any name. A language asked for by its alias is looked up in the same way with
and without a file.
-/

set_option autoImplicit false

namespace Highlighter

/-- With the built-in language alone, every file has the language of the fallback
alias. -/
theorem Registry.withBuiltin_route (d : Dialect) (name file : Option String) :
    ((withBuiltin d).value.route name file).value =
      (withBuiltin d).value.byAlias (name.getD fallbackAlias) := by
  cases name with
  | some n => rfl
  | none =>
    have hfallback := withBuiltin_byAlias d fallbackAlias_toLower
    obtain ⟨l, hroute, hserves⟩ := route_serves hfallback file
    rw [hroute, Option.getD_none, hfallback]
    cases hserves with
    | @matching _ before after _ hl _ _ =>
      have hmem : l ∈ (withBuiltin d).value.languages := by simp [hl]
      rw [withBuiltin_languages, List.mem_singleton] at hmem
      rw [hmem]
    | unmatched _ => rfl
    | unnamed => rfl

theorem Registry.withBuiltin_byAlias_lowercase (d : Dialect) {name : String}
    (h : Text.lowercase name = fallbackAlias) :
    (withBuiltin d).value.byAlias name = .ok (Language.builtin d).value := by
  rw [(indexed_withBuiltin d).byAlias_ok, withBuiltin_languages]
  refine ⟨List.mem_singleton_self _, fallbackAlias, List.mem_singleton_self _, ?_⟩
  rw [h]
  decide +kernel

namespace Cli

def FileTree.content (t : FileTree) (path : String) : Except String ByteArray :=
  (t.read path).mapError ReadFault.reason

theorem respondIn_eq (files : FileTree) (arguments : List String) (stdin : ByteArray) :
    respondIn files arguments stdin = respond arguments stdin files.content := by
  rw [respondIn]
  congr 1
  funext path
  rw [FileTree.content]
  cases files.read path <;> rfl

def Request.flags (r : Request) : Request := { r with file := none, verbose := false }

theorem Request.highlight_value (r : Request) (source : String) :
    (r.highlight source).value =
      ((Registry.withBuiltin r.dialect).value.byAlias
        (r.language.getD Registry.fallbackAlias)).map fun l =>
          Report.render (r.format.getD .text) source
            (scan l.grammar r.keepUnmatched source).value.1 := by
  rw [← Registry.withBuiltin_route _ _ r.file, highlight]
  dsimp only [Logged.andThen]
  cases ((Registry.withBuiltin r.dialect).value.route r.language r.file).value <;> rfl

theorem Request.highlight_flags (r : Request) (source : String) :
    (r.highlight source).value = (r.flags.highlight source).value := by
  rw [r.highlight_value, r.flags.highlight_value]
  rfl

/-- The built-in language, asked for or not, gives the report on the tokens of the
text. -/
theorem Request.highlight_builtin {r : Request}
    (h : ∀ name ∈ r.language, Text.lowercase name = Registry.fallbackAlias) (source : String) :
    (r.highlight source).value = .ok (Report.render (r.format.getD .text) source
      (scan (.ofDialect r.dialect) r.keepUnmatched source).value.1) := by
  have hbuiltin : (Registry.withBuiltin r.dialect).value.byAlias
      (r.language.getD Registry.fallbackAlias) = .ok (Language.builtin r.dialect).value := by
    cases hl : r.language with
    | none => exact Registry.withBuiltin_byAlias _ Registry.fallbackAlias_toLower
    | some name => exact Registry.withBuiltin_byAlias_lowercase _ (h name hl)
  rw [r.highlight_value, hbuiltin]
  rfl

theorem Request.answer_ok (r : Request) (source : String) :
    (r.answer (.ok source)).value =
      match (r.highlight source).value with
      | .error f => .failure f
      | .ok report => .success report := rfl

theorem decode_toUTF8 (path source : String) : decode path source.toUTF8 = .ok source := by
  have hvalid : source.toUTF8.IsValidUTF8 := source.isValidUTF8
  rw [decode, String.fromUTF8?, dif_pos hvalid]
  rfl

variable {arguments : List String} {r : Request} {stdin : ByteArray}
  {read : String → Except String ByteArray} {source path : String}

theorem respond_run (hr : parse arguments = .run r) :
    respond arguments stdin read = r.answer (r.source stdin read) := by
  rw [respond, hr]

theorem respond_standardInput (hr : parse arguments = .run r) (hfile : r.file = none) :
    respond arguments source.toUTF8 read = r.answer (.ok source) := by
  rw [respond_run hr, Request.source, hfile]
  dsimp only
  rw [decode_toUTF8]

theorem respond_file (hr : parse arguments = .run r) (hfile : r.file = some path)
    (hread : read path = .ok source.toUTF8) :
    respond arguments stdin read = r.answer (.ok source) := by
  rw [respond_run hr, Request.source, hfile]
  dsimp only
  rw [hread]
  dsimp only
  rw [decode_toUTF8]

/-- A text is answered in the same way on standard input and in a file, whatever the
name of the file and whatever else can be read. Unless another language is asked
for, the command succeeds and prints the report on the tokens of the text. -/
theorem respond_textAndFlags {arguments others : List String} {r s : Request}
    (source path : String) (stdin : ByteArray) (read readOthers : String → Except String ByteArray)
    (hr : parse arguments = .run r) (hinput : r.file = none)
    (hs : parse others = .run s) (hfile : s.file = some path)
    (hread : readOthers path = .ok source.toUTF8) (hflags : r.flags = s.flags) :
    let ending := (respond arguments source.toUTF8 read).value
    let tokens := (scan (.ofDialect r.dialect) r.keepUnmatched source).value.1
    ending = (respond others stdin readOthers).value ∧
      ((∀ name ∈ r.language, Text.lowercase name = Registry.fallbackAlias) →
        ending.code = 0 ∧ ending.out = Report.render (r.format.getD .text) source tokens ∧
          ending.err = "") := by
  intro ending tokens
  have hending : ending = (r.answer (.ok source)).value := by
    rw [← respond_standardInput hr hinput]
  rw [respond_file hs hfile hread, hending, r.answer_ok, s.answer_ok]
  constructor
  · rw [r.highlight_flags, s.highlight_flags, hflags]
  · intro hlanguage
    rw [Request.highlight_builtin hlanguage]
    exact ⟨rfl, rfl, rfl⟩

/-- On standard input, and in a file whose name no language matches, below a directory
with a star in its name: in the legacy dialect, where `case` is a name, and in the
current one with all characters in the other format. -/
theorem respond_textAndFlags_directory :
    let source := "case\""
    let files : FileTree := [.ofPath "a*b/x.bas" source.toUTF8]
    let onInput (arguments : List String) := (respondIn [] arguments source.toUTF8).value
    let inFile (arguments : List String) := (respondIn files arguments .empty).value
    let legacy := onInput ["-l", "UwScr", "--legacy"]
    let json := onInput ["--emit-unmatched", "--format=json"]
    (legacy = inFile ["--legacy", "-vlUwScr", "--", "./a*b/x.bas"] ∧ legacy.code = 0 ∧
        legacy.out = "1:1\tName\tn\t\"case\"\n" ∧ legacy.err = "") ∧
      json = inFile ["-vfjson", "./a*b/x.bas", "--emit-unmatched"] ∧ json.code = 0 ∧
        json.out = "[\n" ++
          "  \x7b\n    \"kind\": \"Keyword.Declaration\",\n    \"value\": \"case\",\n" ++
          "    \"span\": \x7b\n      \"start\": 0,\n      \"end\": 4\n    \x7d\n  \x7d,\n" ++
          "  \x7b\n    \"kind\": \"Error\",\n    \"value\": \"\\\"\",\n" ++
          "    \"span\": \x7b\n      \"start\": 4,\n      \"end\": 5\n    \x7d\n  \x7d\n]\n" ∧
        json.err = "" := by
  intro source files onInput inFile legacy json
  have hread : files.content "./a*b/x.bas" = .ok source.toUTF8 := by
    rw [FileTree.content, show files.read "./a*b/x.bas" = .ok source.toUTF8 by rfl]
    rfl
  have hrun {arguments others : List String} {r s : Request} (hr : parse arguments = .run r)
      (hinput : r.file = none) (hs : parse others = .run s)
      (hfile : s.file = some "./a*b/x.bas") (hflags : r.flags = s.flags) :=
    respond_textAndFlags source "./a*b/x.bas" .empty (FileTree.content []) files.content hr hinput
      hs hfile hread hflags
  simp only [legacy, json, onInput, inFile, respondIn_eq]
  constructor
  · obtain ⟨hsame, hreport⟩ := hrun
      (show parse ["-l", "UwScr", "--legacy"] =
        .run { language := some "UwScr", legacy := true } by decide +kernel) rfl
      (show parse ["--legacy", "-vlUwScr", "--", "./a*b/x.bas"] =
        .run { file := some "./a*b/x.bas", language := some "UwScr", legacy := true,
               verbose := true } by decide +kernel) rfl rfl
    have hname : Text.lowercase "UwScr" = Registry.fallbackAlias := by decide +kernel
    obtain ⟨hcode, hout, herr⟩ := hreport fun name hn => Option.some.inj hn ▸ hname
    exact ⟨hsame, hcode, hout.trans (by decide +kernel), herr⟩
  · obtain ⟨hsame, hreport⟩ := hrun
      (show parse ["--emit-unmatched", "--format=json"] =
        .run { keepUnmatched := true, format := some .json } by decide +kernel) rfl
      (show parse ["-vfjson", "./a*b/x.bas", "--emit-unmatched"] =
        .run { file := some "./a*b/x.bas", keepUnmatched := true, format := some .json,
               verbose := true } by decide +kernel) rfl rfl
    obtain ⟨hcode, hout, herr⟩ := hreport nofun
    exact ⟨hsame, hcode, hout.trans (by decide +kernel), herr⟩

end Cli

end Highlighter
