import Highlighter.Cli.Arguments
import Highlighter.Cli.FileTree
import Highlighter.Registry
import Highlighter.Scanner.Run

/-!
# The command

What the command does with a request, as a function of what it can read. The
input is read before the language is looked up, so a fault of the input comes
first; a fault of either kind leaves standard output empty.
-/

set_option autoImplicit false

namespace Highlighter.Cli

structure Ending where
  code : Nat
  out : String
  err : String
  deriving DecidableEq, Repr

def Ending.success (out : String) : Ending := ⟨0, out, ""⟩

def Ending.failure (f : Fault) : Ending := ⟨1, "", f.report⟩

def Ending.misuse : Ending := ⟨2, "", "error: the arguments do not fit; try --help\n"⟩

def versionText : String := "uwscr-highlight 0.1.0\n"

def helpText : String :=
  "Classify UWSCR source into highlighting spans\n\n" ++
  "Usage: uwscr-highlight [OPTIONS] [FILE]\n\n" ++
  "  [FILE]                     source file; standard input when omitted\n" ++
  "  -l, --language <LANGUAGE>  language alias; by default chosen by the file name\n" ++
  "      --legacy               use the rules of the 2022 documentation\n" ++
  "      --emit-unmatched       emit characters that no rule takes as Error tokens\n" ++
  "  -f, --format <FORMAT>      text (default) or json\n" ++
  "  -v, --verbose              log state changes\n" ++
  "  -h, --help                 print help\n" ++
  "  -V, --version              print version\n"

def standardInput : String := "<stdin>"

def decode (path : String) (content : ByteArray) : Except Fault String :=
  match String.fromUTF8? content with
  | some source => .ok source
  | none => .error (.unreadable path ReadFault.notText.reason)

def Request.source (r : Request) (stdin : ByteArray)
    (read : String → Except String ByteArray) : Except Fault String :=
  match r.file with
  | none => decode standardInput stdin
  | some path =>
    match read path with
    | .ok content => decode path content
    | .error reason => .error (.unreadable path reason)

def Request.highlight (r : Request) (source : String) : Logged (Except Fault String) :=
  (Registry.withBuiltin r.dialect).andThen fun registry =>
    (registry.route r.language r.file).andThen fun
      | .error f => .silent (.error f)
      | .ok language =>
        (scan language.grammar r.keepUnmatched source).map fun (tokens, _) =>
          .ok (Report.render (r.format.getD .text) source tokens)

def Request.answer (r : Request) (source : Except Fault String) : Logged Ending :=
  match source with
  | .error f => .silent (.failure f)
  | .ok source =>
    (r.highlight source).map fun
      | .error f => .failure f
      | .ok report => .success report

def respond (arguments : List String) (stdin : ByteArray)
    (read : String → Except String ByteArray) : Logged Ending :=
  match parse arguments with
  | .misuse => .silent .misuse
  | .version => .silent (.success versionText)
  | .help => .silent (.success helpText)
  | .run r => r.answer (r.source stdin read)

def respondIn (files : FileTree) (arguments : List String) (stdin : ByteArray) : Logged Ending :=
  respond arguments stdin fun path =>
    match files.read path with
    | .ok content => .ok content
    | .error fault => .error fault.reason

end Highlighter.Cli
