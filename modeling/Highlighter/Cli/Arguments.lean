import Highlighter.Report
import Highlighter.Vocabulary

/-!
# Command line arguments

Arguments are read from left to right. A request for the version or for help
ends the reading at once, so only a mistake before it counts. Each option and
the file may be given once. The value of an option is attached to it or is
the next argument, which then must not look like an option. Behind `--` every
argument is a file.
-/

set_option autoImplicit false

namespace Highlighter.Cli

structure Request where
  file : Option String := none
  language : Option String := none
  legacy : Bool := false
  keepUnmatched : Bool := false
  format : Option Format := none
  verbose : Bool := false
  deriving DecidableEq, Repr

inductive Parsed where
  | run (r : Request)
  | version
  | help
  | misuse
  deriving DecidableEq, Repr

inductive ValueOption where
  | language
  | format
  deriving DecidableEq, Repr

inductive Flag where
  | legacy
  | keepUnmatched
  | verbose
  deriving DecidableEq, Repr

def formatNamed? : String → Option Format
  | "text" => some .text
  | "json" => some .json
  | _ => none

namespace Request

def withFile? (r : Request) (path : String) : Option Request :=
  if r.file.isNone && !path.isEmpty then some { r with file := some path } else none

def withValue? (r : Request) (value : String) : ValueOption → Option Request
  | .language => if r.language.isNone then some { r with language := some value } else none
  | .format =>
    if r.format.isNone then (formatNamed? value).map ({ r with format := some · }) else none

def withFlag? (r : Request) : Flag → Option Request
  | .legacy => if r.legacy then none else some { r with legacy := true }
  | .keepUnmatched => if r.keepUnmatched then none else some { r with keepUnmatched := true }
  | .verbose => if r.verbose then none else some { r with verbose := true }

def dialect (r : Request) : Dialect := if r.legacy then .legacy else .current

end Request

inductive Turn where
  | goOn (r : Request)
  | await (r : Request) (option : ValueOption)
  | filesOnly (r : Request)
  | stop (p : Parsed)
  deriving DecidableEq, Repr

def Turn.ofRequest? : Option Request → Turn
  | some r => .goOn r
  | none => .stop .misuse

def readCluster (r : Request) : List Char → Turn
  | [] => .goOn r
  | 'v' :: rest =>
    match r.withFlag? .verbose with
    | some r => readCluster r rest
    | none => .stop .misuse
  | 'V' :: _ => .stop .version
  | 'h' :: _ => .stop .help
  | 'l' :: rest => withAttached r .language rest
  | 'f' :: rest => withAttached r .format rest
  | _ => .stop .misuse
where
  withAttached (r : Request) (option : ValueOption) : List Char → Turn
    | [] => .await r option
    | '=' :: value => .ofRequest? (r.withValue? (String.ofList value) option)
    | value => .ofRequest? (r.withValue? (String.ofList value) option)

def readLong (r : Request) (name : String) (value : Option String) : Turn :=
  match name, value with
  | "language", none => .await r .language
  | "language", some v => .ofRequest? (r.withValue? v .language)
  | "format", none => .await r .format
  | "format", some v => .ofRequest? (r.withValue? v .format)
  | "legacy", none => .ofRequest? (r.withFlag? .legacy)
  | "emit-unmatched", none => .ofRequest? (r.withFlag? .keepUnmatched)
  | "verbose", none => .ofRequest? (r.withFlag? .verbose)
  | "version", none => .stop .version
  | "help", none => .stop .help
  | _, _ => .stop .misuse

def splitEquals (cs : List Char) : List Char × Option (List Char) :=
  match cs.dropWhile (· ≠ '=') with
  | [] => (cs, none)
  | _ :: value => (cs.takeWhile (· ≠ '='), some value)

def readArgument (r : Request) (argument : String) : Turn :=
  match argument.toList with
  | ['-', '-'] => .filesOnly r
  | '-' :: '-' :: rest =>
    let (name, value) := splitEquals rest
    readLong r (String.ofList name) (value.map String.ofList)
  | '-' :: c :: rest => readCluster r (c :: rest)
  | _ => .ofRequest? (r.withFile? argument)

def looksLikeOption (argument : String) : Bool :=
  match argument.toList with
  | '-' :: _ :: _ => true
  | _ => false

def readFiles (r : Request) : List String → Parsed
  | [] => .run r
  | path :: rest =>
    match r.withFile? path with
    | some r => readFiles r rest
    | none => .misuse

def readFrom (r : Request) : List String → Parsed
  | [] => .run r
  | argument :: rest =>
    match readArgument r argument with
    | .goOn r => readFrom r rest
    | .filesOnly r => readFiles r rest
    | .stop p => p
    | .await r option =>
      match rest with
      | [] => .misuse
      | value :: rest =>
        if looksLikeOption value then .misuse
        else
          match r.withValue? value option with
          | some r => readFrom r rest
          | none => .misuse

def parse (arguments : List String) : Parsed := readFrom {} arguments

end Highlighter.Cli
