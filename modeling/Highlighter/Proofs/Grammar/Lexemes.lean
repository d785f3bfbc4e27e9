import Highlighter.Log
import Highlighter.Proofs.Lines

/-!
# The language without patterns

What a step reads at a place, said without patterns and without a search. A
`Cut` decides how much of the text in front is taken, looking at no more than
the character before it. A `Production` makes categorised pieces of it, and
`productions` lists them in the order in which they are tried. A place gets the
first that applies, and else one character is passed over.
-/

set_option autoImplicit false

namespace Highlighter

/-- How much is taken at a place, given the text before it, read backwards, and
the text from it on. -/
abbrev Cut := List Char → List Char → Option (List Char)

def Text.lineTail? (rest : List Char) : Option (List Char) :=
  if ['\n'] <+: rest then some ['\n']
  else if ['\r', '\n'] <+: rest then some ['\r', '\n']
  else if rest = [] ∨ rest = ['\r'] then some rest
  else none

namespace Cut

def literal (xs : List Char) : Cut := fun _ rest => if xs <+: rest then some xs else none

def oneOf (cs : List Char) : Cut := fun _ rest =>
  match rest with
  | [] => none
  | x :: _ => if x ∈ cs then some [x] else none

def restOfLine (mark : List Char) : Cut := fun _ rest =>
  if mark <+: rest then some (Text.through '\n' rest) else none

def between (mark : Char) : Cut := fun _ rest =>
  match rest with
  | [] => none
  | x :: after => if x = mark ∧ mark ∈ after then some (mark :: Text.through mark after) else none

def word (accepts : List Char → Bool) : Cut := fun before rest =>
  let w := rest.takeWhile Text.isWord
  if Cursor.startsWithWord before = false ∧ w ≠ [] ∧ accepts w = true then some w else none

def isDigit (x : Char) : Bool := '0' ≤ x && x ≤ '9'

def isHexDigit (x : Char) : Bool := isDigit x || ('a' ≤ x && x ≤ 'f') || ('A' ≤ x && x ≤ 'F')

def isCapital (x : Char) : Bool := ('A' ≤ x && x ≤ 'Z') || isDigit x || x == '_'

def isNotANumber (w : List Char) : Bool :=
  "Na".toList.isPrefixOf w && w.drop 2 != [] && (w.drop 2).all (· == 'N')

def isIdentifier (w : List Char) : Bool :=
  w.all Text.isAsciiWord && !(w.head?.any isDigit)

def hexadecimal (d : Dialect) : Cut := fun before rest =>
  match rest with
  | [] => none
  | x :: after =>
    let w := after.takeWhile Text.isWord
    if x = '$' ∧ w ≠ [] ∧ w.all isHexDigit = true ∧
        (d = .legacy → Cursor.startsWithWord before = true) then
      some ('$' :: w)
    else none

def bareOpener : Cut := fun before rest =>
  if Cursor.startsWithWord before = false ∧ rest.takeWhile Text.isWord = "textblock".toList then
    (Text.lineTail? (rest.dropWhile Text.isWord)).map ("textblock".toList ++ ·)
  else none

def bodyLine : Cut := fun _ rest =>
  match rest with
  | [] => none
  | x :: after => if x = '\n' then none else some (Text.through '\n' (x :: after))

end Cut

abbrev Piece := Category × List Char

structure Production where
  pieces? : List Char → List Char → Option (List Piece)
  move : Move := .stay

namespace Production

def single (category : List Char → Category) (cut : Cut) (move : Move := .stay) : Production where
  pieces? before rest := (cut before rest).map fun xs => [(category xs, xs)]
  move := move

def whole (k : Category) (cut : Cut) (move : Move := .stay) : Production :=
  single (fun _ => k) cut move

theorem whole_pieces (k : Category) (cut : Cut) (move : Move) (before rest : List Char) :
    (whole k cut move).pieces? before rest = (cut before rest).map fun xs => [(k, xs)] := rfl

def identifier (v : Vocabulary) : Production :=
  single (fun xs => v.classify (String.ofList xs)) (.word Cut.isIdentifier)

def labelledOpener : Production where
  pieces? before rest :=
    let opener := rest.takeWhile Text.isWord
    let blanks := (rest.dropWhile Text.isWord).takeWhile Text.isBlank
    let behind := (rest.dropWhile Text.isWord).dropWhile Text.isBlank
    let label := behind.takeWhile Text.isWord
    if Cursor.startsWithWord before = false ∧
        (opener = "textblock".toList ∨ opener = "textblockex".toList) ∧
        blanks ≠ [] ∧ label ≠ [] then
      (Text.lineTail? (behind.dropWhile Text.isWord)).map fun tail =>
        [(.keyword, opener), (.whitespace, blanks), (.name, label ++ tail)]
    else none
  move := .enter .block

def remoteCall : Production where
  pieces? _ rest :=
    let blanks := (rest.drop 4).takeWhile Text.isBlank
    let behind := (rest.drop 4).dropWhile Text.isBlank
    let inner := (behind.drop 4).takeWhile (· != ']')
    if "call".toList <+: rest ∧ blanks ≠ [] ∧ "url[".toList <+: behind ∧ inner ≠ [] ∧
        ']' ∈ behind.drop 4 then
      some [(.keyword, "call".toList), (.whitespace, blanks), (.keyword, "url".toList),
        (.punctuation, ['[']), (.literal, inner), (.punctuation, [']'])]
    else none

def comments : Dialect → List Production
  | .current =>
    [whole .comment (.literal "//-".toList), whole .comment (.restOfLine "//".toList)]
  | .legacy => [whole .comment (.restOfLine "//".toList)]

def blanks : List Production :=
  [whole .whitespace (.literal " ".toList), whole .whitespace (.literal "\u3000".toList)]

def strings : List Production :=
  [whole .string (.between '"'), whole .string (.between '\x27')]

def numbers : Dialect → List Production
  | .current =>
    [whole .number (.word (·.all Cut.isDigit)), whole .number (.hexadecimal .current),
      whole .number (.word Cut.isNotANumber)]
  | .legacy =>
    [whole .number (.word (·.all Cut.isDigit)), whole .number (.hexadecimal .legacy),
      whole .number (.word (·.all Cut.isCapital)), whole .number (.word Cut.isNotANumber)]

def operators : Dialect → List Char
  | .current => ",=.:?><|+-*/!#".toList
  | .legacy => ",=.:?><|_+-*/!#".toList

def block (closer body : Category) : List Production :=
  [whole closer (.word (· == "endtextblock".toList)) .leave, whole body .bodyLine]

end Production

open Production in
def productions (d : Dialect) : Mode → List Production
  | .root =>
    comments d ++ blanks ++ strings ++ numbers d ++
      [whole .keyword .bareOpener (.enter .blockComment), labelledOpener, remoteCall,
        whole .operator (.oneOf (operators d)), whole .punctuation (.oneOf "()[]\x7b\x7d@;".toList),
        identifier (.ofDialect d)]
  | .string => strings
  | .whitespace => Production.blanks
  | .comment => comments d
  | .block => Production.block .keyword .string
  | .blockComment => Production.block .comment .comment
  | .number => numbers d

inductive Lexeme where
  | taken (pieces : List Piece) (move : Move)
  | passed (x : Char)
  deriving DecidableEq, Repr

def taken? (ps : List Production) (before rest : List Char) : Option Lexeme :=
  ps.findSome? fun p => (p.pieces? before rest).map (.taken · p.move)

def lexeme? (d : Dialect) (m : Mode) (before rest : List Char) : Option Lexeme :=
  (taken? (productions d m) before rest).or (rest.head?.map .passed)

abbrev Modes := Mode × List Mode

namespace Move

def lead : Move → Modes → Modes
  | .stay, ms => ms
  | .enter n, (m, outer) => (n, m :: outer)
  | .leave, (m, []) => (m, [])
  | .leave, (_, n :: outer) => (n, outer)

def records : Move → Modes → Nat → List Record
  | .enter n, _, offset => [.entered n offset]
  | .leave, (m, _ :: _), offset => [.left m offset]
  | _, _, _ => []

end Move

namespace Lexeme

def chars : Lexeme → List Char
  | taken pieces _ => pieces.flatMap Prod.snd
  | passed x => [x]

def shown (keep : Bool) : Lexeme → List Piece
  | taken pieces _ => pieces
  | passed x => if keep then [(.unmatched, [x])] else []

def move : Lexeme → Move
  | taken _ move => move
  | passed _ => .stay

def records : Lexeme → Modes → Nat → List Record
  | taken _ move, ms, offset => move.records ms offset
  | passed x, (m, _), offset => [.unmatched m x offset]

end Lexeme

def tokensAt : Nat → List Piece → List Token
  | _, [] => []
  | n, (k, xs) :: ps =>
    ⟨k, String.ofList xs, ⟨n, n + Text.bytes xs⟩⟩ :: tokensAt (n + Text.bytes xs) ps

end Highlighter
