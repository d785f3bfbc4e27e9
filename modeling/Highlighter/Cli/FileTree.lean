/-!
# A set of files

The files that a command can see, by the names of the directories on the way
to each. A directory is there when a file lies below it. Reading follows the
path name by name: every name but the last has to be a directory, an empty
name and `.` stay in it, `..` goes back. What lies above the root is a
directory of which nothing else is known.
-/

set_option autoImplicit false

namespace Highlighter.Cli

inductive ReadFault where
  | notFound
  | notDirectory
  | isDirectory
  | nameTooLong
  | notText
  deriving DecidableEq, Repr

def ReadFault.reason : ReadFault → String
  | notFound => "No such file or directory (os error 2)"
  | notDirectory => "Not a directory (os error 20)"
  | isDirectory => "Is a directory (os error 21)"
  | nameTooLong => "File name too long (os error 36)"
  | notText => "stream did not contain valid UTF-8"

def pathNames (path : String) : List String :=
  (split path.toList).map String.ofList
where
  split : List Char → List (List Char)
    | [] => [[]]
    | c :: rest =>
      if c = '/' then [] :: split rest
      else
        match split rest with
        | [] => [[c]]
        | name :: names => (c :: name) :: names

def staysInPlace (name : String) : Bool := name == "" || name == "."

structure File where
  names : List String
  content : ByteArray

def File.ofPath (path : String) (content : ByteArray) : File :=
  ⟨(pathNames path).filter fun n => !staysInPlace n, content⟩

/-- A file hides an earlier one of the same name. -/
abbrev FileTree := List File

namespace FileTree

def nameLimit : Nat := 255

def pathLimit : Nat := 4095

def fileAt? (t : FileTree) (names : List String) : Option ByteArray :=
  (t.reverse.find? (·.names == names)).map (·.content)

def isDirectory (t : FileTree) (names : List String) : Bool :=
  t.any fun f => names.isPrefixOf f.names && names.length < f.names.length

def readAbove : List String → Except ReadFault ByteArray
  | [] => .error .isDirectory
  | name :: rest =>
    if staysInPlace name || name == ".." then readAbove rest
    else if nameLimit < name.utf8ByteSize then .error .nameTooLong
    else .error .notFound

def readFrom (t : FileTree) (here : List String) : List String → Except ReadFault ByteArray
  | [] => .error .isDirectory
  | name :: rest =>
    if staysInPlace name then t.readFrom here rest
    else if name == ".." then
      match here with
      | [] => readAbove rest
      | _ :: parent => t.readFrom parent rest
    else if nameLimit < name.utf8ByteSize then .error .nameTooLong
    else
      let there := name :: here
      match t.fileAt? there.reverse with
      | some content => if rest.isEmpty then .ok content else .error .notDirectory
      | none =>
        if t.isDirectory there.reverse then t.readFrom there rest else .error .notFound

def read (t : FileTree) (path : String) : Except ReadFault ByteArray :=
  if pathLimit < path.utf8ByteSize then .error .nameTooLong
  else
    match path.toList with
    | [] => .error .notFound
    | '/' :: _ => readAbove (pathNames path)
    | _ => t.readFrom [] (pathNames path)

end FileTree

end Highlighter.Cli
