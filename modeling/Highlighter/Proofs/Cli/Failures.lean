import Highlighter.Proofs.Cli.Requests
import Highlighter.Proofs.Cli.TextAndFlags

/-!
# Failures of the command

A command that was asked to run fails for one of two causes. Its input cannot be
read, or is no text; or the language that is asked for is not the built-in one. The
input is read first, so its fault is the one reported when there are both. A command
that fails has written nothing to standard output.
-/

set_option autoImplicit false

namespace Highlighter

namespace Cli

variable {arguments : List String} {r : Request} {stdin content : ByteArray}
  {read : String → Except String ByteArray} {source name : String}

def Request.input (r : Request) (stdin : ByteArray)
    (read : String → Except String ByteArray) : Except String ByteArray :=
  match r.file with
  | none => .ok stdin
  | some path => read path

def Request.place (r : Request) : String := r.file.getD standardInput

end Cli

end Highlighter
