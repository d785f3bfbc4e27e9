import Highlighter.Cli.Run

/-!
# The program

The command line on the real standard streams and files. It hands what it has
read to the library and writes what the library answers.
-/

set_option autoImplicit false

namespace Highlighter.Cli

/-- The text by which the system itself describes a failure to read. A file of
the wrong type fails with its name when it is opened, as a step of the way,
and without when it is read, as a directory. -/
def systemReason : IO.Error → String
  | .noFileOrDirectory _ _ _ => ReadFault.notFound.reason
  | .inappropriateType (some _) _ _ => ReadFault.notDirectory.reason
  | .inappropriateType none _ _ => ReadFault.isDirectory.reason
  | .invalidArgument _ _ "name too long" => ReadFault.nameTooLong.reason
  | .permissionDenied _ _ _ => "Permission denied (os error 13)"
  | e => toString e

def readRequested (request : Parsed) : IO (Except String ByteArray) := do
  match request with
  | .run { file := some path, .. } =>
    try
      return .ok (← IO.FS.readBinFile path)
    catch e =>
      return .error (systemReason e)
  | _ => return .ok .empty

def readStandardInput (request : Parsed) : IO ByteArray := do
  match request with
  | .run { file := none, .. } => (← IO.getStdin).readBinToEnd
  | _ => return .empty

def isVerbose : Parsed → Bool
  | .run r => r.verbose
  | _ => false

def perform (arguments : List String) : IO UInt32 := do
  let request := parse arguments
  let content ← readRequested request
  let stdin ← readStandardInput request
  let answer := respond arguments stdin fun _ => content
  if isVerbose request then
    for record in answer.records do
      if record.isDebug then IO.eprintln record.text
  IO.print answer.value.out
  IO.eprint answer.value.err
  return answer.value.code.toUInt32

end Highlighter.Cli

def main (arguments : List String) : IO UInt32 := Highlighter.Cli.perform arguments
