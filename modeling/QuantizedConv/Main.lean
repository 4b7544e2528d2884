import QuantizedConv.CommandLine.Command

/-!
# The program

Reads the arguments and the file of the case, lets the command decide, and prints or writes the
record. Everything else is in the command.
-/

set_option autoImplicit false

namespace QuantizedConv

/-- The file problem behind an input or output error. -/
def fileProblemOf : IO.Error → FileProblem
  | .noFileOrDirectory .. => .notFound
  | .inappropriateType _ code _ => if code = 20 then .notDirectory else .isDirectory
  | .invalidArgument _ code _ => if code = 36 then .nameTooLong else .zeroInName
  | _ => .notFound

/-- The content of a file of the machine. -/
def readContent (path : String) : IO (Except FileProblem Document.Bytes) := do
  try
    let content ← IO.FS.readBinFile path
    return .ok content.data.toList
  catch error => return .error (fileProblemOf error)

/-- Reports an error, where there is one, and gives the status. -/
def conclude (status : Nat) (report : String) : IO UInt32 := do
  if report ≠ "" then IO.eprintln report
  return UInt32.ofNat status

/-- Emits a record to a file or to the standard output, and concludes with the comparison. -/
def emitRecord (command : Command) (record : CaseRecord) (verdict : Except Mismatch Unit) :
    IO UInt32 := do
  let text := record.toIndentedText
  let (status, report) := Command.verdictEnding verdict
  match command.outPath with
  | none =>
    IO.println text
    conclude status report
  | some path =>
    try
      IO.FS.writeFile path text
    catch error =>
      return ← conclude Ending.failure (Command.unwritten path (fileProblemOf error))
    conclude status report

end QuantizedConv

open QuantizedConv in
/-- Runs a case file. -/
def main (arguments : List String) : IO UInt32 := do
  match Command.ofArguments arguments with
  | .error status => return UInt32.ofNat status
  | .ok command =>
    match command.plan (← readContent command.casePath) with
    | .stop status report => conclude status report
    | .emit record verdict => emitRecord command record verdict
