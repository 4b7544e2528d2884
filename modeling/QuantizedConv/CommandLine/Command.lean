import QuantizedConv.Case.Format
import QuantizedConv.Case.Run
import QuantizedConv.CommandLine.Arguments
import QuantizedConv.CommandLine.Files

/-!
# The command

The command reads a case from a file, runs it, emits the record of the run, and then compares the
output with the expected one. The record is emitted whenever the run succeeds, also if the
comparison fails.
-/

set_option autoImplicit false

namespace QuantizedConv

open Document

/-- Why a case cannot be loaded. -/
inductive LoadProblem where
  /-- The file cannot be opened. -/
  | unopened (path : String) (problem : FileProblem)
  /-- The file was opened but cannot be read. -/
  | unreadable (path : String) (problem : FileProblem)
  /-- The content is not a case. -/
  | document (path : String) (problem : Problem)
deriving DecidableEq, Repr

namespace LoadProblem

/-- What was being done. -/
def context : LoadProblem → String
  | .unopened path _ => "open case file: " ++ path
  | .unreadable path _ | .document path _ => "parse case file: " ++ path

/-- What went wrong. -/
def cause : LoadProblem → String
  | .unopened _ problem | .unreadable _ problem => problem.message
  | .document _ problem => problem.message

end LoadProblem

/-- The case in what was read from a file. -/
def Case.ofFile (path : String) : Except FileProblem Bytes → Except LoadProblem Case
  | .error .isDirectory => .error (.unreadable path .isDirectory)
  | .error problem => .error (.unopened path problem)
  | .ok bytes =>
    match Case.ofBytes bytes with
    | .error problem => .error (.document path problem)
    | .ok c => .ok c

/-- The case in a file. -/
def Case.load (files : FileTree) (path : String) : Except LoadProblem Case :=
  Case.ofFile path (files.read path)

/-- What loading a case reports. -/
def Case.loadEvents (c : Case) : List Event := [.loaded c.kind c.inputShape c.outputShape]

/-- A run of the command. -/
structure Command where
  /-- The file of the case. -/
  casePath : String
  /-- The file for the record, if it is not printed. -/
  outPath : Option String
  /-- How a dense case is run. -/
  lowering : Lowering
deriving DecidableEq, Repr

namespace Command

/-- The options of the command. -/
def specs : List Arguments.Spec := [
  ⟨"case", some Arguments.isPath⟩, ⟨"out", some Arguments.isPath⟩, ⟨"im2col", none⟩]

/-- The command of options and flags, if the case is among them. -/
def ofGiven? (given : List (String × String)) : Option Command :=
  (Arguments.value? given "case").map fun casePath =>
    { casePath
      outPath := Arguments.value? given "out"
      lowering := if (Arguments.value? given "im2col").isSome then .patches else .direct }

end Command

/-- What a command leaves behind. -/
structure Ending where
  /-- The exit status. -/
  status : Nat
  /-- What was printed. -/
  output : String
  /-- What was reported, without the final line break. -/
  report : String
  /-- The files. -/
  files : FileTree

namespace Ending

/-- The status of a success, and of information. -/
def success : Nat := 0

/-- The status of a command that failed. -/
def failure : Nat := 1

/-- The status of a command line that was not understood. -/
def misuse : Nat := 2

/-- The status of a run that stopped at a fault. -/
def fault : Nat := 101

end Ending

/-- A report without a cause. -/
def plainReport (message : String) : String := "Error: " ++ message

/-- A report of what was being done and why it failed, with each line of the cause set in. -/
def causedReport (context cause : String) : String :=
  plainReport context ++ "\n\nCaused by:\n"
    ++ "\n".intercalate ((cause.splitOn "\n").map fun line => "    " ++ line)

namespace Command

/-- What a command does once its case is read. -/
inductive Plan where
  /-- It stops with a status and a report. -/
  | stop (status : Nat) (report : String)
  /-- It emits a record and then compares the output. -/
  | emit (record : CaseRecord) (verdict : Except Mismatch Unit)

/-- What the command does, given its case. -/
def planFor (command : Command) (c : Case) : Plan :=
  match c.run command.lowering with
  | .error (.faulted fault) => .stop Ending.fault fault.message
  | .error (.refused refusal) =>
      .stop Ending.failure (causedReport ("run case " ++ command.casePath) refusal.message)
  | .ok output => .emit ⟨c.outputShape, output⟩ (c.check output)

/-- What the command does, given what was read from the file of its case. -/
def plan (command : Command) (content : Except FileProblem Bytes) : Plan :=
  match Case.ofFile command.casePath content with
  | .error problem => .stop Ending.failure (causedReport problem.context problem.cause)
  | .ok c => command.planFor c

/-- The report of a record that cannot be written. -/
def unwritten (path : String) (problem : FileProblem) : String :=
  causedReport ("write output: " ++ path) problem.message

/-- The status and the report of a comparison. -/
def verdictEnding : Except Mismatch Unit → Nat × String
  | .ok () => (Ending.success, "")
  | .error mismatch => (Ending.failure, plainReport mismatch.message)

/-- Runs the command on files. -/
def run (command : Command) (files : FileTree) : Ending :=
  match command.plan (files.read command.casePath) with
  | .stop status report => ⟨status, "", report, files⟩
  | .emit record verdict =>
    let text := record.toIndentedText
    let (status, report) := verdictEnding verdict
    match command.outPath with
    | none => ⟨status, text ++ "\n", report, files⟩
    | some path =>
      match files.write path (bytesOf text) with
      | .error problem => ⟨Ending.failure, "", unwritten path problem, files⟩
      | .ok written => ⟨status, "", report, written⟩

/-- What the arguments ask for: a command to run, or a status to end with at once. -/
def ofArguments (arguments : List String) : Except Nat Command :=
  match Arguments.parse specs [] arguments with
  | .misuse => .error Ending.misuse
  | .information => .error Ending.success
  | .proceed given =>
    match ofGiven? given with
    | none => .error Ending.misuse
    | some command => .ok command

end Command

/-- Runs a command line on files. -/
def commandLine (arguments : List String) (files : FileTree) : Ending :=
  match Command.ofArguments arguments with
  | .error status => ⟨status, "", "", files⟩
  | .ok command => command.run files

end QuantizedConv
