-- SUMMARY: The program: input and output around the command line.
import AliasExpansion.CommandLine

/-!
# The program

Reads the files that the arguments name, runs the expansion and prints its outcome. The exit code
is 0 for success, 1 for an error in the invocation or in the settings, and 2 for arguments that
cannot be used.
-/

namespace AliasExpansion.CommandLine

def faultText : Settings.Fault → String
  | .unknownField => "unknown field"
  | .notAnObject => "the settings must be an object"
  | .integerText => "not an integer"
  | .fractionalInteger => "not a whole number"
  | .integerType => "must be an integer"
  | .textType => "must be a text"
  | .truthText => "not a truth value"
  | .truthType => "must be a truth value"
  | .unknownLevel => "unknown log level"

def problemText (problem : Settings.Problem) : String :=
  problem.field ++ ": " ++ faultText problem.fault ++ "\n"

def failureText : Failure → String
  | .settings problems => String.join (problems.map problemText)
  | .expansion error => "error: " ++ error.report ++ "\n"

/-- The document in a settings file. -/
def readConfig (path : String) : IO Document := do
  match Document.read (Text.unifyLineEnds (← IO.FS.readFile path)) with
  | some document => return document
  | none => throw (IO.userError ("cannot read settings from " ++ path))

def readInput (arguments : Arguments) : IO Input := do
  match arguments.file with
  | some path => return .file (← IO.FS.readFile path)
  | none => return .standard (← (← IO.getStdin).readToEnd)

def fail (failure : Failure) : IO UInt32 := do
  IO.eprint (failureText failure)
  return 1

def runWith (arguments : Arguments) : IO UInt32 := do
  let config ← arguments.config.mapM readConfig
  match settingsFor arguments config with
  | .error problems => fail (.settings problems)
  | .ok settings =>
    let drawn ← IO.rand 1 (Nat.pow 2 62)
    match run settings (keyFor arguments settings drawn) (← readInput arguments) with
    | .error failure => fail failure
    | .ok outcome =>
      IO.print outcome.output
      IO.eprint outcome.complaint
      return outcome.code.toUInt32

end AliasExpansion.CommandLine

open AliasExpansion.CommandLine in
def main (args : List String) : IO UInt32 := do
  match Arguments.read args with
  | .error refusal =>
    if refusal = .help then IO.print usage else IO.eprint usage
    return refusal.code.toUInt32
  | .ok arguments => runWith arguments
