import Storyboard.CommandLine.Request
import Storyboard.Encoding
import Storyboard.Options.Reader
import Storyboard.Text.Quoted

/-!
# Running the command line

A run reads what it needs, compiles, and writes its result at the very end, to a file or to the
standard output. When anything fails before, nothing has been written. What a run can do to its
surroundings is given by a host.
-/

namespace Storyboard.CommandLine

/-- What a run can do to its surroundings. -/
structure Host (m : Type → Type) where
  /-- The content of a file, if it can be read. -/
  readFile : Text → m (Option ByteArray)
  /-- The content of the standard input, if it can be read. -/
  readInput : m (Option ByteArray)
  /-- Replaces the content of a file, and tells whether that was possible. -/
  writeFile : Text → ByteArray → m Bool

/-- How a run ends: its exit code, and what it writes to the standard output and error streams. -/
structure Ending where
  code : UInt32
  output : Text
  errors : Text
  deriving DecidableEq

/-- Why a run fails. -/
inductive Failure
  | unreadableConfig (path : Text)
  | invalidConfig (path : Text)
  | unreadableScript (path : Text)
  | unreadableInput
  | unwritableOutput (path : Text)
  deriving DecidableEq

/-- The message about a failure. -/
def Failure.message : Failure → Text
  | unreadableConfig path => "Failed to read config ".toList ++ path.quoted
  | invalidConfig path => "Invalid compile options in ".toList ++ path.quoted
  | unreadableScript path => "Failed to read script ".toList ++ path.quoted
  | unreadableInput => "Failed to read script from stdin".toList
  | unwritableOutput path => "Failed to write ".toList ++ path.quoted

namespace Ending

/-- The end of a run that failed after the given lines on the error stream. -/
def failed (warnings : Text) (failure : Failure) : Ending :=
  ⟨1, [], warnings ++ "Error: ".toList ++ failure.message ++ ['\n']⟩

/-- What is said about arguments that cannot be understood. -/
def usage : Text :=
  "usage: scenewriter compile --input FILE [--out FILE] [--config FILE] [--pretty]\n".toList ++
    "                           [--legacy-scan] [--diagnostics]\n".toList ++
    "       scenewriter tokens --input FILE [--legacy-scan]\n".toList

/-- The end of a run whose arguments cannot be understood. -/
def misused : Ending := ⟨2, [], usage⟩

/-- The end of a run that was asked for help. -/
def helped : Ending := ⟨0, usage, []⟩

/-- The end of a run that was asked for the version. -/
def versioned : Ending := ⟨0, "scenewriter 0.1.0\n".toList, []⟩

end Ending

/-- The pieces of a path between its slashes. -/
def pathPieces (path : Text) : List Text :=
  path.pieces '/'

/-- Whether a path names the standard input: a hyphen with only slashes and dots after it. -/
def isStandardInput (path : Text) : Bool :=
  match pathPieces path with
  | [] => false
  | first :: others => first == ['-'] && others.all fun piece => piece.isEmpty || piece == ['.']

/-- The text with the given UTF-8 form, if there is one. -/
def textOfBytes? (bytes : ByteArray) : Option Text :=
  (String.fromUTF8? bytes).map String.toList

/-- The UTF-8 form of a text. -/
def bytesOfText (t : Text) : ByteArray :=
  (String.ofList t).toUTF8

/-- The line that warns of a diagnostic. -/
def warning (diagnostic : Diagnostic) : Text :=
  "warning: ".toList ++ decimal diagnostic.line.toNat ++ ':' :: decimal diagnostic.column.toNat ++
    ": ".toList ++ diagnostic.message ++ ['\n']

/-- The descriptors of a report as JSON text. -/
def linesText (pretty : Bool) (report : Report) : Text :=
  if pretty then (linesToJson report.lines).pretty else (linesToJson report.lines).compact

section

variable {m : Type → Type} [Monad m]

/-- Reads a script from a file or the standard input. -/
def readScript (host : Host m) (path : Text) : m (Except Failure Text) := do
  if isStandardInput path then
    match (← host.readInput).bind textOfBytes? with
    | some script => return .ok script
    | none => return .error .unreadableInput
  else
    match (← host.readFile path).bind textOfBytes? with
    | some script => return .ok script
    | none => return .error (.unreadableScript path)

/-- Reads the options of a compilation; there is none to read without a path. -/
def loadOptions (host : Host m) (path : Option Text) : m (Except Failure Options) := do
  match path with
  | none => return .ok {}
  | some path =>
    match (← host.readFile path).bind textOfBytes? with
    | none => return .error (.unreadableConfig path)
    | some text =>
      match Options.ofJson text with
      | .ok options => return .ok options
      | .error _ => return .error (.invalidConfig path)

/-- The options of a job, on which the command line has the last word. -/
def CompileJob.adjust (job : CompileJob) (options : Options) : Options :=
  if job.legacyScan then { options with scanMode := .legacy } else options

/-- Compiles a script and writes its descriptors. -/
def runCompile (host : Host m) (job : CompileJob) : m Ending := do
  match ← loadOptions host job.config with
  | .error failure => return .failed [] failure
  | .ok options =>
    match ← readScript host job.input with
    | .error failure => return .failed [] failure
    | .ok script =>
      let report := compile (job.adjust options) script
      let warnings := if job.diagnostics then report.diagnostics.flatMap warning else []
      let text := linesText job.pretty report
      match job.output with
      | none => return ⟨0, text ++ ['\n'], warnings⟩
      | some path =>
        if ← host.writeFile path (bytesOfText text) then return ⟨0, [], warnings⟩
        else return .failed warnings (.unwritableOutput path)

/-- Lists the tokens of the beats of a script. -/
def runTokens (host : Host m) (job : TokensJob) : m Ending := do
  match ← readScript host job.input with
  | .error failure => return .failed [] failure
  | .ok script =>
    let mode := if job.legacyScan then .legacy else .boundaryPreserving
    return ⟨0, (tokensToJson mode script).pretty ++ ['\n'], []⟩

/-- Runs the program with the given arguments. -/
def run (host : Host m) (arguments : List Text) : m Ending :=
  match Request.ofArguments? arguments with
  | none => return .misused
  | some .help => return .helped
  | some .version => return .versioned
  | some (.compile job) => runCompile host job
  | some (.tokens job) => runTokens host job

end

end Storyboard.CommandLine
