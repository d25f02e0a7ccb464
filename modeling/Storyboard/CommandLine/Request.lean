import Storyboard.Text

/-!
# Requests on the command line

The arguments are read from left to right. The first fault, or the first question for help,
decides; an option that is given twice, or without a value that it needs, is a fault.
-/

namespace Storyboard.CommandLine

/-- What to compile, and how. -/
structure CompileJob where
  input : Text
  output : Option Text
  config : Option Text
  pretty : Bool
  legacyScan : Bool
  diagnostics : Bool
  deriving DecidableEq

/-- Which script to list the tokens of, and how. -/
structure TokensJob where
  input : Text
  legacyScan : Bool
  deriving DecidableEq

/-- What the command line asks for. -/
inductive Request
  | help
  | version
  | compile (job : CompileJob)
  | tokens (job : TokensJob)
  deriving DecidableEq

/-- Why reading the arguments stops early. -/
inductive Stop
  | help
  | misuse
  deriving DecidableEq

/-- The options of a command, and whether they take a value. -/
abbrev OptionTable := List (Text × Bool)

/-- The options of `compile`. -/
def compileOptions : OptionTable :=
  [("input".toList, true), ("out".toList, true), ("config".toList, true),
    ("pretty".toList, false), ("legacy-scan".toList, false), ("diagnostics".toList, false)]

/-- The options of `tokens`. -/
def tokensOptions : OptionTable :=
  [("input".toList, true), ("legacy-scan".toList, false)]

/-- The name of a long option, and the value attached to it after an equals sign. -/
def splitOption (body : Text) : Text × Option Text :=
  (body.takeWhile (· != '='), (body.dropWhile (· != '=')).tail?)

/-- Whether an argument can be the value of the option before it. -/
def isValue (argument : Text) : Bool :=
  argument == ['-'] || (!argument.isEmpty && argument.head? != some '-')

/-- Reads the options of a command, given those that were read before. Options without a value are
listed with an empty one. -/
def readOptions (table : OptionTable) (given : List (Text × Text)) :
    List Text → Except Stop (List (Text × Text))
  | [] => .ok given
  | ['-', '-'] :: rest => if rest.isEmpty then .ok given else .error .misuse
  | ('-' :: '-' :: body) :: rest =>
    let (name, attached) := splitOption body
    if name = "help".toList ∧ attached = none then .error .help
    else if (given.lookup name).isSome then .error .misuse
    else
      match table.lookup name, attached with
      | some false, none => readOptions table ((name, []) :: given) rest
      | some true, some value =>
        if value.isEmpty then .error .misuse
        else readOptions table ((name, value) :: given) rest
      | some true, none =>
        match rest with
        | value :: later =>
          if isValue value then readOptions table ((name, value) :: given) later
          else .error .misuse
        | [] => .error .misuse
      | _, _ => .error .misuse
  | ('-' :: 'h' :: _) :: _ => .error .help
  | _ => .error .misuse

/-- The job of `compile` with the given options, if there is an input. -/
def CompileJob.ofOptions? (given : List (Text × Text)) : Option CompileJob :=
  (given.lookup "input".toList).map fun input =>
    { input
      output := given.lookup "out".toList
      config := given.lookup "config".toList
      pretty := (given.lookup "pretty".toList).isSome
      legacyScan := (given.lookup "legacy-scan".toList).isSome
      diagnostics := (given.lookup "diagnostics".toList).isSome }

/-- The job of `tokens` with the given options, if there is an input. -/
def TokensJob.ofOptions? (given : List (Text × Text)) : Option TokensJob :=
  (given.lookup "input".toList).map fun input =>
    { input, legacyScan := (given.lookup "legacy-scan".toList).isSome }

/-- The request of a command whose options have been read. -/
def Request.ofReading (request : List (Text × Text) → Option Request) :
    Except Stop (List (Text × Text)) → Option Request
  | .ok given => request given
  | .error .help => some .help
  | .error .misuse => none

/-- The commands of the program. -/
def commands : List Text := ["compile".toList, "tokens".toList, "help".toList]

/-- What the arguments ask for, if they can be understood. -/
def Request.ofArguments? : List Text → Option Request
  | [] => none
  | first :: rest =>
    if first = "compile".toList then
      ofReading (fun given => (CompileJob.ofOptions? given).map .compile)
        (readOptions compileOptions [] rest)
    else if first = "tokens".toList then
      ofReading (fun given => (TokensJob.ofOptions? given).map .tokens)
        (readOptions tokensOptions [] rest)
    else if first = "help".toList then
      match rest with
      | [] => some .help
      | [command] => if commands.contains command then some .help else none
      | _ => none
    else if first = "--version".toList then some .version
    else if first = "--help".toList then some .help
    else
      match first with
      | '-' :: 'V' :: _ => some .version
      | '-' :: 'h' :: _ => some .help
      | _ => none

end Storyboard.CommandLine
