import Storyboard.CommandLine.Run

/-!
# The program

The command line on the files and streams of the process.
-/

namespace Storyboard.CommandLine

/-- The value of an action, or nothing if it fails. -/
def attempt {α : Type} (action : IO α) : IO (Option α) := do
  try
    return some (← action)
  catch _ => return none

/-- The host of a process. -/
def processHost : Host IO where
  readFile path := attempt (IO.FS.readBinFile (String.ofList path))
  readInput := attempt do
    let stream ← IO.getStdin
    stream.readBinToEnd
  writeFile path content := do
    return (← attempt (IO.FS.writeBinFile (String.ofList path) content)).isSome

end Storyboard.CommandLine

open Storyboard.CommandLine in
/-- Runs the program on the arguments of the process. -/
def main (arguments : List String) : IO UInt32 := do
  let ending ← run processHost (arguments.map String.toList)
  (← IO.getStderr).putStr (String.ofList ending.errors)
  (← IO.getStdout).putStr (String.ofList ending.output)
  return ending.code
