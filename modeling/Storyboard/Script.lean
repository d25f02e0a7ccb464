import Storyboard.Prose.Duration

/-!
# Scripts

A script is a list of narration beats, one a line. The lines that state a duration are its beats;
all other lines are commentary.
-/

namespace Storyboard

/-- A line of a script with its number, counted from 1. -/
structure ScriptLine where
  number : Nat
  text : Text
  deriving DecidableEq

namespace ScriptLine

/-- Whether a line is a beat. -/
def isBeat (line : ScriptLine) : Bool :=
  Prose.statesDuration line.text

/-- The given texts as lines, numbered from `number` on. -/
def numbered (number : Nat) : List Text → List ScriptLine
  | [] => []
  | text :: later => ⟨number, text⟩ :: numbered (number + 1) later

end ScriptLine

/-- All lines of a script. -/
def scriptLines (script : Text) : List ScriptLine :=
  ScriptLine.numbered 1 script.lines

/-- The beats of a script, in their order. -/
def beats (script : Text) : List ScriptLine :=
  (scriptLines script).filter ScriptLine.isBeat

/-- The lines of a script that are no beats, in their order. -/
def commentary (script : Text) : List ScriptLine :=
  (scriptLines script).filter fun line => !line.isBeat

end Storyboard
