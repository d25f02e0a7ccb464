import Storyboard.Assembly
import Storyboard.Options
import Storyboard.Script

/-!
# Compiling a script

Each beat of a script is compiled on its own: its tokens become descriptors, and whatever is
missing becomes a diagnostic. Compilation depends on nothing but the script and the options and
never fails.
-/

namespace Storyboard

/-- The descriptors of each beat, and what was found missing in all of them. -/
structure Report where
  lines : List (List Descriptor)
  diagnostics : List Diagnostic

namespace ScriptLine

/-- The tokens of a line, each with its outcome. -/
def outcomes (options : Options) (line : ScriptLine) : List (Token × Outcome) :=
  Assembly.outcomes options.scanMode line.text

/-- The descriptors of a line, in the order of their keywords. -/
def descriptors (options : Options) (line : ScriptLine) : List Descriptor :=
  (line.outcomes options).filterMap fun entry => entry.2.descriptor?

/-- The diagnostics of a line, in the order of their keywords. -/
def diagnostics (options : Options) (line : ScriptLine) : List Diagnostic :=
  (line.outcomes options).filterMap fun entry =>
    entry.2.issue?.map fun issue => Diagnostic.ofToken issue line.number line.text entry.1

end ScriptLine

/-- The descriptors of a single line, whether or not it states a duration. -/
def compileLine (options : Options) (text : Text) : List Descriptor :=
  ScriptLine.descriptors options ⟨1, text⟩

/-- The descriptors and diagnostics of all beats of a script. -/
def compile (options : Options) (script : Text) : Report where
  lines := (beats script).map fun line => line.descriptors options
  diagnostics := (beats script).flatMap fun line => line.diagnostics options

end Storyboard
