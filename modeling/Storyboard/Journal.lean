import Storyboard.Decimal.Layout
import Storyboard.Report

/-!
# The journal of a compilation

A compilation can be followed step by step. The journal is written while a script is compiled:
first the lines that are no beats are skipped, then, beat by beat, tokens are scanned and what is
missing around them is reported, and at last the report is summed up.
-/

namespace Storyboard

/-- How much detail a journal entry belongs to. -/
inductive Level
  | trace
  | debug
  | info
  deriving DecidableEq

/-- The name of a level. -/
def Level.name : Level → Text
  | trace => "TRACE".toList
  | debug => "DEBUG".toList
  | info => "INFO".toList

/-- The stages of a compilation that make entries. -/
inductive Stage
  | scanner
  | compiler
  deriving DecidableEq

/-- The name of a kind with a capital. -/
def Kind.title (kind : Kind) : Text :=
  match kind.name with
  | [] => []
  | c :: rest => c.toUpper :: rest

/-- An entry of the journal. -/
inductive JournalEntry
  /-- A line that is no beat. -/
  | skipped (number : Nat)
  | scanned (token : Token)
  | reported (diagnostic : Diagnostic)
  /-- The summary: how many beats, descriptors and diagnostics there are. -/
  | compiled (beats descriptors diagnostics : Nat)

namespace JournalEntry

/-- The level of an entry. -/
def level : JournalEntry → Level
  | scanned _ => .trace
  | skipped _ | reported _ => .debug
  | compiled .. => .info

/-- The stage that makes an entry. -/
def stage : JournalEntry → Stage
  | scanned _ => .scanner
  | skipped _ | reported _ | compiled .. => .compiler

/-- The text of an entry. -/
def message : JournalEntry → Text
  | skipped number => "line ".toList ++ decimal number ++ ": no duration, skipped".toList
  | scanned token =>
    "scanned ".toList ++ token.kind.title ++ " '".toList ++ token.keyword ++ "' at ".toList ++
      decimal token.keywordOffset
  | reported diagnostic =>
    "line ".toList ++ decimal diagnostic.line.toNat ++ " col ".toList ++
      decimal diagnostic.column.toNat ++ ": ".toList ++ diagnostic.message ++
      (if diagnostic.issue.drops then " (dropped)".toList else " (incomplete)".toList)
  | compiled beats descriptors diagnostics =>
    "compiled ".toList ++ decimal beats ++ " beats, ".toList ++ decimal descriptors ++
      " descriptors, ".toList ++ decimal diagnostics ++ " diagnostics".toList

end JournalEntry

/-- The summary of a report. -/
def Report.summary (report : Report) : JournalEntry :=
  .compiled report.lines.length report.lines.flatten.length report.diagnostics.length

/-- A computation that writes a journal. -/
abbrev Journaled := StateM (Array JournalEntry)

namespace Journaled

/-- Adds an entry. -/
def note (entry : JournalEntry) : Journaled Unit :=
  modify fun entries => entries.push entry

/-- Tells the beats from the lines to skip. -/
def selectBeats : List ScriptLine → Journaled (List ScriptLine)
  | [] => return []
  | line :: later => do
    if line.isBeat then
      let beats ← selectBeats later
      return line :: beats
    else
      note (.skipped line.number)
      selectBeats later

/-- Makes up the objects of a line, token by token. -/
def assembleTokens (line : ScriptLine) (previous : Option Token) :
    List Token → Journaled (List Descriptor × List Diagnostic)
  | [] => return ([], [])
  | token :: later => do
    let outcome := Assembly.assemble line.text previous token later.head?
    let diagnostic := outcome.issue?.map fun issue =>
      Diagnostic.ofToken issue line.number line.text token
    diagnostic.forM fun found => note (.reported found)
    let (descriptors, diagnostics) ← assembleTokens line (some token) later
    return (outcome.descriptor?.toList ++ descriptors, diagnostic.toList ++ diagnostics)

/-- Scans a beat and makes up its objects. -/
def compileBeat (options : Options) (line : ScriptLine) :
    Journaled (List Descriptor × List Diagnostic) := do
  let tokens := scan options.scanMode line.text
  tokens.forM fun token => note (.scanned token)
  assembleTokens line none tokens

/-- Compiles beats one after the other. -/
def compileBeats (options : Options) : List ScriptLine → Journaled Report
  | [] => return ⟨[], []⟩
  | beat :: later => do
    let (descriptors, diagnostics) ← compileBeat options beat
    let report ← compileBeats options later
    return ⟨descriptors :: report.lines, diagnostics ++ report.diagnostics⟩

/-- Compiles a script: selects its beats, compiles them, and sums up. -/
def compile (options : Options) (script : Text) : Journaled Report := do
  let beats ← selectBeats (scriptLines script)
  let report ← compileBeats options beats
  note report.summary
  return report

end Journaled

/-- All entries about the compilation of a script. -/
def journal (options : Options) (script : Text) : List JournalEntry :=
  ((Journaled.compile options script).run #[]).2.toList

end Storyboard
