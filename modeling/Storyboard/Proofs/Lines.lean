import Storyboard.Proofs.Beats

/-!
# Compiling line by line

A script falls into lines at its line feeds, and each beat is compiled without a look at any other
line. The report of a script with another one below it is therefore made up of the reports of the
two, in which only the line numbers of the lower script have grown. Lines that state no duration
leave nothing in a report but these numbers.
-/

namespace Storyboard

namespace Text

/-- There is always at least one line. -/
theorem exists_lines_eq_cons (t : Text) : ∃ first others, t.lines = first :: others :=
  exists_pieces_eq_cons '\n' t

/-- A line feed ends the first line, and any other character goes on with it. -/
theorem lines_cons {c : Char} {rest first : Text} {others : List Text}
    (h : rest.lines = first :: others) :
    lines (c :: rest) = if c = '\n' then [] :: first :: others else (c :: first) :: others :=
  pieces_cons h

/-- A line feed between two texts keeps their lines apart. -/
theorem lines_append_lineFeed (a b : Text) : (a ++ '\n' :: b).lines = a.lines ++ b.lines := by
  induction a with
  | nil =>
    obtain ⟨first, others, hlines⟩ := exists_lines_eq_cons b
    rw [List.nil_append, lines_cons hlines, if_pos rfl, hlines]
    rfl
  | cons c a ih =>
    obtain ⟨first, others, hlines⟩ := exists_lines_eq_cons a
    have hboth : lines (a ++ '\n' :: b) = first :: (others ++ b.lines) := by
      rw [ih, hlines, List.cons_append]
    rw [List.cons_append, lines_cons hboth, lines_cons hlines]
    split <;> rfl

/-- There is one line more than there are line feeds. -/
theorem length_lines (t : Text) : t.lines.length = t.count '\n' + 1 := by
  induction t with
  | nil => rfl
  | cons c rest ih =>
    obtain ⟨first, others, hlines⟩ := exists_lines_eq_cons rest
    rw [hlines] at ih
    rw [lines_cons hlines]
    split
    next h =>
      rw [h, List.count_cons_self, ← ih]
      rfl
    next h =>
      rw [List.count_cons_of_ne h, ← ih]
      rfl

end Text

/-- The same line further down in a script. -/
def ScriptLine.shiftDown (count : Nat) (line : ScriptLine) : ScriptLine :=
  { line with number := line.number + count }

namespace Diagnostic

/-- The same diagnostic further down in a script. Its line number wraps around at 32 bits. -/
def shiftDown (count : Nat) (diagnostic : Diagnostic) : Diagnostic :=
  { diagnostic with line := diagnostic.line + UInt32.ofNat count }

/-- A diagnostic moves down with its line. -/
theorem ofToken_add (issue : Issue) (number count : Nat) (text : Text) (token : Token) :
    ofToken issue (number + count) text token =
      (ofToken issue number text token).shiftDown count := by
  simp [ofToken, shiftDown, UInt32.ofNat_add]

/-- Diagnostics that move down twice move down by the sum. -/
theorem shiftDown_shiftDown (first second : Nat) (diagnostic : Diagnostic) :
    (diagnostic.shiftDown first).shiftDown second = diagnostic.shiftDown (first + second) := by
  simp [shiftDown, UInt32.ofNat_add, UInt32.add_assoc]

end Diagnostic

namespace Report

/-- The same report further down in a script. -/
def shiftDown (count : Nat) (report : Report) : Report :=
  { report with diagnostics := report.diagnostics.map (Diagnostic.shiftDown count) }

/-- One report followed by another one. -/
instance : Append Report where
  append first second :=
    ⟨first.lines ++ second.lines, first.diagnostics ++ second.diagnostics⟩

/-- The report of a script without beats. -/
def empty : Report := ⟨[], []⟩

/-- Nothing comes of adding an empty report. -/
@[simp] theorem append_empty (report : Report) : report ++ empty = report := by
  change Report.mk (report.lines ++ []) (report.diagnostics ++ []) = report
  rw [List.append_nil, List.append_nil]

/-- Nothing comes of adding to an empty report. -/
@[simp] theorem empty_append (report : Report) : empty ++ report = report := rfl

/-- An empty report stays empty further down. -/
@[simp] theorem shiftDown_empty (count : Nat) : empty.shiftDown count = empty := rfl

/-- Reports that move down twice move down by the sum. -/
theorem shiftDown_shiftDown (first second : Nat) (report : Report) :
    (report.shiftDown first).shiftDown second = report.shiftDown (first + second) := by
  simp [shiftDown, Diagnostic.shiftDown_shiftDown, Function.comp_def]

end Report

namespace ScriptLine

/-- Lines behind others are numbered on from their end. -/
theorem numbered_append (number : Nat) (texts more : List Text) :
    numbered number (texts ++ more) =
      numbered number texts ++ numbered (number + texts.length) more := by
  induction texts generalizing number with
  | nil => rfl
  | cons text later ih =>
    rw [List.cons_append, numbered, numbered, ih, List.cons_append, List.length_cons,
      Nat.add_assoc, Nat.add_comm 1]

/-- Lines that are numbered from a later start are further down. -/
theorem numbered_add (number count : Nat) (texts : List Text) :
    numbered (number + count) texts = (numbered number texts).map (shiftDown count) := by
  induction texts generalizing number with
  | nil => rfl
  | cons text later ih =>
    rw [numbered, numbered, List.map_cons, ← ih, Nat.add_right_comm]
    rfl

/-- Lines that move down twice move down by the sum. -/
theorem shiftDown_shiftDown (first second : Nat) (line : ScriptLine) :
    (line.shiftDown first).shiftDown second = line.shiftDown (first + second) := by
  simp [shiftDown, Nat.add_assoc]

variable (options : Options)

/-- The diagnostics of a line know nothing of where it stands but its number. -/
theorem diagnostics_shiftDown (count : Nat) (line : ScriptLine) :
    (line.shiftDown count).diagnostics options =
      (line.diagnostics options).map (Diagnostic.shiftDown count) := by
  rw [diagnostics, diagnostics, List.map_filterMap]
  have hentry (entry : Token × Outcome) :
      (entry.2.issue?.map fun issue =>
          Diagnostic.ofToken issue (line.number + count) line.text entry.1) =
        (entry.2.issue?.map fun issue =>
          Diagnostic.ofToken issue line.number line.text entry.1).map
            (Diagnostic.shiftDown count) := by
    rw [Option.map_map]
    cases entry.2.issue? with
    | none => rfl
    | some issue =>
      exact congrArg some (Diagnostic.ofToken_add issue line.number count line.text entry.1)
  exact congrArg (fun report => List.filterMap report _) (funext hentry)

end ScriptLine

/-- The beats of two scripts, one below the other. -/
theorem beats_append_lineFeed (a b : Text) :
    beats (a ++ '\n' :: b) =
      beats a ++ (beats b).map (ScriptLine.shiftDown (a.count '\n' + 1)) := by
  rw [beats, beats, beats, scriptLines, scriptLines, scriptLines, Text.lines_append_lineFeed,
    ScriptLine.numbered_append, ScriptLine.numbered_add, Text.length_lines, List.filter_append,
    List.filter_map]
  rfl

/-- Empty lines above a script are no beats and only move the others down. -/
theorem beats_replicate_append (count : Nat) (script : Text) :
    beats (List.replicate count '\n' ++ script) =
      (beats script).map (ScriptLine.shiftDown count) := by
  induction count with
  | zero => exact (List.map_id _).symm
  | succ count ih =>
    have hnil : beats [] = [] := by decide
    rw [List.replicate_succ, List.cons_append, ← List.nil_append ('\n' :: _),
      beats_append_lineFeed, hnil, List.nil_append, ih, List.map_map]
    refine List.map_congr_left fun beat _ => ?_
    rw [Function.comp_apply, ScriptLine.shiftDown_shiftDown, List.count_nil, Nat.zero_add]

/-- A script none of whose lines states a duration has no beats. -/
theorem beats_eq_nil {script : Text}
    (h : ∀ piece ∈ script.lines, Prose.statesDuration piece = false) : beats script = [] := by
  refine List.filter_eq_nil_iff.mpr fun line hline => ?_
  have hsilent := h line.text (List.mem_of_getElem? (ScriptLine.getElem?_of_mem_numbered hline))
  simp [ScriptLine.isBeat, hsilent]

/-- A script without beats leaves nothing in the report. -/
theorem compile_of_beats_eq_nil {options : Options} {script : Text} (h : beats script = []) :
    compile options script = Report.empty := by
  rw [compile, h]
  rfl

/-- Each beat is compiled as a line of its own. -/
theorem lines_compile (options : Options) (script : Text) :
    (compile options script).lines =
      (beats script).map fun beat => compileLine options beat.text := rfl

/-- The report of two scripts, one below the other. -/
theorem compile_append (options : Options) (a b : Text) :
    compile options (a ++ '\n' :: b) =
      compile options a ++ (compile options b).shiftDown (a.count '\n' + 1) := by
  have hlines : (compile options (a ++ '\n' :: b)).lines =
      (compile options a).lines ++ (compile options b).lines := by
    rw [lines_compile, lines_compile, lines_compile, beats_append_lineFeed, List.map_append,
      List.map_map]
    rfl
  have hdiagnostics : (compile options (a ++ '\n' :: b)).diagnostics =
      (compile options a).diagnostics ++
        (compile options b).diagnostics.map (Diagnostic.shiftDown (a.count '\n' + 1)) := by
    simp only [compile, beats_append_lineFeed, List.flatMap_append, List.flatMap_map,
      List.map_flatMap, ScriptLine.diagnostics_shiftDown]
  exact congr (congrArg Report.mk hlines) hdiagnostics

/-- Compilation is compositional over lines. A script with another one below it has the entries and
the diagnostics of both, those of the lower one with line numbers that have grown by the lines
above it, and the entry of each beat is what the beat compiles to on its own. Lines that state no
duration can therefore be put in or taken out above, below and in between: this only shifts the
line numbers of what comes after them. -/
theorem compile_append_lineFeed (options : Options) (a b : Text) :
    compile options (a ++ '\n' :: b) =
      compile options a ++ (compile options b).shiftDown (a.count '\n' + 1) ∧
    (∀ script, (compile options script).lines =
      (beats script).map fun beat => compileLine options beat.text) ∧
    ∀ c : Text, (∀ piece ∈ c.lines, Prose.statesDuration piece = false) →
      compile options (a ++ '\n' :: c) = compile options a ∧
      compile options (c ++ '\n' :: b) = (compile options b).shiftDown (c.count '\n' + 1) ∧
      compile options (a ++ '\n' :: (c ++ '\n' :: b)) =
        compile options a ++
          ((compile options b).shiftDown (a.count '\n' + 1)).shiftDown (c.count '\n' + 1) := by
  refine ⟨compile_append options a b, lines_compile options, fun c hc => ?_⟩
  have hempty : compile options c = Report.empty := compile_of_beats_eq_nil (beats_eq_nil hc)
  have hlower : compile options (c ++ '\n' :: b) =
      (compile options b).shiftDown (c.count '\n' + 1) := by
    rw [compile_append, hempty, Report.empty_append]
  refine ⟨?_, hlower, ?_⟩
  · rw [compile_append, hempty, Report.shiftDown_empty, Report.append_empty]
  · rw [compile_append, hlower, Report.shiftDown_shiftDown, Report.shiftDown_shiftDown,
      Nat.add_comm]

/-- A note of two lines between two beats moves the diagnostic of the lower beat down, and only that
one. -/
theorem compile_append_lineFeed_notes :
    let upper : Text := "5 seconds background".toList
    let notes : Text := "a note\n".toList
    let lower : Text := "5 seconds fondo".toList
    (∀ piece ∈ notes.lines, Prose.statesDuration piece = false) ∧
    compile {} (upper ++ '\n' :: (notes ++ '\n' :: lower)) =
      compile {} upper ++ ((compile {} lower).shiftDown 1).shiftDown 2 ∧
    (compile {} (upper ++ '\n' :: (notes ++ '\n' :: lower))).diagnostics.map
      (fun diagnostic => (diagnostic.line, diagnostic.column)) = [(1, 11), (4, 11)] := by
  intro upper notes lower
  have hnotes : ∀ piece ∈ notes.lines, Prose.statesDuration piece = false := by decide
  have hreport : compile {} (upper ++ '\n' :: (notes ++ '\n' :: lower)) =
      compile {} upper ++ ((compile {} lower).shiftDown 1).shiftDown 2 :=
    ((compile_append_lineFeed {} upper lower).2.2 notes hnotes).2.2
  refine ⟨hnotes, hreport, ?_⟩
  rw [hreport]
  decide +kernel

end Storyboard
