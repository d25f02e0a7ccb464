import Mathlib.Data.List.Basic
import Mathlib.Data.List.Forall2
import Storyboard.Proofs.Margins

/-!
# Line endings and indentation

Every line of a script can be given a margin of white space on either side. Margins make no line a
beat and unmake none, so the report has the same entries. Margins on the right, such as the carriage
returns of another line ending, leave no trace at all, and margins on the left move the diagnostics
of their lines by as many columns as they have characters.
-/

namespace Storyboard

/-- White space that stays on its line. -/
structure Margin where
  text : Text
  allBlank : text.AllBlank
  lineFeed_not_mem : '\n' ∉ text

namespace Margin

/-- The margin without characters. -/
def none : Margin := ⟨[], Text.AllBlank.nil, List.not_mem_nil⟩

/-- A carriage return, as in front of the line feed of some line endings. -/
def carriageReturn : Margin where
  text := ['\r']
  allBlank := by decide
  lineFeed_not_mem := by decide

end Margin

namespace ScriptLine

/-- A line between the margins for its number. -/
def withMargins (left right : Nat → Margin) (line : ScriptLine) : ScriptLine :=
  { line with text := (left line.number).text ++ (line.text ++ (right line.number).text) }

/-- Numbering keeps the texts of the lines. -/
theorem map_text_numbered (number : Nat) (texts : List Text) :
    (numbered number texts).map ScriptLine.text = texts := by
  induction texts generalizing number with
  | nil => rfl
  | cons text later ih => rw [numbered, List.map_cons, ih]

/-- Lines keep their numbers when they get margins. -/
theorem numbered_map_withMargins (left right : Nat → Margin) (number : Nat) (texts : List Text) :
    numbered number ((numbered number texts).map fun line => (line.withMargins left right).text) =
      (numbered number texts).map (withMargins left right) := by
  induction texts generalizing number with
  | nil => rfl
  | cons text later ih =>
    rw [numbered, List.map_cons, numbered, ih, List.map_cons]
    rfl

end ScriptLine

namespace Text

/-- A script with margins on both sides of its lines, chosen by the line numbers. -/
def withMargins (left right : Nat → Margin) (script : Text) : Text :=
  ['\n'].intercalate
    ((scriptLines script).map fun line => (line.withMargins left right).text)

/-- A script with a margin in front of each line feed. -/
def withLineEnding (ending : Margin) (script : Text) : Text :=
  script.flatMap fun c => if c = '\n' then ending.text ++ ['\n'] else [c]

/-- The lines of a text are what it is split into at its line feeds. -/
theorem lines_eq_splitOn (t : Text) : t.lines = t.splitOn '\n' :=
  pieces_eq_splitOn '\n' t

/-- Lines hold no line feed. -/
theorem lineFeed_not_mem_of_mem_lines {t piece : Text} (h : piece ∈ t.lines) : '\n' ∉ piece := by
  induction t generalizing piece with
  | nil =>
    obtain rfl := List.mem_singleton.mp h
    exact List.not_mem_nil
  | cons c rest ih =>
    obtain ⟨first, others, hlines⟩ := exists_lines_eq_cons rest
    rw [lines_cons hlines] at h
    rw [hlines] at ih
    split at h
    next =>
      rcases List.mem_cons.mp h with rfl | h
      · exact List.not_mem_nil
      · exact ih h
    next hc =>
      rcases List.mem_cons.mp h with rfl | h
      · have hfirst := ih List.mem_cons_self
        simp [hfirst, Ne.symm hc]
      · exact ih (List.mem_cons_of_mem first h)

/-- Lines that are joined by line feeds are found again. -/
theorem lines_intercalate {pieces : List Text} (h : ∀ piece ∈ pieces, '\n' ∉ piece)
    (hne : pieces ≠ []) : lines (['\n'].intercalate pieces) = pieces := by
  rw [lines_eq_splitOn, List.splitOn_intercalate '\n' h hne]

/-- A text without line feeds is one line. -/
theorem lines_eq_singleton {t : Text} (h : '\n' ∉ t) : t.lines = [t] := by
  have hone : lines (['\n'].intercalate [t]) = [t] :=
    lines_intercalate (by simpa using h) (List.cons_ne_nil t [])
  simpa using hone

section

variable (left right : Nat → Margin) (script : Text)

/-- Margins keep lines apart as they were. -/
theorem lines_withMargins :
    (script.withMargins left right).lines =
      (scriptLines script).map fun line => (line.withMargins left right).text := by
  refine lines_intercalate (fun piece hpiece => ?_) ?_
  · obtain ⟨line, hline, rfl⟩ := List.mem_map.mp hpiece
    have htext := lineFeed_not_mem_of_mem_lines
      (List.mem_of_getElem? (ScriptLine.getElem?_of_mem_numbered hline))
    simp [ScriptLine.withMargins, htext, (left line.number).lineFeed_not_mem,
      (right line.number).lineFeed_not_mem]
  · obtain ⟨first, others, hlines⟩ := exists_lines_eq_cons script
    simp [scriptLines, hlines, ScriptLine.numbered]

/-- The lines of a script with margins are its lines between their margins. -/
theorem scriptLines_withMargins :
    scriptLines (script.withMargins left right) =
      (scriptLines script).map (ScriptLine.withMargins left right) := by
  rw [scriptLines, lines_withMargins]
  exact ScriptLine.numbered_map_withMargins left right 1 script.lines

end

/-- A margin in front of each line feed makes a longer separator. -/
theorem withLineEnding_eq_intercalate (ending : Margin) (script : Text) :
    script.withLineEnding ending = (ending.text ++ ['\n']).intercalate script.lines := by
  induction script with
  | nil => rfl
  | cons c rest ih =>
    obtain ⟨first, others, hlines⟩ := exists_lines_eq_cons rest
    rw [hlines, withLineEnding] at ih
    rw [withLineEnding, List.flatMap_cons, ih, lines_cons hlines]
    split
    · rw [List.intercalate_cons_cons]
      rfl
    · cases others with
      | nil => simp
      | cons second others => simp [List.intercalate_cons_cons]

end Text

/-- Lines that all but the last have a margin on the right are joined by it and a line feed. -/
theorem ScriptLine.intercalate_numbered_withMargins (ending : Margin) {number last : Nat}
    {texts : List Text} (hlast : number + texts.length = last + 1) :
    ['\n'].intercalate ((numbered number texts).map fun line =>
        (line.withMargins (fun _ => Margin.none)
          (fun n => if n < last then ending else Margin.none)).text) =
      (ending.text ++ ['\n']).intercalate texts := by
  induction texts generalizing number with
  | nil => rfl
  | cons text later ih =>
    rw [List.length_cons] at hlast
    cases later with
    | nil =>
      have hstop : ¬ number < last := by
        simp only [List.length_nil] at hlast
        omega
      simp [numbered, withMargins, hstop, Margin.none]
    | cons next later =>
      have hlater : number + 1 + (next :: later).length = last + 1 := by omega
      have hgo : number < last := by
        simp only [List.length_cons] at hlast
        omega
      have hrest := ih hlater
      rw [numbered, List.map_cons] at hrest
      rw [numbered, numbered, List.map_cons, List.map_cons, List.intercalate_cons_cons, hrest,
        List.intercalate_cons_cons]
      simp [withMargins, hgo, Margin.none]

namespace Text

/-- Another line ending is a margin on the right of all lines but the last. -/
theorem withLineEnding_eq_withMargins (ending : Margin) (script : Text) :
    script.withLineEnding ending =
      script.withMargins (fun _ => Margin.none)
        (fun n => if n < script.lines.length then ending else Margin.none) := by
  rw [withLineEnding_eq_intercalate, withMargins, scriptLines,
    ScriptLine.intercalate_numbered_withMargins ending (Nat.add_comm 1 _)]

/-- A script whose lines with margins fit into 32 bits does so itself. -/
theorem FitsLocations.of_withMargins {left right : Nat → Margin} {script : Text}
    (h : (script.withMargins left right).FitsLocations) : script.FitsLocations := by
  have htexts : (scriptLines script).map ScriptLine.text = script.lines :=
    ScriptLine.map_text_numbered 1 script.lines
  have hlines := h.lines_lt
  have hcolumns := h.columns_lt
  rw [lines_withMargins] at hlines hcolumns
  refine ⟨?_, fun piece hpiece => ?_⟩
  · rwa [List.length_map, ← List.length_map ScriptLine.text, htexts] at hlines
  · rw [← htexts] at hpiece
    obtain ⟨line, hline, rfl⟩ := List.mem_map.mp hpiece
    have hlonger := hcolumns _ (List.mem_map_of_mem hline)
    simp only [ScriptLine.withMargins, List.length_append] at hlonger
    omega

end Text

/-- A margin on the left moves the column of a token by as many characters as it has. -/
theorem Token.StandsIn.column_indent {line : Text} {token : Token} (h : StandsIn line token)
    (before after : Text) :
    (token.indent before).column (before ++ (line ++ after)) =
      token.column line + before.length := by
  have hle : token.keywordOffset ≤ Text.byteSize line :=
    Text.le_byteSize_of_isCut h.cutsIn.keywordOffset
  have hoffset : (token.indent before).keywordOffset =
      Text.byteSize before + token.keywordOffset := rfl
  rw [column, column, hoffset, Text.takeBytes_append_of_le _ _ (Nat.le_add_right _ _),
    Nat.add_sub_cancel_left, Text.takeBytes_append_of_ge _ _ hle, List.length_append]
  omega

namespace Diagnostic

/-- The same diagnostic in a line with more characters in front. Its column wraps around at 32
bits. -/
def indent (count : Nat) (diagnostic : Diagnostic) : Diagnostic :=
  { diagnostic with column := diagnostic.column + UInt32.ofNat count }

/-- A diagnostic that is moved by no column stays as it is. -/
@[simp] theorem indent_zero (diagnostic : Diagnostic) : diagnostic.indent 0 = diagnostic := by
  simp [indent]

/-- The diagnostic of a token that is moved is moved with it. -/
theorem ofToken_indent {line : Text} {token : Token} (h : Token.StandsIn line token)
    (issue : Issue) (number : Nat) (before after : Text) :
    ofToken issue number (before ++ (line ++ after)) (token.indent before) =
      (ofToken issue number line token).indent before.length := by
  have hcolumn := congrArg UInt32.ofNat (h.column_indent before after)
  rw [UInt32.ofNat_add] at hcolumn
  exact congrArg (fun column => Diagnostic.mk issue (UInt32.ofNat number) column token.keyword
    (issue.message token.keyword)) hcolumn

end Diagnostic

namespace ScriptLine

variable (options : Options) (left right : Nat → Margin) (line : ScriptLine)

/-- Margins make no line a beat and unmake none. -/
theorem isBeat_withMargins : (line.withMargins left right).isBeat = line.isBeat :=
  Prose.statesDuration_padded (left line.number).allBlank.isDelimiter (right line.number).allBlank
    line.text

/-- The tokens of a line with margins have the outcomes they had, further to the right. -/
theorem outcomes_withMargins :
    (line.withMargins left right).outcomes options =
      (line.outcomes options).map fun entry =>
        (entry.1.indent (left line.number).text, entry.2) :=
  Assembly.outcomes_padded (left line.number).allBlank (right line.number).allBlank
    options.scanMode line.text

/-- A line between margins has the same descriptors. -/
theorem descriptors_withMargins :
    (line.withMargins left right).descriptors options = line.descriptors options := by
  rw [descriptors, descriptors, outcomes_withMargins, List.filterMap_map]
  rfl

/-- The diagnostics of a line move by its left margin. -/
theorem diagnostics_withMargins :
    (line.withMargins left right).diagnostics options =
      (line.diagnostics options).map (Diagnostic.indent (left line.number).text.length) := by
  rw [diagnostics, diagnostics, outcomes_withMargins, List.filterMap_map, List.map_filterMap]
  refine List.filterMap_congr fun entry hentry => ?_
  have hstands := standsIn_of_mem_outcomes hentry
  rw [Function.comp_apply, Option.map_map]
  refine congrArg (fun f => Option.map f entry.2.issue?) (funext fun issue => ?_)
  exact Diagnostic.ofToken_indent hstands issue line.number _ _

end ScriptLine

/-- The beats of a script with margins are its beats between their margins. -/
theorem beats_withMargins (left right : Nat → Margin) (script : Text) :
    beats (script.withMargins left right) =
      (beats script).map (ScriptLine.withMargins left right) := by
  rw [beats, beats, Text.scriptLines_withMargins, List.filter_map]
  refine congrArg (List.map _) (List.filter_congr fun line _ => ?_)
  exact ScriptLine.isBeat_withMargins left right line

/-- The report of a script with margins. -/
theorem compile_withMargins (options : Options) (left right : Nat → Margin) (script : Text) :
    compile options (script.withMargins left right) =
      ⟨(compile options script).lines,
        (beats script).flatMap fun beat =>
          (beat.diagnostics options).map
            (Diagnostic.indent (left beat.number).text.length)⟩ := by
  rw [compile, beats_withMargins, List.map_map, List.flatMap_map]
  simp only [Function.comp_def, ScriptLine.descriptors_withMargins,
    ScriptLine.diagnostics_withMargins]
  rfl

section

variable (options : Options) (left right : Nat → Margin) {script : Text}

/-- Below 2^32 lines, the margin that a diagnostic moves by is found from its line number. -/
theorem map_indent_diagnostics (h : script.FitsLocations) :
    (compile options (script.withMargins left right)).diagnostics =
      (compile options script).diagnostics.map fun diagnostic =>
        diagnostic.indent (left diagnostic.line.toNat).text.length := by
  rw [compile_withMargins, compile, List.map_flatMap]
  refine List.flatMap_congr fun beat hbeat => List.map_congr_left fun diagnostic hdiagnostic => ?_
  rw [line_of_mem_diagnostics hdiagnostic, h.toNat_number hbeat]

/-- The column of a diagnostic grows by the left margin of its line, as long as the line fits into
32 bits with its margins. -/
theorem toNat_column_indent (h : (script.withMargins left right).FitsLocations)
    {diagnostic : Diagnostic} (hdiagnostic : diagnostic ∈ (compile options script).diagnostics) :
    (diagnostic.indent (left diagnostic.line.toNat).text.length).column.toNat =
      diagnostic.column.toNat + (left diagnostic.line.toNat).text.length := by
  obtain ⟨beat, hbeat, hmem⟩ := List.mem_flatMap.mp hdiagnostic
  have hnumber : diagnostic.line.toNat = beat.number := by
    rw [line_of_mem_diagnostics hmem, h.of_withMargins.toNat_number hbeat]
  obtain ⟨token, issue, hstands, rfl⟩ := ScriptLine.exists_token_of_mem_diagnostics hmem
  have hcolumn := ScriptLine.toNat_column_ofToken hstands (h.of_withMargins.length_text hbeat) issue
  have hle := hstands.column_le_length
  have hmargin : (beat.withMargins left right).text.length < UInt32.size := by
    refine h.length_text ?_
    rw [beats_withMargins]
    exact List.mem_map_of_mem hbeat
  simp only [ScriptLine.withMargins, List.length_append] at hmargin
  have hindent : (UInt32.ofNat (left beat.number).text.length).toNat =
      (left beat.number).text.length := UInt32.toNat_ofNat_of_lt' (by omega)
  rw [hnumber, Diagnostic.indent, UInt32.toNat_add, hcolumn, hindent]
  have hsize : UInt32.size = 2 ^ 32 := rfl
  exact Nat.mod_eq_of_lt (by omega)

end

/-- Line endings and indentation do not matter. Whatever white space is put behind the lines of a
script, line by line or in front of each line feed, the report is the same. White space in front of
the lines leaves the entries of the report as they are, and the column of each diagnostic grows by
the characters in front of its line: in the arithmetic of 32 bits for any script, and as a number
where the lines and columns of the indented script fit into 32 bits. -/
theorem margins_do_not_matter (options : Options) (script : Text) (margins : Nat → Margin) :
    compile options (script.withMargins (fun _ => .none) margins) = compile options script ∧
    (∀ ending, compile options (script.withLineEnding ending) = compile options script) ∧
    (compile options (script.withMargins margins fun _ => .none)).lines =
      (compile options script).lines ∧
    (compile options (script.withMargins margins fun _ => .none)).diagnostics =
      ((beats script).flatMap fun beat =>
        (beat.diagnostics options).map (Diagnostic.indent (margins beat.number).text.length)) ∧
    ((script.withMargins margins fun _ => .none).FitsLocations →
      List.Forall₂
        (fun diagnostic moved =>
          moved = { diagnostic with column := moved.column } ∧
            moved.column.toNat =
              diagnostic.column.toNat + (margins diagnostic.line.toNat).text.length)
        (compile options script).diagnostics
        (compile options (script.withMargins margins fun _ => .none)).diagnostics) := by
  have hright (margins : Nat → Margin) :
      compile options (script.withMargins (fun _ => .none) margins) = compile options script := by
    have hzero : Diagnostic.indent 0 = id := funext Diagnostic.indent_zero
    rw [compile_withMargins]
    simp [Margin.none, compile, hzero]
  refine ⟨hright margins, fun ending => ?_, ?_, ?_, fun h => ?_⟩
  · rw [Text.withLineEnding_eq_withMargins, hright]
  · rw [compile_withMargins]
  · rw [compile_withMargins]
  · rw [map_indent_diagnostics options margins _ h.of_withMargins, List.forall₂_map_right_iff,
      List.forall₂_same]
    exact fun diagnostic hdiagnostic => ⟨rfl, toNat_column_indent options margins _ h hdiagnostic⟩

/-- A tab and an ideographic space in front of the second line move its two diagnostics by two
columns, and carriage returns move none. -/
theorem margins_do_not_matter_tab :
    let script : Text := "title\n5 seconds fondo azul, 📢".toList
    let tab : Margin := ⟨"\t\u3000".toList, by decide, by decide⟩
    let margins : Nat → Margin := fun number => if number = 2 then tab else .none
    let indented : Text := script.withMargins margins fun _ => .none
    indented = "title\n\t\u30005 seconds fondo azul, 📢".toList ∧ indented.FitsLocations ∧
    script.withLineEnding .carriageReturn = "title\r\n5 seconds fondo azul, 📢".toList ∧
    compile {} (script.withLineEnding .carriageReturn) = compile {} script ∧
    (compile {} indented).lines = (compile {} script).lines ∧
    List.Forall₂
      (fun diagnostic moved =>
        moved = { diagnostic with column := moved.column } ∧
          moved.column.toNat =
            diagnostic.column.toNat + (margins diagnostic.line.toNat).text.length)
      (compile {} script).diagnostics (compile {} indented).diagnostics ∧
    (compile {} indented).diagnostics.map
      (fun diagnostic => (diagnostic.line, diagnostic.column)) = [(2, 13), (2, 25)] := by
  intro script tab margins indented
  have hindented : indented = "title\n\t\u30005 seconds fondo azul, 📢".toList := by decide
  have hfits : indented.FitsLocations := ⟨by decide, by decide⟩
  obtain ⟨_, hending, hlines, _, hmoved⟩ := margins_do_not_matter {} script margins
  exact ⟨hindented, hfits, by decide, hending .carriageReturn, hlines, hmoved hfits,
    by rw [hindented]; decide +kernel⟩

end Storyboard
