import Storyboard.Proofs.Beats

/-!
# Where diagnostics point

A diagnostic names a line by its number in the script and a column by the characters in front of
the keyword. As long as both fit into 32 bits, the keyword can be found again from them: the line
is a beat, and the keyword stands alone at the column. The diagnostics of a report come in the
order of these places, so that no two of them point at the same one.
-/

namespace Storyboard

namespace Token

/-- The column at which the keyword of a token begins, counted in characters from 1. -/
def column (line : Text) (token : Token) : Nat :=
  (line.takeBytes token.keywordOffset).length + 1

/-- In front of a keyword come the characters before its column. -/
theorem Occurs.column_eq {before after : Text} {token : Token} (h : Occurs before token after) :
    token.column (before ++ (token.keyword ++ after)) = before.length + 1 := by
  rw [column, h.keywordOffset_eq, Text.takeBytes_append]

/-- The column of a token lies within its line. -/
theorem StandsIn.column_le_length {line : Text} {token : Token} (h : StandsIn line token) :
    token.column line ≤ line.length := by
  obtain ⟨before, after, rfl, h⟩ := h
  have hkeyword := List.length_pos_iff.mpr h.keyword_ne_nil
  rw [h.column_eq, List.length_append, List.length_append]
  omega

/-- A token further to the right in bytes is further to the right in characters. -/
theorem StandsIn.column_lt {line : Text} {a b : Token} (ha : StandsIn line a)
    (hb : StandsIn line b) (h : a.keywordOffset < b.keywordOffset) :
    a.column line < b.column line := by
  obtain ⟨p, r, hline, ha⟩ := ha
  obtain ⟨q, s, rfl, hb⟩ := hb
  have hcolumn : a.column (q ++ (b.keyword ++ s)) = p.length + 1 := by
    rw [hline, ha.column_eq]
  rw [ha.keywordOffset_eq, hb.keywordOffset_eq] at h
  rw [hcolumn, hb.column_eq]
  obtain ⟨between, rfl, _⟩ := Text.exists_between_of_byteSize_le hline.symm (Nat.le_of_lt h)
  have hbetween : between ≠ [] := by
    rintro rfl
    simp at h
  have hlength := List.length_pos_iff.mpr hbetween
  rw [List.length_append]
  omega

end Token

namespace ScriptLine

/-- The numbers of lines go up. -/
theorem pairwise_number_numbered (number : Nat) (texts : List Text) :
    (numbered number texts).Pairwise fun a b => a.number < b.number := by
  induction texts generalizing number with
  | nil => exact List.Pairwise.nil
  | cons text later ih =>
    refine List.pairwise_cons.mpr ⟨fun line hline => ?_, ih (number + 1)⟩
    have hbounds := number_bounds_of_mem_numbered hline
    simp only
    omega

variable {options : Options} {line : ScriptLine}

/-- Every token with an outcome has a place in the line. -/
theorem standsIn_of_mem_outcomes {entry : Token × Outcome} (h : entry ∈ line.outcomes options) :
    Token.StandsIn line.text entry.1 := by
  have htoken : entry.1 ∈ scan options.scanMode line.text := by
    rw [← map_fst_outcomes]
    exact List.mem_map_of_mem h
  exact (follow_scan options.scanMode line.text).standsIn _ htoken

/-- Each diagnostic of a line is about one of its tokens. -/
theorem exists_token_of_mem_diagnostics {diagnostic : Diagnostic}
    (h : diagnostic ∈ line.diagnostics options) :
    ∃ token issue, Token.StandsIn line.text token ∧
      diagnostic = Diagnostic.ofToken issue line.number line.text token := by
  obtain ⟨entry, hentry, hfound⟩ := List.mem_filterMap.mp h
  obtain ⟨issue, _, rfl⟩ := Option.map_eq_some_iff.mp hfound
  exact ⟨entry.1, issue, standsIn_of_mem_outcomes hentry, rfl⟩

/-- The outcomes of a line come in the order of the columns of their tokens. -/
theorem pairwise_column_outcomes (options : Options) (line : ScriptLine) :
    (line.outcomes options).Pairwise fun a b =>
      a.1.column line.text < b.1.column line.text := by
  have hscan := (follow_scan options.scanMode line.text).pairwise
  rw [← map_fst_outcomes, List.pairwise_map] at hscan
  refine hscan.imp_of_mem fun ha hb h => ?_
  exact (standsIn_of_mem_outcomes ha).column_lt (standsIn_of_mem_outcomes hb) h

/-- The column of a token is kept as it is in a line whose length fits into 32 bits. -/
theorem toNat_column_ofToken {token : Token} (h : Token.StandsIn line.text token)
    (hlength : line.text.length < UInt32.size) (issue : Issue) :
    (Diagnostic.ofToken issue line.number line.text token).column.toNat =
      token.column line.text :=
  UInt32.toNat_ofNat_of_lt' (Nat.lt_of_le_of_lt h.column_le_length hlength)

/-- The diagnostics of a line come in the order of their columns. -/
theorem pairwise_column_diagnostics (options : Options)
    (hlength : line.text.length < UInt32.size) :
    (line.diagnostics options).Pairwise fun a b => a.column < b.column := by
  rw [diagnostics, List.pairwise_filterMap]
  refine (pairwise_column_outcomes options line).imp_of_mem fun hp hq h a ha b hb => ?_
  obtain ⟨issue, _, rfl⟩ := Option.map_eq_some_iff.mp ha
  obtain ⟨other, _, rfl⟩ := Option.map_eq_some_iff.mp hb
  rw [UInt32.lt_iff_toNat_lt, toNat_column_ofToken (standsIn_of_mem_outcomes hp) hlength,
    toNat_column_ofToken (standsIn_of_mem_outcomes hq) hlength]
  exact h

end ScriptLine

/-- The line numbers and the columns of a script fit into 32 bits. -/
structure Text.FitsLocations (script : Text) : Prop where
  lines_lt : script.lines.length < UInt32.size
  columns_lt : ∀ piece ∈ script.lines, piece.length < UInt32.size

/-- A diagnostic stands before another one: in a line above it, or to the left of it. -/
def Diagnostic.Precedes (a b : Diagnostic) : Prop :=
  a.line < b.line ∨ a.line = b.line ∧ a.column < b.column

/-- A diagnostic points at its keyword in a script: its line is a piece of the script that states a
duration, and from its column on this piece reads the keyword and then `after`, with a delimiter or
an end of the piece on either side of the keyword. -/
structure Diagnostic.PointsAt (diagnostic : Diagnostic) (script piece after : Text) : Prop where
  line_pos : 0 < diagnostic.line.toNat
  getElem?_lines : script.lines[diagnostic.line.toNat - 1]? = some piece
  statesDuration : Prose.statesDuration piece = true
  column_pos : 0 < diagnostic.column.toNat
  drop_eq : piece.drop (diagnostic.column.toNat - 1) = diagnostic.keyword ++ after
  keyword_ne_nil : diagnostic.keyword ≠ []
  opened : ∀ d, (piece.take (diagnostic.column.toNat - 1)).getLast? = some d → isDelimiter d = true
  closed : ∀ d, after.head? = some d → isDelimiter d = true

section

variable {options : Options} {script : Text} {beat : ScriptLine}

/-- The number of a beat fits into 32 bits as the number of lines does. -/
theorem Text.FitsLocations.toNat_number (h : script.FitsLocations) (hbeat : beat ∈ beats script) :
    (UInt32.ofNat beat.number).toNat = beat.number := by
  have hlines := h.lines_lt
  have hbounds := ScriptLine.number_bounds_of_mem_numbered (mem_scriptLines_of_mem_beats hbeat)
  exact UInt32.toNat_ofNat_of_lt' (by omega)

/-- The text of a beat is a line of the script, found at its number. -/
theorem getElem?_lines_of_mem_beats (hbeat : beat ∈ beats script) :
    script.lines[beat.number - 1]? = some beat.text :=
  ScriptLine.getElem?_of_mem_numbered (mem_scriptLines_of_mem_beats hbeat)

/-- The columns of a beat fit into 32 bits. -/
theorem Text.FitsLocations.length_text (h : script.FitsLocations) (hbeat : beat ∈ beats script) :
    beat.text.length < UInt32.size :=
  h.columns_lt _ (List.mem_of_getElem? (getElem?_lines_of_mem_beats hbeat))

/-- A diagnostic of a beat points at the keyword that it is about. -/
theorem exists_pointsAt_of_mem_beats (h : script.FitsLocations) (hbeat : beat ∈ beats script)
    {diagnostic : Diagnostic} (hdiagnostic : diagnostic ∈ beat.diagnostics options) :
    ∃ after, diagnostic.PointsAt script beat.text after := by
  obtain ⟨token, issue, hstands, rfl⟩ := ScriptLine.exists_token_of_mem_diagnostics hdiagnostic
  have hline : (Diagnostic.ofToken issue beat.number beat.text token).line.toNat = beat.number :=
    h.toNat_number hbeat
  have hcolumn := ScriptLine.toNat_column_ofToken hstands (h.length_text hbeat) issue
  have hbounds := ScriptLine.number_bounds_of_mem_numbered (mem_scriptLines_of_mem_beats hbeat)
  obtain ⟨before, after, htext, hoccurs⟩ := hstands
  rw [htext, hoccurs.column_eq, ← htext] at hcolumn
  refine ⟨after, ?_, ?_, ?_, ?_, ?_, hoccurs.keyword_ne_nil, ?_, ?_⟩
  · omega
  · rw [hline]
    exact getElem?_lines_of_mem_beats hbeat
  · exact (List.mem_filter.mp hbeat).2
  · omega
  · rw [hcolumn, Nat.add_sub_cancel, htext, List.drop_left]
    rfl
  · intro d hd
    rw [hcolumn, Nat.add_sub_cancel, htext, List.take_left] at hd
    rcases hoccurs.opened with ⟨rfl, _⟩ | ⟨m, e, rfl, he, _⟩
    · simp at hd
    · obtain rfl : e = d := by simpa using hd
      exact he
  · intro d hd
    have hends := hoccurs.spells.2
    obtain ⟨rest, rfl⟩ := List.head?_eq_some_iff.mp hd
    exact hends

/-- The diagnostics of a report come in the order of their places. -/
theorem pairwise_diagnostics (options : Options) (h : script.FitsLocations) :
    (compile options script).diagnostics.Pairwise Diagnostic.Precedes := by
  rw [compile, List.pairwise_flatMap]
  constructor
  · intro beat hbeat
    refine (ScriptLine.pairwise_column_diagnostics options (h.length_text hbeat)).imp_of_mem ?_
    intro a b ha hb hlt
    exact Or.inr ⟨by rw [line_of_mem_diagnostics ha, line_of_mem_diagnostics hb], hlt⟩
  · have hnumbers : (beats script).Pairwise fun a b => a.number < b.number :=
      (ScriptLine.pairwise_number_numbered 1 script.lines).filter _
    refine hnumbers.imp_of_mem fun hp hq hlt a ha b hb => Or.inl ?_
    rw [line_of_mem_diagnostics ha, line_of_mem_diagnostics hb, UInt32.lt_iff_toNat_lt,
      h.toNat_number hp, h.toNat_number hq]
    exact hlt

end

/-- In a script of fewer than 2^32 lines, each of fewer than 2^32 characters, every diagnostic of
the report points at a keyword that stands alone in a beat, and the diagnostics come strictly in
the order of their lines and columns. -/
theorem diagnostics_point_at_keywords (options : Options) (script : Text)
    (hlines : script.lines.length < UInt32.size)
    (hcolumns : ∀ piece ∈ script.lines, piece.length < UInt32.size) :
    (∀ diagnostic ∈ (compile options script).diagnostics,
      ∃ piece after, diagnostic.PointsAt script piece after) ∧
    (compile options script).diagnostics.Pairwise Diagnostic.Precedes := by
  have h : script.FitsLocations := ⟨hlines, hcolumns⟩
  refine ⟨fun diagnostic hdiagnostic => ?_, pairwise_diagnostics options h⟩
  obtain ⟨beat, hbeat, hmem⟩ := List.mem_flatMap.mp hdiagnostic
  exact ⟨beat.text, exists_pointsAt_of_mem_beats h hbeat hmem⟩

/-- The second line of a script has a background without a color and a voice-over without a caption,
which are found again at their columns. -/
theorem diagnostics_point_at_keywords_colorless :
    let script : Text := "title\n5 seconds fondo azul, 📢".toList
    script.lines.length < UInt32.size ∧ (∀ piece ∈ script.lines, piece.length < UInt32.size) ∧
    (∀ diagnostic ∈ (compile {} script).diagnostics,
      ∃ piece after, diagnostic.PointsAt script piece after) ∧
    (compile {} script).diagnostics.Pairwise Diagnostic.Precedes ∧
    (compile {} script).diagnostics.map
      (fun diagnostic => (diagnostic.line, diagnostic.column)) = [(2, 11), (2, 23)] := by
  intro script
  have hlines : script.lines.length < UInt32.size := by decide
  have hcolumns : ∀ piece ∈ script.lines, piece.length < UInt32.size := by decide
  obtain ⟨hpoints, hordered⟩ := diagnostics_point_at_keywords {} script hlines hcolumns
  exact ⟨hlines, hcolumns, hpoints, hordered, by decide +kernel⟩

end Storyboard
