import Storyboard.Proofs.Outcomes
import Storyboard.Proofs.Thinning

/-!
# Beats and their durations

A line is a beat as soon as it holds a duration expression anywhere, while a duration is made up
only from a unit of time that stands alone. This file shows how far the two agree: a duration
expression that is closed behind its unit is always scanned, in either mode, and a scanned unit of
time always leads to a duration or to a report that it is missing. A beat in which no unit of time
is scanned, such as `5 secondsX`, has neither.
-/

namespace Storyboard

/-- A line holds a duration expression that is closed: its unit is spelled like the keyword, and a
delimiter or the end of the line follows it. -/
def HoldsClosedDuration (line : Text) : Prop :=
  ∃ before digits blanks unit after,
    line = before ++ (digits ++ (blanks ++ (unit ++ after))) ∧
      Prose.DurationExpression digits blanks unit ∧
      SpellsKeyword .duration unit ∧ endsKeyword after = true

/-- What a report says about the duration of a beat: the entry of the beat has one, or a
diagnostic for its line says that it is missing. -/
def Report.AccountsFor (report : Report) (index : Nat) (beat : ScriptLine) : Prop :=
  (∃ entry seconds, report.lines[index]? = some entry ∧ Descriptor.duration seconds ∈ entry) ∨
    ∃ diagnostic ∈ report.diagnostics,
      diagnostic.issue = .missingDuration ∧ diagnostic.line = UInt32.ofNat beat.number

/-- No token ends between the digits of a duration expression and the last blank in front of its
unit, since no keyword ends with a digit or with white space. -/
theorem Token.StandsIn.keywordEnd_ne_of_expression {line before digits blanks rest : Text}
    {token : Token} (h : StandsIn line token)
    (hline : line = (before ++ (digits ++ blanks)) ++ rest) (hne : digits ≠ [])
    (hdigits : ∀ c ∈ digits, c.isDigit = true) (hblanks : ∀ c ∈ blanks, isBlank c = true) :
    token.keywordEnd ≠ Text.byteSize (before ++ (digits ++ blanks)) := by
  obtain ⟨p, after, rfl, h⟩ := h
  rw [h.keywordEnd_eq]
  intro hsize
  rw [← List.append_assoc] at hline
  obtain ⟨hfront, _⟩ := Text.append_inj_of_byteSize_eq hline hsize
  obtain ⟨m, c, hkeyword⟩ := Text.exists_append_singleton h.keyword_ne_nil
  obtain ⟨n, d, hlast⟩ :=
    Text.exists_append_singleton (List.append_ne_nil_of_left_ne_nil hne blanks)
  rw [hkeyword, hlast, ← List.append_assoc, ← List.append_assoc] at hfront
  obtain ⟨_, hcd⟩ := List.append_inj' hfront rfl
  obtain rfl : c = d := by simpa using hcd
  have hspells := h.spells.1
  rw [hkeyword] at hspells
  have hmem : c ∈ digits ++ blanks := by simp [hlast]
  rcases List.mem_append.mp hmem with hdigit | hblank
  · have hfalse := hspells.isDigit_eq_false (c := c) (by simp)
    simp [hdigits c hdigit] at hfalse
  · have hfalse := hspells.isDelimiter_last
    simp [isDelimiter_of_isBlank (hblanks c hblank)] at hfalse

/-- A closed duration expression is scanned, whatever comes before it and in either mode. -/
theorem HoldsClosedDuration.exists_token {line : Text} (h : HoldsClosedDuration line)
    (mode : ScanMode) : ∃ token ∈ scan mode line, token.kind = .duration := by
  obtain ⟨before, digits, blanks, unit, after, rfl, hexpr, hspells, hends⟩ := h
  obtain ⟨keyword, hkeyword⟩ := keywordAt?_of_spells_duration hspells hends
  obtain ⟨rest, hrest, _⟩ := exists_after_of_keywordAt? hkeyword
  obtain ⟨others, blank, rfl⟩ := Text.exists_append_singleton hexpr.blanks_ne_nil
  have hblanks : ∀ c ∈ others, isBlank c = true :=
    fun c hc => hexpr.blanks_isBlank c (List.mem_append_left _ hc)
  have hblank : isDelimiter blank = true :=
    isDelimiter_of_isBlank (hexpr.blanks_isBlank blank (by simp))
  let opened := before ++ (digits ++ others)
  let token : Token :=
    ⟨.duration, keyword, Text.byteSize opened, Text.byteSize (opened ++ [blank])⟩
  have hline : before ++ (digits ++ (others ++ [blank] ++ (unit ++ after))) =
      (opened ++ [blank]) ++ (keyword ++ rest) := by
    rw [← hrest]
    simp [opened]
  have hopening : Token.opening? (opened ++ [blank]).getLast? (Text.byteSize (opened ++ [blank])) =
      some (Text.byteSize opened) := by
    simp [Token.opening?, hblank]
  have hstands : Token.StandsIn
      (before ++ (digits ++ (others ++ [blank] ++ (unit ++ after)))) token :=
    ⟨opened ++ [blank], rest, hline, rfl, hopening, by rw [← hrest]; exact hkeyword⟩
  refine ⟨token, ?_, rfl⟩
  have hmem := Token.mem_isolated_iff.mpr hstands
  cases mode with
  | boundaryPreserving => rwa [scan_boundaryPreserving]
  | legacy =>
    -- In front of the unit stands its number, so no keyword has used up the blank.
    have hcut : before ++ (digits ++ (others ++ [blank] ++ (unit ++ after))) =
        (before ++ (digits ++ others)) ++ blank :: (unit ++ after) := by simp
    rw [scan_legacy]
    refine Token.mem_thin_of_forall_ne hmem (by simp) fun a ha => ?_
    exact (Token.mem_isolated_iff.mp ha).keywordEnd_ne_of_expression hcut hexpr.digits_ne_nil
      hexpr.digits_isDigit hblanks

/-- A closed duration expression is one of those that make a line a beat. -/
theorem HoldsClosedDuration.statesDuration {line : Text} (h : HoldsClosedDuration line) :
    Prose.statesDuration line = true := by
  obtain ⟨before, digits, blanks, unit, after, hline, hexpr, _⟩ := h
  exact Prose.statesDuration_iff.mpr ⟨before, digits, blanks, unit, after, hline, hexpr⟩

namespace ScriptLine

/-- Lines are numbered one after the other. -/
theorem number_bounds_of_mem_numbered {number : Nat} {texts : List Text} {line : ScriptLine}
    (h : line ∈ numbered number texts) :
    number ≤ line.number ∧ line.number < number + texts.length := by
  induction texts generalizing number with
  | nil => simp [numbered] at h
  | cons text later ih =>
    rw [List.length_cons]
    rcases List.mem_cons.mp h with rfl | h
    · simp
    · have hbounds := ih h
      omega

/-- A line is found in its script at its number. -/
theorem getElem?_of_mem_numbered {number : Nat} {texts : List Text} {line : ScriptLine}
    (h : line ∈ numbered number texts) : texts[line.number - number]? = some line.text := by
  induction texts generalizing number with
  | nil => simp [numbered] at h
  | cons text later ih =>
    rcases List.mem_cons.mp h with rfl | h
    · simp
    · have hbounds := number_bounds_of_mem_numbered h
      have hsucc : line.number - number = line.number - (number + 1) + 1 := by omega
      rw [hsucc, List.getElem?_cons_succ]
      exact ih h

/-- A line is determined by its number. -/
theorem eq_of_number_eq {number : Nat} {texts : List Text} {a b : ScriptLine}
    (ha : a ∈ numbered number texts) (hb : b ∈ numbered number texts)
    (h : a.number = b.number) : a = b := by
  have htext : some a.text = some b.text := by
    rw [← getElem?_of_mem_numbered ha, ← getElem?_of_mem_numbered hb, h]
  cases a
  cases b
  rw [ScriptLine.mk.injEq]
  exact ⟨h, Option.some.inj htext⟩

/-- The tokens of a line come in the order of their outcomes. -/
theorem map_fst_outcomes (options : Options) (line : ScriptLine) :
    (line.outcomes options).map Prod.fst = scan options.scanMode line.text :=
  Assembly.map_fst_outcomesAfter line.text none _

/-- A line has a duration, or one is reported missing in it, exactly if a unit of time is scanned
in it. -/
theorem duration_or_missing_iff {options : Options} {line : ScriptLine} :
    ((∃ seconds, Descriptor.duration seconds ∈ line.descriptors options) ∨
      ∃ diagnostic ∈ line.diagnostics options, diagnostic.issue = .missingDuration) ↔
        ∃ token ∈ scan options.scanMode line.text, token.kind = .duration := by
  have hscanned {entry : Token × Outcome} (h : entry ∈ line.outcomes options) :
      entry.1 ∈ scan options.scanMode line.text := by
    rw [← map_fst_outcomes]
    exact List.mem_map_of_mem h
  constructor
  · rintro (⟨seconds, h⟩ | ⟨diagnostic, h, hissue⟩)
    · obtain ⟨entry, hentry, hdescriptor⟩ := List.mem_filterMap.mp h
      obtain ⟨before, next, houtcome⟩ := Assembly.exists_assemble_of_mem hentry
      rw [houtcome] at hdescriptor
      exact ⟨entry.1, hscanned hentry,
        (Assembly.kind_eq_duration_iff _ _ _ _).mpr (Or.inl ⟨seconds, hdescriptor⟩)⟩
    · obtain ⟨entry, hentry, hfound⟩ := List.mem_filterMap.mp h
      obtain ⟨issue, hsome, rfl⟩ := Option.map_eq_some_iff.mp hfound
      obtain ⟨before, next, houtcome⟩ := Assembly.exists_assemble_of_mem hentry
      obtain rfl : issue = .missingDuration := hissue
      rw [houtcome] at hsome
      exact ⟨entry.1, hscanned hentry, (Assembly.kind_eq_duration_iff _ _ _ _).mpr (Or.inr hsome)⟩
  · rintro ⟨token, htoken, hkind⟩
    obtain ⟨outcome, hentry⟩ := Assembly.exists_mem_outcomes htoken
    obtain ⟨before, next, houtcome⟩ := Assembly.exists_assemble_of_mem hentry
    rcases (Assembly.kind_eq_duration_iff line.text before token next).mp hkind with
      ⟨seconds, hdescriptor⟩ | hissue
    · rw [← houtcome] at hdescriptor
      exact Or.inl ⟨seconds, List.mem_filterMap.mpr ⟨_, hentry, hdescriptor⟩⟩
    · rw [← houtcome] at hissue
      exact Or.inr ⟨_, List.mem_filterMap.mpr ⟨_, hentry, by rw [hissue]; rfl⟩, rfl⟩

end ScriptLine

/-- The diagnostics of a line carry its number. -/
theorem line_of_mem_diagnostics {options : Options} {line : ScriptLine} {diagnostic : Diagnostic}
    (h : diagnostic ∈ line.diagnostics options) : diagnostic.line = UInt32.ofNat line.number := by
  obtain ⟨entry, _, hfound⟩ := List.mem_filterMap.mp h
  obtain ⟨issue, _, rfl⟩ := Option.map_eq_some_iff.mp hfound
  rfl

variable {options : Options} {script : Text} {index : Nat} {beat : ScriptLine}

/-- A beat is a line of its script. -/
theorem mem_scriptLines_of_mem_beats (h : beat ∈ beats script) : beat ∈ scriptLines script :=
  (List.mem_filter.mp h).1

/-- A scanned unit of time makes the report account for its beat. -/
theorem accountsFor_of_token (hbeat : (beats script)[index]? = some beat)
    (htoken : ∃ token ∈ scan options.scanMode beat.text, token.kind = .duration) :
    (compile options script).AccountsFor index beat := by
  have hmem := List.mem_of_getElem? hbeat
  rcases ScriptLine.duration_or_missing_iff.mpr htoken with ⟨seconds, h⟩ | ⟨diagnostic, h, hissue⟩
  · refine Or.inl ⟨beat.descriptors options, seconds, ?_, h⟩
    rw [compile, List.getElem?_map, hbeat]
    rfl
  · exact Or.inr ⟨diagnostic, List.mem_flatMap.mpr ⟨beat, hmem, h⟩, hissue,
      line_of_mem_diagnostics h⟩

/-- In a script whose line numbers fit, the report accounts for no other beats. -/
theorem exists_token_of_accountsFor (hlines : script.lines.length < UInt32.size)
    (hbeat : (beats script)[index]? = some beat)
    (h : (compile options script).AccountsFor index beat) :
    ∃ token ∈ scan options.scanMode beat.text, token.kind = .duration := by
  have hmem := mem_scriptLines_of_mem_beats (List.mem_of_getElem? hbeat)
  rcases h with ⟨entry, seconds, hentry, h⟩ | ⟨diagnostic, h, hissue, hline⟩
  · rw [compile, List.getElem?_map, hbeat] at hentry
    obtain rfl : beat.descriptors options = entry := Option.some.inj hentry
    exact ScriptLine.duration_or_missing_iff.mp (Or.inl ⟨seconds, h⟩)
  · obtain ⟨other, hother, h⟩ := List.mem_flatMap.mp h
    have hmem' := mem_scriptLines_of_mem_beats hother
    have hbounds := ScriptLine.number_bounds_of_mem_numbered hmem
    have hbounds' := ScriptLine.number_bounds_of_mem_numbered hmem'
    have hnumber : other.number = beat.number := by
      rw [line_of_mem_diagnostics h] at hline
      have hword := congrArg UInt32.toNat hline
      rwa [UInt32.toNat_ofNat_of_lt' (by omega), UInt32.toNat_ofNat_of_lt' (by omega)] at hword
    obtain rfl := ScriptLine.eq_of_number_eq hmem' hmem hnumber
    exact ScriptLine.duration_or_missing_iff.mp (Or.inr ⟨diagnostic, h, hissue⟩)

/-- A closed duration expression makes a line a beat in which a unit of time is scanned in either
mode, and the report of a script accounts for each beat of which that can be said. In a script whose
line numbers fit into 32 bits it accounts for exactly those beats in which a unit of time is
scanned. -/
theorem beat_states_duration_or_is_reported (options : Options) (script : Text) {index : Nat}
    {beat : ScriptLine} (hbeat : (beats script)[index]? = some beat) :
    (HoldsClosedDuration beat.text → (compile options script).AccountsFor index beat) ∧
    ((∃ token ∈ scan options.scanMode beat.text, token.kind = .duration) →
      (compile options script).AccountsFor index beat) ∧
    (script.lines.length < UInt32.size → (compile options script).AccountsFor index beat →
      ∃ token ∈ scan options.scanMode beat.text, token.kind = .duration) ∧
    ∀ line, HoldsClosedDuration line → Prose.statesDuration line = true ∧
      ∀ mode, ∃ token ∈ scan mode line, token.kind = .duration :=
  ⟨fun h => accountsFor_of_token hbeat (h.exists_token options.scanMode),
    accountsFor_of_token hbeat,
    fun hlines h => exists_token_of_accountsFor hlines hbeat h,
    fun _ h => ⟨h.statesDuration, h.exists_token⟩⟩

/-- The first line of a script is a beat whose number of seconds is out of range: the report says
that it is missing. -/
theorem beat_states_duration_or_is_reported_out_of_range :
    ∃ beat, (beats "99999999999999999999 seconds".toList)[0]? = some beat ∧
      HoldsClosedDuration beat.text ∧
      (compile {} "99999999999999999999 seconds".toList).AccountsFor 0 beat := by
  let line : Text := "99999999999999999999 seconds".toList
  have hbeat : (beats line)[0]? = some ⟨1, line⟩ := by decide
  have hdigits : ("99999999999999999999".toList.all Char.isDigit) = true := by decide
  have hexpr : Prose.DurationExpression "99999999999999999999".toList [' '] "seconds".toList :=
    ⟨by decide, List.all_eq_true.mp hdigits, by decide, by simp [isBlank, blanks],
      "seconds".toList, by decide, rfl⟩
  have hclosed : HoldsClosedDuration line :=
    ⟨[], _, _, _, [], by decide, hexpr, by decide, rfl⟩
  exact ⟨_, hbeat, hclosed, (beat_states_duration_or_is_reported {} line hbeat).1 hclosed⟩

/-- No unit of time is scanned in `5 secondsX`, where a letter follows the unit. The line is a beat
with neither a duration nor a report that it is missing. -/
theorem not_every_beat_is_accounted_for :
    ¬∀ (options : Options) (script : Text) (index : Nat) (beat : ScriptLine),
      (beats script)[index]? = some beat →
        (compile options script).AccountsFor index beat := by
  intro h
  let line : Text := "5 secondsX".toList
  have hbeat : (beats line)[0]? = some ⟨1, line⟩ := by decide
  have hscan : scan .boundaryPreserving line = [] := by decide
  have hlines : line.lines.length < UInt32.size := by decide
  obtain ⟨token, htoken, _⟩ := exists_token_of_accountsFor hlines hbeat (h {} line 0 _ hbeat)
  simp [hscan] at htoken

end Storyboard
