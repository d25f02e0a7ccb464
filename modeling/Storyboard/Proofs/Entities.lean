import Mathlib.Data.List.Forall2
import Mathlib.Data.List.Nodup
import Storyboard.Proofs.Lines
import Storyboard.Proofs.Locations

/-!
# What becomes of every keyword

Each token of a beat becomes one descriptor of its own type or is left out, and a token that is
left out is reported with an issue that says so. Descriptors and such diagnostics together make up
the tokens of a script. The diagnostics tell by their places which tokens were left out; since
lines and columns are kept in 32 bits, this holds for scripts in which no two places coincide.
-/

namespace Storyboard

/-- The type name of the objects of a kind. Both kinds of background have the same. -/
def Kind.typeName : Kind → Text
  | .fondo => Kind.background.name
  | kind => kind.name

namespace Outcome

/-- An outcome suits a kind: an object that is there is of the kind's type, and the issue drops it
exactly if it is not there. -/
def Suits (kind : Kind) : Outcome → Prop
  | complete descriptor => descriptor.typeName = kind.typeName
  | incomplete descriptor issue => descriptor.typeName = kind.typeName ∧ issue.drops = false
  | dropped issue => issue.drops = true

/-- An object that is made in any case suits its kind. -/
theorem suits_ofFound {α : Type} {kind : Kind} {issue : Issue} {descriptor : Descriptor}
    (hname : descriptor.typeName = kind.typeName) (hdrops : issue.drops = false)
    (found : Option α) : (ofFound found issue descriptor).Suits kind := by
  rw [ofFound]
  split
  · exact hname
  · exact ⟨hname, hdrops⟩

namespace Suits

variable {kind : Kind} {outcome : Outcome}

/-- A descriptor is of the type of its kind. -/
theorem typeName_eq (h : outcome.Suits kind) {descriptor : Descriptor}
    (hdescriptor : outcome.descriptor? = some descriptor) :
    descriptor.typeName = kind.typeName := by
  cases outcome with
  | complete other =>
    obtain rfl : other = descriptor := Option.some.inj hdescriptor
    exact h
  | incomplete other issue =>
    obtain rfl : other = descriptor := Option.some.inj hdescriptor
    exact h.1
  | dropped issue => simp [descriptor?] at hdescriptor

/-- An object is there unless an issue drops it. -/
theorem isSome_descriptor? (h : outcome.Suits kind) :
    outcome.descriptor?.isSome = !outcome.issue?.any Issue.drops := by
  cases outcome with
  | complete descriptor => rfl
  | incomplete descriptor issue => simp [descriptor?, issue?, h.2]
  | dropped issue =>
    have hdrops : issue.drops = true := h
    simp [descriptor?, issue?, hdrops]

end Suits

end Outcome

namespace Assembly

/-- Whatever a window holds, the outcome suits the kind that it is read for. -/
theorem suits_ofWindow (kind : Kind) (window : Text) : (ofWindow kind window).Suits kind := by
  cases kind with
  | duration =>
    rw [ofWindow]
    cases Prose.duration? window <;> rfl
  | background =>
    rw [ofWindow]
    cases Prose.backgroundColor? window <;> rfl
  | fondo =>
    rw [ofWindow]
    cases Prose.fondoColor? window <;> rfl
  | model =>
    rw [ofWindow, model]
    split
    · rfl
    · exact Outcome.suits_ofFound rfl rfl _
  | audio | voiceover | chart | panorama | video | videosphere | image | text =>
    exact Outcome.suits_ofFound rfl rfl _

end Assembly

/-- What a partial function finds in a list stands beside the entries in which it finds it. -/
theorem forall₂_filterMap {α β : Type} {R : α → β → Prop} {f : α → Option β} {entries : List α}
    (h : ∀ entry ∈ entries, ∀ found, f entry = some found → R entry found) :
    List.Forall₂ R (entries.filter fun entry => (f entry).isSome) (entries.filterMap f) := by
  induction entries with
  | nil => exact List.Forall₂.nil
  | cons entry later ih =>
    obtain ⟨hfirst, hlater⟩ := List.forall_mem_cons.mp h
    cases hfound : f entry with
    | none => simpa [hfound] using ih hlater
    | some found => simpa [hfound] using ⟨hfirst found hfound, ih hlater⟩

/-- A diagnostic gives the line number and the column of a token of a line, as far as 32 bits tell
them. -/
def Diagnostic.locates (diagnostic : Diagnostic) (line : ScriptLine) (token : Token) : Bool :=
  diagnostic.line == UInt32.ofNat line.number &&
    diagnostic.column == UInt32.ofNat (token.column line.text)

/-- What is left of the tokens of a line when those are erased that a diagnostic of the report
locates and says to be left out. -/
def Report.remaining (report : Report) (line : ScriptLine) (tokens : List Token) : List Token :=
  tokens.filter fun token =>
    !report.diagnostics.any fun diagnostic =>
      diagnostic.issue.drops && diagnostic.locates line token

/-- All tokens of the beats of a script, each with its line. -/
def scannedTokens (options : Options) (script : Text) : List (ScriptLine × Token) :=
  (beats script).flatMap fun beat =>
    (scan options.scanMode beat.text).map fun token => (beat, token)

namespace ScriptLine

variable {options : Options} {line : ScriptLine}

/-- Every token of a line has an outcome that suits its kind. -/
theorem suits_of_mem_outcomes {entry : Token × Outcome} (h : entry ∈ line.outcomes options) :
    entry.2.Suits entry.1.kind := by
  obtain ⟨before, next, houtcome⟩ := Assembly.exists_assemble_of_mem h
  rw [houtcome]
  exact Assembly.suits_ofWindow _ _

/-- The tokens of a line that have become descriptors. -/
def keptTokens (options : Options) (line : ScriptLine) : List Token :=
  ((line.outcomes options).filter fun entry => entry.2.descriptor?.isSome).map Prod.fst

/-- The tokens that have become descriptors are some of those of the line, in their order. -/
theorem keptTokens_sublist (options : Options) (line : ScriptLine) :
    (line.keptTokens options).Sublist (scan options.scanMode line.text) := by
  rw [keptTokens, ← map_fst_outcomes]
  exact List.filter_sublist.map _

/-- Each descriptor of a line is of the type of its token. -/
theorem forall₂_keptTokens (options : Options) (line : ScriptLine) :
    List.Forall₂ (fun token descriptor => descriptor.typeName = token.kind.typeName)
      (line.keptTokens options) (line.descriptors options) := by
  rw [keptTokens, List.forall₂_map_left_iff]
  refine forall₂_filterMap fun entry hentry descriptor hdescriptor => ?_
  exact (suits_of_mem_outcomes hentry).typeName_eq hdescriptor

/-- The diagnostics of a line are about some of its tokens, in their order. -/
theorem exists_forall₂_diagnostics (options : Options) (line : ScriptLine) :
    ∃ reported,
      reported.Sublist ((scan options.scanMode line.text).map fun token => (line, token)) ∧
      List.Forall₂ (fun place diagnostic => diagnostic.locates place.1 place.2 = true ∧
        diagnostic.keyword = place.2.keyword) reported (line.diagnostics options) := by
  refine ⟨((line.outcomes options).filter fun entry =>
    (entry.2.issue?.map fun issue =>
      Diagnostic.ofToken issue line.number line.text entry.1).isSome).map
        fun entry => (line, entry.1), ?_, ?_⟩
  · rw [← map_fst_outcomes, List.map_map]
    exact List.filter_sublist.map _
  · rw [List.forall₂_map_left_iff]
    refine forall₂_filterMap fun entry _ diagnostic hdiagnostic => ?_
    obtain ⟨issue, _, rfl⟩ := Option.map_eq_some_iff.mp hdiagnostic
    simp [Diagnostic.locates, Diagnostic.ofToken, Token.column]

/-- The descriptors of a line and the diagnostics that drop one make up its tokens. -/
theorem length_descriptors_add (options : Options) (line : ScriptLine) :
    (line.descriptors options).length +
        (line.diagnostics options).countP (fun diagnostic => diagnostic.issue.drops) =
      (scan options.scanMode line.text).length := by
  rw [← map_fst_outcomes, List.length_map, descriptors, diagnostics,
    List.length_filterMap_eq_countP, List.countP_filterMap,
    List.length_eq_countP_add_countP fun entry : Token × Outcome => entry.2.descriptor?.isSome]
  congr 1
  refine List.countP_congr fun entry hentry => ?_
  rw [(suits_of_mem_outcomes hentry).isSome_descriptor?]
  cases entry.2.issue? <;> simp [Diagnostic.ofToken]

end ScriptLine

/-- Two places that fit into 32 bits, counted from 1, are told apart by these. -/
theorem eq_of_ofNat_eq {a b : Nat} (ha : 0 < a) (hale : a ≤ UInt32.size) (hb : 0 < b)
    (hble : b ≤ UInt32.size) (h : UInt32.ofNat a = UInt32.ofNat b) : a = b := by
  have hmod := congrArg UInt32.toNat h
  rw [UInt32.toNat_ofNat', UInt32.toNat_ofNat'] at hmod
  simp only [UInt32.size] at hale hble
  omega

section

variable {options : Options} {script : Text}

/-- The diagnostics of a report are those of its tokens that have an issue. -/
theorem mem_diagnostics_compile_iff {diagnostic : Diagnostic} :
    diagnostic ∈ (compile options script).diagnostics ↔
      ∃ beat ∈ beats script, ∃ entry ∈ beat.outcomes options, ∃ issue,
        entry.2.issue? = some issue ∧
          Diagnostic.ofToken issue beat.number beat.text entry.1 = diagnostic := by
  simp only [compile, ScriptLine.diagnostics, List.mem_flatMap, List.mem_filterMap,
    Option.map_eq_some_iff]

/-- A token is located by a diagnostic that drops its object exactly if its own issue does. -/
theorem any_locates_eq (hlines : script.lines.length ≤ UInt32.size)
    (hcolumns : ∀ piece ∈ script.lines, piece.length ≤ UInt32.size) {beat : ScriptLine}
    (hbeat : beat ∈ beats script) {entry : Token × Outcome}
    (hentry : entry ∈ beat.outcomes options) :
    ((compile options script).diagnostics.any fun diagnostic =>
        diagnostic.issue.drops && diagnostic.locates beat entry.1) =
      entry.2.issue?.any Issue.drops := by
  have hnumber {line : ScriptLine} (hline : line ∈ beats script) :
      0 < line.number ∧ line.number ≤ UInt32.size := by
    have hbounds := ScriptLine.number_bounds_of_mem_numbered (mem_scriptLines_of_mem_beats hline)
    omega
  have hcolumn {token : Token} (htoken : Token.StandsIn beat.text token) :
      0 < token.column beat.text ∧ token.column beat.text ≤ UInt32.size := by
    have hlength := hcolumns _ (List.mem_of_getElem? (getElem?_lines_of_mem_beats hbeat))
    exact ⟨Nat.succ_pos _, Nat.le_trans htoken.column_le_length hlength⟩
  rw [Bool.eq_iff_iff, List.any_eq_true, Option.any_eq_true]
  constructor
  · rintro ⟨diagnostic, hdiagnostic, h⟩
    obtain ⟨other, hother, source, hsource, issue, hissue, rfl⟩ :=
      mem_diagnostics_compile_iff.mp hdiagnostic
    simp only [Diagnostic.locates, Bool.and_eq_true, beq_iff_eq] at h
    obtain ⟨hdrops, hline, hplace⟩ := h
    have hsame : other.number = beat.number :=
      eq_of_ofNat_eq (hnumber hother).1 (hnumber hother).2 (hnumber hbeat).1 (hnumber hbeat).2 hline
    obtain rfl := ScriptLine.eq_of_number_eq (mem_scriptLines_of_mem_beats hother)
      (mem_scriptLines_of_mem_beats hbeat) hsame
    have hsource' := hcolumn (ScriptLine.standsIn_of_mem_outcomes hsource)
    have hentry' := hcolumn (ScriptLine.standsIn_of_mem_outcomes hentry)
    have hcolumns_eq : source.1.column other.text = entry.1.column other.text :=
      eq_of_ofNat_eq hsource'.1 hsource'.2 hentry'.1 hentry'.2 hplace
    have hnodup : ((other.outcomes options).map fun entry => entry.1.column other.text).Nodup :=
      List.pairwise_map.mpr
        ((ScriptLine.pairwise_column_outcomes options other).imp Nat.ne_of_lt)
    -- Two tokens of one line never share a column, so the diagnostic is about this one.
    obtain rfl := List.inj_on_of_nodup_map hnodup hsource hentry hcolumns_eq
    exact ⟨issue, hissue, hdrops⟩
  · rintro ⟨issue, hissue, hdrops⟩
    refine ⟨_, mem_diagnostics_compile_iff.mpr ⟨beat, hbeat, entry, hentry, issue, hissue, rfl⟩, ?_⟩
    simp [Diagnostic.locates, Diagnostic.ofToken, Token.column, hdrops]

/-- Erasing the tokens that the report locates and drops leaves those that became descriptors. -/
theorem keptTokens_eq_remaining (options : Options) (hlines : script.lines.length ≤ UInt32.size)
    (hcolumns : ∀ piece ∈ script.lines, piece.length ≤ UInt32.size) {beat : ScriptLine}
    (hbeat : beat ∈ beats script) :
    beat.keptTokens options =
      (compile options script).remaining beat (scan options.scanMode beat.text) := by
  rw [Report.remaining, ← ScriptLine.map_fst_outcomes, List.filter_map, ScriptLine.keptTokens]
  refine congrArg _ (List.filter_congr fun entry hentry => ?_)
  rw [(ScriptLine.suits_of_mem_outcomes hentry).isSome_descriptor?, Function.comp_apply,
    any_locates_eq hlines hcolumns hbeat hentry]

/-- The diagnostics of a report are about some of the tokens of the script, in their order. -/
theorem exists_forall₂_diagnostics (options : Options) (script : Text) :
    ∃ reported, reported.Sublist (scannedTokens options script) ∧
      List.Forall₂ (fun place diagnostic => diagnostic.locates place.1 place.2 = true ∧
        diagnostic.keyword = place.2.keyword) reported (compile options script).diagnostics := by
  rw [scannedTokens, compile]
  induction beats script with
  | nil => exact ⟨[], List.Sublist.refl _, List.Forall₂.nil⟩
  | cons beat later ih =>
    obtain ⟨first, hfirst, hmatch⟩ := beat.exists_forall₂_diagnostics options
    obtain ⟨rest, hrest, hmatches⟩ := ih
    exact ⟨first ++ rest, hfirst.append hrest, List.rel_append hmatch hmatches⟩

/-- The descriptors of a report and its diagnostics that drop one make up the tokens of the
script. -/
theorem length_flatten_lines_add (options : Options) (script : Text) :
    (compile options script).lines.flatten.length +
        (compile options script).diagnostics.countP (fun diagnostic => diagnostic.issue.drops) =
      (scannedTokens options script).length := by
  rw [scannedTokens, compile]
  simp only
  induction beats script with
  | nil => rfl
  | cons beat later ih =>
    have hbeat := beat.length_descriptors_add options
    simp only [List.map_cons, List.flatten_cons, List.flatMap_cons, List.length_append,
      List.countP_append, List.length_map] at ih ⊢
    omega

end

/-- No object is lost, duplicated or reordered. A report has an entry for each beat, whose
descriptors are those of some tokens of the beat, in their order and each of the type of its token.
In a script of at most 2^32 lines, each of at most 2^32 characters, these are the tokens that remain
when those are erased that a diagnostic locates and says to be left out. The diagnostics are about
some of the tokens, each about one of its own, and the descriptors and the diagnostics that drop one
make up the tokens of the script. -/
theorem no_object_is_lost (options : Options) (script : Text) :
    (compile options script).lines.length = (beats script).length ∧
    (∀ (index : Nat) (beat : ScriptLine), (beats script)[index]? = some beat → ∃ entry kept,
      (compile options script).lines[index]? = some entry ∧
      kept.Sublist (scan options.scanMode beat.text) ∧
      List.Forall₂ (fun token descriptor => descriptor.typeName = token.kind.typeName) kept entry ∧
      (script.lines.length ≤ UInt32.size →
        (∀ piece ∈ script.lines, piece.length ≤ UInt32.size) →
        (compile options script).remaining beat (scan options.scanMode beat.text) = kept)) ∧
    (∃ reported, reported.Sublist (scannedTokens options script) ∧
      List.Forall₂ (fun place diagnostic => diagnostic.locates place.1 place.2 = true ∧
        diagnostic.keyword = place.2.keyword) reported (compile options script).diagnostics) ∧
    (compile options script).lines.flatten.length +
        (compile options script).diagnostics.countP (fun diagnostic => diagnostic.issue.drops) =
      (scannedTokens options script).length := by
  refine ⟨?_, fun index beat hindex => ?_, exists_forall₂_diagnostics options script,
    length_flatten_lines_add options script⟩
  · rw [lines_compile, List.length_map]
  · have hbeat := List.mem_of_getElem? hindex
    refine ⟨beat.descriptors options, beat.keptTokens options, ?_, beat.keptTokens_sublist options,
      beat.forall₂_keptTokens options, fun hlines hcolumns => ?_⟩
    · rw [compile, List.getElem?_map, hindex]
      rfl
    · exact (keptTokens_eq_remaining options hlines hcolumns hbeat).symm

/-- The third token of a script is a background without a color. It is left out, and its diagnostic
tells so. -/
theorem no_object_is_lost_colorless :
    let script : Text := "title\n5 seconds fondo azul, 📢".toList
    let beat : ScriptLine := ⟨2, "5 seconds fondo azul, 📢".toList⟩
    (beats script)[0]? = some beat ∧ script.lines.length ≤ UInt32.size ∧
    (∀ piece ∈ script.lines, piece.length ≤ UInt32.size) ∧
    ((compile {} script).remaining beat (scan .boundaryPreserving beat.text)).map Token.kind =
      [.duration, .voiceover] ∧
    ∃ entry, (compile {} script).lines[0]? = some entry ∧
      entry.map Descriptor.typeName = ["duration".toList, "voiceover".toList] := by
  intro script beat
  have hbeat : (beats script)[0]? = some beat := by decide +kernel
  have hlines : script.lines.length ≤ UInt32.size := by decide
  have hcolumns : ∀ piece ∈ script.lines, piece.length ≤ UInt32.size := by decide
  obtain ⟨entry, kept, hentry, hsublist, hnames, hremaining⟩ :=
    (no_object_is_lost {} script).2.1 0 beat hbeat
  have hkinds : ((compile {} script).remaining beat (scan .boundaryPreserving beat.text)).map
      Token.kind = [.duration, .voiceover] := by decide +kernel
  refine ⟨hbeat, hlines, hcolumns, hkinds, entry, hentry, ?_⟩
  have hsame : entry.map Descriptor.typeName = (kept.map Token.kind).map Kind.typeName := by
    rw [List.map_map]
    clear hentry hsublist hremaining
    induction hnames with
    | nil => rfl
    | cons hname _ ih => rw [List.map_cons, List.map_cons, ih, hname, Function.comp_apply]
  rw [hsame, ← hremaining hlines hcolumns, hkinds]
  decide

/-- In a script of 2^32 + 1 lines the diagnostic of the last line also locates a token of the first
one, which has not been left out. -/
theorem place_of_diagnostic_is_ambiguous :
    ¬∀ (options : Options) (script : Text) (index : Nat) (beat : ScriptLine)
        (entry : List Descriptor), (beats script)[index]? = some beat →
      (compile options script).lines[index]? = some entry →
        ((compile options script).remaining beat (scan options.scanMode beat.text)).length =
          entry.length := by
  intro h
  let colored : Text := "5 second z background".toList
  let colorless : Text := "5 seconds, background".toList
  have hbeats (count : Nat) :
      beats (colored ++ '\n' :: (List.replicate count '\n' ++ colorless)) =
        [⟨1, colored⟩, ⟨count + 2, colorless⟩] := by
    have hupper : beats colored = [⟨1, colored⟩] := by decide
    have hlower : beats colorless = [⟨1, colorless⟩] := by decide
    have hcount : colored.count '\n' = 0 := by decide
    rw [beats_append_lineFeed, beats_replicate_append, hupper, hlower, hcount]
    simp [ScriptLine.shiftDown, Nat.add_comm, Nat.add_left_comm]
  have hscript := hbeats (UInt32.size - 1)
  generalize colored ++ '\n' :: (List.replicate (UInt32.size - 1) '\n' ++ colorless) = script
    at hscript
  have hremaining : ((compile {} script).remaining ⟨1, colored⟩
      (scan .boundaryPreserving colored)).length = 1 := by
    rw [compile, hscript]
    decide +kernel
  have hentry : (compile {} script).lines[0]? = some (ScriptLine.descriptors {} ⟨1, colored⟩) := by
    rw [compile, List.getElem?_map, hscript]
    rfl
  have hlength : (ScriptLine.descriptors {} ⟨1, colored⟩).length = 2 := by decide +kernel
  have hsame := h {} script 0 ⟨1, colored⟩ _ (by rw [hscript]; rfl) hentry
  rw [hlength] at hsame
  exact absurd (hremaining.symm.trans hsame) (by decide)

end Storyboard
