import Storyboard.Journal
import Storyboard.Proofs.Entities

/-!
# The journal as a transcript

A computation that writes a journal returns a value and adds entries. This file finds both for
every stage of a compilation and joins them along its steps. Compiling with a journal returns the
report of the compilation, and the journal lists what the report was made of: the lines that were
skipped, then the tokens and diagnostics of each beat, then the counts of the report.
-/

namespace Storyboard

/-- What is written about a beat: its tokens as they are scanned, then what is found missing. -/
def ScriptLine.entries (options : Options) (line : ScriptLine) : List JournalEntry :=
  (scan options.scanMode line.text).map .scanned ++ (line.diagnostics options).map .reported

/-- Whether an entry says that an object was left out. -/
def JournalEntry.tellsDropped (entry : JournalEntry) : Bool :=
  entry.level == .debug && "(dropped)".toList.isSuffixOf entry.message

namespace Journaled

/-- Whatever has been written before, the action returns the value and adds the entries. -/
def Writes {α : Type} (action : Journaled α) (value : α) (written : List JournalEntry) : Prop :=
  ∀ entries : Array JournalEntry, action.run entries = (value, entries ++ written)

section

variable {α β : Type} {value : α} {written : List JournalEntry}

/-- Returning a value adds no entries. -/
theorem writes_pure (value : α) : (pure value : Journaled α).Writes value [] := by
  intro entries
  rw [Array.appendList_nil]
  rfl

/-- A note adds its entry. -/
theorem writes_note (entry : JournalEntry) : (note entry).Writes () [entry] := by
  intro entries
  rw [Array.appendList_cons, Array.appendList_nil]
  rfl

/-- An action after another one adds its entries to those of the first. -/
theorem Writes.bind {action : Journaled α} {next : α → Journaled β} {result : β}
    {later : List JournalEntry} (h : action.Writes value written)
    (hnext : (next value).Writes result later) :
    (action >>= next).Writes result (written ++ later) := by
  intro entries
  have hrun : (action >>= next).run entries =
      (next (action.run entries).1).run (action.run entries).2 := rfl
  have hassoc : entries ++ written ++ later = entries ++ (written ++ later) :=
    Array.ext' (by simp)
  rw [hrun, h entries, hnext, hassoc]

/-- An action that returns a function of the value of another one adds no entries to it. -/
theorem Writes.map {action : Journaled α} (f : α → β) (h : action.Writes value written) :
    (action >>= fun found => pure (f found)).Writes (f value) written := by
  have hmap : (action >>= fun found => pure (f found)).Writes (f value) (written ++ []) :=
    h.bind (writes_pure (f value))
  rwa [List.append_nil] at hmap

/-- An action that does not depend on the value of the one before it. -/
theorem Writes.then {action : Journaled α} {second : Journaled β} {result : β}
    {later : List JournalEntry} (h : action.Writes value written)
    (hsecond : second.Writes result later) :
    (action >>= fun _ => second).Writes result (written ++ later) :=
  h.bind hsecond

/-- Each item of a list is noted in turn. -/
theorem writes_forM (entry : α → JournalEntry) (items : List α) :
    (items.forM fun item => note (entry item)).Writes () (items.map entry) := by
  induction items with
  | nil => exact writes_pure ()
  | cons item later ih => exact (writes_note (entry item)).bind ih

/-- What may be there is noted if it is. -/
theorem writes_forM_option (entry : α → JournalEntry) (found : Option α) :
    (found.forM fun item => note (entry item)).Writes () (found.toList.map entry) := by
  cases found with
  | none => exact writes_pure ()
  | some item => exact writes_note (entry item)

end

/-- What is found in a list is what is found in its first entry, then what is found later. -/
theorem filterMap_cons_eq_append {α β : Type} (f : α → Option β) (entry : α) (later : List α) :
    (entry :: later).filterMap f = (f entry).toList ++ later.filterMap f := by
  cases h : f entry <;> simp [h]

/-- Selecting the beats notes every other line. -/
theorem writes_selectBeats (lines : List ScriptLine) :
    (selectBeats lines).Writes (lines.filter ScriptLine.isBeat)
      ((lines.filter fun line => !line.isBeat).map fun line => .skipped line.number) := by
  induction lines with
  | nil => exact writes_pure []
  | cons line later ih =>
    rw [selectBeats]
    cases hbeat : line.isBeat with
    | true => simpa [hbeat] using ih.map (line :: ·)
    | false => simpa [hbeat] using (writes_note (.skipped line.number)).bind ih

/-- Making up the objects of tokens notes what is found missing. -/
theorem writes_assembleTokens (line : ScriptLine) (previous : Option Token)
    (tokens : List Token) :
    let outcomes := Assembly.outcomesAfter line.text previous tokens
    let diagnostics := outcomes.filterMap fun entry =>
      entry.2.issue?.map fun issue => Diagnostic.ofToken issue line.number line.text entry.1
    (assembleTokens line previous tokens).Writes
      (outcomes.filterMap fun entry => entry.2.descriptor?, diagnostics)
      (diagnostics.map .reported) := by
  induction tokens generalizing previous with
  | nil => exact writes_pure ([], [])
  | cons token later ih =>
    let outcome := Assembly.assemble line.text previous token later.head?
    let diagnostic := outcome.issue?.map fun issue =>
      Diagnostic.ofToken issue line.number line.text token
    have hlater := (ih (some token)).map fun made =>
      (outcome.descriptor?.toList ++ made.1, diagnostic.toList ++ made.2)
    have hboth := (writes_forM_option .reported diagnostic).then hlater
    rw [← List.map_append] at hboth
    simp only [Assembly.outcomesAfter, filterMap_cons_eq_append]
    exact hboth

/-- Compiling a beat notes its tokens before anything that is missing. -/
theorem writes_compileBeat (options : Options) (line : ScriptLine) :
    (compileBeat options line).Writes (line.descriptors options, line.diagnostics options)
      (line.entries options) :=
  (writes_forM .scanned (scan options.scanMode line.text)).bind
    (writes_assembleTokens line none (scan options.scanMode line.text))

/-- Compiling beats notes what there is about each of them in turn. -/
theorem writes_compileBeats (options : Options) (beats : List ScriptLine) :
    (compileBeats options beats).Writes
      (⟨beats.map fun beat => beat.descriptors options,
        beats.flatMap fun beat => beat.diagnostics options⟩ : Report)
      (beats.flatMap fun beat => beat.entries options) := by
  induction beats with
  | nil => exact writes_pure _
  | cons beat later ih =>
    exact (writes_compileBeat options beat).bind (ih.map _)

/-- Compiling a script notes the lines to skip, then the beats, then the summary. -/
theorem writes_compile (options : Options) (script : Text) :
    (compile options script).Writes (Storyboard.compile options script)
      ((commentary script).map (fun line => .skipped line.number) ++
        ((beats script).flatMap (fun beat => beat.entries options) ++
          [(Storyboard.compile options script).summary])) := by
  refine (writes_selectBeats (scriptLines script)).bind
    ((writes_compileBeats options (beats script)).bind ?_)
  exact (writes_note _).bind (writes_pure _)

end Journaled

/-- Whether a text ends with a short mark is told by its last part. -/
theorem isSuffixOf_append_eq {mark before ending : Text} (h : mark.length ≤ ending.length) :
    mark.isSuffixOf (before ++ ending) = mark.isSuffixOf ending := by
  rw [Bool.eq_iff_iff, List.isSuffixOf_iff_suffix, List.isSuffixOf_iff_suffix]
  constructor
  · intro hmark
    exact List.suffix_of_suffix_length_le hmark (List.suffix_append before ending) h
  · intro hmark
    exact hmark.trans (List.suffix_append before ending)

namespace JournalEntry

/-- A line that is skipped is named by its number. -/
theorem message_skipped (number : Nat) :
    (skipped number).message =
      "line ".toList ++ decimal number ++ ": no duration, skipped".toList :=
  rfl

/-- A diagnostic is written out with its place, and it is added whether its object was dropped. -/
theorem message_reported (diagnostic : Diagnostic) :
    (reported diagnostic).message =
      "line ".toList ++ decimal diagnostic.line.toNat ++ " col ".toList ++
        decimal diagnostic.column.toNat ++ ": ".toList ++ diagnostic.message ++
        (if diagnostic.issue.drops then " (dropped)".toList else " (incomplete)".toList) :=
  rfl

/-- A diagnostic is noted as dropped exactly if it drops its object. -/
theorem tellsDropped_reported (diagnostic : Diagnostic) :
    (reported diagnostic).tellsDropped = diagnostic.issue.drops := by
  rw [tellsDropped, message_reported]
  cases diagnostic.issue.drops with
  | true =>
    rw [if_pos rfl, isSuffixOf_append_eq (by decide)]
    rfl
  | false =>
    rw [if_neg Bool.false_ne_true, isSuffixOf_append_eq (by decide)]
    rfl

/-- A line that is skipped is not noted as dropped. -/
theorem tellsDropped_skipped (number : Nat) : (skipped number).tellsDropped = false := by
  rw [tellsDropped, message_skipped, isSuffixOf_append_eq (by decide)]
  rfl

end JournalEntry

/-- The journal lists the lines to skip, then the entries of each beat, then the summary. -/
theorem journal_eq (options : Options) (script : Text) :
    journal options script =
      (commentary script).map (fun line => .skipped line.number) ++
        ((beats script).flatMap (fun beat => beat.entries options) ++
          [(compile options script).summary]) := by
  rw [journal, Journaled.writes_compile options script #[]]
  simp

namespace ScriptLine

/-- The entries of a beat that note a dropped object are those of its diagnostics that drop one. -/
theorem countP_tellsDropped_entries (options : Options) (line : ScriptLine) :
    (line.entries options).countP JournalEntry.tellsDropped =
      (line.diagnostics options).countP fun diagnostic => diagnostic.issue.drops := by
  have hscanned : ((scan options.scanMode line.text).map JournalEntry.scanned).countP
      JournalEntry.tellsDropped = 0 := by
    rw [List.countP_map, List.countP_eq_zero]
    exact fun token _ => by simp [JournalEntry.tellsDropped, JournalEntry.level]
  rw [entries, List.countP_append, hscanned, Nat.zero_add, List.countP_map]
  exact List.countP_congr fun diagnostic _ => by
    rw [Function.comp_apply, JournalEntry.tellsDropped_reported]

/-- A beat has an entry of the finest level for each of its tokens. -/
theorem countP_trace_entries (options : Options) (line : ScriptLine) :
    (line.entries options).countP (fun entry => entry.level == .trace) =
      (scan options.scanMode line.text).length := by
  have hreported : ((line.diagnostics options).map JournalEntry.reported).countP
      (fun entry => entry.level == .trace) = 0 := by
    rw [List.countP_map, List.countP_eq_zero]
    exact fun diagnostic _ => by simp [JournalEntry.level]
  rw [entries, List.countP_append, hreported, Nat.add_zero, List.countP_map,
    ← List.length_map JournalEntry.scanned, ← List.countP_map, List.countP_eq_length]
  simp [JournalEntry.level]

end ScriptLine

/-- The entries that note a dropped object are those of the diagnostics that drop one. -/
theorem countP_tellsDropped_journal (options : Options) (script : Text) :
    (journal options script).countP JournalEntry.tellsDropped =
      (compile options script).diagnostics.countP fun diagnostic => diagnostic.issue.drops := by
  have hskipped : ((commentary script).map fun line => JournalEntry.skipped line.number).countP
      JournalEntry.tellsDropped = 0 := by
    rw [List.countP_map, List.countP_eq_zero]
    exact fun line _ => by simp [JournalEntry.tellsDropped_skipped]
  have hsummary : [(compile options script).summary].countP JournalEntry.tellsDropped = 0 := rfl
  rw [journal_eq, List.countP_append, List.countP_append, hskipped, hsummary, compile,
    List.countP_flatMap, List.countP_flatMap]
  simp [Function.comp_def, ScriptLine.countP_tellsDropped_entries]

/-- The journal has an entry of the finest level for each token of the script. -/
theorem countP_trace_journal (options : Options) (script : Text) :
    (journal options script).countP (fun entry => entry.level == .trace) =
      (scannedTokens options script).length := by
  have hskipped : ((commentary script).map fun line => JournalEntry.skipped line.number).countP
      (fun entry => entry.level == .trace) = 0 := by
    rw [List.countP_map, List.countP_eq_zero]
    exact fun line _ => by simp [JournalEntry.level]
  have hsummary : [(compile options script).summary].countP
      (fun entry => entry.level == .trace) = 0 := rfl
  rw [journal_eq, List.countP_append, List.countP_append, hskipped, hsummary, scannedTokens,
    List.countP_flatMap, List.length_flatMap]
  simp [Function.comp_def, ScriptLine.countP_trace_entries]

/-- The journal is a transcript of the report. Compiling with a journal returns the report, and the
journal consists of an entry for each line that is no beat, in the order of their numbers; then, for
each beat in turn, an entry for each of its tokens and an entry for each of its diagnostics, which
together are those of the report; and at last the counts of the report. Every entry says in full
what it is about: the entry of a diagnostic gives its line, its column and its message, and ends by
telling whether its object was dropped. The number of descriptors is therefore the number of tokens
noted less that of the drops. -/
theorem journal_transcribes_report (options : Options) (script : Text) :
    let report := compile options script
    ((Journaled.compile options script).run #[]).1 = report ∧
    journal options script =
      (commentary script).map (fun line => .skipped line.number) ++
        ((beats script).flatMap (fun beat =>
          (scan options.scanMode beat.text).map .scanned ++
            (beat.diagnostics options).map .reported) ++
          [.compiled report.lines.length report.lines.flatten.length report.diagnostics.length]) ∧
    (commentary script).Pairwise (fun upper lower => upper.number < lower.number) ∧
    report.diagnostics = (beats script).flatMap (fun beat => beat.diagnostics options) ∧
    (∀ number, (JournalEntry.skipped number).level = .debug ∧
      (JournalEntry.skipped number).message =
        "line ".toList ++ decimal number ++ ": no duration, skipped".toList) ∧
    (∀ token, (JournalEntry.scanned token).level = .trace ∧
      (JournalEntry.scanned token).message =
        "scanned ".toList ++ token.kind.title ++ " '".toList ++ token.keyword ++ "' at ".toList ++
          decimal token.keywordOffset) ∧
    (∀ diagnostic, (JournalEntry.reported diagnostic).level = .debug ∧
      (JournalEntry.reported diagnostic).message =
        "line ".toList ++ decimal diagnostic.line.toNat ++ " col ".toList ++
          decimal diagnostic.column.toNat ++ ": ".toList ++ diagnostic.message ++
          (if diagnostic.issue.drops then " (dropped)".toList else " (incomplete)".toList) ∧
      (JournalEntry.reported diagnostic).tellsDropped = diagnostic.issue.drops) ∧
    (∀ beats descriptors diagnostics,
      (JournalEntry.compiled beats descriptors diagnostics).level = .info ∧
        (JournalEntry.compiled beats descriptors diagnostics).message =
          "compiled ".toList ++ decimal beats ++ " beats, ".toList ++ decimal descriptors ++
            " descriptors, ".toList ++ decimal diagnostics ++ " diagnostics".toList) ∧
    report.lines.flatten.length + (journal options script).countP JournalEntry.tellsDropped =
      (journal options script).countP fun entry => entry.level == .trace := by
  intro report
  refine ⟨?_, journal_eq options script, ?_, rfl,
    fun number => ⟨rfl, JournalEntry.message_skipped number⟩, fun _ => ⟨rfl, rfl⟩,
    fun diagnostic => ?_, fun _ _ _ => ⟨rfl, rfl⟩, ?_⟩
  · rw [Journaled.writes_compile options script #[]]
  · exact (ScriptLine.pairwise_number_numbered 1 script.lines).filter _
  · exact ⟨rfl, JournalEntry.message_reported diagnostic,
      JournalEntry.tellsDropped_reported diagnostic⟩
  · rw [countP_tellsDropped_journal, countP_trace_journal, length_flatten_lines_add]

/-- The kind of a token is written with a capital. -/
example : (JournalEntry.scanned ⟨.voiceover, "Voz en off".toList, 3, 4⟩).message =
    "scanned Voiceover 'Voz en off' at 4".toList := by
  decide

end Storyboard
