import Storyboard.Proofs.Arguments
import Storyboard.Proofs.Disk
import Storyboard.Proofs.LineEndings

/-!
# Runs are all or nothing

On a host that keeps files, a run that fails leaves all files as they were and writes nothing to
the standard output. A run that compiles a script and does not fail has written the
descriptors of its report, to one file or to the standard output, and one line on the error stream
for each diagnostic if it was asked to.
-/

namespace Storyboard

/-- The line that warns of a diagnostic, without the line feed at its end. -/
def Diagnostic.warningLine (diagnostic : Diagnostic) : Text :=
  "warning: ".toList ++ decimal diagnostic.line.toNat ++ ':' :: decimal diagnostic.column.toNat ++
    ": ".toList ++ diagnostic.message

/-- There is no line feed in the decimal text of a number. -/
theorem lineFeed_not_mem_decimal (n : Nat) : '\n' ∉ decimal n := by
  intro h
  have hdigit := Nat.isDigit_of_mem_toDigits (by decide) (by decide) h
  exact absurd hdigit (by decide)

/-- There is no line feed in what is said about a keyword. -/
theorem Issue.lineFeed_not_mem_remark (issue : Issue) : '\n' ∉ issue.remark := by
  cases issue <;> decide

/-- A diagnostic quotes a keyword from a line, so there is no line feed in its message. -/
theorem lineFeed_not_mem_message {options : Options} {script : Text} {diagnostic : Diagnostic}
    (h : diagnostic ∈ (compile options script).diagnostics) : '\n' ∉ diagnostic.message := by
  obtain ⟨beat, hbeat, hdiagnostic⟩ := List.mem_flatMap.mp h
  obtain ⟨token, issue, ⟨before, after, htext, _⟩, rfl⟩ :=
    ScriptLine.exists_token_of_mem_diagnostics hdiagnostic
  have hline := Text.lineFeed_not_mem_of_mem_lines
    (List.mem_of_getElem? (getElem?_lines_of_mem_beats hbeat))
  rw [htext] at hline
  have hkeyword : '\n' ∉ token.keyword := fun hmem =>
    hline (List.mem_append_right before (List.mem_append_left after hmem))
  have hremark := issue.lineFeed_not_mem_remark
  simp [Diagnostic.ofToken, Issue.message, hkeyword, hremark]

/-- A warning takes up one line. -/
theorem lineFeed_not_mem_warningLine {options : Options} {script : Text} {diagnostic : Diagnostic}
    (h : diagnostic ∈ (compile options script).diagnostics) : '\n' ∉ diagnostic.warningLine := by
  have hmessage := lineFeed_not_mem_message h
  have hline := lineFeed_not_mem_decimal diagnostic.line.toNat
  have hcolumn := lineFeed_not_mem_decimal diagnostic.column.toNat
  have hopening : '\n' ∉ "warning: ".toList := by decide
  have hcolon : '\n' ∉ ": ".toList := by decide
  unfold Diagnostic.warningLine
  simp only [List.mem_append, List.mem_cons, not_or]
  exact ⟨⟨⟨⟨hopening, hline⟩, by decide, hcolumn⟩, hcolon⟩, hmessage⟩

/-- Lines that end with line feeds are found again, before an empty one. -/
theorem Text.lines_flatMap_lineFeed {pieces : List Text} (h : ∀ piece ∈ pieces, '\n' ∉ piece) :
    Text.lines (pieces.flatMap fun piece => piece ++ ['\n']) = pieces ++ [[]] := by
  induction pieces with
  | nil => rfl
  | cons piece later ih =>
    have hlater := ih fun other hother => h other (List.mem_cons_of_mem _ hother)
    rw [List.flatMap_cons, List.append_assoc, List.singleton_append, lines_append_lineFeed,
      lines_eq_singleton (h piece List.mem_cons_self), hlater]
    rfl

/-- The warnings of a report take up one line for each of its diagnostics. -/
theorem lines_flatMap_warning (options : Options) (script : Text) :
    Text.lines ((compile options script).diagnostics.flatMap CommandLine.warning) =
      (compile options script).diagnostics.map Diagnostic.warningLine ++ [[]] := by
  have hpieces : ∀ piece ∈ (compile options script).diagnostics.map Diagnostic.warningLine,
      '\n' ∉ piece := by
    intro piece hpiece
    obtain ⟨diagnostic, hdiagnostic, rfl⟩ := List.mem_map.mp hpiece
    exact lineFeed_not_mem_warningLine hdiagnostic
  rw [← Text.lines_flatMap_lineFeed hpieces, List.flatMap_map]
  rfl

namespace CommandLine

section

variable {State File : Type} {host : Host (StateM State)} {disk : State → Disk File}
  {input : State → Option ByteArray}

/-- One action after another runs from the state that the first one leaves. -/
theorem run_bind {α β : Type} (action : StateM State α) (next : α → StateM State β)
    (state : State) :
    (action >>= next).run state = (next (action.run state).1).run (action.run state).2 :=
  rfl

/-- Loading options leaves the files as they are. -/
theorem loadOptions_eq (h : host.KeepsFiles disk input) (config : Option Text) (state : State) :
    ∃ loaded after, (loadOptions host config).run state = (loaded, after) ∧
      loaded.toOption = (disk state).options? config ∧ disk after = disk state ∧
      input after = input state := by
  cases config with
  | none => exact ⟨.ok {}, state, rfl, rfl, rfl, rfl⟩
  | some path =>
    obtain ⟨after, hread, hdisk, hinput⟩ := h.readFile path state
    rw [loadOptions, Disk.options?, ← bind_textOfBytes?]
    simp only [run_bind, hread]
    cases ((disk state).read path).bind textOfBytes? with
    | none => exact ⟨_, after, rfl, rfl, hdisk, hinput⟩
    | some text =>
      simp only [Option.bind_some]
      cases Options.ofJson text with
      | error fault => exact ⟨_, after, rfl, rfl, hdisk, hinput⟩
      | ok options => exact ⟨_, after, rfl, rfl, hdisk, hinput⟩

/-- Reading a script leaves the files as they are. -/
theorem readScript_eq (h : host.KeepsFiles disk input) (path : Text) (state : State) :
    ∃ found after, (readScript host path).run state = (found, after) ∧
      found.toOption = (disk state).script? (input state) path ∧ disk after = disk state := by
  rw [readScript, Disk.script?, ← bind_textOfBytes?]
  by_cases hnames : NamesInput path
  · rw [if_pos (isStandardInput_iff.mpr hnames), if_pos hnames]
    obtain ⟨after, hread, hdisk⟩ := h.readInput state
    simp only [run_bind, hread]
    cases (input state).bind textOfBytes? with
    | none => exact ⟨_, after, rfl, rfl, hdisk⟩
    | some script => exact ⟨_, after, rfl, rfl, hdisk⟩
  · rw [if_neg (mt isStandardInput_iff.mp hnames), if_neg hnames]
    obtain ⟨after, hread, hdisk, _⟩ := h.readFile path state
    simp only [run_bind, hread]
    cases ((disk state).read path).bind textOfBytes? with
    | none => exact ⟨_, after, rfl, rfl, hdisk⟩
    | some script => exact ⟨_, after, rfl, rfl, hdisk⟩

/-- A text is the JSON text of the descriptors in a report, spread over lines if a job asks for
that and without any white space otherwise. -/
structure CompileJob.Prints (job : CompileJob) (report : Report) (t : Text) : Prop where
  of_pretty : job.pretty = true → t = (linesToJson report.lines).pretty
  of_not_pretty : job.pretty = false → t = (linesToJson report.lines).compact

/-- A run writes the JSON text that its job asks for. -/
theorem CompileJob.prints_linesText (job : CompileJob) (report : Report) :
    job.Prints report (linesText job.pretty report) where
  of_pretty hpretty := if_pos hpretty
  of_not_pretty hpretty := if_neg (Bool.not_eq_true _ ▸ hpretty)

/-- Spread over lines, every level is indented by two more spaces. -/
example : (⟨"s".toList, none, none, true, false, false⟩ : CompileJob).Prints
    (compile {} "5 seconds".toList)
    ("[\n  [\n    \x7b\n      \"type\": \"duration\",\n".toList ++
      "      \"value\": 5\n    \x7d\n  ]\n]".toList) where
  of_pretty _ := by decide +kernel
  of_not_pretty hpretty := Bool.noConfusion hpretty

/-- What a run that compiles a script has delivered when it ends: the JSON text of the descriptors
in the report, as the content of a file or on the standard output, and a line for each of the
diagnostics if they were asked for. -/
structure CompileJob.Delivers (job : CompileJob) (report : Report) (before : Disk File)
    (ending : Ending) (after : Disk File) : Prop where
  of_no_output : job.output = none →
    after = before ∧ ∃ json, job.Prints report json ∧ ending.output = json ++ ['\n']
  of_output : ∀ path, job.output = some path →
    ending.output = [] ∧
      ∃ json, job.Prints report json ∧ before.Replaces path (String.ofList json).toUTF8 after
  of_diagnostics : job.diagnostics = true →
    ending.errors =
        report.diagnostics.flatMap (fun diagnostic => diagnostic.warningLine ++ ['\n']) ∧
      ending.errors.lines = report.diagnostics.map Diagnostic.warningLine ++ [[]]
  of_no_diagnostics : job.diagnostics = false → ending.errors = []

/-- A run has delivered its report once the descriptors are where they belong. -/
theorem CompileJob.delivers_of_output {job : CompileJob} {options : Options} {script : Text}
    {before after : Disk File} {ending : Ending}
    (hnone : job.output = none →
      after = before ∧ ending.output = linesText job.pretty (compile options script) ++ ['\n'])
    (hsome : ∀ path, job.output = some path → ending.output = [] ∧
      before.Replaces path (bytesOfText (linesText job.pretty (compile options script))) after)
    (herrors : ending.errors =
      if job.diagnostics then (compile options script).diagnostics.flatMap warning else []) :
    job.Delivers (compile options script) before ending after where
  of_no_output houtput :=
    ⟨(hnone houtput).1, _, job.prints_linesText _, (hnone houtput).2⟩
  of_output path houtput :=
    ⟨(hsome path houtput).1, _, job.prints_linesText _, (hsome path houtput).2⟩
  of_diagnostics hdiagnostics := by
    rw [if_pos hdiagnostics] at herrors
    exact ⟨herrors, herrors ▸ lines_flatMap_warning options script⟩
  of_no_diagnostics hdiagnostics := by
    rw [herrors, hdiagnostics]
    rfl

/-- Why a run that compiles a script fails: its options or the script cannot be read, or the JSON
text cannot be written. -/
inductive CompileJob.Hindered (host : Host (StateM State)) (disk : State → Disk File)
    (input : State → Option ByteArray) (job : CompileJob) (before : State) : Prop
  | options (h : (disk before).options? job.config = none)
  | script (h : (disk before).script? (input before) job.input = none)
  | output (options : Options) (script path json : Text) (state : State)
      (hoptions : (disk before).options? job.config = some options)
      (hscript : (disk before).script? (input before) job.input = some script)
      (hpath : job.output = some path) (hdisk : disk state = disk before)
      (hjson : job.Prints
        (compile ⟨if job.legacyScan then .legacy else options.scanMode⟩ script) json)
      (h : ((host.writeFile path (String.ofList json).toUTF8).run state).1 = false)

/-- The command line has the last word on the scan mode. -/
theorem CompileJob.adjust_eq (job : CompileJob) (options : Options) :
    job.adjust options = ⟨if job.legacyScan then .legacy else options.scanMode⟩ := by
  rw [adjust]
  split <;> rfl

/-- A run that failed tells so by its exit code. -/
theorem code_failed_ne_zero (warnings : Text) (failure : Failure) :
    (Ending.failed warnings failure).code ≠ 0 := by
  have h : (1 : UInt32) ≠ 0 := by decide
  exact h

/-- A run that compiles a script either delivers its report or fails for a reason. When it fails,
the files are as they were, and nothing was written to the standard output. -/
theorem runCompile_eq (h : host.KeepsFiles disk input) (job : CompileJob) (before : State) :
    ∃ ending after, (runCompile host job).run before = (ending, after) ∧
      (ending.code = 0 ∧ (∃ options script, (disk before).options? job.config = some options ∧
          (disk before).script? (input before) job.input = some script ∧
          job.Delivers (compile (job.adjust options) script) (disk before) ending (disk after)) ∨
        ending.code ≠ 0 ∧ ending.output = [] ∧ disk after = disk before ∧
          job.Hindered host disk input before) := by
  obtain ⟨loaded, loadedState, hload, hloaded, hloadedDisk, hloadedInput⟩ :=
    loadOptions_eq h job.config before
  obtain ⟨found, foundState, hread, hfound, hfoundDisk⟩ := readScript_eq h job.input loadedState
  rw [hloadedDisk, hloadedInput] at hfound
  rw [hloadedDisk] at hfoundDisk
  rw [runCompile, run_bind, hload]
  cases loaded with
  | error failure =>
    exact ⟨_, loadedState, rfl,
      Or.inr ⟨code_failed_ne_zero _ _, rfl, hloadedDisk, .options hloaded.symm⟩⟩
  | ok options =>
    simp only [run_bind, hread]
    cases found with
    | error failure =>
      exact ⟨_, foundState, rfl,
        Or.inr ⟨code_failed_ne_zero _ _, rfl, hfoundDisk, .script hfound.symm⟩⟩
    | ok script =>
      cases houtput : job.output with
      | none =>
        refine ⟨_, foundState, rfl, Or.inl ⟨rfl, options, script, hloaded.symm, hfound.symm, ?_⟩⟩
        exact job.delivers_of_output (fun _ => ⟨hfoundDisk, rfl⟩)
          (fun path hpath => by simp [houtput] at hpath) rfl
      | some path =>
        -- Only here a file can change, so its fate decides how the run ends.
        let content := bytesOfText (linesText job.pretty (compile (job.adjust options) script))
        obtain ⟨written, after, hwrite, heffect⟩ := h.writeFile path content foundState
        rw [hfoundDisk] at heffect
        simp only [run_bind, content, hwrite]
        cases written with
        | true =>
          refine ⟨_, after, rfl, Or.inl ⟨rfl, options, script, hloaded.symm, hfound.symm, ?_⟩⟩
          refine job.delivers_of_output (fun hnone => by simp [houtput] at hnone)
            (fun other hother => ?_) rfl
          obtain rfl : path = other := Option.some.inj (houtput.symm.trans hother)
          exact ⟨rfl, heffect⟩
        | false =>
          refine ⟨_, after, rfl, Or.inr ⟨code_failed_ne_zero _ _, rfl, heffect, ?_⟩⟩
          exact .output options script path _ foundState hloaded.symm hfound.symm houtput hfoundDisk
            (job.adjust_eq options ▸ job.prints_linesText _) (congrArg Prod.fst hwrite)

/-- Listing tokens leaves the files as they are, and writes nothing when it fails. -/
theorem runTokens_eq (h : host.KeepsFiles disk input) (job : TokensJob) (before : State) :
    ∃ ending after, (runTokens host job).run before = (ending, after) ∧ disk after = disk before ∧
      (ending.code ≠ 0 → ending.output = []) := by
  obtain ⟨found, after, hread, -, hdisk⟩ := readScript_eq h job.input before
  rw [runTokens, run_bind, hread]
  cases found with
  | error failure => exact ⟨_, after, rfl, hdisk, fun _ => rfl⟩
  | ok script => exact ⟨_, after, rfl, hdisk, fun hcode => absurd rfl hcode⟩

/-- A run that fails changes no file and writes nothing to the standard output, and neither does a
run that compiles nothing change any. A run that compiles a script has either delivered the report
on what it was asked to read, or it fails for a reason. -/
theorem run_is_all_or_nothing (h : host.KeepsFiles disk input) (arguments : List Text)
    (before : State) :
    ∃ ending after, (run host arguments).run before = (ending, after) ∧
      (ending.code ≠ 0 → disk after = disk before ∧ ending.output = []) ∧
      ((∀ job, Request.ofArguments? arguments ≠ some (.compile job)) → disk after = disk before) ∧
      ∀ job, Request.ofArguments? arguments = some (.compile job) → job.SpelledBy arguments ∧
        (ending.code = 0 → ∃ options script, (disk before).options? job.config = some options ∧
          (disk before).script? (input before) job.input = some script ∧
          job.Delivers (compile ⟨if job.legacyScan then .legacy else options.scanMode⟩ script)
            (disk before) ending (disk after)) ∧
        (ending.code ≠ 0 → job.Hindered host disk input before) := by
  rw [run]
  cases hrequest : Request.ofArguments? arguments with
  | none => exact ⟨_, before, rfl, fun _ => ⟨rfl, rfl⟩, fun _ => rfl, fun job hjob => nomatch hjob⟩
  | some request =>
    cases request with
    | help | version =>
      exact ⟨_, before, rfl, fun hcode => absurd rfl hcode, fun _ => rfl,
        fun job hjob => nomatch hjob⟩
    | tokens job =>
      obtain ⟨ending, after, hrun, hdisk, houtput⟩ := runTokens_eq h job before
      exact ⟨ending, after, hrun, fun hcode => ⟨hdisk, houtput hcode⟩, fun _ => hdisk,
        fun job hjob => nomatch hjob⟩
    | compile job =>
      obtain ⟨ending, after, hrun, hending⟩ := runCompile_eq h job before
      refine ⟨ending, after, hrun, fun hcode => ?_, fun hother => absurd rfl (hother job), ?_⟩
      · rcases hending with ⟨hzero, -⟩ | ⟨-, houtput, hdisk, -⟩
        · exact absurd hzero hcode
        · exact ⟨hdisk, houtput⟩
      · rintro _ ⟨rfl⟩
        refine ⟨CompileJob.spelledBy_of_ofArguments? hrequest, fun hcode => ?_, fun hcode => ?_⟩
        · rcases hending with ⟨-, options, script, hoptions, hscript, hdelivers⟩ | ⟨hnonzero, -⟩
          · exact ⟨options, script, hoptions, hscript, job.adjust_eq options ▸ hdelivers⟩
          · exact absurd hcode hnonzero
        · rcases hending with ⟨hzero, -⟩ | ⟨-, -, -, hhindered⟩
          · exact absurd hzero hcode
          · exact hhindered

/-- A background without a color is warned of, and the file of descriptors is there. Where the
script stands in for the options, which it cannot, nothing changes. -/
theorem run_is_all_or_nothing_colorless :
    let script := "5 second duration, background".toList
    let before : Workspace := ⟨[(["s".toList], bytesOfText script)], .empty⟩
    let arguments := ["compile", "--input", "s", "--out=o", "--diagnostics"].map String.toList
    (∃ ending after, (run Workspace.host arguments).run before = (ending, after) ∧
      ending.code = 0 ∧ ending.output = [] ∧
      before.disk.Replaces "o".toList
        "[[\x7b\"type\":\"duration\",\"value\":5\x7d]]".toUTF8 after.disk ∧
      ending.errors.lines =
        ["warning: 1:20: 'background' has no color next to it; background dropped".toList, []]) ∧
    ∃ ending after,
      (run Workspace.host (arguments ++ ["--config=s".toList])).run before = (ending, after) ∧
        ending.code ≠ 0 ∧ ending.output = [] ∧ after.disk = before.disk := by
  intro script before arguments
  constructor
  · obtain ⟨ending, after, hrun, -, -, hcompile⟩ :=
      run_is_all_or_nothing Workspace.keepsFiles_host arguments before
    obtain ⟨-, hdelivered, -⟩ :=
      hcompile ⟨"s".toList, some "o".toList, none, false, false, true⟩ (by decide +kernel)
    have hcode : ((run Workspace.host arguments).run before).1.code = 0 := by decide +kernel
    rw [hrun] at hcode
    obtain ⟨_, found, ⟨rfl⟩, hfound, hdelivers⟩ := hdelivered hcode
    have hscript : before.disk.script? (some before.input) "s".toList = some script := by
      decide +kernel
    obtain rfl : script = found := Option.some.inj (hscript.symm.trans hfound)
    obtain ⟨houtput, json, hprints, hreplaces⟩ := hdelivers.of_output _ rfl
    have hjson : json = "[[\x7b\"type\":\"duration\",\"value\":5\x7d]]".toList :=
      (hprints.of_not_pretty rfl).trans (by decide +kernel)
    rw [hjson, String.ofList_toList] at hreplaces
    refine ⟨ending, after, hrun, hcode, houtput, hreplaces, ?_⟩
    rw [(hdelivers.of_diagnostics rfl).2]
    decide +kernel
  · obtain ⟨ending, after, hrun, hfailed, -⟩ :=
      run_is_all_or_nothing Workspace.keepsFiles_host (arguments ++ ["--config=s".toList]) before
    have hcode :
        ((run Workspace.host (arguments ++ ["--config=s".toList])).run before).1.code ≠ 0 := by
      decide +kernel
    rw [hrun] at hcode
    obtain ⟨hdisk, houtput⟩ := hfailed hcode
    exact ⟨ending, after, hrun, hcode, houtput, hdisk⟩

end

end CommandLine

end Storyboard
