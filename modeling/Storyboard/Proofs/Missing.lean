import Storyboard.Proofs.Entities

/-!
# What objects lack

Media without a source and words without a caption are incomplete, which can be told from the
descriptor alone. This file shows that an issue is raised for a token exactly if its descriptor is
incomplete or is not there at all. The issues of a line that drop no object can therefore be read
off its descriptors, and each of them is about the token of its descriptor.
-/

namespace Storyboard

/-- What an object lacks, if anything: media that could have a source, or words that could have a
caption. -/
def Descriptor.missing? : Descriptor → Option Issue
  | audio none _ | chart none _ | video none _ | videosphere none | model none _ _ _ =>
    some .missingSource
  | panorama none | image none _ => some .missingSource
  | voiceover none | text none _ => some .missingCaption
  | _ => none

/-- An object that is there lacks its source or its caption, and neither drops it. -/
theorem Descriptor.mem_of_missing? {descriptor : Descriptor} {issue : Issue}
    (h : descriptor.missing? = some issue) :
    issue ∈ [Issue.missingSource, Issue.missingCaption] := by
  unfold missing? at h
  split at h
  all_goals simp_all

namespace Outcome

/-- An outcome for a kind tells what is missing: an object that is there has the issue of what it
lacks, and one that is not there has the issue of its kind. -/
def TellsMissing (kind : Kind) : Outcome → Prop
  | complete descriptor => descriptor.missing? = none
  | incomplete descriptor issue => descriptor.missing? = some issue
  | dropped issue =>
    issue = .missingDuration ∧ kind = .duration ∨
      issue = .missingColor ∧ (kind = .background ∨ kind = .fondo)

/-- An object that is made in any case tells what it lacks if its issue is raised exactly then. -/
theorem tellsMissing_ofFound {α : Type} {kind : Kind} {found : Option α} {issue : Issue}
    {descriptor : Descriptor}
    (h : descriptor.missing? = if found.isSome then none else some issue) :
    (ofFound found issue descriptor).TellsMissing kind := by
  rw [ofFound]
  split
  next hsome => rwa [if_pos hsome] at h
  next hnone => rwa [if_neg hnone] at h

namespace TellsMissing

variable {kind : Kind} {outcome : Outcome}

/-- The issue of an object that is there is what it lacks. -/
theorem issue?_eq (h : outcome.TellsMissing kind) {descriptor : Descriptor}
    (hdescriptor : outcome.descriptor? = some descriptor) :
    outcome.issue? = descriptor.missing? := by
  cases outcome with
  | complete other =>
    obtain rfl : other = descriptor := Option.some.inj hdescriptor
    exact h.symm
  | incomplete other issue =>
    obtain rfl : other = descriptor := Option.some.inj hdescriptor
    exact h.symm
  | dropped issue => simp [descriptor?] at hdescriptor

/-- An object that is not there is reported with the issue of its kind. -/
theorem issue?_of_dropped (h : outcome.TellsMissing kind) (hnone : outcome.descriptor? = none) :
    outcome.issue? = some .missingDuration ∧ kind = .duration ∨
      outcome.issue? = some .missingColor ∧ (kind = .background ∨ kind = .fondo) := by
  cases outcome with
  | complete descriptor => simp [descriptor?] at hnone
  | incomplete descriptor issue => simp [descriptor?] at hnone
  | dropped issue =>
    rcases h with ⟨rfl, hkind⟩ | ⟨rfl, hkind⟩
    · exact Or.inl ⟨rfl, hkind⟩
    · exact Or.inr ⟨rfl, hkind⟩

/-- An issue that drops objects is raised for none that is there. -/
theorem descriptor?_eq_none (h : outcome.TellsMissing kind) {issue : Issue}
    (hissue : outcome.issue? = some issue) (hdrops : issue.drops = true) :
    outcome.descriptor? = none := by
  cases hdescriptor : outcome.descriptor? with
  | none => rfl
  | some descriptor =>
    have hmem := Descriptor.mem_of_missing? ((h.issue?_eq hdescriptor).symm.trans hissue)
    simp only [List.mem_cons, List.not_mem_nil, or_false] at hmem
    rcases hmem with rfl | rfl
    all_goals simp [Issue.drops] at hdrops

end TellsMissing

end Outcome

namespace Assembly

/-- Whatever a window holds, the outcome tells what is missing. Each kind looks for the attribute
that its descriptor shows. -/
theorem tellsMissing_ofWindow (kind : Kind) (window : Text) :
    (ofWindow kind window).TellsMissing kind := by
  cases kind with
  | duration =>
    rw [ofWindow]
    cases Prose.duration? window with
    | some seconds => rfl
    | none => exact Or.inl ⟨rfl, rfl⟩
  | background =>
    rw [ofWindow]
    cases Prose.backgroundColor? window with
    | some color => rfl
    | none => exact Or.inr ⟨rfl, Or.inl rfl⟩
  | fondo =>
    rw [ofWindow]
    cases Prose.fondoColor? window with
    | some color => rfl
    | none => exact Or.inr ⟨rfl, Or.inr rfl⟩
  | audio | chart | video | videosphere =>
    refine Outcome.tellsMissing_ofFound ?_
    cases Prose.address? window <;> rfl
  | panorama | image =>
    refine Outcome.tellsMissing_ofFound ?_
    cases content? window <;> rfl
  | voiceover | text =>
    refine Outcome.tellsMissing_ofFound ?_
    cases Prose.caption? window <;> rfl
  | model =>
    rw [ofWindow, model]
    split
    next => rfl
    next =>
      refine Outcome.tellsMissing_ofFound ?_
      cases Prose.address? window <;> rfl

end Assembly

/-- The entries of a list in which something is found, beside what is found in them. -/
theorem zip_filterMap {α β γ : Type} (f : α → Option β) (g : α → γ) (entries : List α) :
    ((entries.filter fun entry => (f entry).isSome).map g).zip (entries.filterMap f) =
      entries.filterMap fun entry => (f entry).map fun found => (g entry, found) := by
  induction entries with
  | nil => rfl
  | cons entry later ih =>
    cases hfound : f entry with
    | none => simpa [hfound] using ih
    | some found => simpa [hfound] using ih

namespace ScriptLine

variable {options : Options} {line : ScriptLine}

/-- Every token of a line has an outcome that tells what is missing. -/
theorem tellsMissing_of_mem_outcomes {entry : Token × Outcome}
    (h : entry ∈ line.outcomes options) : entry.2.TellsMissing entry.1.kind := by
  obtain ⟨before, next, houtcome⟩ := Assembly.exists_assemble_of_mem h
  rw [houtcome]
  exact Assembly.tellsMissing_ofWindow _ _

/-- The diagnostics of a line that drop no object are about the tokens of its incomplete
descriptors, with the issue that the descriptor shows. -/
theorem filter_diagnostics_eq (options : Options) (line : ScriptLine) :
    ((line.diagnostics options).filter fun diagnostic =>
        diagnostic.issue ∈ [Issue.missingSource, Issue.missingCaption]) =
      ((line.keptTokens options).zip (line.descriptors options)).filterMap
        fun (token, descriptor) => descriptor.missing?.map fun issue =>
          Diagnostic.ofToken issue line.number line.text token := by
  rw [keptTokens, descriptors, zip_filterMap, diagnostics, List.filter_filterMap,
    List.filterMap_filterMap]
  refine List.filterMap_congr fun entry hentry => ?_
  have htells := tellsMissing_of_mem_outcomes hentry
  cases hdescriptor : entry.2.descriptor? with
  | some descriptor =>
    rw [htells.issue?_eq hdescriptor]
    cases hmissing : descriptor.missing? with
    | none => simp [hmissing]
    | some issue =>
      have hmem := Descriptor.mem_of_missing? hmissing
      simp_all [Diagnostic.ofToken]
  | none =>
    rcases htells.issue?_of_dropped hdescriptor with ⟨hissue, _⟩ | ⟨hissue, _⟩
    all_goals simp [hissue, Diagnostic.ofToken]

/-- The issues of a line that drop no object are what its descriptors lack. -/
theorem map_issue_filter_diagnostics (options : Options) (line : ScriptLine) :
    ((line.diagnostics options).filter fun diagnostic =>
        diagnostic.issue ∈ [Issue.missingSource, Issue.missingCaption]).map Diagnostic.issue =
      (line.descriptors options).filterMap Descriptor.missing? := by
  have hlength : (line.descriptors options).length ≤ (line.keptTokens options).length :=
    Nat.le_of_eq (forall₂_keptTokens options line).length_eq.symm
  have hissue (entry : Token × Descriptor) :
      (entry.2.missing?.map fun issue =>
          Diagnostic.ofToken issue line.number line.text entry.1).map Diagnostic.issue =
        entry.2.missing? := by
    cases entry.2.missing? <;> rfl
  calc ((line.diagnostics options).filter fun diagnostic =>
        diagnostic.issue ∈ [Issue.missingSource, Issue.missingCaption]).map Diagnostic.issue
    _ = ((line.keptTokens options).zip (line.descriptors options)).filterMap
          fun entry => entry.2.missing? := by
        rw [filter_diagnostics_eq, List.map_filterMap]
        exact List.filterMap_congr fun entry _ => hissue entry
    _ = (((line.keptTokens options).zip (line.descriptors options)).map Prod.snd).filterMap
          Descriptor.missing? := by
        rw [List.filterMap_map]
        rfl
    _ = (line.descriptors options).filterMap Descriptor.missing? := by
        rw [List.map_snd_zip hlength]

end ScriptLine

/-- An issue is raised exactly when something is missing. Every token of a line has an outcome. It
becomes no object exactly if a duration or a color is missing, which only happens to the kinds that
need one, and then the issue drops the object. An object that is there is of the type of its kind,
and the issue of its token is what the object lacks, if anything. The diagnostics of a line about
missing sources and captions are therefore those of its incomplete descriptors, each at the place
of its token, and their issues can be told from the descriptors alone. -/
theorem issue_raised_exactly_when_missing (options : Options) (line : ScriptLine) :
    (line.outcomes options).map Prod.fst = scan options.scanMode line.text ∧
    (∀ entry ∈ line.outcomes options,
      (entry.2.descriptor? = none ↔
        entry.2.issue? = some .missingDuration ∨ entry.2.issue? = some .missingColor) ∧
      (entry.2.issue? = some .missingDuration → entry.1.kind = .duration) ∧
      (entry.2.issue? = some .missingColor →
        entry.1.kind = .background ∨ entry.1.kind = .fondo) ∧
      (entry.2.descriptor? = none → ∃ issue, entry.2.issue? = some issue ∧ issue.drops = true) ∧
      ∀ descriptor, entry.2.descriptor? = some descriptor →
        descriptor.typeName = entry.1.kind.typeName ∧ entry.2.issue? = descriptor.missing?) ∧
    ((line.diagnostics options).filter fun diagnostic =>
        diagnostic.issue ∈ [Issue.missingSource, Issue.missingCaption]) =
      ((line.keptTokens options).zip (line.descriptors options)).filterMap
        (fun (token, descriptor) => descriptor.missing?.map fun issue =>
          Diagnostic.ofToken issue line.number line.text token) ∧
    ((line.diagnostics options).filter fun diagnostic =>
        diagnostic.issue ∈ [Issue.missingSource, Issue.missingCaption]).map Diagnostic.issue =
      (line.descriptors options).filterMap Descriptor.missing? := by
  refine ⟨ScriptLine.map_fst_outcomes options line, fun entry hentry => ?_,
    ScriptLine.filter_diagnostics_eq options line,
    ScriptLine.map_issue_filter_diagnostics options line⟩
  have htells := ScriptLine.tellsMissing_of_mem_outcomes hentry
  have hsuits := ScriptLine.suits_of_mem_outcomes hentry
  refine ⟨⟨fun hnone => ?_, ?_⟩, fun hissue => ?_, fun hissue => ?_, fun hnone => ?_,
    fun descriptor hdescriptor => ⟨hsuits.typeName_eq hdescriptor, htells.issue?_eq hdescriptor⟩⟩
  · exact (htells.issue?_of_dropped hnone).imp And.left And.left
  · rintro (hissue | hissue)
    · exact htells.descriptor?_eq_none hissue rfl
    · exact htells.descriptor?_eq_none hissue rfl
  · rcases htells.issue?_of_dropped (htells.descriptor?_eq_none hissue rfl) with
      ⟨_, hkind⟩ | ⟨hother, _⟩
    · exact hkind
    · simp [hissue] at hother
  · rcases htells.issue?_of_dropped (htells.descriptor?_eq_none hissue rfl) with
      ⟨hother, _⟩ | ⟨_, hkind⟩
    · simp [hissue] at hother
    · exact hkind
  · rcases htells.issue?_of_dropped hnone with ⟨hissue, _⟩ | ⟨hissue, _⟩
    · exact ⟨_, hissue, rfl⟩
    · exact ⟨_, hissue, rfl⟩

/-- An audio without an address and a text without a caption are told from their descriptors; the
background without a color, which has none, is not among them. -/
example :
    let line : ScriptLine := ⟨1, "5 seconds audio, background, text left".toList⟩
    (line.descriptors {}).filterMap Descriptor.missing? = [.missingSource, .missingCaption] ∧
      (line.diagnostics {}).map Diagnostic.issue =
        [.missingSource, .missingColor, .missingCaption] := by
  decide +kernel

end Storyboard
