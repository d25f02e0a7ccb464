import Mathlib.Data.List.Infix
import Mathlib.Data.List.TakeWhile
import Storyboard.CommandLine.Request

/-!
# What the arguments give

The options of a command are read from left to right. This file says how each argument is read, as
a relation with one constructor for each way, and from it that a reading gives what stands among
the arguments: a flag is set exactly if its argument is there, and an option has a value exactly if
the value follows the option, behind an equals sign or as the next argument.
-/

namespace Storyboard.CommandLine

/-- The argument that names an option. -/
def optionArgument (name : Text) : Text :=
  '-' :: '-' :: name

/-- The argument that names an option and has its value behind an equals sign. -/
def attachedArgument (name value : Text) : Text :=
  '-' :: '-' :: (name ++ '=' :: value)

/-- The arguments give a value to an option, in either way. -/
def Gives (arguments : List Text) (name value : Text) : Prop :=
  attachedArgument name value ∈ arguments ∨ [optionArgument name, value] <:+: arguments

/-- How the options of a command are read: those that were given before, the arguments, and all
options that are given in the end. -/
inductive Reads (table : OptionTable) :
    List (Text × Text) → List Text → List (Text × Text) → Prop
  | done (given) : Reads table given [] given
  /-- A separator at the very end. -/
  | separator (given) : Reads table given [optionArgument []] given
  | flag {given name rest result} (hname : '=' ∉ name) (htable : table.lookup name = some false)
      (hgiven : given.lookup name = none) (h : Reads table ((name, []) :: given) rest result) :
      Reads table given (optionArgument name :: rest) result
  | attached {given name value rest result} (hname : '=' ∉ name)
      (htable : table.lookup name = some true) (hgiven : given.lookup name = none)
      (h : Reads table ((name, value) :: given) rest result) :
      Reads table given (attachedArgument name value :: rest) result
  | separate {given name value rest result} (hname : '=' ∉ name)
      (htable : table.lookup name = some true) (hgiven : given.lookup name = none)
      (hvalue : isValue value = true) (h : Reads table ((name, value) :: given) rest result) :
      Reads table given (optionArgument name :: value :: rest) result

/-- Without an attached value the body of an option is its name. -/
theorem splitOption_eq_none {body name : Text} (h : splitOption body = (name, none)) :
    body = name ∧ '=' ∉ name := by
  obtain ⟨rfl, hrest⟩ := Prod.mk.inj h
  have hnil : body.dropWhile (· != '=') = [] := by
    cases hdrop : body.dropWhile (· != '=') with
    | nil => rfl
    | cons c later => simp [hdrop] at hrest
  have hall := List.takeWhile_append_dropWhile (p := (· != '=')) (l := body)
  rw [hnil, List.append_nil] at hall
  refine ⟨hall.symm, fun hmem => ?_⟩
  have hp := List.mem_takeWhile_imp hmem
  simp at hp

/-- An attached value stands behind the first equals sign. -/
theorem splitOption_eq_some {body name value : Text} (h : splitOption body = (name, some value)) :
    body = name ++ '=' :: value ∧ '=' ∉ name := by
  obtain ⟨rfl, hrest⟩ := Prod.mk.inj h
  cases hdrop : body.dropWhile (· != '=') with
  | nil => simp [hdrop] at hrest
  | cons c later =>
    have hc : c = '=' := by
      have hhead := List.head_dropWhile_not (p := (· != '=')) (l := body) (by simp [hdrop])
      simpa [hdrop] using hhead
    have hvalue : later = value := by simpa [hdrop] using hrest
    have hall := List.takeWhile_append_dropWhile (p := (· != '=')) (l := body)
    rw [hdrop, hc, hvalue] at hall
    refine ⟨hall.symm, fun hmem => ?_⟩
    have hp := List.mem_takeWhile_imp hmem
    simp at hp

/-- Reading the options of a command follows the relation. -/
theorem reads_of_readOptions {table : OptionTable} {given result : List (Text × Text)}
    {arguments : List Text} (h : readOptions table given arguments = .ok result) :
    Reads table given arguments result := by
  fun_induction readOptions table given arguments with
  | case1 given =>
    obtain rfl := Except.ok.inj h
    exact .done given
  | case2 given rest hrest =>
    obtain rfl := Except.ok.inj h
    obtain rfl := List.isEmpty_iff.mp hrest
    exact .separator given
  | case6 given body rest _ name hgiven htable hsplit _ ih =>
    obtain ⟨rfl, hname⟩ := splitOption_eq_none hsplit
    exact .flag hname htable (Option.not_isSome_iff_eq_none.mp hgiven) (ih h)
  | case8 given body rest _ name hgiven value htable _ hsplit _ ih =>
    obtain ⟨rfl, hname⟩ := splitOption_eq_some hsplit
    exact .attached hname htable (Option.not_isSome_iff_eq_none.mp hgiven) (ih h)
  | case9 given body _ name hgiven htable value later hvalue hsplit _ ih =>
    obtain ⟨rfl, hname⟩ := splitOption_eq_none hsplit
    exact .separate hname htable (Option.not_isSome_iff_eq_none.mp hgiven) hvalue (ih h)
  | case3 | case4 | case5 | case7 | case10 | case11 | case12 | case13 | case14 => simp at h

/-- A name without an equals sign has no value attached to it. -/
theorem splitOption_of_not_mem {name : Text} (h : '=' ∉ name) :
    splitOption name = (name, none) := by
  have hall : ∀ c ∈ name, (c != '=') = true := fun c hc => by
    simpa using fun heq : c = '=' => h (heq ▸ hc)
  rw [splitOption, List.takeWhile_eq_self_iff.mpr hall, List.dropWhile_eq_nil_iff.mpr hall]
  rfl

/-- What stands behind the equals sign of an option is attached to its name. -/
theorem splitOption_append {name : Text} (h : '=' ∉ name) (value : Text) :
    splitOption (name ++ '=' :: value) = (name, some value) := by
  have hall : ∀ c ∈ name, (c != '=') = true := fun c hc => by
    simpa using fun heq : c = '=' => h (heq ▸ hc)
  rw [splitOption, List.takeWhile_append_of_pos hall, List.dropWhile_append_of_pos hall]
  simp

section

variable {name other value content : Text}

/-- An option is told by the argument that names it. -/
theorem optionArgument_inj : optionArgument name = optionArgument other ↔ name = other := by
  simp [optionArgument]

/-- An argument with an attached value is not mistaken for one without. -/
theorem attachedArgument_ne_optionArgument (hname : '=' ∉ name) (hother : '=' ∉ other) :
    attachedArgument name value ≠ optionArgument other := by
  intro h
  have hbody : name ++ '=' :: value = other := by simpa [attachedArgument, optionArgument] using h
  have hsplit := congrArg splitOption hbody
  rw [splitOption_append hname, splitOption_of_not_mem hother] at hsplit
  simp at hsplit

/-- Name and value are told by the argument that attaches them. -/
theorem attachedArgument_inj (hname : '=' ∉ name) (hother : '=' ∉ other) :
    attachedArgument name value = attachedArgument other content ↔
      name = other ∧ value = content := by
  constructor
  · intro h
    have hbody : name ++ '=' :: value = other ++ '=' :: content := by
      simpa [attachedArgument] using h
    have hsplit := congrArg splitOption hbody
    rw [splitOption_append hname, splitOption_append hother] at hsplit
    simpa using hsplit
  · rintro ⟨rfl, rfl⟩
    rfl

/-- The value of an option is not mistaken for an option. -/
theorem isValue_optionArgument : isValue (optionArgument name) = false := by
  simp [isValue, optionArgument]

/-- An option with an attached value is not mistaken for a value. -/
theorem isValue_attachedArgument : isValue (attachedArgument name value) = false := by
  simp [isValue, attachedArgument]

/-- A value is given by the first argument alone, by the first two, or by the arguments behind the
first. -/
theorem gives_cons_iff {first : Text} {rest : List Text} :
    Gives (first :: rest) name value ↔
      attachedArgument name value = first ∨
        (optionArgument name = first ∧ rest.head? = some value) ∨ Gives rest name value := by
  have hhead : [value] <+: rest ↔ rest.head? = some value := by
    cases rest with
    | nil => simp
    | cons second later => simp [eq_comm]
  rw [Gives, Gives, List.mem_cons, List.infix_cons_iff, List.cons_prefix_cons, hhead]
  constructor
  · rintro ((h | h) | h | h)
    · exact Or.inl h
    · exact Or.inr (Or.inr (Or.inl h))
    · exact Or.inr (Or.inl h)
    · exact Or.inr (Or.inr (Or.inr h))
  · rintro (h | h | h | h)
    · exact Or.inl (Or.inl h)
    · exact Or.inr (Or.inl h)
    · exact Or.inl (Or.inr h)
    · exact Or.inr (Or.inr h)

end

/-- What is given for one option is passed over when another one is looked up. -/
theorem lookup_cons_of_ne {given : List (Text × Text)} {name other value : Text}
    (h : name ≠ other) : ((other, value) :: given).lookup name = given.lookup name := by
  have hbeq : (name == other) = false := beq_eq_false_iff_ne.mpr h
  rw [List.lookup_cons, hbeq]

namespace Reads

variable {table : OptionTable} {given result : List (Text × Text)} {arguments : List Text}
  {name value : Text}

/-- A flag is set exactly if it was set before or its argument is there. -/
theorem isSome_lookup_iff (h : Reads table given arguments result) (hname : '=' ∉ name)
    (hne : name ≠ []) (hflag : table.lookup name = some false) :
    (result.lookup name).isSome = true ↔
      (given.lookup name).isSome = true ∨ optionArgument name ∈ arguments := by
  induction h with
  | done given => rw [List.mem_nil_iff, or_false]
  | separator given =>
    rw [List.mem_singleton, optionArgument_inj, or_iff_left hne]
  | @flag given other rest result hother htable hgiven _ ih =>
    rw [ih, List.mem_cons, optionArgument_inj]
    by_cases hsame : name = other
    · subst hsame
      simp
    · rw [lookup_cons_of_ne hsame, or_iff_right hsame]
  | @attached given other content rest result hother htable hgiven _ ih =>
    have hsame : name ≠ other := by
      rintro rfl
      simp [hflag] at htable
    rw [ih, List.mem_cons, lookup_cons_of_ne hsame,
      or_iff_right (attachedArgument_ne_optionArgument hother hname).symm]
  | @separate given other content rest result hother htable hgiven hvalue _ ih =>
    have hsame : name ≠ other := by
      rintro rfl
      simp [hflag] at htable
    have hargument : optionArgument name ≠ content := by
      rintro rfl
      simp [isValue_optionArgument] at hvalue
    rw [ih, List.mem_cons, List.mem_cons, lookup_cons_of_ne hsame, optionArgument_inj,
      or_iff_right hsame, or_iff_right hargument]

/-- An option has the value that was given before or is given by the arguments. -/
theorem lookup_eq_some_iff (h : Reads table given arguments result) (hname : '=' ∉ name)
    (hne : name ≠ []) (htaking : table.lookup name = some true) :
    result.lookup name = some value ↔
      given.lookup name = some value ∨ Gives arguments name value := by
  induction h with
  | done given => simp [Gives]
  | separator given =>
    have hfirst : attachedArgument name value ≠ optionArgument [] :=
      attachedArgument_ne_optionArgument hname List.not_mem_nil
    rw [gives_cons_iff, optionArgument_inj]
    simp [hfirst, hne, Gives]
  | @flag given other rest result hother htable hgiven _ ih =>
    have hsame : name ≠ other := by
      rintro rfl
      simp [htaking] at htable
    rw [ih, lookup_cons_of_ne hsame, gives_cons_iff, optionArgument_inj,
      or_iff_right (attachedArgument_ne_optionArgument hname hother)]
    simp [hsame]
  | @attached given other content rest result hother htable hgiven _ ih =>
    have hfirst : optionArgument name ≠ attachedArgument other content :=
      (attachedArgument_ne_optionArgument hother hname).symm
    rw [ih, gives_cons_iff, attachedArgument_inj hname hother]
    by_cases hsame : name = other
    · subst hsame
      simp [hgiven, hfirst, eq_comm]
    · simp [lookup_cons_of_ne hsame, hsame, hfirst]
  | @separate given other content rest result hother htable hgiven hvalue _ ih =>
    have hcontent : attachedArgument name value ≠ content ∧ optionArgument name ≠ content := by
      constructor
      · rintro rfl
        simp [isValue_attachedArgument] at hvalue
      · rintro rfl
        simp [isValue_optionArgument] at hvalue
    rw [ih, gives_cons_iff, gives_cons_iff, optionArgument_inj, List.head?_cons]
    have hfirst : attachedArgument name value ≠ optionArgument other :=
      attachedArgument_ne_optionArgument hname hother
    by_cases hsame : name = other
    · subst hsame
      simp [hgiven, hfirst, hcontent]
    · simp [lookup_cons_of_ne hsame, hsame, hfirst, hcontent]

end Reads

/-- A job is what the arguments spell: each of its fields is given among them. -/
structure CompileJob.SpelledBy (job : CompileJob) (arguments : List Text) : Prop where
  command : arguments.head? = some "compile".toList
  input : ∀ path, job.input = path ↔ Gives arguments "input".toList path
  output : ∀ path, job.output = some path ↔ Gives arguments "out".toList path
  config : ∀ path, job.config = some path ↔ Gives arguments "config".toList path
  pretty : job.pretty = true ↔ optionArgument "pretty".toList ∈ arguments
  legacyScan : job.legacyScan = true ↔ optionArgument "legacy-scan".toList ∈ arguments
  diagnostics : job.diagnostics = true ↔ optionArgument "diagnostics".toList ∈ arguments

/-- A request other than for help comes from options that were read. -/
theorem Request.exists_of_ofReading {request : List (Text × Text) → Option Request}
    {reading : Except Stop (List (Text × Text))} {result : Request} (hresult : result ≠ .help)
    (h : ofReading request reading = some result) :
    ∃ given, reading = .ok given ∧ request given = some result := by
  cases reading with
  | ok given => exact ⟨given, rfl, h⟩
  | error stop =>
    cases stop with
    | help => exact absurd (Option.some.inj h).symm hresult
    | misuse => exact absurd h (Option.some_ne_none _).symm

/-- The arguments of a compilation begin with the command, and its options are read from what
follows. -/
theorem readOptions_of_ofArguments? {arguments : List Text} {job : CompileJob}
    (h : Request.ofArguments? arguments = some (.compile job)) :
    ∃ rest given, arguments = "compile".toList :: rest ∧
      readOptions compileOptions [] rest = .ok given ∧ CompileJob.ofOptions? given = some job := by
  unfold Request.ofArguments? at h
  split at h
  next => simp at h
  next first rest =>
    split at h
    next hfirst =>
      obtain ⟨given, hread, hrequest⟩ := Request.exists_of_ofReading (by simp) h
      obtain ⟨found, hfound, hjob⟩ := Option.map_eq_some_iff.mp hrequest
      obtain rfl := Request.compile.inj hjob
      exact ⟨rest, given, by rw [hfirst], hread, hfound⟩
    next =>
      split at h
      next =>
        obtain ⟨given, -, hrequest⟩ := Request.exists_of_ofReading (by simp) h
        obtain ⟨found, -, hjob⟩ := Option.map_eq_some_iff.mp hrequest
        simp at hjob
      next =>
        -- No other command compiles anything.
        split_ifs at h with hhelp hversion hquestion
        · split at h
          · simp at h
          · split at h <;> simp at h
          · simp at h
        · simp at h
        · simp at h
        · split at h <;> simp at h

/-- The command before the options gives no option a value. -/
theorem gives_compile_cons_iff {rest : List Text} {name value : Text} :
    Gives ("compile".toList :: rest) name value ↔ Gives rest name value := by
  have hattached : attachedArgument name value ≠ "compile".toList := by
    simp [attachedArgument]
  have hoption : optionArgument name ≠ "compile".toList := by
    simp [optionArgument]
  rw [gives_cons_iff, or_iff_right hattached, or_iff_right (fun h => hoption h.1)]

/-- The command before the options sets no flag. -/
theorem optionArgument_mem_compile_cons_iff {rest : List Text} {name : Text} :
    optionArgument name ∈ "compile".toList :: rest ↔ optionArgument name ∈ rest := by
  have hoption : optionArgument name ≠ "compile".toList := by
    simp [optionArgument]
  rw [List.mem_cons, or_iff_right hoption]

/-- The value that an option of `compile` has is given by the arguments. -/
theorem lookup_compileOptions_iff {rest : List Text} {given : List (Text × Text)} {name : Text}
    (h : readOptions compileOptions [] rest = .ok given) (hname : '=' ∉ name) (hne : name ≠ [])
    (htaking : compileOptions.lookup name = some true) (value : Text) :
    given.lookup name = some value ↔ Gives ("compile".toList :: rest) name value := by
  rw [gives_compile_cons_iff, (reads_of_readOptions h).lookup_eq_some_iff hname hne htaking]
  simp

/-- A flag of `compile` is set by its argument. -/
theorem isSome_lookup_compileOptions_iff {rest : List Text} {given : List (Text × Text)}
    {name : Text} (h : readOptions compileOptions [] rest = .ok given) (hname : '=' ∉ name)
    (hne : name ≠ []) (hflag : compileOptions.lookup name = some false) :
    (given.lookup name).isSome = true ↔ optionArgument name ∈ "compile".toList :: rest := by
  rw [optionArgument_mem_compile_cons_iff,
    (reads_of_readOptions h).isSome_lookup_iff hname hne hflag]
  simp

/-- A compilation is spelled by its arguments. -/
theorem CompileJob.spelledBy_of_ofArguments? {arguments : List Text} {job : CompileJob}
    (h : Request.ofArguments? arguments = some (.compile job)) : job.SpelledBy arguments := by
  obtain ⟨rest, given, rfl, hread, hjob⟩ := readOptions_of_ofArguments? h
  obtain ⟨input, hinput, rfl⟩ := Option.map_eq_some_iff.mp hjob
  refine ⟨rfl, fun path => ?_, ?_, ?_, ?_, ?_, ?_⟩
  · rw [← lookup_compileOptions_iff hread (by decide) (by decide) (by decide), hinput,
      Option.some_inj]
  · exact lookup_compileOptions_iff hread (by decide) (by decide) (by decide)
  · exact lookup_compileOptions_iff hread (by decide) (by decide) (by decide)
  · exact isSome_lookup_compileOptions_iff hread (by decide) (by decide) (by decide)
  · exact isSome_lookup_compileOptions_iff hread (by decide) (by decide) (by decide)
  · exact isSome_lookup_compileOptions_iff hread (by decide) (by decide) (by decide)

end Storyboard.CommandLine
