import Mathlib.Data.List.Infix
import Storyboard.CommandLine.Workspace

/-!
# Files that a run can change

A host keeps files if reading changes none of them, and writing either replaces the content of one
of them or has no effect. A workspace does: the directories in it stay when a file is replaced or
added, so that every path leads to the same file as before.
-/

namespace Storyboard.CommandLine

/-- A path names the standard input: it is a hyphen, and behind its slashes, if it has any, there is
nothing or a dot. -/
def NamesInput (path : Text) : Prop :=
  ∃ later : List Text, path = ['/'].intercalate (['-'] :: later) ∧
    ∀ piece ∈ later, piece = [] ∨ piece = ['.']

/-- A run can tell whether a path names the standard input. -/
theorem isStandardInput_iff {path : Text} : isStandardInput path = true ↔ NamesInput path := by
  constructor
  · intro h
    rw [isStandardInput] at h
    split at h
    next => exact absurd h Bool.false_ne_true
    next first later hpieces =>
      rw [Bool.and_eq_true, beq_iff_eq, List.all_eq_true] at h
      obtain ⟨rfl, hlater⟩ := h
      refine ⟨later, ?_, fun piece hpiece => by simpa using hlater piece hpiece⟩
      rw [← hpieces, pathPieces, Text.pieces_eq_splitOn, List.intercalate_splitOn]
  · rintro ⟨later, rfl, hlater⟩
    have hslash : ∀ piece ∈ ['-'] :: later, '/' ∉ piece := by
      intro piece hpiece
      rcases List.mem_cons.mp hpiece with rfl | hmem
      · decide
      · rcases hlater piece hmem with rfl | rfl <;> decide
    have hpieces : pathPieces (['/'].intercalate (['-'] :: later)) = ['-'] :: later := by
      rw [pathPieces, Text.pieces_eq_splitOn,
        List.splitOn_intercalate '/' hslash (List.cons_ne_nil _ _)]
    rw [isStandardInput, hpieces]
    simpa using hlater

/-- Whether a path names the standard input can be computed. -/
instance (path : Text) : Decidable (NamesInput path) :=
  decidable_of_iff _ isStandardInput_iff

/-- The text that a content is the UTF-8 form of, if it is that of any. -/
def decode? (content : Option ByteArray) : Option Text :=
  (content.bind String.fromUTF8?).map String.toList

/-- Decoding what has been read is the same as reading a text. -/
theorem bind_textOfBytes? (content : Option ByteArray) :
    content.bind textOfBytes? = decode? content := by
  cases content <;> rfl

/-- The files that paths lead to, and their contents. A path may lead to a file that is yet to be
made. -/
structure Disk (File : Type) where
  fileAt : Text → Option File
  contentOf : File → Option ByteArray

namespace Disk

variable {File : Type}

/-- The content of the file at a path. -/
def read (disk : Disk File) (path : Text) : Option ByteArray :=
  (disk.fileAt path).bind disk.contentOf

/-- The file at a path has got a content, and no other file has changed. -/
def Replaces (before : Disk File) (path : Text) (content : ByteArray) (after : Disk File) : Prop :=
  ∃ file, before.fileAt path = some file ∧ after.fileAt = before.fileAt ∧
    after.contentOf file = some content ∧
    ∀ other, other ≠ file → after.contentOf other = before.contentOf other

/-- The options that a job asks for, if they can be read. -/
def options? (disk : Disk File) (config : Option Text) : Option Options :=
  match config with
  | none => some {}
  | some path =>
    (decode? (disk.read path)).bind fun text => (Options.ofJson text).toOption

/-- The script at a path or on the standard input, if it can be read. -/
def script? (disk : Disk File) (input : Option ByteArray) (path : Text) : Option Text :=
  decode? (if NamesInput path then input else disk.read path)

end Disk

/-- Reading changes no file, and writing replaces the content of one file or has no effect. -/
structure Host.KeepsFiles {State File : Type} (host : Host (StateM State))
    (disk : State → Disk File) (input : State → Option ByteArray) : Prop where
  readFile : ∀ path state, ∃ after,
    (host.readFile path).run state = ((disk state).read path, after) ∧
      disk after = disk state ∧ input after = input state
  readInput : ∀ state, ∃ after, host.readInput.run state = (input state, after) ∧
    disk after = disk state
  writeFile : ∀ path content state, ∃ written after,
    (host.writeFile path content).run state = (written, after) ∧
      if written then (disk state).Replaces path content (disk after) else disk after = disk state

namespace Workspace

/-- A directory is the workspace itself, or what the place of some file leads through. -/
theorem isDirectory_iff {workspace : Workspace} {place : List Text} :
    workspace.isDirectory place = true ↔
      place = [] ∨ ∃ file ∈ workspace.files, place <+: file.1 ∧ place.length < file.1.length := by
  simp [isDirectory]

/-- All places along the way to a place are directories. -/
def Reaches (workspace : Workspace) (place : List Text) : Prop :=
  ∀ before, before <+: place → before.length < place.length → workspace.isDirectory before = true

/-- From a directory that is reached anything in it can be reached. -/
theorem Reaches.append {workspace : Workspace} {place : List Text} (h : workspace.Reaches place)
    (hplace : workspace.isDirectory place = true) (piece : Text) :
    workspace.Reaches (place ++ [piece]) := by
  intro before hbefore hlength
  have hshort : before.length ≤ place.length := by simpa [Nat.lt_succ_iff] using hlength
  have hbegins : before <+: place :=
    List.prefix_of_prefix_length_le hbefore (List.prefix_append place [piece]) hshort
  rcases Nat.lt_or_eq_of_le hshort with hlt | heq
  · exact h before hbegins hlt
  · rwa [hbegins.eq_of_length heq]

/-- Where a place is reached, so is the directory around it. -/
theorem Reaches.dropLast {workspace : Workspace} {place : List Text} (h : workspace.Reaches place) :
    workspace.Reaches place.dropLast := by
  intro before hbefore hlength
  refine h before (hbefore.trans (List.dropLast_prefix place)) ?_
  exact lt_of_lt_of_le hlength (List.dropLast_prefix place).length_le

/-- A path leads through directories only. -/
theorem Reaches.follow {workspace : Workspace} {pieces : List Text} :
    ∀ {place target : List Text}, workspace.Reaches place →
      workspace.follow place pieces = some target → workspace.Reaches target := by
  induction pieces with
  | nil =>
    intro place target h hfollow
    obtain rfl := Option.some.inj hfollow
    exact h
  | cons piece later ih =>
    intro place target h hfollow
    rw [Workspace.follow] at hfollow
    split_ifs at hfollow with hdirectory hhere hparent hroot hlong
    · exact ih h hfollow
    · exact ih h.dropLast hfollow
    · exact ih (h.append (by simpa using hdirectory) piece) hfollow

/-- The place of a path is reached through directories. -/
theorem reaches_of_place? {workspace : Workspace} {path : Text} {place : List Text}
    (h : workspace.place? path = some place) : workspace.Reaches place := by
  rw [place?] at h
  split_ifs at h
  have hstart : workspace.Reaches [] := fun before _ hlength => absurd hlength (Nat.not_lt_zero _)
  exact hstart.follow h

/-- Where there are the same directories, paths lead to the same places. -/
theorem place?_eq_of_isDirectory_eq {before after : Workspace}
    (h : after.isDirectory = before.isDirectory) : after.place? = before.place? := by
  have hfollow : ∀ pieces place, after.follow place pieces = before.follow place pieces := by
    intro pieces
    induction pieces with
    | nil => exact fun place => rfl
    | cons piece later ih => intro place; simp only [follow, h, ih]
  funext path
  rw [place?, place?, hfollow]

/-- The files of a workspace once one of them has got a content. -/
def filesWith (workspace : Workspace) (place : List Text) (content : ByteArray) :
    List (List Text × ByteArray) :=
  (place, content) :: workspace.files.filter fun file => file.1 != place

/-- A new file is in directories that were there before. -/
theorem isDirectory_filesWith {workspace : Workspace} {place : List Text} (content : ByteArray)
    (h : workspace.Reaches place) :
    { workspace with files := workspace.filesWith place content }.isDirectory =
      workspace.isDirectory := by
  funext other
  rw [Bool.eq_iff_iff, isDirectory_iff, isDirectory_iff]
  constructor
  · rintro (hroot | ⟨file, hfile, hbegins, hlength⟩)
    · exact Or.inl hroot
    · rcases List.mem_cons.mp hfile with rfl | hold
      · exact isDirectory_iff.mp (h other hbegins hlength)
      · exact Or.inr ⟨file, List.mem_of_mem_filter hold, hbegins, hlength⟩
  · rintro (hroot | ⟨file, hfile, hbegins, hlength⟩)
    · exact Or.inl hroot
    · by_cases hsame : file.1 = place
      · exact Or.inr ⟨(place, content), List.mem_cons_self, hsame ▸ hbegins, hsame ▸ hlength⟩
      · exact Or.inr ⟨file, List.mem_cons_of_mem _ (List.mem_filter.mpr ⟨hfile, by simpa⟩),
          hbegins, hlength⟩

/-- The file that has got a content is found with it. -/
theorem lookup_filesWith_self (workspace : Workspace) (place : List Text) (content : ByteArray) :
    (workspace.filesWith place content).lookup place = some content := by
  simp [filesWith]

/-- The content of every other file stays. -/
theorem lookup_filesWith_of_ne {workspace : Workspace} {place other : List Text}
    (content : ByteArray) (h : other ≠ place) :
    (workspace.filesWith place content).lookup other = workspace.files.lookup other := by
  have hfilter : ∀ files : List (List Text × ByteArray),
      (files.filter fun file => file.1 != place).lookup other = files.lookup other := by
    intro files
    induction files with
    | nil => rfl
    | cons file later ih =>
      by_cases hfile : file.1 = place
      · have hother : (other == file.1) = false := by simpa [hfile] using h
        rw [List.filter_cons_of_neg (by simpa using hfile), ih, List.lookup_cons, hother]
      · rw [List.filter_cons_of_pos (by simpa using hfile), List.lookup_cons, List.lookup_cons, ih]
  have hbeq : (other == place) = false := by simpa using h
  rw [filesWith, List.lookup_cons, hbeq, hfilter]

/-- The files of a workspace as a disk. -/
def disk (workspace : Workspace) : Disk (List Text) :=
  ⟨workspace.place?, fun place => workspace.files.lookup place⟩

/-- Replacing a file changes no other file. -/
theorem replaces_disk {workspace after : Workspace} {path : Text} {content : ByteArray}
    (h : workspace.replace? path content = some after) :
    workspace.disk.Replaces path content after.disk := by
  rw [replace?] at h
  split at h
  next => exact absurd h (Option.some_ne_none _).symm
  next place hplace =>
    split_ifs at h
    obtain rfl := Option.some.inj h
    have hdirectories := isDirectory_filesWith content (reaches_of_place? hplace)
    exact ⟨place, hplace, place?_eq_of_isDirectory_eq hdirectories,
      workspace.lookup_filesWith_self place content,
      fun other hother => lookup_filesWith_of_ne content hother⟩

/-- Writing a file changes the workspace to the one with the file replaced, if there can be one. -/
theorem run_writeFile (workspace : Workspace) (path : Text) (content : ByteArray) :
    (host.writeFile path content).run workspace =
      match workspace.replace? path content with
      | some after => (true, after)
      | none => (false, workspace) := by
  change StateT.run (match workspace.replace? path content with
    | some after => (do set after; return true : StateM Workspace Bool)
    | none => return false) workspace = _
  cases workspace.replace? path content with
  | some after => rfl
  | none => rfl

/-- Runs in a workspace keep files. -/
theorem keepsFiles_host : host.KeepsFiles disk (fun workspace => some workspace.input) where
  readFile path state := ⟨state, rfl, rfl, rfl⟩
  readInput state := ⟨state, rfl, rfl⟩
  writeFile path content state := by
    rw [run_writeFile]
    cases hreplace : state.replace? path content with
    | none => exact ⟨false, state, rfl, rfl⟩
    | some after => exact ⟨true, after, rfl, replaces_disk hreplace⟩

end Workspace

end Storyboard.CommandLine
