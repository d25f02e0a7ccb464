import Storyboard.CommandLine.Run

/-!
# Workspaces

A workspace is a directory with files in it, and a standard input. It makes a run a function of
the files before to the files after. A directory in it exists exactly when it holds a file.
-/

namespace Storyboard.CommandLine

/-- The files in a directory, by their names along the way to them, and a standard input. -/
structure Workspace where
  files : List (List Text × ByteArray)
  input : ByteArray

namespace Workspace

/-- The longest name that a file can have, in bytes. -/
def longestName : Nat := 255

/-- Whether there is a directory at a place. -/
def isDirectory (workspace : Workspace) (place : List Text) : Bool :=
  place.isEmpty ||
    workspace.files.any fun file => place.isPrefixOf file.1 && place.length < file.1.length

/-- Follows the pieces of a path from a place on. Every piece has to start in a directory, and no
path leads out of the workspace. -/
def follow (workspace : Workspace) (place : List Text) : List Text → Option (List Text)
  | [] => some place
  | piece :: later =>
    if !workspace.isDirectory place then none
    else if piece.isEmpty || piece == ['.'] then workspace.follow place later
    else if piece == ['.', '.'] then
      if place.isEmpty then none else workspace.follow place.dropLast later
    else if longestName < piece.byteSize then none
    else workspace.follow (place ++ [piece]) later

/-- The place that a path leads to. Paths from the root lead out of the workspace. -/
def place? (workspace : Workspace) (path : Text) : Option (List Text) :=
  if path.head? == some '/' then none else workspace.follow [] (pathPieces path)

/-- The content of the file at a path. -/
def content? (workspace : Workspace) (path : Text) : Option ByteArray :=
  (workspace.place? path).bind fun place => workspace.files.lookup place

/-- The workspace with a file at a path replaced or added, if there can be one. -/
def replace? (workspace : Workspace) (path : Text) (content : ByteArray) : Option Workspace :=
  match workspace.place? path with
  | none => none
  | some place =>
    if workspace.isDirectory place then none
    else
      some { workspace with
        files := (place, content) :: workspace.files.filter fun file => file.1 != place }

/-- What a run can do in a workspace. -/
def host : Host (StateM Workspace) where
  readFile path := return (← get).content? path
  readInput := return some (← get).input
  writeFile path content := do
    match (← get).replace? path content with
    | some workspace =>
      set workspace
      return true
    | none => return false

end Workspace

end Storyboard.CommandLine
