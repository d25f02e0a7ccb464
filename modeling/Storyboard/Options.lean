import Storyboard.Token

/-!
# Options

What an author can choose about the compilation of a script.
-/

namespace Storyboard

/-- The options of a compilation. Delimiters are shared by default. -/
structure Options where
  scanMode : ScanMode := .boundaryPreserving
  deriving DecidableEq, Inhabited

/-- The name of a scan mode. -/
def ScanMode.name : ScanMode → Text
  | boundaryPreserving => "boundary_preserving".toList
  | legacy => "legacy".toList

/-- The scan mode with the given name. -/
def ScanMode.ofName? (name : Text) : Option ScanMode :=
  [ScanMode.boundaryPreserving, ScanMode.legacy].find? fun mode => mode.name == name

/-- Only the two modes have names. -/
theorem ScanMode.ofName?_eq_some_iff {name : Text} {mode : ScanMode} :
    ofName? name = some mode ↔ name = mode.name := by
  constructor
  · intro h
    have hname := List.find?_some h
    exact (beq_iff_eq.mp hname).symm
  · rintro rfl
    cases mode <;> decide

end Storyboard
