import Storyboard.Descriptor
import Storyboard.Prose.Address
import Storyboard.Prose.Caption
import Storyboard.Prose.Color
import Storyboard.Prose.Duration
import Storyboard.Prose.Placement
import Storyboard.Issue
import Storyboard.Window

/-!
# From tokens to descriptors

The window of a token is read for the attributes of its kind. Whatever is missing leaves the
objects of other tokens alone: the object lacks the attribute, or, without a duration or color, is
left out.
-/

namespace Storyboard

/-- What becomes of a token. -/
inductive Outcome
  | complete (descriptor : Descriptor)
  /-- An object that lacks what the issue names. -/
  | incomplete (descriptor : Descriptor) (issue : Issue)
  | dropped (issue : Issue)

namespace Outcome

/-- The object, unless it was left out. -/
def descriptor? : Outcome → Option Descriptor
  | complete descriptor | incomplete descriptor _ => some descriptor
  | dropped _ => none

/-- What is missing, if anything is. -/
def issue? : Outcome → Option Issue
  | complete _ => none
  | incomplete _ issue | dropped issue => some issue

/-- An object whose attribute may be missing. -/
def ofFound {α : Type} (found : Option α) (issue : Issue) (descriptor : Descriptor) : Outcome :=
  if found.isSome then complete descriptor else incomplete descriptor issue

end Outcome

namespace Assembly

open Prose

/-- The footprint of a chart, in both directions. -/
def chartFootprint : Float := 10.0

/-- The width of a text panel. -/
def panelWidth : Float := 14.0

/-- The number of caption characters that make a text panel one unit higher. -/
def charactersPerUnit : Float := 30.0

/-- How much larger than media texts are. -/
def textMagnification : Float := 5.0

/-- How far below flat media models stand. -/
def groundOffset : Vector3 := ⟨0.0, 3.0, 0.0⟩

/-- The height of a text panel; a missing caption takes up none. -/
def panelHeight (caption : Option Text) : Float :=
  Float.ofNat ((caption.map List.length).getD 0) / charactersPerUnit

/-- The pose of a text panel. -/
def panelPose (window : Text) (caption : Option Text) : Pose :=
  let pose := pose window panelWidth (panelHeight caption)
  { pose with scale := pose.scale.scale textMagnification }

/-- The pose of a model, which stands on the floor. -/
def groundPose (window : Text) : Pose :=
  let pose := pose window 0.0 0.0
  { pose with position := pose.position.sub groundOffset }

/-- What a panorama or image shows: the first address, or else the caption. -/
def content? (window : Text) : Option Content :=
  Content.ofParts (address? window) (caption? window)

/-- A background of the given color. -/
def background (color : Option Text) : Outcome :=
  match color with
  | some color => .complete (.background color)
  | none => .dropped .missingColor

/-- A model. An object file comes with its library of materials; of any other file the extension is
read off the address. -/
def model (window : Text) : Outcome :=
  match addressEndingIn? ".obj".toList window with
  | some source =>
    .complete (.model (some source) (addressEndingIn? ".mtl".toList window) (some "obj".toList)
      (groundPose window))
  | none =>
    let source := address? window
    .ofFound source .missingSource
      (.model source none (source.map extensionOf) (groundPose window))

/-- What becomes of a token of a kind with the given window. -/
def ofWindow (kind : Kind) (window : Text) : Outcome :=
  match kind with
  | .duration =>
    match duration? window with
    | some seconds => .complete (.duration seconds)
    | none => .dropped .missingDuration
  | .background => background (backgroundColor? window)
  | .fondo => background (fondoColor? window)
  | .audio =>
    let source := address? window
    .ofFound source .missingSource (.audio source (position window 0.0 0.0))
  | .voiceover =>
    let caption := caption? window
    .ofFound caption .missingCaption (.voiceover caption)
  | .chart =>
    let source := address? window
    .ofFound source .missingSource (.chart source (pose window chartFootprint chartFootprint))
  | .panorama =>
    let content := content? window
    .ofFound content .missingSource (.panorama content)
  | .video =>
    let source := address? window
    .ofFound source .missingSource (.video source (pose window 0.0 0.0))
  | .videosphere =>
    let source := address? window
    .ofFound source .missingSource (.videosphere source)
  | .image =>
    let content := content? window
    .ofFound content .missingSource (.image content (pose window 0.0 0.0))
  | .text =>
    let caption := caption? window
    .ofFound caption .missingCaption (.text caption (panelPose window caption))
  | .model => model window

/-- What becomes of a token between its neighbours. -/
def assemble (line : Text) (previous : Option Token) (token : Token) (next : Option Token) :
    Outcome :=
  ofWindow token.kind (token.window line previous next)

/-- The outcomes of tokens that follow one another in a line. -/
def outcomesAfter (line : Text) (previous : Option Token) : List Token → List (Token × Outcome)
  | [] => []
  | token :: later =>
    (token, assemble line previous token later.head?) :: outcomesAfter line (some token) later

/-- The tokens of a line, each with its outcome. -/
def outcomes (mode : ScanMode) (line : Text) : List (Token × Outcome) :=
  outcomesAfter line none (scan mode line)

/-- Every outcome goes with its token. -/
@[simp] theorem map_fst_outcomesAfter (line : Text) (previous : Option Token)
    (tokens : List Token) : (outcomesAfter line previous tokens).map Prod.fst = tokens := by
  induction tokens generalizing previous with
  | nil => rfl
  | cons token later ih => simp [outcomesAfter, ih]

end Assembly

end Storyboard
