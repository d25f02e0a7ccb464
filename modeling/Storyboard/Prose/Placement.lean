import Storyboard.Pattern
import Storyboard.Placement

/-!
# Placement words

The first location word and the first size word of a window say how an object stands in the scene.
An object is in front of the viewer and of normal size where no word says otherwise.
-/

namespace Storyboard.Prose

/-- A location word anywhere, also within a longer word. -/
def locationPattern : Pattern where
  body := Matcher.oneOf (Location.words.map fun entry => Matcher.spelled foldsTo entry.1)

/-- A size word anywhere, also within a longer word. -/
def sizePattern : Pattern where
  body := Matcher.oneOf (Size.words.map fun entry => Matcher.spelled foldsTo entry.1)

/-- The location that the first location word names. -/
def location (window : Text) : Location :=
  ((locationPattern.find? window).bind fun found => Location.ofWord? found.text).getD .front

/-- The size that the first size word names. -/
def size (window : Text) : Size :=
  ((sizePattern.find? window).bind fun found => Size.ofWord? found.text).getD .normal

/-- The position of an object with the given footprint. -/
def position (window : Text) (width height : Float) : Vector3 :=
  (location window).position width height

/-- The rotation of an object. -/
def rotation (window : Text) : Vector3 :=
  (location window).rotation

/-- The scale of an object. -/
def scale (window : Text) : Vector3 :=
  (size window).scale

/-- How an object with the given footprint stands in the scene. -/
def pose (window : Text) (width height : Float) : Pose :=
  ⟨position window width height, rotation window, scale window⟩

end Storyboard.Prose
