import Storyboard.Text.Letter
import Storyboard.Vector

/-!
# Locations and sizes

Media are placed by plain words in English or Spanish. The viewer stands at the origin at eye
height and looks down the negative z axis. Positions and rotations are two tables of their own;
neither is derived from the other.
-/

namespace Storyboard

/-- A direction as seen by the viewer. -/
inductive Location
  | right
  | left
  | behind
  | front
  | above
  | below
  deriving DecidableEq, Inhabited

/-- A size relative to the normal one. -/
inductive Size
  | tiny
  | small
  | normal
  | large
  | huge
  deriving DecidableEq, Inhabited

/-- The eye height of the viewer. -/
def eyeHeight : Float := 1.6

/-- The distance at which flat media are anchored. -/
def anchorDistance : Float := 8.0

namespace Location

/-- The location words and what they name. -/
def words : List (Text × Location) :=
  [("right".toList, right), ("left".toList, left), ("behind".toList, behind),
    ("front".toList, front), ("above".toList, above), ("below".toList, below),
    ("atrás".toList, behind), ("frente".toList, front), ("izquierda".toList, left),
    ("derecha".toList, right), ("arriba".toList, above), ("abajo".toList, below)]

/-- The location that a word names, in lower or upper case. -/
def ofWord? (word : Text) : Option Location :=
  words.lookup word.lowerCase

/-- The English word for a location. -/
def name : Location → Text
  | right => "right".toList
  | left => "left".toList
  | behind => "behind".toList
  | front => "front".toList
  | above => "above".toList
  | below => "below".toList

/-- The anchor of an object with the given footprint. Half the footprint pushes it outward, so that
a wide object stays out of the line of sight; adding zero above, below and in front keeps an empty
footprint from giving a negative zero. -/
def position (location : Location) (width height : Float) : Vector3 :=
  let across := -0.5 * width
  let up := -0.5 * height
  match location with
  | left => ⟨-anchorDistance, eyeHeight + up, -across⟩
  | right => ⟨anchorDistance, eyeHeight + up, -across⟩
  | above => ⟨across + 0.0, 6.0, 0.0⟩
  | below => ⟨across + 0.0, -3.0, 0.0⟩
  | behind => ⟨-across, eyeHeight + up, anchorDistance⟩
  | front => ⟨0.0 + across, eyeHeight + up, -anchorDistance⟩

/-- The rotation in degrees that makes an object at this location readable. -/
def rotation : Location → Vector3
  | left => ⟨0.0, 90.0, 0.0⟩
  | right => ⟨0.0, -90.0, 0.0⟩
  | above => ⟨90.0, 0.0, 0.0⟩
  | below => ⟨-90.0, 0.0, 0.0⟩
  | behind => ⟨0.0, 180.0, 0.0⟩
  | front => Vector3.zero

end Location

namespace Size

/-- The size words and what they name. The normal size has no word. -/
def words : List (Text × Size) :=
  [("tiny".toList, tiny), ("small".toList, small), ("large".toList, large), ("huge".toList, huge),
    ("diminuto".toList, tiny), ("pequeño".toList, small), ("grande".toList, large),
    ("enorme".toList, huge)]

/-- The size that a word names, in lower or upper case. -/
def ofWord? (word : Text) : Option Size :=
  words.lookup word.lowerCase

/-- The English name of a size. -/
def name : Size → Text
  | tiny => "tiny".toList
  | small => "small".toList
  | normal => "normal".toList
  | large => "large".toList
  | huge => "huge".toList

/-- The scale of an object of this size. -/
def scale : Size → Vector3
  | tiny => Vector3.splat (1.0 / 3.0)
  | small => Vector3.splat 0.5
  | normal => Vector3.splat 1.0
  | large => Vector3.splat 2.0
  | huge => Vector3.splat 3.0

end Size

/-- How an object stands in the scene. -/
structure Pose where
  position : Vector3
  rotation : Vector3
  scale : Vector3

end Storyboard
