/-!
# Vectors

Points and directions in scene space, with double-precision components.
-/

namespace Storyboard

/-- A vector in scene space: positions in scene units, rotations in degrees. -/
structure Vector3 where
  x : Float
  y : Float
  z : Float

namespace Vector3

/-- The vector with three equal components. -/
def splat (v : Float) : Vector3 := ⟨v, v, v⟩

/-- The zero vector. -/
def zero : Vector3 := splat 0.0

/-- Componentwise difference. -/
def sub (v w : Vector3) : Vector3 := ⟨v.x - w.x, v.y - w.y, v.z - w.z⟩

/-- Every component times a factor. -/
def scale (v : Vector3) (factor : Float) : Vector3 := ⟨v.x * factor, v.y * factor, v.z * factor⟩

/-- Whether all components are finite. -/
def isFinite (v : Vector3) : Bool := v.x.isFinite && v.y.isFinite && v.z.isFinite

end Vector3

end Storyboard
