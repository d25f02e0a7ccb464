/-!
# Shortest decimals

A double stands for all real numbers that round to it. Among the decimals in that interval the one
on the coarsest power of ten is chosen, and of two on the same power the one nearer to the double;
an exact tie goes to the even digit. All comparisons are exact, on natural numbers.
-/

namespace Storyboard

/-- The number `digits * 10 ^ scale`. -/
structure Decimal where
  digits : Nat
  scale : Int
  deriving DecidableEq

/-- The magnitude `significand * 2 ^ exponent` of a finite double. -/
structure Binary where
  significand : Nat
  exponent : Int
  /-- Whether the double below is half as far away as the one above. -/
  narrow : Bool
  deriving DecidableEq

namespace Binary

/-- The magnitude that 63 bits encode, or nothing for infinities and values that are no numbers. -/
def ofBits? (bits : Nat) : Option Binary :=
  let exponent : Nat := bits / Nat.pow 2 52 % Nat.pow 2 11
  let fraction := bits % Nat.pow 2 52
  if exponent = 2047 then none
  else if exponent = 0 then some ⟨fraction, -1074, false⟩
  else
    some ⟨Nat.pow 2 52 + fraction, Int.ofNat exponent - 1075, decide (fraction = 0 ∧ 1 < exponent)⟩

/-- The lower end of the interval that rounds to a magnitude, in quarters of `2 ^ exponent`. -/
def lower (x : Binary) : Nat := 4 * x.significand - if x.narrow then 1 else 2

/-- The upper end of the interval, in quarters of `2 ^ exponent`. -/
def upper (x : Binary) : Nat := 4 * x.significand + 2

/-- Whether the ends themselves round to the magnitude. -/
def closed (x : Binary) : Bool := x.significand % 2 == 0

/-- A number of quarters of `2 ^ exponent`, on the common scale with the unit of `10 ^ scale`. -/
def quarters (x : Binary) (scale : Int) (n : Nat) : Nat :=
  n * Nat.pow 2 (x.exponent - 2).toNat * Nat.pow 10 (-scale).toNat

/-- The unit `10 ^ scale` on the common scale with the quarters of `2 ^ exponent`. -/
def unit (x : Binary) (scale : Int) : Nat :=
  Nat.pow 10 scale.toNat * Nat.pow 2 (2 - x.exponent).toNat

/-- Whether a decimal lies in the interval that rounds to a magnitude. -/
def readsBack (x : Binary) (d : Decimal) : Bool :=
  let value := d.digits * x.unit d.scale
  let low := x.quarters d.scale x.lower
  let high := x.quarters d.scale x.upper
  if x.closed then decide (low ≤ value) && decide (value ≤ high)
  else decide (low < value) && decide (value < high)

/-- The multiple of a power of ten next to a magnitude that reads back, the nearer one of two. -/
def onGrid? (x : Binary) (scale : Int) : Option Decimal :=
  let value := x.quarters scale (4 * x.significand)
  let unit := x.unit scale
  let below := value / unit
  match x.readsBack ⟨below, scale⟩, x.readsBack ⟨below + 1, scale⟩ with
  | false, false => none
  | true, false => some ⟨below, scale⟩
  | false, true => some ⟨below + 1, scale⟩
  | true, true =>
    let nearer :=
      match compare (2 * value) ((2 * below + 1) * unit) with
      | .lt => below
      | .gt => below + 1
      | .eq => if below % 2 = 0 then below else below + 1
    some ⟨nearer, scale⟩

/-- The powers of ten to try, the coarsest first. The first one is beyond the magnitude, and
seventeen digits tell any two doubles apart. -/
def grids (x : Binary) : List Int :=
  let bits := Int.ofNat x.significand.log2 + 1 + x.exponent
  (List.range 22).map fun i => bits * 30103 / 100000 + 1 - Int.ofNat i

/-- The magnitude itself as a decimal. -/
def exact (x : Binary) : Decimal :=
  if 0 ≤ x.exponent then ⟨x.significand * Nat.pow 2 x.exponent.toNat, 0⟩
  else ⟨x.significand * Nat.pow 5 (-x.exponent).toNat, x.exponent⟩

/-- The shortest decimal that reads back. -/
def shortest (x : Binary) : Decimal :=
  (x.grids.findSome? x.onGrid?).getD x.exact

/-- What is found on a grid reads back. -/
theorem readsBack_of_onGrid? {x : Binary} {scale : Int} {d : Decimal}
    (h : x.onGrid? scale = some d) : x.readsBack d = true := by
  unfold onGrid? at h
  dsimp only at h
  split at h
  · simp at h
  · obtain rfl := Option.some.inj h
    assumption
  · obtain rfl := Option.some.inj h
    assumption
  · obtain rfl := Option.some.inj h
    split
    · assumption
    · assumption
    · split <;> assumption

end Binary

end Storyboard
