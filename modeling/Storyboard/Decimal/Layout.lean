import Storyboard.Decimal.Shortest
import Storyboard.Text

/-!
# The text of numbers

Integers are written in decimal digits. A double is written with its shortest digits:
positionally, with at least one digit after the point, while the exponent of the first digit lies
between -5 and 15, and otherwise with a signed exponent. Values that are not finite have no text
of their own.
-/

namespace Storyboard

/-- A number in decimal digits. -/
def decimal (n : Nat) : Text :=
  Nat.toDigits 10 n

namespace Decimal

/-- The same number without zeros at the end of its digits. -/
def trimmed (d : Decimal) : Decimal :=
  if h : d.digits % 10 = 0 ∧ 0 < d.digits then
    trimmed ⟨d.digits / 10, d.scale + 1⟩
  else d
termination_by d.digits
decreasing_by
  exact Nat.div_lt_self h.2 (by decide)

/-- Digits with the decimal point after the first `point` of them; zeros fill what is missing. -/
def positional (digits : Text) (point : Int) : Text :=
  if point ≤ 0 then "0.".toList ++ List.replicate (-point).toNat '0' ++ digits
  else if (digits.length : Int) ≤ point then
    digits ++ List.replicate (point.toNat - digits.length) '0' ++ ".0".toList
  else digits.take point.toNat ++ '.' :: digits.drop point.toNat

/-- An integer with its sign. -/
def signed (n : Int) : Text :=
  if n < 0 then '-' :: decimal n.natAbs else '+' :: decimal n.natAbs

/-- Digits with the decimal point after the first of them, and an exponent. -/
def scientific (digits : Text) (exponent : Int) : Text :=
  let fraction := digits.drop 1
  digits.take 1 ++ (if fraction.isEmpty then [] else '.' :: fraction) ++ 'e' :: signed exponent

/-- The text of a positive decimal. -/
def layout (d : Decimal) : Text :=
  let digits := decimal d.digits
  let exponent := (digits.length : Int) + d.scale - 1
  if -5 ≤ exponent ∧ exponent ≤ 15 then positional digits (exponent + 1)
  else scientific digits exponent

end Decimal

/-- The text of a finite magnitude. -/
def Binary.layout (x : Binary) : Text :=
  if x.significand = 0 then "0.0".toList else x.shortest.trimmed.layout

/-- The text of a finite double. -/
def floatText? (x : Float) : Option Text :=
  let bits := x.toBits.toNat
  (Binary.ofBits? (bits % Nat.pow 2 63)).map fun magnitude =>
    if bits < Nat.pow 2 63 then magnitude.layout else '-' :: magnitude.layout

end Storyboard
