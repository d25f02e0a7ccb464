import Mathlib.Algebra.Order.Field.Power
import Mathlib.Data.Rat.Cast.Order
import Mathlib.Tactic.FieldSimp
import Mathlib.Tactic.Linarith
import Mathlib.Tactic.Positivity
import Mathlib.Tactic.Ring
import Storyboard.Decimal.Layout

/-!
# Shortest decimals tell magnitudes apart

The magnitudes of doubles are ordered by their bits, and so are the intervals of what rounds to
them. Neighbouring intervals share at most an end, which belongs to the one with the even
significand. The shortest decimal of a magnitude lies in its interval, so that no other magnitude
has the same one.
-/

namespace Storyboard

/-- The number that a decimal stands for. -/
def Decimal.value (d : Decimal) : ℚ :=
  d.digits * 10 ^ d.scale

namespace Binary

/-- The lower end of the interval that rounds to a magnitude. -/
def lowerEnd (x : Binary) : ℚ :=
  x.lower * 2 ^ (x.exponent - 2)

/-- The upper end of the interval that rounds to a magnitude. -/
def upperEnd (x : Binary) : ℚ :=
  x.upper * 2 ^ (x.exponent - 2)

/-- Whether a number rounds to a magnitude. -/
def Covers (x : Binary) (v : ℚ) : Prop :=
  if x.closed then x.lowerEnd ≤ v ∧ v ≤ x.upperEnd else x.lowerEnd < v ∧ v < x.upperEnd

/-! ## Comparing on a common scale -/

/-- A power is that of the positive part of its exponent over that of the negative part. -/
theorem zpow_mul_pow_toNat {a : ℚ} (ha : a ≠ 0) (z : ℤ) : a ^ z * a ^ (-z).toNat = a ^ z.toNat := by
  obtain ⟨n, rfl | rfl⟩ := z.eq_nat_or_neg
  · simp
  · simp [ha]

/-- What both sides of a comparison are multiplied with. -/
def commonScale (x : Binary) (scale : Int) : ℚ :=
  2 ^ (2 - x.exponent).toNat * 10 ^ (-scale).toNat

/-- The common scale is positive. -/
theorem commonScale_pos (x : Binary) (scale : Int) : 0 < x.commonScale scale := by
  unfold commonScale
  positivity

/-- A number of quarters, on the common scale. -/
theorem cast_quarters (x : Binary) (scale : Int) (n : Nat) :
    (x.quarters scale n : ℚ) = n * 2 ^ (x.exponent - 2) * x.commonScale scale := by
  have htwo := zpow_mul_pow_toNat (a := (2 : ℚ)) (by norm_num) (x.exponent - 2)
  rw [neg_sub] at htwo
  have hquarters : (x.quarters scale n : ℚ) =
      n * 2 ^ (x.exponent - 2).toNat * 10 ^ (-scale).toNat := by
    simp [quarters]
  rw [hquarters, ← htwo, commonScale]
  ring

/-- The digits of a decimal, on the common scale. -/
theorem cast_digits_mul_unit (x : Binary) (d : Decimal) :
    ((d.digits * x.unit d.scale : Nat) : ℚ) = d.value * x.commonScale d.scale := by
  have hten := zpow_mul_pow_toNat (a := (10 : ℚ)) (by norm_num) d.scale
  have hunit : ((d.digits * x.unit d.scale : Nat) : ℚ) =
      d.digits * (10 ^ d.scale.toNat * 2 ^ (2 - x.exponent).toNat) := by
    simp [unit]
  rw [hunit, ← hten, Decimal.value, commonScale]
  ring

/-- A decimal reads back exactly if it rounds to the magnitude. -/
theorem readsBack_iff {x : Binary} {d : Decimal} : x.readsBack d = true ↔ x.Covers d.value := by
  have hscale := x.commonScale_pos d.scale
  have hlow : ∀ n : Nat, x.quarters d.scale n ≤ d.digits * x.unit d.scale ↔
      n * 2 ^ (x.exponent - 2) ≤ d.value := fun n => by
    rw [← Nat.cast_le (α := ℚ), cast_quarters, cast_digits_mul_unit]
    exact mul_le_mul_iff_of_pos_right hscale
  have hhigh : ∀ n : Nat, d.digits * x.unit d.scale ≤ x.quarters d.scale n ↔
      d.value ≤ n * 2 ^ (x.exponent - 2) := fun n => by
    rw [← Nat.cast_le (α := ℚ), cast_quarters, cast_digits_mul_unit]
    exact mul_le_mul_iff_of_pos_right hscale
  rw [readsBack, Covers, lowerEnd, upperEnd]
  split
  · rw [Bool.and_eq_true, decide_eq_true_iff, decide_eq_true_iff, hlow, hhigh]
  · rw [Bool.and_eq_true, decide_eq_true_iff, decide_eq_true_iff, ← not_le, ← not_le, hlow, hhigh,
      not_le, not_le]

/-! ## Shortest decimals -/

/-- A magnitude lies in its own interval. -/
theorem covers_exact (x : Binary) : x.Covers x.exact.value := by
  have hvalue : x.exact.value = 4 * x.significand * 2 ^ (x.exponent - 2) := by
    have hquarter : (2 : ℚ) ^ x.exponent = 4 * 2 ^ (x.exponent - 2) := by
      rw [zpow_sub₀ (by norm_num)]
      norm_num
      ring
    rw [exact, Decimal.value]
    split
    next h =>
      obtain ⟨n, hn⟩ := Int.eq_ofNat_of_zero_le h
      rw [mul_comm 4, mul_assoc, ← hquarter, hn]
      simp
    next h =>
      obtain ⟨n, hn⟩ := Int.eq_ofNat_of_zero_le (Int.neg_nonneg.mpr (le_of_not_ge h))
      have hexponent : x.exponent = -n := by omega
      have hten : (10 : ℚ) ^ n = 2 ^ n * 5 ^ n := by
        rw [← mul_pow]
        norm_num
      rw [mul_comm 4, mul_assoc, ← hquarter, hexponent]
      simp [hten]
      field_simp
  have hpos : (0 : ℚ) < 2 ^ (x.exponent - 2) := by positivity
  -- Counted in quarters of its last place, the magnitude stands strictly below the upper end.
  have hcenter : (4 * x.significand : ℚ) = (4 * x.significand : Nat) := by push_cast; rfl
  have hupper : 4 * x.significand < x.upper := by
    rw [upper]
    omega
  rw [Covers, lowerEnd, upperEnd, hvalue, hcenter]
  simp only [mul_le_mul_iff_of_pos_right hpos, mul_lt_mul_iff_of_pos_right hpos, Nat.cast_le,
    Nat.cast_lt]
  split
  next =>
    have hlower : x.lower ≤ 4 * x.significand := by
      rw [lower]
      omega
    exact ⟨hlower, hupper.le⟩
  next hopen =>
    have hodd : x.significand % 2 ≠ 0 := by simpa [closed] using hopen
    have hlower : x.lower < 4 * x.significand := by
      rw [lower]
      split <;> omega
    exact ⟨hlower, hupper⟩

/-- The shortest decimal of a magnitude rounds to it. -/
theorem covers_shortest (x : Binary) : x.Covers x.shortest.value := by
  rw [shortest]
  cases h : x.grids.findSome? x.onGrid? with
  | none => exact x.covers_exact
  | some d =>
    obtain ⟨scale, -, hfound⟩ := List.exists_of_findSome?_eq_some h
    exact readsBack_iff.mp (readsBack_of_onGrid? hfound)

/-! ## Intervals of different magnitudes -/

/-- The magnitudes of finite doubles. Only the smallest exponent comes with less than 53 bits, and
the double below a power of two is half as far away as the one above, except the lowest ones. -/
structure Canonical (x : Binary) : Prop where
  significand_lt : x.significand < 2 ^ 53
  exponent_ge : -1074 ≤ x.exponent
  normal : x.exponent = -1074 ∨ 2 ^ 52 ≤ x.significand
  narrow_iff : x.narrow = true ↔ x.significand = 2 ^ 52 ∧ -1074 < x.exponent

/-- A magnitude comes before another one. -/
def Precedes (x y : Binary) : Prop :=
  x.exponent < y.exponent ∨ x.exponent = y.exponent ∧ x.significand < y.significand

/-- Different magnitudes are ordered. -/
theorem Canonical.precedes_or {x y : Binary} (hx : x.Canonical) (hy : y.Canonical) (h : x ≠ y) :
    x.Precedes y ∨ y.Precedes x := by
  rcases lt_trichotomy x.exponent y.exponent with hlt | hexponent | hlt
  · exact Or.inl (Or.inl hlt)
  · rcases lt_trichotomy x.significand y.significand with hlt | hsignificand | hlt
    · exact Or.inl (Or.inr ⟨hexponent, hlt⟩)
    · have hnarrow : x.narrow = y.narrow := by
        rw [Bool.eq_iff_iff, hx.narrow_iff, hy.narrow_iff, hexponent, hsignificand]
      exact absurd (by cases x; cases y; simp_all) h
    · exact Or.inr (Or.inr ⟨hexponent.symm, hlt⟩)
  · exact Or.inr (Or.inl hlt)

/-- Only with an even significand do the ends of an interval belong to it. -/
theorem open_or_even (x : Binary) : x.closed = false ∨ x.significand % 2 = 0 := by
  rw [closed]
  cases h : x.significand % 2 == 0 with
  | false => exact Or.inl rfl
  | true => exact Or.inr (beq_iff_eq.mp h)

/-- The lower end of a later interval, counted in the quarters of an earlier magnitude. -/
theorem Precedes.exists_le_lowerEnd {x y : Binary} (h : x.Precedes y) (hx : x.Canonical)
    (hy : y.Canonical) : ∃ n : Nat, n * 2 ^ (x.exponent - 2) ≤ y.lowerEnd ∧
      (x.upper < n ∨ x.upper ≤ n ∧ (x.closed = false ∨ y.closed = false)) := by
  have hxlt := hx.significand_lt
  rcases h with hlt | ⟨hexponent, hlt⟩
  · -- A later exponent is at least twice as large, and comes with a significand of 53 bits.
    have hmin : -1074 < y.exponent := lt_of_le_of_lt hx.exponent_ge hlt
    have hnormal : 2 ^ 52 ≤ y.significand := hy.normal.resolve_left hmin.ne'
    have hlower : 2 ^ 54 ≤ y.lower + 1 := by
      rw [lower]
      split
      next => omega
      next hwide =>
        have hne : y.significand ≠ 2 ^ 52 := fun heq => hwide (hy.narrow_iff.mpr ⟨heq, hmin⟩)
        omega
    refine ⟨2 * y.lower, ?_, ?_⟩
    · have hstep : (2 : ℚ) * 2 ^ (x.exponent - 2) ≤ 2 ^ (y.exponent - 2) := by
        rw [← zpow_one_add₀ (by norm_num)]
        exact zpow_le_zpow_right₀ (by norm_num) (by omega)
      have hcast : ((2 * y.lower : Nat) : ℚ) * 2 ^ (x.exponent - 2) =
          y.lower * (2 * 2 ^ (x.exponent - 2)) := by
        push_cast
        ring
      rw [hcast, lowerEnd]
      exact mul_le_mul_of_nonneg_left hstep (Nat.cast_nonneg _)
    · rw [upper]
      rcases x.open_or_even with hopen | heven
      · exact Or.inr ⟨by omega, Or.inl hopen⟩
      · exact Or.inl (by omega)
  · refine ⟨y.lower, by rw [lowerEnd, hexponent], ?_⟩
    have hlower : 4 * y.significand ≤ y.lower + 2 := by
      rw [lower]
      split <;> omega
    rw [upper]
    rcases x.open_or_even with hopen | heven
    · exact Or.inr ⟨by omega, Or.inl hopen⟩
    · rcases y.open_or_even with hother | hother
      · exact Or.inr ⟨by omega, Or.inr hother⟩
      · exact Or.inl (by omega)

/-- The interval of a magnitude ends where a later one begins or before, and one of them is open if
they meet. -/
theorem Precedes.ends {x y : Binary} (h : x.Precedes y) (hx : x.Canonical) (hy : y.Canonical) :
    x.upperEnd < y.lowerEnd ∨
      x.upperEnd ≤ y.lowerEnd ∧ (x.closed = false ∨ y.closed = false) := by
  have hpos : (0 : ℚ) < 2 ^ (x.exponent - 2) := by positivity
  obtain ⟨n, hn, hends⟩ := h.exists_le_lowerEnd hx hy
  rcases hends with hlt | ⟨hle, hopen⟩
  · exact Or.inl (lt_of_lt_of_le (mul_lt_mul_of_pos_right (Nat.cast_lt.mpr hlt) hpos) hn)
  · exact Or.inr ⟨le_trans (mul_le_mul_of_nonneg_right (Nat.cast_le.mpr hle) hpos.le) hn, hopen⟩

/-- Numbers that round to different magnitudes are ordered as the magnitudes are. -/
theorem Precedes.lt {x y : Binary} (h : x.Precedes y) (hx : x.Canonical) (hy : y.Canonical)
    {v w : ℚ} (hv : x.Covers v) (hw : y.Covers w) : v < w := by
  rw [Covers] at hv hw
  rcases h.ends hx hy with hlt | ⟨hle, hopen | hopen⟩
  · have hv : v ≤ x.upperEnd := by split at hv <;> linarith
    have hw : y.lowerEnd ≤ w := by split at hw <;> linarith
    linarith
  · rw [hopen] at hv
    have hw : y.lowerEnd ≤ w := by split at hw <;> linarith
    simp at hv
    linarith
  · rw [hopen] at hw
    have hv : v ≤ x.upperEnd := by split at hv <;> linarith
    simp at hw
    linarith

/-- No number rounds to two magnitudes. -/
theorem Canonical.eq_of_covers {x y : Binary} (hx : x.Canonical) (hy : y.Canonical) {v : ℚ}
    (h : x.Covers v) (hother : y.Covers v) : x = y := by
  by_contra hne
  rcases hx.precedes_or hy hne with hlt | hlt
  · exact lt_irrefl v (hlt.lt hx hy h hother)
  · exact lt_irrefl v (hlt.lt hy hx hother h)

/-! ## Magnitudes of doubles -/

/-- The bits of a magnitude encode its exponent and its significand. -/
theorem canonical_of_ofBits? {bits : Nat} {x : Binary} (hbits : bits < 2 ^ 63)
    (h : ofBits? bits = some x) :
    x.Canonical ∧ bits = (x.exponent + 1074).toNat * 2 ^ 52 + x.significand := by
  have hfraction : Nat.pow 2 52 = 4503599627370496 := by decide
  have hexponent : Nat.pow 2 11 = 2048 := by decide
  unfold ofBits? at h
  simp only [hfraction, hexponent] at h
  split_ifs at h with hspecial hlow
  · obtain rfl := Option.some.inj h
    refine ⟨⟨?_, ?_, ?_, ?_⟩, ?_⟩ <;> simp <;> omega
  · obtain rfl := Option.some.inj h
    refine ⟨⟨?_, ?_, ?_, ?_⟩, ?_⟩ <;> simp <;> omega

/-- Different bits encode different magnitudes. -/
theorem ofBits?_inj {bits other : Nat} {x : Binary} (hbits : bits < 2 ^ 63)
    (hother : other < 2 ^ 63) (h : ofBits? bits = some x) (h' : ofBits? other = some x) :
    bits = other :=
  (canonical_of_ofBits? hbits h).2.trans (canonical_of_ofBits? hother h').2.symm

end Binary

/-- Doubles with the same bits are the same. -/
theorem eq_of_toBits_eq {x y : Float} (h : x.toBits = y.toBits) : x = y := by
  obtain ⟨⟨bits, _⟩⟩ := x
  obtain ⟨⟨other, _⟩⟩ := y
  obtain rfl : bits = other := h
  rfl

/-- A finite double does not have the exponent that is kept for other values. -/
theorem exponent_ne_of_isFinite {x : Float} (h : x.isFinite = true) :
    x.toBits.toNat / 2 ^ 52 % 2 ^ 11 ≠ 2047 := by
  intro hexponent
  have hbits : x.toModel.toBits.toBitVec.toNat = x.toBits.toNat := rfl
  have hvector : @Float.Model.UnpackedFloat.unpackExponent Float.Model.Format.binary64
      x.toModel.toBits.toBitVec = -1#_ := by
    apply BitVec.eq_of_toNat_eq
    simp only [Float.Model.UnpackedFloat.unpackExponent, BitVec.toNat_cast]
    rw [BitVec.extractLsb_toNat, hbits, Nat.shiftRight_eq_div_pow]
    simpa using hexponent
  have hfinite : x.toModel.unpack.isFinite = true := h
  delta Float.Model.unpack Float.Model.UnpackedFloat.unpack at hfinite
  rw [if_pos hvector] at hfinite
  -- What is left is an infinity or no number, and neither is finite.
  split at hfinite
  · exact Bool.false_ne_true hfinite
  · exact Bool.false_ne_true hfinite

/-- A finite double has a magnitude. -/
theorem exists_magnitude_of_isFinite {x : Float} (h : x.isFinite = true) :
    ∃ magnitude, Binary.ofBits? (x.toBits.toNat % Nat.pow 2 63) = some magnitude := by
  have hne := exponent_ne_of_isFinite h
  have hsign : Nat.pow 2 63 = 9223372036854775808 := by decide
  have hfraction : Nat.pow 2 52 = 4503599627370496 := by decide
  have hexponent : Nat.pow 2 11 = 2048 := by decide
  unfold Binary.ofBits?
  simp only [hsign, hfraction, hexponent]
  rw [if_neg (by omega)]
  split
  · exact ⟨_, rfl⟩
  · exact ⟨_, rfl⟩

namespace Decimal

/-- Zeros at the end of the digits do not count. -/
theorem value_trimmed (d : Decimal) : d.trimmed.value = d.value := by
  fun_induction trimmed d with
  | case1 d h ih =>
    have hdigits : (d.digits : ℚ) = (d.digits / 10 : Nat) * 10 := by
      exact_mod_cast (Nat.div_mul_cancel (Nat.dvd_of_mod_eq_zero h.1)).symm
    rw [ih, value, value, hdigits, zpow_add_one₀ (by norm_num)]
    ring
  | case2 d h => rfl

/-- A positive decimal has positive digits. -/
theorem digits_pos_of_value_pos {d : Decimal} (h : 0 < d.value) : 0 < d.digits := by
  rcases Nat.eq_zero_or_pos d.digits with hzero | hpos
  · simp [value, hzero] at h
  · exact hpos

end Decimal

end Storyboard
