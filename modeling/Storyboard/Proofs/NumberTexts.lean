import Storyboard.Json
import Storyboard.Proofs.JsonValues
import Storyboard.Proofs.Magnitudes

/-!
# Numbers are told apart by their texts

The text of a number is read back as a numeral whatever follows it, and the numeral has the value of
the decimal that was written. As the shortest decimals of different doubles are different, so are
their texts. A double is never written like an integer, for it has a point or an exponent.
-/

namespace Storyboard

open Json

/-! ## Decimal digits -/

/-- The decimal text of a number consists of digits. -/
theorem isDigits_decimal (n : Nat) : IsDigits (decimal n) :=
  ⟨Nat.toDigits_ne_nil, fun _ hc => Nat.isDigit_of_mem_toDigits (by decide) (by decide) hc⟩

/-- A number is read back from its decimal text. -/
theorem ofDigitChars_decimal (n : Nat) : Nat.ofDigitChars 10 (decimal n) 0 = n :=
  Nat.ofDigitChars_ten_toDigits

/-- The digits of a positive number do not begin with a zero. -/
theorem head?_decimal_ne {n : Nat} (h : 0 < n) : (decimal n).head? ≠ some '0' := by
  induction n using Nat.strong_induction_on with
  | h n ih =>
    rcases Nat.lt_or_ge n 10 with hlt | hge
    · have hdigit : decimal n = [n.digitChar] := Nat.toDigits_of_lt_base hlt
      simp [hdigit, h.ne']
    · have hlonger : decimal n = decimal (n / 10) ++ [(n % 10).digitChar] :=
        Nat.toDigits_of_base_le (by decide) hge
      have hfirst := ih (n / 10) (by omega) (by omega)
      obtain ⟨c, later, hcons, -⟩ := (isDigits_decimal (n / 10)).exists_cons
      rw [hcons] at hfirst
      rw [hlonger, hcons]
      exact hfirst

/-- An integer begins with zero only if it is zero. -/
theorem isWhole_decimal (n : Nat) : IsWhole (decimal n) := by
  rcases Nat.eq_zero_or_pos n with rfl | hpos
  · exact .zero
  · exact .digits (isDigits_decimal n) (head?_decimal_ne hpos)

/-- The first digits of a positive number. -/
theorem isWhole_take_decimal {n count : Nat} (h : 0 < n) (hcount : 0 < count) :
    IsWhole ((decimal n).take count) := by
  obtain ⟨c, later, hcons, hc, hlater⟩ := (isDigits_decimal n).exists_cons
  have hhead := head?_decimal_ne h
  obtain ⟨fewer, rfl⟩ := Nat.exists_eq_succ_of_ne_zero hcount.ne'
  rw [hcons, List.take_succ_cons]
  refine .digits ⟨List.cons_ne_nil c _, ?_⟩ (by simpa [hcons] using hhead)
  rintro d (_ | ⟨_, hd⟩)
  · exact hc
  · exact hlater d (List.mem_of_mem_take hd)

/-- The digits of a number after some of them. -/
theorem isDigits_drop_decimal {n count : Nat} (h : count < (decimal n).length) :
    IsDigits ((decimal n).drop count) :=
  ⟨by simpa using h, fun c hc => (isDigits_decimal n).2 c (List.mem_of_mem_drop hc)⟩

namespace Json.Numeral

/-- The number that a numeral stands for. -/
def value (numeral : Numeral) : ℚ :=
  Nat.ofDigitChars 10 (numeral.whole ++ numeral.fraction) 0 *
    10 ^ ((if numeral.negativeExponent then -(numeral.writtenExponent : ℤ)
      else numeral.writtenExponent) - numeral.fraction.length)

/-- Zeros after the digits and an exponent make up the power of ten. -/
theorem value_eq {numeral : Numeral} {n zeros : Nat} {scale : ℤ}
    (hdigits : Nat.ofDigitChars 10 (numeral.whole ++ numeral.fraction) 0 = 10 ^ zeros * n)
    (hscale : (if numeral.negativeExponent then -(numeral.writtenExponent : ℤ)
      else numeral.writtenExponent) - numeral.fraction.length + zeros = scale) :
    numeral.value = n * 10 ^ scale := by
  rw [value, hdigits, ← hscale, zpow_add₀ (by norm_num), zpow_natCast]
  push_cast
  ring

/-- The exponent of a numeral is the number whose decimal text it has. -/
theorem writtenExponent_decimal (whole fraction : Text) (negative : Bool) (n : Nat) :
    writtenExponent ⟨whole, fraction, negative, decimal n⟩ = n := by
  rw [writtenExponent, ← Nat.ofDigitChars_eq_foldl]
  exact ofDigitChars_decimal n

/-- A text has only one numeral, also where more follows. -/
theorem Spells.unique {numeral other : Numeral} {t u r s : Text} (h : numeral.Spells t)
    (hother : other.Spells u) (hr : Stops r) (hs : Stops s) (happend : t ++ r = u ++ s) :
    numeral = other ∧ r = s := by
  obtain ⟨c, later, rfl, -, hread⟩ := h.exists_cons
  obtain ⟨d, following, rfl, -, hreadOther⟩ := hother.exists_cons
  rw [List.cons_append, List.cons_append, List.cons.injEq] at happend
  obtain ⟨rfl, hlater⟩ := happend
  have hsame := hread r hr
  rw [hlater, hreadOther s hs] at hsame
  obtain ⟨rfl, rfl⟩ := Prod.mk.inj (Except.ok.inj hsame)
  exact ⟨rfl, rfl⟩

end Json.Numeral

namespace Decimal

/-- Digits with a point between them are a numeral, where zeros may stand after the number. -/
theorem exists_spells_point {whole fraction : Text} {n zeros : Nat} {scale : ℤ}
    (hwhole : IsWhole whole) (hfraction : IsDigits fraction)
    (hdigits : Nat.ofDigitChars 10 (whole ++ fraction) 0 = 10 ^ zeros * n)
    (hscale : zeros - fraction.length = scale) :
    ∃ numeral : Numeral, numeral.Spells (whole ++ '.' :: fraction) ∧
      numeral.value = n * 10 ^ scale ∧ numeral.fraction ≠ [] := by
  refine ⟨⟨whole, fraction, false, []⟩, ?_, ?_, hfraction.1⟩
  · have htext : Numeral.Spells ⟨whole, fraction, false, []⟩ (whole ++ ('.' :: fraction ++ [])) :=
      .parts hwhole (.digits hfraction) .missing
    rwa [List.append_nil] at htext
  · refine Numeral.value_eq hdigits ?_
    simp [Numeral.writtenExponent]
    omega

/-- Digits with a point among zeros are a numeral. -/
theorem exists_spells_positional {n : Nat} (h : 0 < n) (scale : ℤ) :
    ∃ numeral : Numeral, numeral.Spells (positional (decimal n) ((decimal n).length + scale)) ∧
      numeral.value = n * 10 ^ scale ∧ numeral.fraction ≠ [] := by
  have hall := isDigits_decimal n
  have hvalue := ofDigitChars_decimal n
  have hzeros : ∀ k, ∀ c ∈ List.replicate k '0', c.isDigit = true := fun k c hc => by
    rw [List.eq_of_mem_replicate hc]
    rfl
  rw [positional]
  split_ifs with hsmall hlarge
  · -- Zeros stand between the point and the digits.
    let zeros := (-((decimal n).length + scale)).toNat
    let fraction := List.replicate zeros '0' ++ decimal n
    have hfraction : IsDigits fraction :=
      ⟨by simp [fraction, hall.1],
        fun c hc => (List.mem_append.mp hc).elim (hzeros zeros c) (hall.2 c)⟩
    have hdigits : Nat.ofDigitChars 10 (['0'] ++ fraction) 0 = 10 ^ 0 * n := by
      simp [fraction, Nat.ofDigitChars_append, Nat.ofDigitChars_cons, hvalue]
    have hscale : ((0 : Nat) : ℤ) - fraction.length = scale := by
      simp [fraction, zeros]
      omega
    simpa [fraction, zeros] using exists_spells_point .zero hfraction hdigits hscale
  · -- Zeros stand between the digits and the point.
    let zeros := ((decimal n).length + scale).toNat - (decimal n).length
    let whole := decimal n ++ List.replicate zeros '0'
    have hwhole : IsWhole whole := by
      refine .digits ⟨by simp [whole, hall.1], fun c hc =>
        (List.mem_append.mp hc).elim (hall.2 c) (hzeros zeros c)⟩ ?_
      rw [List.head?_append_of_ne_nil _ hall.1]
      exact head?_decimal_ne h
    have hdigits : Nat.ofDigitChars 10 (whole ++ ['0']) 0 = 10 ^ (zeros + 1) * n := by
      simp [whole, Nat.ofDigitChars_append, Nat.ofDigitChars_cons, hvalue, pow_succ]
      ring
    have hscale : ((zeros + 1 : Nat) : ℤ) - ['0'].length = scale := by
      simp [zeros]
      omega
    simpa [whole, zeros] using
      exists_spells_point hwhole (isDigits_singleton rfl) hdigits hscale
  · -- The point stands between two digits.
    let point := ((decimal n).length + scale).toNat
    have hpoint : 0 < point ∧ point < (decimal n).length := by omega
    have hdigits : Nat.ofDigitChars 10 ((decimal n).take point ++ (decimal n).drop point) 0 =
        10 ^ 0 * n := by
      rw [List.take_append_drop, hvalue, pow_zero, one_mul]
    have hscale : ((0 : Nat) : ℤ) - ((decimal n).drop point).length = scale := by
      simp
      omega
    simpa [point] using exists_spells_point (isWhole_take_decimal h hpoint.1)
      (isDigits_drop_decimal hpoint.2) hdigits hscale

/-- Digits with a point after the first of them and an exponent are a numeral. -/
theorem exists_spells_scientific {n : Nat} (h : 0 < n) (scale : ℤ) :
    ∃ numeral : Numeral, numeral.Spells (scientific (decimal n) ((decimal n).length + scale - 1)) ∧
      numeral.value = n * 10 ^ scale ∧ numeral.exponent ≠ [] := by
  let exponent := ((decimal n).length : ℤ) + scale - 1
  let whole := (decimal n).take 1
  let fraction := (decimal n).drop 1
  let negative := decide (exponent < 0)
  have hfraction : IsFraction fraction (if fraction.isEmpty then [] else '.' :: fraction) := by
    split
    next hempty =>
      rw [List.isEmpty_iff.mp hempty]
      exact .missing
    next hmore =>
      refine .digits ⟨by simpa using hmore, ?_⟩
      exact fun c hc => (isDigits_decimal n).2 c (List.mem_of_mem_drop hc)
  have hexponent : IsExponent negative (decimal exponent.natAbs) ('e' :: signed exponent) := by
    have hdigits := isDigits_decimal exponent.natAbs
    by_cases hsign : exponent < 0
    · simpa [negative, signed, hsign] using IsExponent.minus (.inl rfl) hdigits
    · simpa [negative, signed, hsign] using IsExponent.plus (.inl rfl) hdigits
  refine ⟨⟨whole, fraction, negative, decimal exponent.natAbs⟩, ?_, ?_, (isDigits_decimal _).1⟩
  · have htext : Numeral.Spells ⟨whole, fraction, negative, decimal exponent.natAbs⟩
        (whole ++ ((if fraction.isEmpty then [] else '.' :: fraction) ++ 'e' :: signed exponent)) :=
      .parts (isWhole_take_decimal h one_pos) hfraction hexponent
    rw [scientific, List.append_assoc]
    exact htext
  · have hdigits : Nat.ofDigitChars 10 (whole ++ fraction) 0 = 10 ^ 0 * n := by
      rw [List.take_append_drop, ofDigitChars_decimal, pow_zero, one_mul]
    refine Numeral.value_eq hdigits ?_
    have hlength := List.length_pos_iff.mpr (isDigits_decimal n).1
    rw [Numeral.writtenExponent_decimal]
    simp only [negative, fraction, List.length_drop, decide_eq_true_eq]
    split <;> omega

end Decimal

/-- A positive decimal is written as a numeral of its value, with a point or an exponent. -/
theorem Decimal.exists_spells_layout {d : Decimal} (h : 0 < d.digits) :
    ∃ numeral : Numeral, numeral.Spells d.layout ∧ numeral.value = d.value ∧
      (numeral.fraction ≠ [] ∨ numeral.exponent ≠ []) := by
  rw [layout]
  split_ifs with hpositional
  · obtain ⟨numeral, hspells, hvalue, hfraction⟩ := exists_spells_positional h d.scale
    refine ⟨numeral, ?_, hvalue, Or.inl hfraction⟩
    rwa [sub_add_cancel]
  · obtain ⟨numeral, hspells, hvalue, hexponent⟩ := exists_spells_scientific h d.scale
    exact ⟨numeral, hspells, hvalue, Or.inr hexponent⟩

/-- What rounds to a magnitude other than zero is positive. -/
theorem Binary.Covers.pos {x : Binary} {v : ℚ} (h : x.Covers v) (hx : x.significand ≠ 0) :
    0 < v := by
  have hlower : 0 < x.lower := by
    rw [lower]
    split <;> omega
  have hend : 0 < x.lowerEnd := mul_pos (Nat.cast_pos.mpr hlower) (by positivity)
  rw [Covers] at h
  split at h <;> linarith

/-- A magnitude is written as a numeral of a number that rounds to it. -/
theorem Binary.exists_spells_layout (x : Binary) :
    ∃ numeral : Numeral, numeral.Spells x.layout ∧ x.Covers numeral.value ∧
      (numeral.fraction ≠ [] ∨ numeral.exponent ≠ []) := by
  rw [layout]
  split_ifs with hzero
  · have hscale : ((0 : Nat) : ℤ) - ['0'].length = -1 := rfl
    obtain ⟨numeral, hspells, hvalue, hfraction⟩ :=
      Decimal.exists_spells_point (n := 0) .zero (isDigits_singleton rfl) rfl hscale
    refine ⟨numeral, hspells, ?_, Or.inl hfraction⟩
    have hlower : x.lowerEnd = 0 := by simp [lowerEnd, lower, hzero]
    have hupper : 0 ≤ x.upperEnd := mul_nonneg (Nat.cast_nonneg _) (by positivity)
    rw [hvalue, Nat.cast_zero, zero_mul, Covers, if_pos (by simp [closed, hzero]), hlower]
    exact ⟨le_rfl, hupper⟩
  · have hcovers := x.covers_shortest
    rw [← Decimal.value_trimmed] at hcovers
    have hpos := Decimal.digits_pos_of_value_pos (hcovers.pos hzero)
    obtain ⟨numeral, hspells, hvalue, hmarked⟩ := Decimal.exists_spells_layout hpos
    exact ⟨numeral, hspells, hvalue ▸ hcovers, hmarked⟩

/-! ## Texts of numbers -/

/-- The text of a finite double is a numeral of a number that rounds to it, after its sign. -/
theorem exists_spells_numberText {x : Float} (h : x.isFinite = true) :
    ∃ (magnitude : Binary) (numeral : Numeral) (t : Text),
      Binary.ofBits? (x.toBits.toNat % Nat.pow 2 63) = some magnitude ∧ numeral.Spells t ∧
        magnitude.Covers numeral.value ∧ (numeral.fraction ≠ [] ∨ numeral.exponent ≠ []) ∧
        numberText x = if x.toBits.toNat < Nat.pow 2 63 then t else '-' :: t := by
  obtain ⟨magnitude, hmagnitude⟩ := exists_magnitude_of_isFinite h
  obtain ⟨numeral, hspells, hcovers, hmarked⟩ := magnitude.exists_spells_layout
  refine ⟨magnitude, numeral, magnitude.layout, hmagnitude, hspells, hcovers, hmarked, ?_⟩
  rw [numberText, floatText?, hmagnitude]
  rfl

/-- Texts with the same sign in front, or none. -/
theorem eq_and_append_eq_of_sign {p q : Prop} [Decidable p] [Decidable q] {numeral other : Numeral}
    {t u r s : Text} (h : numeral.Spells t) (hother : other.Spells u)
    (happend : (if p then t else '-' :: t) ++ r = (if q then u else '-' :: u) ++ s) :
    (p ↔ q) ∧ t ++ r = u ++ s := by
  obtain ⟨c, later, rfl, hc, -⟩ := h.exists_cons
  obtain ⟨d, following, rfl, hd, -⟩ := hother.exists_cons
  have hcsign : c ≠ '-' := by
    rintro rfl
    exact absurd hc (by decide)
  have hdsign : '-' ≠ d := by
    rintro rfl
    exact absurd hd (by decide)
  by_cases hp : p <;> by_cases hq : q <;> simp_all

/-- A finite double can be told from its text, also where more follows. -/
theorem numberText_append_inj {x y : Float} (hx : x.isFinite = true) (hy : y.isFinite = true)
    {r s : Text} (hr : Stops r) (hs : Stops s) (h : numberText x ++ r = numberText y ++ s) :
    x = y ∧ r = s := by
  obtain ⟨m, numeral, t, hm, hspells, hcovers, -, htext⟩ := exists_spells_numberText hx
  obtain ⟨m', other, u, hm', hspells', hcovers', -, htext'⟩ := exists_spells_numberText hy
  rw [htext, htext'] at h
  obtain ⟨hsign, happend⟩ := eq_and_append_eq_of_sign hspells hspells' h
  obtain ⟨rfl, hrest⟩ := hspells.unique hspells' hr hs happend
  refine ⟨eq_of_toBits_eq (UInt64.toNat_inj.mp ?_), hrest⟩
  have hpow : Nat.pow 2 63 = 2 ^ 63 := rfl
  have hlt : ∀ bits : Nat, bits % Nat.pow 2 63 < 2 ^ 63 := fun bits => Nat.mod_lt _ (by decide)
  obtain rfl := (Binary.canonical_of_ofBits? (hlt _) hm).1.eq_of_covers
    (Binary.canonical_of_ofBits? (hlt _) hm').1 hcovers hcovers'
  have hmod := Binary.ofBits?_inj (hlt _) (hlt _) hm hm'
  have hx := x.toBits.toNat_lt
  have hy := y.toBits.toNat_lt
  rw [hpow] at hmod hsign
  omega

/-- The decimal text of a number spells a numeral without fraction and exponent. -/
theorem spells_decimal (n : Nat) : Numeral.Spells ⟨decimal n, [], false, []⟩ (decimal n) := by
  have htext : Numeral.Spells ⟨decimal n, [], false, []⟩ (decimal n ++ ([] ++ [])) :=
    .parts (isWhole_decimal n) .missing .missing
  simpa using htext

/-- An integer can be told from its text, also where more follows. -/
theorem decimal_append_inj {n m : Nat} {r s : Text} (hr : Stops r) (hs : Stops s)
    (h : decimal n ++ r = decimal m ++ s) : n = m ∧ r = s := by
  obtain ⟨hsame, hrest⟩ := (spells_decimal n).unique (spells_decimal m) hr hs h
  have hdigits : decimal n = decimal m := congrArg Numeral.whole hsame
  have hvalue := ofDigitChars_decimal n
  rw [hdigits, ofDigitChars_decimal] at hvalue
  exact ⟨hvalue.symm, hrest⟩

/-- A double is not written like an integer. -/
theorem decimal_append_ne_numberText {n : Nat} {x : Float} (hx : x.isFinite = true) {r s : Text}
    (hr : Stops r) (hs : Stops s) : decimal n ++ r ≠ numberText x ++ s := by
  intro h
  obtain ⟨_, numeral, t, -, hspells, -, hmarked, htext⟩ := exists_spells_numberText hx
  have hinteger : decimal n = if True then decimal n else '-' :: decimal n := rfl
  rw [htext, hinteger] at h
  obtain ⟨-, happend⟩ := eq_and_append_eq_of_sign (spells_decimal n) hspells h
  obtain ⟨rfl, -⟩ := (spells_decimal n).unique hspells hr hs happend
  simp at hmarked

end Storyboard
