import Mathlib.Data.List.Induction
import Mathlib.Data.Nat.Digits.Defs
import Storyboard.Proofs.Measures

/-!
# The number of seconds

The length of a beat is a number of any size in the text and a number of 64 bits behind it. It is
read off the duration expression that begins first, with all its digits: the place values are
summed up exactly, zeros in front add nothing, and a sum out of range gives no length at all.
-/

namespace Storyboard.Prose

/-- The number that a row of decimal digits stands for, digit by digit with its power of ten. -/
def placeValue (digits : Text) : Nat :=
  Nat.ofDigits 10 (digits.reverse.map fun c => c.toNat - '0'.toNat)

/-- Multiplying by ten and adding the next digit sums up the place values. -/
theorem decimalValue_eq_placeValue (digits : Text) : decimalValue digits = placeValue digits := by
  induction digits using List.reverseRecOn with
  | nil => rfl
  | append_singleton digits c ih =>
    rw [decimalValue, placeValue] at ih
    rw [decimalValue, placeValue, List.foldl_append, ih, List.reverse_append,
      List.reverse_singleton, List.singleton_append, List.map_cons, Nat.ofDigits_cons, Nat.add_comm]
    rfl

/-- Zeros in front do not change a number. -/
theorem placeValue_replicate_zero_append (zeros : Nat) (row : Text) :
    placeValue (List.replicate zeros '0' ++ row) = placeValue row := by
  rw [placeValue, List.reverse_append, List.map_append, Nat.ofDigits_append, List.reverse_replicate,
    List.map_replicate, Nat.sub_self, Nat.ofDigits_replicate_zero, Nat.mul_zero, Nat.add_zero]
  rfl

/-- A duration expression at its place in a text. It may have been cut out of a longer one, with
further digits of the number in front. -/
structure DurationMention where
  before : Text
  digits : Text
  blanks : Text
  unit : Text
  after : Text
  expression : DurationExpression digits blanks unit

namespace DurationMention

/-- The text that holds the expression. -/
def text (e : DurationMention) : Text :=
  e.before ++ (e.digits ++ (e.blanks ++ (e.unit ++ e.after)))

/-- Where the expression begins. -/
def offset (e : DurationMention) : Nat :=
  Text.byteSize e.before

/-- The digits of the expression are all the digits at their place. -/
structure IsMaximal (e : DurationMention) : Prop where
  isDigit_before : ∀ c, e.before.getLast? = some c → c.isDigit = false
  isDigit_behind : ∀ c, (e.blanks ++ (e.unit ++ e.after)).head? = some c → c.isDigit = false

/-- No digit stands in front of the expression that begins first: it would begin a longer one. -/
theorem isDigit_before_of_isLeftmost {t : Text} {e : DurationMention}
    (h : IsLeftmost (fun e => e.text = t) offset e) {c : Char} (hc : e.before.getLast? = some c) :
    c.isDigit = false := by
  rw [← Bool.not_eq_true]
  intro hdigit
  obtain ⟨front, hfront⟩ := List.getLast?_eq_some_iff.mp hc
  let longer : DurationMention :=
    ⟨front, c :: e.digits, e.blanks, e.unit, e.after, e.expression.cons hdigit⟩
  have htext : longer.text = t := by
    rw [← h.1]
    simp [longer, text, hfront]
  have hle := h.2 longer htext
  have hpos := c.utf8Size_pos
  simp only [longer, offset, hfront, Text.byteSize_append, Text.byteSize_cons,
    Text.byteSize_nil] at hle
  omega

/-- An expression without digits in front of its own is a measure. -/
def toMeasure (e : DurationMention)
    (whole : ∀ c, e.before.getLast? = some c → c.isDigit = false) : Measure :=
  { e with whole }

end DurationMention

/-- A measure is a duration expression. -/
def Measure.toDurationMention (m : Measure) : DurationMention :=
  { m with }

/-- A text states a duration if a duration expression stands anywhere in it. -/
theorem statesDuration_iff_exists_mention {t : Text} :
    statesDuration t = true ↔ ∃ e : DurationMention, e.text = t := by
  rw [statesDuration_iff]
  constructor
  · rintro ⟨before, digits, blanks, unit, after, rfl, hexpr⟩
    exact ⟨⟨before, digits, blanks, unit, after, hexpr⟩, rfl⟩
  · rintro ⟨e, rfl⟩
    exact ⟨e.before, e.digits, e.blanks, e.unit, e.after, rfl, e.expression⟩

/-- The number of the first measure is the duration, or it is out of range and there is none. -/
theorem duration?_eq_ite {t : Text} {m : Measure}
    (h : IsLeftmost (fun m => m.text = t) Measure.offset m) :
    duration? t = if m.seconds ≤ longestDuration then some m.seconds else none := by
  obtain ⟨found, hfound, htext⟩ :=
    Option.map_eq_some_iff.mp (map_text_find?_durationPattern.mpr ⟨m, h, rfl⟩)
  rw [duration?, hfound, Option.bind_some, htext]
  rfl

/-- The expression that begins first is the first measure. -/
theorem DurationMention.isLeftmost_toMeasure {t : Text} {e : DurationMention}
    (h : IsLeftmost (fun e => e.text = t) offset e)
    (whole : ∀ c, e.before.getLast? = some c → c.isDigit = false) :
    IsLeftmost (fun m => m.text = t) Measure.offset (e.toMeasure whole) :=
  ⟨h.1, fun m hm => h.2 m.toDurationMention hm⟩

/-- Durations are exact. A window states a duration if a duration expression stands in it; the
digits of the one that begins first are then all the digits at their place, and the duration is
their number, however many zeros it is written with, or none if it needs more than 64 bits. A window
that states none has none. -/
theorem duration_is_exact (window : Text) :
    (statesDuration window = true ↔ ∃ e : DurationMention, e.text = window) ∧
    (statesDuration window = true →
      ∃ first, IsLeftmost (fun e => e.text = window) DurationMention.offset first) ∧
    (∀ first, IsLeftmost (fun e => e.text = window) DurationMention.offset first →
      first.IsMaximal ∧
        ∀ zeros row, first.digits = List.replicate zeros '0' ++ row →
          duration? window =
            if placeValue row ≤ 18446744073709551615 then some (placeValue row) else none) ∧
    (statesDuration window = false → duration? window = none) := by
  refine ⟨statesDuration_iff_exists_mention, fun hstates => ?_, fun first hfirst => ?_,
    fun hstates => ?_⟩
  · obtain ⟨e, he⟩ := statesDuration_iff_exists_mention.mp hstates
    exact exists_isLeftmost DurationMention.offset he
  · have whole := fun c => DurationMention.isDigit_before_of_isLeftmost hfirst (c := c)
    refine ⟨⟨whole, fun c => (first.toMeasure whole).isDigit_head?⟩, fun zeros row hrow => ?_⟩
    have hseconds : (first.toMeasure whole).seconds = placeValue row := by
      calc (first.toMeasure whole).seconds = decimalValue first.digits := rfl
        _ = placeValue (List.replicate zeros '0' ++ row) := by
          rw [decimalValue_eq_placeValue, hrow]
        _ = placeValue row := placeValue_replicate_zero_append zeros row
    rw [duration?_eq_ite (DurationMention.isLeftmost_toMeasure hfirst whole), hseconds]
    rfl
  · rw [← Bool.not_eq_true] at hstates
    refine Option.eq_none_iff_forall_ne_some.mpr fun seconds hseconds => hstates ?_
    exact statesDuration_of_duration? hseconds

/-- The first expression counts, with the number next to its unit, not the one further left. -/
example : duration? "12 000000000000000000000034 seconds, 5 seconds".toList = some 34 ∧
    duration? "18446744073709551616 seconds, 5 seconds".toList = none := by
  decide +kernel

end Storyboard.Prose
