import Storyboard.Prose.Duration
import Storyboard.Proofs.Search

/-!
# Duration expressions

A text states a duration exactly if some digits, some white space and a unit of time follow one
another in it. A part of a text that states a duration makes the whole text state one, and a
search for durations passes over everything that is no digit.
-/

namespace Storyboard.Prose

/-- A unit of time is spelled up to case folding. -/
def SpellsUnit (unit : Text) : Prop :=
  ∃ word ∈ ["⏲".toList, "seconds".toList, "second".toList, "segundos".toList],
    unit.map foldCase = word.map foldCase

/-- The parts of a duration expression. -/
structure DurationExpression (digits blanks unit : Text) : Prop where
  digits_ne_nil : digits ≠ []
  digits_isDigit : ∀ c ∈ digits, c.isDigit = true
  blanks_ne_nil : blanks ≠ []
  blanks_isBlank : ∀ c ∈ blanks, isBlank c = true
  unit_spelled : SpellsUnit unit

/-- A digit more in front makes a longer number. -/
theorem DurationExpression.cons {digits blanks unit : Text} {c : Char}
    (h : DurationExpression digits blanks unit) (hc : c.isDigit = true) :
    DurationExpression (c :: digits) blanks unit :=
  { h with
    digits_ne_nil := List.cons_ne_nil c digits
    digits_isDigit := List.forall_mem_cons.mpr ⟨hc, h.digits_isDigit⟩ }

/-- A unit of time is read off the front of a text. -/
theorem mem_timeUnit_iff {t r : Text} :
    r ∈ timeUnit t ↔ ∃ unit, t = unit ++ r ∧ SpellsUnit unit := by
  simp only [timeUnit, Matcher.mem_oneOf, List.mem_map]
  constructor
  · rintro ⟨_, ⟨word, hword, rfl⟩, h⟩
    obtain ⟨unit, ht, hunit⟩ := Matcher.mem_spelled_foldsTo_iff.mp h
    exact ⟨unit, ht, word, hword, hunit⟩
  · rintro ⟨unit, ht, word, hword, hunit⟩
    exact ⟨_, ⟨word, hword, rfl⟩, Matcher.mem_spelled_foldsTo_iff.mpr ⟨unit, ht, hunit⟩⟩

/-- The pattern matches at the start of a text exactly if the text begins with a duration
expression. -/
theorem isSome_matchAt_durationPattern_iff {t : Text} :
    (durationPattern.matchAt t).isSome = true ↔
      ∃ digits blanks unit after, t = digits ++ (blanks ++ (unit ++ after)) ∧
        DurationExpression digits blanks unit := by
  rw [Pattern.isSome_matchAt_iff]
  constructor
  · rintro ⟨opened, hlead, closed, hbody, hfollow⟩
    obtain rfl : opened = t := by simpa [durationPattern, Matcher.nothing] using hlead
    obtain ⟨digits, rfl, hdigits, hlength⟩ := Matcher.mem_runs_iff.mp hbody
    obtain ⟨after, hafter⟩ := List.exists_mem_of_ne_nil _ hfollow
    obtain ⟨unread, hblank, hunit⟩ := Matcher.mem_andThen.mp hafter
    obtain ⟨blanks, rfl, hblanks, hsome⟩ := Matcher.mem_runs_iff.mp hblank
    obtain ⟨unit, rfl, hspelled⟩ := mem_timeUnit_iff.mp hunit
    exact ⟨digits, blanks, unit, after, rfl, List.length_pos_iff.mp hlength, hdigits,
      List.length_pos_iff.mp hsome, hblanks, hspelled⟩
  · rintro ⟨digits, blanks, unit, after, rfl, h⟩
    refine ⟨_, by simp [durationPattern, Matcher.nothing], blanks ++ (unit ++ after),
      Matcher.mem_runs_iff.mpr ⟨digits, rfl, h.digits_isDigit,
        List.length_pos_iff.mpr h.digits_ne_nil⟩, ?_⟩
    have hafter : after ∈ durationPattern.follow (blanks ++ (unit ++ after)) :=
      Matcher.mem_andThen.mpr ⟨unit ++ after,
        Matcher.mem_runs_iff.mpr ⟨blanks, rfl, h.blanks_isBlank,
          List.length_pos_iff.mpr h.blanks_ne_nil⟩,
        mem_timeUnit_iff.mpr ⟨unit, rfl, h.unit_spelled⟩⟩
    exact List.ne_nil_of_mem hafter

/-- A text states a duration exactly if it holds a duration expression. -/
theorem statesDuration_iff {t : Text} :
    statesDuration t = true ↔
      ∃ before digits blanks unit after,
        t = before ++ (digits ++ (blanks ++ (unit ++ after))) ∧
          DurationExpression digits blanks unit := by
  rw [statesDuration, Pattern.occursIn_iff]
  constructor
  · rintro ⟨before, rest, rfl, h⟩
    obtain ⟨digits, blanks, unit, after, rfl, hexpr⟩ := isSome_matchAt_durationPattern_iff.mp h
    exact ⟨before, digits, blanks, unit, after, rfl, hexpr⟩
  · rintro ⟨before, digits, blanks, unit, after, rfl, hexpr⟩
    exact ⟨before, _, rfl,
      isSome_matchAt_durationPattern_iff.mpr ⟨digits, blanks, unit, after, rfl, hexpr⟩⟩

/-- A text states a duration when a part of it does. Nothing is asked for around an expression. -/
theorem statesDuration_of_isInfix {part t : Text} (h : part <:+: t)
    (hpart : statesDuration part = true) : statesDuration t = true := by
  obtain ⟨front, back, rfl⟩ := h
  obtain ⟨before, digits, blanks, unit, after, rfl, hexpr⟩ := statesDuration_iff.mp hpart
  exact statesDuration_iff.mpr
    ⟨front ++ before, digits, blanks, unit, after ++ back, by simp, hexpr⟩

/-- Every duration expression begins with a digit. -/
theorem durationPattern_opensWith : durationPattern.OpensWith Char.isDigit := by
  intro t h
  obtain ⟨digits, blanks, unit, after, rfl, hexpr⟩ := isSome_matchAt_durationPattern_iff.mp h
  obtain ⟨c, rest, rfl⟩ := List.exists_cons_of_ne_nil hexpr.digits_ne_nil
  exact ⟨c, rest ++ (blanks ++ (unit ++ after)), rfl, hexpr.digits_isDigit c List.mem_cons_self⟩

/-- Text without digits in front of a window adds no duration to it. -/
theorem duration?_append {w : Text} (hw : ∀ c ∈ w, c.isDigit = false) (t : Text) :
    duration? (w ++ t) = duration? t := by
  rw [duration?, duration?, durationPattern_opensWith.find?_append hw]

/-- A window without digits states no duration. -/
theorem duration?_eq_none {t : Text} (ht : ∀ c ∈ t, c.isDigit = false) : duration? t = none := by
  rw [duration?, durationPattern_opensWith.find?_eq_none ht]
  rfl

/-- A window with a duration states it. -/
theorem statesDuration_of_duration? {t : Text} {seconds : Nat} (h : duration? t = some seconds) :
    statesDuration t = true := by
  obtain ⟨found, hfound, _⟩ := Option.bind_eq_some_iff.mp h
  rw [statesDuration, Pattern.occursIn, hfound]
  rfl

end Storyboard.Prose
