import Mathlib.Data.List.TakeWhile
import Storyboard.Proofs.Durations
import Storyboard.Proofs.Leftmost
import Storyboard.Proofs.Offsets

/-!
# Numbers with a unit of time

A measure is a whole number, white space and a unit of time at a place in a text. The duration of
a window is the number of its first measure, as long as it is in range. A number that ends where a
unit begins is told from the text in front of the unit alone.
-/

namespace Storyboard

namespace Text

/-- The digits at the end of a text, leaving aside the white space behind them. -/
def digitsAtEnd (t : Text) : Text :=
  ((t.reverse.dropWhile isBlank).takeWhile Char.isDigit).reverse

/-- The white space at the end is dropped, and then the digits are taken. -/
theorem digitsAtEnd_eq (t : Text) :
    t.digitsAtEnd = (t.rdropWhile isBlank).rtakeWhile Char.isDigit := by
  rw [digitsAtEnd, List.rtakeWhile, List.rdropWhile, List.reverse_reverse]

/-- White space begins behind the digits at the end of a text. -/
theorem digitsAtEnd_append {before digits blanks : Text} (hne : digits ≠ [])
    (hdigits : ∀ c ∈ digits, c.isDigit = true) (hblanks : ∀ c ∈ blanks, isBlank c = true)
    (hwhole : ∀ c, before.getLast? = some c → c.isDigit = false) :
    digitsAtEnd (before ++ (digits ++ blanks)) = digits := by
  obtain ⟨m, d, rfl⟩ := exists_append_singleton hne
  have hdelimiter := isDelimiter_of_isDigit (hdigits d (by simp))
  have hblank : isBlank d = false := by
    rw [← Bool.not_eq_true]
    intro h
    simp [isDelimiter_of_isBlank h] at hdelimiter
  have hstop : ∀ c, (before ++ (m ++ [d])).getLast? = some c → isBlank c = false := by
    intro c hc
    obtain rfl : d = c := by simpa [← List.append_assoc] using hc
    exact hblank
  rw [digitsAtEnd_eq, ← List.append_assoc, rdropWhile_append_of_stop hblanks hstop,
    rtakeWhile_append_of_stop hdigits hwhole]

/-- What stands in front of the digits at the end of a text, and behind them. -/
theorem exists_eq_append_digitsAtEnd (t : Text) :
    ∃ before blanks, t = before ++ (t.digitsAtEnd ++ blanks) ∧
      (∀ c ∈ t.digitsAtEnd, c.isDigit = true) ∧ (∀ c ∈ blanks, isBlank c = true) ∧
      ∀ c, before.getLast? = some c → c.isDigit = false := by
  let unread := t.rdropWhile isBlank
  have hunread : unread.rdropWhile Char.isDigit ++ unread.rtakeWhile Char.isDigit = unread :=
    List.rdropWhile_append_rtakeWhile
  have hall : unread ++ t.rtakeWhile isBlank = t := List.rdropWhile_append_rtakeWhile
  rw [digitsAtEnd_eq]
  refine ⟨unread.rdropWhile Char.isDigit, t.rtakeWhile isBlank, ?_,
    fun _ => List.mem_rtakeWhile_imp, fun _ => List.mem_rtakeWhile_imp,
    fun _ => eq_false_of_getLast?_rdropWhile⟩
  rw [← List.append_assoc, hunread, hall]

end Text

namespace Prose

/-- The number at the end of a text, leaving aside the white space behind it. -/
def numberAtEnd? (t : Text) : Option Nat :=
  if t.digitsAtEnd = [] then none else some (decimalValue t.digitsAtEnd)

/-- A whole number with a unit of time behind it, at its place in a text. -/
structure Measure where
  before : Text
  digits : Text
  blanks : Text
  unit : Text
  after : Text
  expression : DurationExpression digits blanks unit
  /-- No digit in front of the number belongs to it. -/
  whole : ∀ c, before.getLast? = some c → c.isDigit = false

namespace Measure

/-- The text that holds the measure. -/
def text (m : Measure) : Text :=
  m.before ++ (m.digits ++ (m.blanks ++ (m.unit ++ m.after)))

/-- Where the number begins. -/
def offset (m : Measure) : Nat :=
  Text.byteSize m.before

/-- Where the unit begins. -/
def unitOffset (m : Measure) : Nat :=
  Text.byteSize (m.before ++ (m.digits ++ m.blanks))

/-- The number of seconds. -/
def seconds (m : Measure) : Nat :=
  decimalValue m.digits

/-- The pattern matches where a measure begins. -/
theorem isSome_matchAt (m : Measure) :
    (durationPattern.matchAt (m.digits ++ (m.blanks ++ (m.unit ++ m.after)))).isSome = true :=
  isSome_matchAt_durationPattern_iff.mpr ⟨_, _, _, _, rfl, m.expression⟩

/-- The number of a measure is the number at the end of what stands in front of its unit. -/
theorem numberAtEnd?_eq (m : Measure) :
    numberAtEnd? (m.before ++ (m.digits ++ m.blanks)) = some m.seconds := by
  rw [numberAtEnd?, Text.digitsAtEnd_append m.expression.digits_ne_nil m.expression.digits_isDigit
    m.expression.blanks_isBlank m.whole, if_neg m.expression.digits_ne_nil]
  rfl

/-- The white space behind a number begins with no digit. -/
theorem isDigit_head? (m : Measure) {c : Char}
    (h : (m.blanks ++ (m.unit ++ m.after)).head? = some c) : c.isDigit = false := by
  obtain ⟨d, blanks, hblanks⟩ := List.exists_cons_of_ne_nil m.expression.blanks_ne_nil
  rw [hblanks] at h
  obtain rfl : d = c := by simpa using h
  exact isDigit_of_isDelimiter
    (isDelimiter_of_isBlank (m.expression.blanks_isBlank d (by simp [hblanks])))

/-- One number begins at one place. -/
theorem digits_eq {m other : Measure} (htext : m.text = other.text)
    (hbefore : m.before = other.before) : m.digits = other.digits := by
  rw [text, text, hbefore] at htext
  have hdigits := Text.takeWhile_append_of_stop m.expression.digits_isDigit
    (fun _ => m.isDigit_head?)
  rw [← hdigits, List.append_cancel_left htext,
    Text.takeWhile_append_of_stop other.expression.digits_isDigit (fun _ => other.isDigit_head?)]

end Measure

/-- The digits that a match keeps are followed by white space and a unit. -/
theorem exists_expression_of_matchAt {t : Text} {found : Match}
    (h : durationPattern.matchAt t = some found) :
    ∃ blanks unit after, t = found.text ++ (blanks ++ (unit ++ after)) ∧
      DurationExpression found.text blanks unit := by
  obtain ⟨closed, hlead, hbody, hfollow⟩ :=
    Pattern.exists_closed_of_matchAt (Matcher.leavesSuffix_runOnto Char.isDigit 1 none) h
  obtain rfl := List.mem_singleton.mp hlead
  obtain ⟨digits, hsplit, hdigits, hlength⟩ := Matcher.mem_runs_iff.mp hbody
  obtain rfl := List.append_cancel_right hsplit
  obtain ⟨unread, hblank, hunit⟩ := Matcher.mem_andThen.mp hfollow
  obtain ⟨blanks, rfl, hblanks, hsome⟩ := Matcher.mem_runs_iff.mp hblank
  obtain ⟨unit, rfl, hspelled⟩ := mem_timeUnit_iff.mp hunit
  exact ⟨blanks, unit, found.rest, rfl, List.length_pos_iff.mp hlength, hdigits,
    List.length_pos_iff.mp hsome, hblanks, hspelled⟩

/-- The leftmost match is a measure: a digit in front of it would begin a match of its own. -/
theorem exists_measure_of_matchAt {front back : Text} {found : Match}
    (h : durationPattern.matchAt back = some found)
    (hfirst : ∀ p q, front ++ back = p ++ q → Text.byteSize p < Text.byteSize front →
      durationPattern.matchAt q = none) :
    ∃ m : Measure, m.text = front ++ back ∧ m.before = front ∧ m.digits = found.text := by
  obtain ⟨blanks, unit, after, rfl, hexpr⟩ := exists_expression_of_matchAt h
  have hwhole : ∀ c, front.getLast? = some c → c.isDigit = false := by
    intro c hc
    rw [← Bool.not_eq_true]
    intro hdigit
    obtain ⟨front, rfl⟩ := List.getLast?_eq_some_iff.mp hc
    have hnone := hfirst front (c :: (found.text ++ (blanks ++ (unit ++ after)))) (by simp)
      (by simpa using c.utf8Size_pos)
    have hsome := isSome_matchAt_durationPattern_iff.mpr
      ⟨_, _, _, after, rfl, hexpr.cons hdigit⟩
    rw [List.cons_append, hnone] at hsome
    simp at hsome
  exact ⟨⟨front, found.text, blanks, unit, after, hexpr, hwhole⟩, rfl, rfl, rfl⟩

/-- A search for durations finds the first measure of a text. -/
theorem map_text_find?_durationPattern {t digits : Text} :
    (durationPattern.find? t).map Match.text = some digits ↔
      ∃ m : Measure, IsLeftmost (fun m => m.text = t) Measure.offset m ∧ m.digits = digits :=
  Pattern.map_text_find?_eq_some_iff (fun _ _ _ => exists_measure_of_matchAt)
    (fun m => ⟨_, rfl, m.isSome_matchAt⟩) fun _ _ => Measure.digits_eq

/-- A text that states a duration has a first measure. -/
theorem exists_measure_of_statesDuration {t : Text} (h : statesDuration t = true) :
    ∃ m : Measure, IsLeftmost (fun m => m.text = t) Measure.offset m := by
  obtain ⟨found, hfound⟩ := Option.isSome_iff_exists.mp h
  obtain ⟨m, hfirst, _⟩ := map_text_find?_durationPattern.mp (by rw [hfound, Option.map_some])
  exact ⟨m, hfirst⟩

/-- The duration of a window is the number of its first measure, if it is in range. -/
theorem duration?_eq_some_iff {t : Text} {seconds : Nat} :
    duration? t = some seconds ↔
      seconds ≤ longestDuration ∧
        ∃ m : Measure, IsLeftmost (fun m => m.text = t) Measure.offset m ∧ m.seconds = seconds := by
  have hduration : duration? t = some seconds ↔
      ∃ digits, (durationPattern.find? t).map Match.text = some digits ∧
        decimalValue digits = seconds ∧ seconds ≤ longestDuration := by
    rw [duration?, Option.bind_eq_some_iff]
    simp only [Option.map_eq_some_iff, Option.ite_none_right_eq_some, Option.some.injEq]
    constructor
    · rintro ⟨found, hfound, hle, rfl⟩
      exact ⟨_, ⟨found, hfound, rfl⟩, rfl, hle⟩
    · rintro ⟨_, ⟨found, hfound, rfl⟩, rfl, hle⟩
      exact ⟨found, hfound, hle, rfl⟩
  rw [hduration]
  simp only [map_text_find?_durationPattern]
  constructor
  · rintro ⟨_, ⟨m, hfirst, rfl⟩, hseconds, hle⟩
    exact ⟨hle, m, hfirst, hseconds⟩
  · rintro ⟨hle, m, hfirst, hseconds⟩
    exact ⟨_, ⟨m, hfirst, rfl⟩, hseconds, hle⟩

end Prose

end Storyboard
