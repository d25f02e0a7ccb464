import Storyboard.Pattern
import Storyboard.Text.Blank
import Storyboard.Text.Letter

/-!
# Durations

A duration expression is a number, white space and a unit of time: seconds, in English, in Spanish
or as a clock. It makes a line a beat, and its number is the length of the beat.
-/

namespace Storyboard.Prose

/-- A unit of time. No boundary is asked for on its right. -/
def timeUnit : Matcher :=
  Matcher.oneOf
    (["⏲".toList, "seconds".toList, "second".toList, "segundos".toList].map
      (Matcher.spelled foldsTo))

/-- Digits, white space and a unit of time. -/
def durationPattern : Pattern where
  body := Matcher.runs Char.isDigit 1
  follow := (Matcher.runs isBlank 1).andThen timeUnit

/-- Whether a text states a duration anywhere. -/
def statesDuration (t : Text) : Bool :=
  durationPattern.occursIn t

/-- The number that a row of decimal digits stands for. -/
def decimalValue (digits : Text) : Nat :=
  digits.foldl (fun n c => 10 * n + (c.toNat - '0'.toNat)) 0

/-- The longest duration in seconds: the largest number of 64 bits. -/
def longestDuration : Nat := 18446744073709551615

/-- The number in the first duration expression of a window, unless it is out of range. -/
def duration? (window : Text) : Option Nat :=
  (durationPattern.find? window).bind fun found =>
    let seconds := decimalValue found.text
    if seconds ≤ longestDuration then some seconds else none

end Storyboard.Prose
