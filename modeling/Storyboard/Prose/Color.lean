import Storyboard.Pattern
import Storyboard.Text.Letter
import Storyboard.Text.Word

/-!
# Colors

The color of a background is a hexadecimal code or a plain word in front of the keyword
"background". After the Spanish keyword "fondo" only a hexadecimal code is a color.
-/

namespace Storyboard.Prose

/-- A hexadecimal digit in either case. -/
def isHexDigit (c : Char) : Bool :=
  c.isDigit || (decide ('a' ≤ c) && decide (c ≤ 'f')) || (decide ('A' ≤ c) && decide (c ≤ 'F'))

/-- A number sign and three to six hexadecimal digits. -/
def hexCode : Matcher :=
  (Matcher.one (· == '#')).andThen (Matcher.run isHexDigit 3 6)

/-- A color with one space and the word "background" after it. -/
def backgroundPattern : Pattern where
  body := Matcher.oneOf [hexCode, Matcher.runs isWord 1]
  follow := Matcher.spelled foldsTo " background".toList

/-- A hexadecimal code with the word "fondo" and one space before it. -/
def fondoPattern : Pattern where
  lead := Matcher.spelled foldsTo "fondo ".toList
  body := hexCode

/-- The first color in front of the word "background". -/
def backgroundColor? (window : Text) : Option Text :=
  (backgroundPattern.find? window).map Match.text

/-- The first color after the word "fondo". -/
def fondoColor? (window : Text) : Option Text :=
  (fondoPattern.find? window).map Match.text

end Storyboard.Prose
