import Storyboard.Pattern

/-!
# Captions

A caption stands between double quotes. It reaches from the first quote to the last one on the
same line of text, and the quotes inside it are left out.
-/

namespace Storyboard.Prose

/-- Two double quotes and whatever is between them, as far as the line of text goes. -/
def captionPattern : Pattern where
  body :=
    (Matcher.one (· == '"')).andThen
      ((Matcher.runs (· != '\n') 0).andThen (Matcher.one (· == '"')))

/-- The first caption in a window, without any double quotes. -/
def caption? (window : Text) : Option Text :=
  (captionPattern.find? window).map fun found => found.text.filter (· != '"')

end Storyboard.Prose
