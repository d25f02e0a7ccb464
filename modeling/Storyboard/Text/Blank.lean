/-!
# White space and delimiters

The characters with the Unicode property `White_Space`, and the delimiters that separate keywords
from the words around them.
-/

namespace Storyboard

/-- The 25 characters with the Unicode property `White_Space`. -/
def blanks : List Char :=
  ['\x09', '\x0a', '\x0b', '\x0c', '\x0d', '\x20', '\u0085', '\u00a0', '\u1680', '\u2000',
    '\u2001', '\u2002', '\u2003', '\u2004', '\u2005', '\u2006', '\u2007', '\u2008', '\u2009',
    '\u200a', '\u2028', '\u2029', '\u202f', '\u205f', '\u3000']

/-- White space of any script. -/
def isBlank (c : Char) : Bool :=
  blanks.contains c

/-- White space, semicolon, full stop, comma and colon separate keywords. -/
def isDelimiter (c : Char) : Bool :=
  isBlank c || c == ';' || c == '.' || c == ',' || c == ':'

/-- White space separates keywords. -/
theorem isDelimiter_of_isBlank {c : Char} (h : isBlank c = true) : isDelimiter c = true := by
  simp [isDelimiter, h]

end Storyboard
