import Storyboard.Token

/-!
# Issues and diagnostics

Compiling a script never fails. Where an object has to be left out, or lacks its source or
caption, a diagnostic says so and points at the keyword.
-/

namespace Storyboard

/-- What is missing around a keyword. -/
inductive Issue
  /-- A duration without a number; the object is left out. -/
  | missingDuration
  /-- A background without a color; the object is left out. -/
  | missingColor
  /-- Media with neither an address nor a caption. -/
  | missingSource
  /-- A text or voice-over without a caption. -/
  | missingCaption
  deriving DecidableEq

namespace Issue

/-- Whether the object is left out. -/
def drops : Issue → Bool
  | missingDuration | missingColor => true
  | missingSource | missingCaption => false

/-- The name of an issue. -/
def name : Issue → Text
  | missingDuration => "missing_duration".toList
  | missingColor => "missing_color".toList
  | missingSource => "missing_source".toList
  | missingCaption => "missing_caption".toList

/-- What is said about a keyword with this issue. -/
def remark : Issue → Text
  | missingDuration => " has no number of seconds before it; beat duration dropped".toList
  | missingColor => " has no color next to it; background dropped".toList
  | missingSource => " has no URL or quoted caption after it".toList
  | missingCaption => " has no quoted caption after it".toList

/-- The message about a keyword, which stands between apostrophes. -/
def message (issue : Issue) (keyword : Text) : Text :=
  '\x27' :: keyword ++ '\x27' :: issue.remark

end Issue

/-- An issue and the keyword that it is about. Lines and columns count from 1, the columns in
characters, and both are kept in 32 bits. -/
structure Diagnostic where
  issue : Issue
  line : UInt32
  column : UInt32
  keyword : Text
  message : Text
  deriving DecidableEq

namespace Diagnostic

/-- The diagnostic of an issue with a token of a line. -/
def ofToken (issue : Issue) (number : Nat) (line : Text) (token : Token) : Diagnostic where
  issue := issue
  line := UInt32.ofNat number
  column := UInt32.ofNat ((line.takeBytes token.keywordOffset).length + 1)
  keyword := token.keyword
  message := issue.message token.keyword

/-- The diagnostic of an issue with a token, if the line can be cut where its keyword begins. -/
def ofToken? (issue : Issue) (number : Nat) (line : Text) (token : Token) : Option Diagnostic :=
  if line.isCut token.keywordOffset then some (ofToken issue number line token) else none

end Diagnostic

end Storyboard
