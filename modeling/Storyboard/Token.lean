import Storyboard.Keyword

/-!
# Tokens

A keyword counts only when it stands alone: at the start of the line or after a delimiter, and
before a delimiter or the end of the line. Scanning a line lists the keywords that stand alone and
then keeps, from left to right, those whose opening delimiter is not already used up.
-/

namespace Storyboard

/-- How the delimiters between keywords are shared. -/
inductive ScanMode
  /-- A delimiter may close one keyword and open the next. -/
  | boundaryPreserving
  /-- The delimiter after a keyword belongs to it. -/
  | legacy
  deriving DecidableEq, Inhabited

/-- A keyword in a line, with byte offsets. -/
structure Token where
  kind : Kind
  /-- The keyword as it is written in the line. -/
  keyword : Text
  /-- Where the delimiter before the keyword begins, or the keyword at the start of the line. -/
  matchOffset : Nat
  /-- Where the keyword begins. -/
  keywordOffset : Nat
  deriving DecidableEq

namespace Token

/-- The offset just past the keyword. -/
def keywordEnd (token : Token) : Nat :=
  token.keywordOffset + Text.byteSize token.keyword

/-- The offset at which a keyword at `offset` is opened, given the character before it. -/
def opening? (before : Option Char) (offset : Nat) : Option Nat :=
  match before with
  | none => some offset
  | some c => if isDelimiter c then some (offset - c.utf8Size) else none

/-- The keyword that stands alone at the start of a text, given where that is. -/
def isolatedAt? (before : Option Char) (offset : Nat) (t : Text) : Option Token :=
  match opening? before offset with
  | none => none
  | some start =>
    (keywordAt? t).map fun (kind, keyword) => ⟨kind, keyword, start, offset⟩

/-- The keywords that stand alone in the rest of a line. -/
def isolatedFrom (before : Option Char) (offset : Nat) : Text → List Token
  | [] => []
  | c :: rest =>
    (isolatedAt? before offset (c :: rest)).toList ++
      isolatedFrom (some c) (offset + c.utf8Size) rest

/-- The keywords that stand alone in a line, from left to right. -/
def isolated (line : Text) : List Token :=
  isolatedFrom none 0 line

/-- Up to where a token uses the line up. -/
def reservedEnd (mode : ScanMode) (line : Text) (token : Token) : Nat :=
  match mode with
  | .boundaryPreserving => token.keywordEnd
  | .legacy => line.pastChar token.keywordEnd

/-- Keeps each token that begins where the line is not used up, in the order given. -/
def keepFree (reserved : Token → Nat) (used : Nat) : List Token → List Token
  | [] => []
  | token :: later =>
    if used ≤ token.matchOffset then token :: keepFree reserved (reserved token) later
    else keepFree reserved used later

end Token

/-- The tokens of a line, from left to right. -/
def scan (mode : ScanMode) (line : Text) : List Token :=
  Token.keepFree (Token.reservedEnd mode line) 0 (Token.isolated line)

end Storyboard
