import Storyboard.Json.Lexeme

/-!
# Strings and numbers that are read

A string is read into characters: the numeric escapes of a surrogate pair make one character, and
a half of a pair is refused. A number is read as a double and refused if it is too large for one.
-/

namespace Storyboard.Json

/-- Whether a 16-bit unit opens a surrogate pair. -/
def isLeading (u : Nat) : Bool := decide (0xD800 ≤ u) && decide (u ≤ 0xDBFF)

/-- Whether a 16-bit unit closes a surrogate pair. -/
def isTrailing (u : Nat) : Bool := decide (0xDC00 ≤ u) && decide (u ≤ 0xDFFF)

/-- The character that a surrogate pair encodes. -/
def pairedChar (leading trailing : Nat) : Char :=
  Char.ofNat (0x10000 + (leading - 0xD800) * 0x400 + (trailing - 0xDC00))

/-- The text of a string with the given pieces and ending. -/
def decode : List Piece → Except Fault Unit → Except Fault Text
  | [], ending => ending.map fun _ => []
  | .plain c :: later, ending => (decode later ending).map (c :: ·)
  | .unit u :: .unit v :: later, ending =>
    if isLeading u then
      if isTrailing v then (decode later ending).map (pairedChar u v :: ·) else .error .malformed
    else if isTrailing u then .error .malformed
    else (decode (.unit v :: later) ending).map (Char.ofNat u :: ·)
  | .unit u :: later, ending =>
    if isLeading u then
      match later, ending with
      | [], .error fault => .error fault
      | _, _ => .error .malformed
    else if isTrailing u then .error .malformed
    else (decode later ending).map (Char.ofNat u :: ·)

/-- The largest significand: digits that do not fit into it only count as places. -/
def largestSignificand : Nat := 18446744073709551615

/-- The largest exponent that is read. -/
def largestExponent : Nat := 2147483647

/-- Appends digits to a significand while they fit; the result and the digits left over. -/
def absorb (significand : Nat) : Text → Nat × Text
  | [] => (significand, [])
  | c :: rest =>
    let longer := 10 * significand + (c.toNat - '0'.toNat)
    if longer ≤ largestSignificand then absorb longer rest else (significand, c :: rest)

namespace Numeral

/-- The significand of a number, and the exponent of ten that belongs to it. -/
def significand (numeral : Numeral) : Nat × Int :=
  let (whole, places) := absorb 0 numeral.whole
  let (digits, unread) := absorb whole numeral.fraction
  (digits, (places.length : Int) - (numeral.fraction.length - unread.length : Nat))

/-- The number after the exponent mark. -/
def writtenExponent (numeral : Numeral) : Nat :=
  numeral.exponent.foldl (fun n c => 10 * n + (c.toNat - '0'.toNat)) 0

/-- Whether a number is too large for a double. -/
def isTooLarge (numeral : Numeral) : Bool :=
  let (significand, places) := numeral.significand
  let written := numeral.writtenExponent
  let exponent := if numeral.negativeExponent then places - written else places + written
  if significand = 0 then false
  else if largestExponent < written then !numeral.negativeExponent
  else if 308 < exponent then true
  else if exponent < 0 then false
  else (Float.ofNat significand * Float.ofScientific 1 false exponent.toNat).isInf

end Numeral

/-- Why a lexeme is refused where a value of another kind is expected. -/
def refusal : Lexeme → Fault
  | .string pieces ending =>
    match decode pieces ending with
    | .ok _ => .unsuitable
    | .error fault => fault
  | .number (.ok numeral) => if numeral.isTooLarge then .malformed else .unsuitable
  | .number (.error fault) => fault
  | .word (.ok _) => .unsuitable
  | .word (.error fault) => fault
  | .openArray | .openObject => .unsuitable
  | .closeArray | .closeObject | .comma | .colon | .stray => .malformed

end Storyboard.Json
