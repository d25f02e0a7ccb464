import Storyboard.Json.Lexeme

/-!
# Passing over JSON values

A value that nobody asks for is checked and passed over. Its strings may hold halves of surrogate
pairs and its numbers may be of any size.
-/

namespace Storyboard.Json

/-- A bracket that is still open. -/
inductive Bracket
  | array
  | object
  deriving DecidableEq

/-- What has to come next. -/
inductive Expected
  | value
  /-- The first entry, or the closing bracket. -/
  | entry
  /-- A comma, or the closing bracket; after the outermost value, nothing. -/
  | next
  | key
  | colon
  deriving DecidableEq

/-- What has to come after a lexeme that should begin a value. -/
def beginValue (enclosing : List Bracket) : Lexeme → Except Fault (List Bracket × Expected)
  | .string _ ending => ending.map fun _ => (enclosing, .next)
  | .number (.ok _) => .ok (enclosing, .next)
  | .word value => value.map fun _ => (enclosing, .next)
  | .openArray => .ok (.array :: enclosing, .entry)
  | .openObject => .ok (.object :: enclosing, .entry)
  | _ => .error .malformed

/-- What has to come after a lexeme that should be a key. -/
def beginMember (enclosing : List Bracket) : Lexeme → Except Fault (List Bracket × Expected)
  | .string _ ending => ending.map fun _ => (enclosing, .colon)
  | _ => .error .malformed

/-- What has to come after a lexeme within a value. -/
def skipStep (enclosing : List Bracket) (expected : Expected) (lexeme : Lexeme) :
    Except Fault (List Bracket × Expected) :=
  match expected, enclosing, lexeme with
  | .entry, .array :: outer, .closeArray => .ok (outer, .next)
  | .entry, .object :: outer, .closeObject => .ok (outer, .next)
  | .entry, .array :: _, _ => beginValue enclosing lexeme
  | .entry, .object :: _, _ => beginMember enclosing lexeme
  | .next, .array :: outer, .closeArray => .ok (outer, .next)
  | .next, .object :: outer, .closeObject => .ok (outer, .next)
  | .next, .array :: _, .comma => .ok (enclosing, .value)
  | .next, .object :: _, .comma => .ok (enclosing, .key)
  | .value, _, _ => beginValue enclosing lexeme
  | .key, _, _ => beginMember enclosing lexeme
  | .colon, _, .colon => .ok (enclosing, .value)
  | _, _, _ => .error .malformed

/-- Passes over the rest of a value, given the brackets that are open. -/
def skipFrom (enclosing : List Bracket) (expected : Expected) :
    List Lexeme → Except Fault (List Lexeme)
  | [] => .error .unfinished
  | lexeme :: rest =>
    match skipStep enclosing expected lexeme with
    | .error fault => .error fault
    | .ok ([], .next) => .ok rest
    | .ok (enclosing, expected) => skipFrom enclosing expected rest

/-- Passes over one value. -/
def skipValue (lexemes : List Lexeme) : Except Fault (List Lexeme) :=
  skipFrom [] .value lexemes

private theorem length_skipFrom {enclosing : List Bracket} {expected : Expected}
    {lexemes rest : List Lexeme} (h : skipFrom enclosing expected lexemes = .ok rest) :
    rest.length < lexemes.length := by
  induction lexemes generalizing enclosing expected with
  | nil => simp [skipFrom] at h
  | cons lexeme later ih =>
    rw [skipFrom] at h
    split at h
    · simp at h
    · obtain rfl := Except.ok.inj h
      simp
    · exact Nat.lt_succ_of_lt (ih h)

/-- A value has at least one lexeme. -/
theorem length_skipValue {lexemes rest : List Lexeme} (h : skipValue lexemes = .ok rest) :
    rest.length < lexemes.length :=
  length_skipFrom h

end Storyboard.Json
