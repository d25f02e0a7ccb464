import Storyboard.Text

/-!
# The lexemes of JSON

A text is cut into punctuation, strings, numbers and bare words. Whether a string or a number is
well formed depends on its use: in a value that is passed over, a string may hold half of a
surrogate pair and a number may be too large. A lexeme therefore keeps what a reader needs for
either verdict. A lexeme that is not well formed is the last one that counts.
-/

namespace Storyboard.Json

/-- Why a text is refused. -/
inductive Fault
  /-- The text breaks the rules of JSON. -/
  | malformed
  /-- The text ends too early. -/
  | unfinished
  /-- The text is well formed so far, but a value is not of the expected kind. -/
  | unsuitable
  deriving DecidableEq

/-- A piece of a string between its quotes: a character, or the 16-bit unit of a numeric escape. -/
inductive Piece
  | plain (c : Char)
  | unit (u : Nat)
  deriving DecidableEq

/-- A number as it is written. -/
structure Numeral where
  whole : Text
  fraction : Text
  negativeExponent : Bool
  exponent : Text
  deriving DecidableEq

/-- A lexeme. -/
inductive Lexeme
  | openArray
  | closeArray
  | openObject
  | closeObject
  | comma
  | colon
  /-- A string, as its pieces and how it ends. -/
  | string (pieces : List Piece) (ending : Except Fault Unit)
  | number (numeral : Except Fault Numeral)
  /-- One of the words `null`, `true` and `false`. -/
  | word (value : Except Fault (Option Bool))
  /-- A character that begins no lexeme. -/
  | stray

/-- The white space between lexemes. -/
def isSpace (c : Char) : Bool :=
  c == ' ' || c == '\n' || c == '\t' || c == '\r'

/-- The value of a hexadecimal digit in either case. -/
def hexValue? (c : Char) : Option Nat :=
  if c.isDigit then some (c.toNat - '0'.toNat)
  else if 'a' ≤ c ∧ c ≤ 'f' then some (c.toNat - 'a'.toNat + 10)
  else if 'A' ≤ c ∧ c ≤ 'F' then some (c.toNat - 'A'.toNat + 10)
  else none

/-- The unit that four hexadecimal digits encode. -/
def unitOfDigits (digits : Text) : Except Fault Nat :=
  if Text.byteSize digits < 4 then .error .unfinished
  else
    match digits.mapM hexValue? with
    | some [a, b, c, d] => .ok (((a * 16 + b) * 16 + c) * 16 + d)
    | _ => .error .malformed

/-- The character that a short escape stands for. -/
def shortEscape? (c : Char) : Option Char :=
  match c with
  | '"' => some '"'
  | '\\' => some '\\'
  | '/' => some '/'
  | 'b' => some '\x08'
  | 'f' => some '\x0c'
  | 'n' => some '\n'
  | 'r' => some '\r'
  | 't' => some '\t'
  | _ => none

/-- Reads a string after its opening quote: its pieces, how it ends, and what follows. -/
def readString : Text → List Piece × Except Fault Unit × Text
  | [] => ([], .error .unfinished, [])
  | '"' :: rest => ([], .ok (), rest)
  | ['\\'] => ([], .error .unfinished, [])
  | '\\' :: 'u' :: rest =>
    match unitOfDigits (rest.take 4), rest with
    | .ok u, _ :: _ :: _ :: _ :: after =>
      let (pieces, ending, left) := readString after
      (.unit u :: pieces, ending, left)
    | .ok _, _ => ([], .error .unfinished, [])
    | .error fault, _ => ([], .error fault, [])
  | '\\' :: c :: rest =>
    match shortEscape? c with
    | some d =>
      let (pieces, ending, left) := readString rest
      (.plain d :: pieces, ending, left)
    | none => ([], .error .malformed, [])
  | c :: rest =>
    if c.toNat < 0x20 then ([], .error .malformed, [])
    else
      let (pieces, ending, left) := readString rest
      (.plain c :: pieces, ending, left)

/-- Reads the digits that a text begins with; at least one has to be there. -/
def readDigits (t : Text) : Except Fault (Text × Text) :=
  match t with
  | [] => .error .unfinished
  | c :: _ =>
    if c.isDigit then .ok (t.takeWhile Char.isDigit, t.dropWhile Char.isDigit)
    else .error .malformed

/-- Reads the whole part of a number from its first digit on; it has no zeros in front. -/
def readWhole (digit : Char) (rest : Text) : Except Fault (Text × Text) :=
  if digit = '0' then
    if rest.head?.any Char.isDigit then .error .malformed else .ok (['0'], rest)
  else .ok (digit :: rest.takeWhile Char.isDigit, rest.dropWhile Char.isDigit)

/-- Reads the fraction of a number, if there is one. -/
def readFraction : Text → Except Fault (Text × Text)
  | '.' :: rest => readDigits rest
  | t => .ok ([], t)

/-- Reads the exponent of a number, if there is one: whether it is negative, and its digits. -/
def readExponent : Text → Except Fault (Bool × Text × Text)
  | 'e' :: rest | 'E' :: rest =>
    match rest with
    | '+' :: digits => (readDigits digits).map fun (exponent, left) => (false, exponent, left)
    | '-' :: digits => (readDigits digits).map fun (exponent, left) => (true, exponent, left)
    | digits => (readDigits digits).map fun (exponent, left) => (false, exponent, left)
  | t => .ok (false, [], t)

/-- Reads a number without a sign from its first digit on. -/
def readNumeral (digit : Char) (rest : Text) : Except Fault (Numeral × Text) := do
  let (whole, t) ← readWhole digit rest
  let (fraction, t) ← readFraction t
  let (negativeExponent, exponent, t) ← readExponent t
  return (⟨whole, fraction, negativeExponent, exponent⟩, t)

/-- Reads a number after its minus sign. -/
def readNegative : Text → Except Fault (Numeral × Text)
  | [] => .error .unfinished
  | c :: rest => if c.isDigit then readNumeral c rest else .error .malformed

/-- Reads the rest of a bare word; it may end with the text, but must not go on differently. -/
def readWord (value : Option Bool) : Text → Text → Except Fault (Option Bool × Text)
  | [], t => .ok (value, t)
  | _ :: _, [] => .error .unfinished
  | expected :: word, c :: rest =>
    if c = expected then readWord value word rest else .error .malformed

/-- The first component of a reading, and what is left after it. -/
def verdict {α : Type} (reading : Except Fault (α × Text)) : Except Fault α × Text :=
  match reading with
  | .ok (value, left) => (.ok value, left)
  | .error fault => (.error fault, [])

/-- The lexeme that begins with a character, and what is left after it. -/
def readLexeme (c : Char) (rest : Text) : Lexeme × Text :=
  match c with
  | '[' => (.openArray, rest)
  | ']' => (.closeArray, rest)
  | '{' => (.openObject, rest)
  | '}' => (.closeObject, rest)
  | ',' => (.comma, rest)
  | ':' => (.colon, rest)
  | '"' =>
    let (pieces, ending, left) := readString rest
    (.string pieces ending, left)
  | 'n' =>
    let (value, left) := verdict (readWord none "ull".toList rest)
    (.word value, left)
  | 't' =>
    let (value, left) := verdict (readWord (some true) "rue".toList rest)
    (.word value, left)
  | 'f' =>
    let (value, left) := verdict (readWord (some false) "alse".toList rest)
    (.word value, left)
  | '-' =>
    let (numeral, left) := verdict (readNegative rest)
    (.number numeral, left)
  | c =>
    if c.isDigit then
      let (numeral, left) := verdict (readNumeral c rest)
      (.number numeral, left)
    else (.stray, rest)

private theorem length_readString (t : Text) : (readString t).2.2.length ≤ t.length := by
  fun_induction readString t <;> simp_all <;> omega

private theorem length_readDigits {t digits left : Text} (h : readDigits t = .ok (digits, left)) :
    left.length ≤ t.length := by
  unfold readDigits at h
  split at h
  · simp at h
  · split at h
    · obtain ⟨_, rfl⟩ := Prod.mk.inj (Except.ok.inj h)
      exact (List.dropWhile_suffix _).length_le
    · simp at h

private theorem length_readWhole {digit : Char} {rest digits left : Text}
    (h : readWhole digit rest = .ok (digits, left)) : left.length ≤ rest.length := by
  unfold readWhole at h
  split at h
  · split at h
    · simp at h
    · obtain ⟨_, rfl⟩ := Prod.mk.inj (Except.ok.inj h)
      exact Nat.le_refl _
  · obtain ⟨_, rfl⟩ := Prod.mk.inj (Except.ok.inj h)
    exact (List.dropWhile_suffix _).length_le

private theorem length_readFraction {t digits left : Text}
    (h : readFraction t = .ok (digits, left)) : left.length ≤ t.length := by
  unfold readFraction at h
  split at h
  · exact Nat.le_succ_of_le (length_readDigits h)
  · obtain ⟨_, rfl⟩ := Prod.mk.inj (Except.ok.inj h)
    exact Nat.le_refl _

private theorem length_mapped {t : Text} {sign negative : Bool} {digits left : Text}
    (h : (readDigits t).map (fun (exponent, left) => (sign, exponent, left)) =
      .ok (negative, digits, left)) : left.length ≤ t.length := by
  cases hd : readDigits t with
  | error fault => simp [hd, Except.map] at h
  | ok found =>
    obtain ⟨exponent, left'⟩ := found
    simp only [hd, Except.map, Except.ok.injEq, Prod.mk.injEq] at h
    obtain ⟨_, _, rfl⟩ := h
    exact length_readDigits hd

private theorem length_readExponent {t : Text} {negative : Bool} {digits left : Text}
    (h : readExponent t = .ok (negative, digits, left)) : left.length ≤ t.length := by
  unfold readExponent at h
  split at h
  case h_3 =>
    simp only [Except.ok.injEq, Prod.mk.injEq] at h
    obtain ⟨_, _, rfl⟩ := h
    exact Nat.le_refl _
  all_goals
    split at h
    all_goals
      have hlen := length_mapped h
      simp only [List.length_cons] at *
      omega

private theorem length_readNumeral {digit : Char} {rest left : Text} {numeral : Numeral}
    (h : readNumeral digit rest = .ok (numeral, left)) : left.length ≤ rest.length := by
  unfold readNumeral at h
  cases hw : readWhole digit rest with
  | error fault => simp [hw, bind, Except.bind] at h
  | ok w =>
    obtain ⟨whole, t₁⟩ := w
    cases hf : readFraction t₁ with
    | error fault => simp [hw, hf, bind, Except.bind] at h
    | ok f =>
      obtain ⟨fraction, t₂⟩ := f
      cases he : readExponent t₂ with
      | error fault => simp [hw, hf, he, bind, Except.bind] at h
      | ok e =>
        obtain ⟨negative, exponent, t₃⟩ := e
        simp only [hw, hf, he, bind, Except.bind, pure, Except.pure, Except.ok.injEq,
          Prod.mk.injEq] at h
        obtain ⟨_, rfl⟩ := h
        have h₁ := length_readWhole hw
        have h₂ := length_readFraction hf
        have h₃ := length_readExponent he
        omega

private theorem length_readNegative {t left : Text} {numeral : Numeral}
    (h : readNegative t = .ok (numeral, left)) : left.length ≤ t.length := by
  unfold readNegative at h
  split at h
  · simp at h
  · split at h
    · exact Nat.le_succ_of_le (length_readNumeral h)
    · simp at h

private theorem length_readWord {value result : Option Bool} {word t left : Text}
    (h : readWord value word t = .ok (result, left)) : left.length ≤ t.length := by
  induction word generalizing t with
  | nil =>
    simp only [readWord, Except.ok.injEq, Prod.mk.injEq] at h
    obtain ⟨_, rfl⟩ := h
    exact Nat.le_refl _
  | cons expected word ih =>
    cases t with
    | nil => simp [readWord] at h
    | cons c rest =>
      rw [readWord] at h
      split at h
      · exact Nat.le_succ_of_le (ih h)
      · simp at h

private theorem length_verdict {α : Type} {reading : Except Fault (α × Text)} {n : Nat}
    (h : ∀ value left, reading = .ok (value, left) → left.length ≤ n) :
    (verdict reading).2.length ≤ n := by
  cases reading with
  | error fault => simp [verdict]
  | ok found => exact h found.1 found.2 rfl

/-- Reading a lexeme leaves no more than there was. -/
theorem length_readLexeme (c : Char) (rest : Text) :
    (readLexeme c rest).2.length ≤ rest.length := by
  unfold readLexeme
  split
  all_goals try exact Nat.le_refl _
  · exact length_readString rest
  · exact length_verdict fun _ _ h => length_readWord h
  · exact length_verdict fun _ _ h => length_readWord h
  · exact length_verdict fun _ _ h => length_readWord h
  · exact length_verdict fun _ _ h => length_readNegative h
  · split
    · exact length_verdict fun _ _ h => length_readNumeral h
    · exact Nat.le_refl _

/-- The lexemes of a text. -/
def lexemes : Text → List Lexeme
  | [] => []
  | c :: rest =>
    if isSpace c then lexemes rest
    else (readLexeme c rest).1 :: lexemes (readLexeme c rest).2
termination_by t => t.length
decreasing_by
  · simp
  · exact Nat.lt_succ_of_le (length_readLexeme c rest)

end Storyboard.Json
