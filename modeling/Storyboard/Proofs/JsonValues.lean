import Storyboard.Json.Scalar
import Storyboard.Json.Skip

/-!
# The values of JSON

What a value may look like, with white space, escapes and nesting of any depth, and where it ends:
passing over a value leaves exactly what follows it. Only a number needs to know what follows, for
a digit, a point or an exponent mark would be part of it.
-/

namespace Storyboard.Json

/-- White space only. -/
def IsSpace (t : Text) : Prop :=
  ∀ c ∈ t, isSpace c = true

/-- At least one digit, and nothing else. -/
def IsDigits (t : Text) : Prop :=
  t ≠ [] ∧ ∀ c ∈ t, c.isDigit = true

/-- The whole part of a number: zero, or digits that do not begin with zero. -/
inductive IsWhole : Text → Prop
  | zero : IsWhole ['0']
  | digits {t : Text} (h : IsDigits t) (hzero : t.head? ≠ some '0') : IsWhole t

/-- The digits of a fraction, which may be missing, and how it is written. -/
inductive IsFraction : Text → Text → Prop
  | missing : IsFraction [] []
  | digits {t : Text} (h : IsDigits t) : IsFraction t ('.' :: t)

/-- Whether an exponent is negative, its digits, and how it is written. It may be missing. -/
inductive IsExponent : Bool → Text → Text → Prop
  | missing : IsExponent false [] []
  | unsigned {mark : Char} {t : Text} (hmark : mark = 'e' ∨ mark = 'E') (h : IsDigits t) :
      IsExponent false t (mark :: t)
  | plus {mark : Char} {t : Text} (hmark : mark = 'e' ∨ mark = 'E') (h : IsDigits t) :
      IsExponent false t (mark :: '+' :: t)
  | minus {mark : Char} {t : Text} (hmark : mark = 'e' ∨ mark = 'E') (h : IsDigits t) :
      IsExponent true t (mark :: '-' :: t)

/-- How a number without a sign is written. -/
inductive Numeral.Spells (numeral : Numeral) : Text → Prop
  | parts {fraction exponent : Text} (hwhole : IsWhole numeral.whole)
      (hfraction : IsFraction numeral.fraction fraction)
      (hexponent : IsExponent numeral.negativeExponent numeral.exponent exponent) :
      numeral.Spells (numeral.whole ++ (fraction ++ exponent))

/-- A character of a string as it is written: itself, a short escape, or a numeric one. -/
inductive Written
  | plain (c : Char) (hquote : c ≠ '"') (hescape : c ≠ '\\') (hcontrol : 0x20 ≤ c.toNat)
  | short (c d : Char) (h : shortEscape? c = some d)
  | numeric (a b c d : Char) (w x y z : Nat) (ha : hexValue? a = some w)
      (hb : hexValue? b = some x) (hc : hexValue? c = some y) (hd : hexValue? d = some z)

namespace Written

/-- How a character is written. -/
def text : Written → Text
  | plain c _ _ _ => [c]
  | short c _ _ => ['\\', c]
  | numeric a b c d .. => ['\\', 'u', a, b, c, d]

/-- What is read where a character is written. -/
def piece : Written → Piece
  | plain c _ _ _ => .plain c
  | short _ d _ => .plain d
  | numeric _ _ _ _ w x y z .. => .unit (((w * 16 + x) * 16 + y) * 16 + z)

end Written

/-- A string of written characters, between its quotes. -/
def literal (content : List Written) : Text :=
  '"' :: (content.flatMap Written.text ++ ['"'])

/-- The text that a string stands for. There is none where half of a surrogate pair is written. -/
def literalText? (content : List Written) : Option Text :=
  (decode (content.map Written.piece) (.ok ())).toOption

/-- A text written in characters that stand for themselves. -/
def plainly (t : Text) (h : ∀ c ∈ t, c ≠ '"' ∧ c ≠ '\\' ∧ 0x20 ≤ c.toNat) : List Written :=
  t.attach.map fun c => .plain c.1 (h c.1 c.2).1 (h c.1 c.2).2.1 (h c.1 c.2).2.2

/-- The bare words. -/
def wordText : Option Bool → Text
  | none => "null".toList
  | some true => "true".toList
  | some false => "false".toList

/-- What the grammar of JSON describes. -/
inductive Part
  | value
  /-- A value with white space around it. -/
  | element
  /-- The elements of an array, of which there is at least one. -/
  | elements
  | member
  /-- The members of an object, of which there is at least one. -/
  | members

/-- The texts that are parts of JSON. -/
inductive Derives : Part → Text → Prop
  | word (value : Option Bool) : Derives .value (wordText value)
  | number {numeral : Numeral} {t : Text} (h : numeral.Spells t) : Derives .value t
  | negative {numeral : Numeral} {t : Text} (h : numeral.Spells t) : Derives .value ('-' :: t)
  | string (content : List Written) : Derives .value (literal content)
  | emptyArray {space : Text} (hspace : IsSpace space) : Derives .value ('[' :: (space ++ [']']))
  | array {t : Text} (h : Derives .elements t) : Derives .value ('[' :: (t ++ [']']))
  | emptyObject {space : Text} (hspace : IsSpace space) : Derives .value ('{' :: (space ++ ['}']))
  | object {t : Text} (h : Derives .members t) : Derives .value ('{' :: (t ++ ['}']))
  | element {before t after : Text} (hbefore : IsSpace before) (h : Derives .value t)
      (hafter : IsSpace after) : Derives .element (before ++ (t ++ after))
  | lastElement {t : Text} (h : Derives .element t) : Derives .elements t
  | elements {t later : Text} (h : Derives .element t) (hlater : Derives .elements later) :
      Derives .elements (t ++ ',' :: later)
  | member {before after t : Text} (content : List Written) (hbefore : IsSpace before)
      (hafter : IsSpace after) (h : Derives .element t) :
      Derives .member (before ++ (literal content ++ (after ++ ':' :: t)))
  | lastMember {t : Text} (h : Derives .member t) : Derives .members t
  | members {t later : Text} (h : Derives .member t) (hlater : Derives .members later) :
      Derives .members (t ++ ',' :: later)

/-- White space and white space make white space. -/
theorem IsSpace.append {first second : Text} (h : IsSpace first) (hsecond : IsSpace second) :
    IsSpace (first ++ second) := by
  intro c hc
  rcases List.mem_append.mp hc with hfirst | hlast
  · exact h c hfirst
  · exact hsecond c hlast

/-- One digit makes digits. -/
theorem isDigits_singleton {c : Char} (h : c.isDigit = true) : IsDigits [c] :=
  ⟨List.cons_ne_nil c [], List.forall_mem_singleton.mpr h⟩

/-- Whether all characters of a text stand for themselves can be computed. -/
theorem forall_plain_of_all {t : Text}
    (h : (t.all fun c => c != '"' && c != '\\' && decide (0x20 ≤ c.toNat)) = true) :
    ∀ c ∈ t, c ≠ '"' ∧ c ≠ '\\' ∧ 0x20 ≤ c.toNat := by
  simpa [and_assoc] using h

/-- Characters that stand for themselves are decoded as they are. -/
theorem decode_map_plain (t : Text) : decode (t.map Piece.plain) (.ok ()) = .ok t := by
  induction t with
  | nil => rfl
  | cons c later ih =>
    rw [List.map_cons, decode, ih]
    rfl

/-- A text written in characters that stand for themselves is read as it is. -/
theorem literalText?_plainly (t : Text) (h : ∀ c ∈ t, c ≠ '"' ∧ c ≠ '\\' ∧ 0x20 ≤ c.toNat) :
    literalText? (plainly t h) = some t := by
  have hpieces : (plainly t h).map Written.piece = t.map Piece.plain := by
    rw [plainly, List.map_map]
    exact List.attach_map_val
  rw [literalText?, hpieces, decode_map_plain]
  rfl

/-- What follows does not go on with a number. -/
def Stops (rest : Text) : Prop :=
  ∀ c ∈ rest.head?, c.isDigit = false ∧ c ≠ '.' ∧ c ≠ 'e' ∧ c ≠ 'E'

/-- Nothing goes on with a number at the end of a text. -/
theorem stops_nil : Stops [] := by
  simp [Stops]

/-- A character that cannot stand in a number does not go on with one. -/
theorem stops_cons {c : Char} {rest : Text} (h : c.isDigit = false) (hpoint : c ≠ '.')
    (hsmall : c ≠ 'e') (hlarge : c ≠ 'E') : Stops (c :: rest) := by
  simp [Stops, h, hpoint, hsmall, hlarge]

/-- White space does not go on with a number. -/
theorem Stops.append {space rest : Text} (hspace : IsSpace space) (h : Stops rest) :
    Stops (space ++ rest) := by
  cases space with
  | nil => exact h
  | cons c later =>
    have hc := hspace c List.mem_cons_self
    simp only [isSpace, Bool.or_eq_true, beq_iff_eq] at hc
    rcases hc with ((rfl | rfl) | rfl) | rfl <;>
      exact stops_cons rfl (by decide) (by decide) (by decide)

/-! ## Lexemes -/

/-- A character that is no white space begins a lexeme. -/
theorem lexemes_cons {c : Char} (hc : isSpace c = false) (rest : Text) :
    lexemes (c :: rest) = (readLexeme c rest).1 :: lexemes (readLexeme c rest).2 := by
  rw [lexemes, if_neg (by simp [hc])]

/-- White space has no lexemes. -/
theorem lexemes_space {space : Text} (h : IsSpace space) (rest : Text) :
    lexemes (space ++ rest) = lexemes rest := by
  induction space with
  | nil => rfl
  | cons c later ih =>
    rw [List.cons_append, lexemes, if_pos (h c List.mem_cons_self)]
    exact ih fun d hd => h d (List.mem_cons_of_mem c hd)

/-- The bracket in front of an array is a lexeme. -/
theorem lexemes_openArray (rest : Text) : lexemes ('[' :: rest) = .openArray :: lexemes rest :=
  lexemes_cons rfl rest

/-- The bracket behind an array is a lexeme. -/
theorem lexemes_closeArray (rest : Text) : lexemes (']' :: rest) = .closeArray :: lexemes rest :=
  lexemes_cons rfl rest

/-- The brace in front of an object is a lexeme. -/
theorem lexemes_openObject (rest : Text) : lexemes ('{' :: rest) = .openObject :: lexemes rest :=
  lexemes_cons rfl rest

/-- The brace behind an object is a lexeme. -/
theorem lexemes_closeObject (rest : Text) : lexemes ('}' :: rest) = .closeObject :: lexemes rest :=
  lexemes_cons rfl rest

/-- A comma is a lexeme. -/
theorem lexemes_comma (rest : Text) : lexemes (',' :: rest) = .comma :: lexemes rest :=
  lexemes_cons rfl rest

/-- A colon is a lexeme. -/
theorem lexemes_colon (rest : Text) : lexemes (':' :: rest) = .colon :: lexemes rest :=
  lexemes_cons rfl rest

/-- A word is read up to its end. -/
theorem readWord_append (value : Option Bool) (word rest : Text) :
    readWord value word (word ++ rest) = .ok (value, rest) := by
  induction word with
  | nil => cases rest <;> rfl
  | cons c later ih => rw [List.cons_append, readWord, if_pos rfl, ih]

/-- A word is read whatever follows it. -/
theorem lexemes_word (value : Option Bool) (rest : Text) :
    lexemes (wordText value ++ rest) = .word (.ok value) :: lexemes rest := by
  have hread : ∀ (c : Char) (later : Text), isSpace c = false →
      readLexeme c (later ++ rest) =
        (.word (verdict (readWord value later (later ++ rest))).1,
          (verdict (readWord value later (later ++ rest))).2) →
      lexemes (c :: later ++ rest) = .word (.ok value) :: lexemes rest := by
    intro c later hspace hlexeme
    rw [List.cons_append, lexemes_cons hspace, hlexeme, readWord_append]
    rfl
  match value with
  | none => exact hread 'n' "ull".toList rfl rfl
  | some true => exact hread 't' "rue".toList rfl rfl
  | some false => exact hread 'f' "alse".toList rfl rfl

/-- Four hexadecimal digits are read as a unit. -/
theorem unitOfDigits_eq {a b c d : Char} {w x y z : Nat} (ha : hexValue? a = some w)
    (hb : hexValue? b = some x) (hc : hexValue? c = some y) (hd : hexValue? d = some z) :
    unitOfDigits [a, b, c, d] = .ok (((w * 16 + x) * 16 + y) * 16 + z) := by
  have hsize : ¬Text.byteSize [a, b, c, d] < 4 := by
    have ha := Char.utf8Size_pos a
    have hb := Char.utf8Size_pos b
    have hc := Char.utf8Size_pos c
    have hd := Char.utf8Size_pos d
    simp only [Text.byteSize]
    omega
  rw [unitOfDigits, if_neg hsize]
  simp [ha, hb, hc, hd]

/-- A plain character of a string stands for itself. -/
theorem readString_plain {c : Char} (hquote : c ≠ '"') (hescape : c ≠ '\\')
    (hcontrol : 0x20 ≤ c.toNat) (rest : Text) :
    readString (c :: rest) =
      (.plain c :: (readString rest).1, (readString rest).2.1, (readString rest).2.2) := by
  rw [readString, if_neg (Nat.not_lt.mpr hcontrol)]
  · simpa using hquote
  · rintro rfl
    exact absurd rfl hescape
  · rintro _ rfl
    exact absurd rfl hescape
  · rintro _ _ rfl
    exact absurd rfl hescape

/-- A short escape in a string stands for one character. -/
theorem readString_short {c d : Char} (h : shortEscape? c = some d) (rest : Text) :
    readString ('\\' :: c :: rest) =
      (.plain d :: (readString rest).1, (readString rest).2.1, (readString rest).2.2) := by
  have hu : c ≠ 'u' := by
    rintro rfl
    simp [shortEscape?] at h
  rw [readString, h]
  simpa using hu

/-- An escape with four digits in a string stands for one code unit. -/
theorem readString_numeric {a b c d : Char} {u : Nat} (h : unitOfDigits [a, b, c, d] = .ok u)
    (rest : Text) :
    readString ('\\' :: 'u' :: a :: b :: c :: d :: rest) =
      (.unit u :: (readString rest).1, (readString rest).2.1, (readString rest).2.2) := by
  have hunit : unitOfDigits ((a :: b :: c :: d :: rest).take 4) = .ok u := h
  rw [readString.eq_def]
  simp only [hunit]

/-- A string is read up to its closing quote. -/
theorem readString_flatMap_text (content : List Written) (rest : Text) :
    readString (content.flatMap Written.text ++ '"' :: rest) =
      (content.map Written.piece, .ok (), rest) := by
  induction content with
  | nil => rfl
  | cons first later ih =>
    rw [List.flatMap_cons, List.append_assoc, List.map_cons]
    cases first with
    | plain c hquote hescape hcontrol =>
      change readString (c :: (later.flatMap Written.text ++ '"' :: rest)) = _
      rw [readString_plain hquote hescape hcontrol, ih]
      rfl
    | short c d h =>
      change readString ('\\' :: c :: (later.flatMap Written.text ++ '"' :: rest)) = _
      rw [readString_short h, ih]
      rfl
    | numeric a b c d w x y z ha hb hc hd =>
      change readString ('\\' :: 'u' :: a :: b :: c :: d ::
        (later.flatMap Written.text ++ '"' :: rest)) = _
      rw [readString_numeric (unitOfDigits_eq ha hb hc hd), ih]
      rfl

/-- A string is one lexeme, up to its closing quote. -/
theorem lexemes_literal (content : List Written) (rest : Text) :
    lexemes (literal content ++ rest) =
      .string (content.map Written.piece) (.ok ()) :: lexemes rest := by
  have hquote : literal content ++ rest = '"' :: (content.flatMap Written.text ++ '"' :: rest) := by
    simp [literal]
  have hlexeme : readLexeme '"' (content.flatMap Written.text ++ '"' :: rest) =
      (.string (content.map Written.piece) (.ok ()), rest) := by
    rw [readLexeme, readString_flatMap_text]
  rw [hquote, lexemes_cons rfl, hlexeme]

/-! ## Numbers -/

/-- Digits begin with a digit and go on with digits. -/
theorem IsDigits.exists_cons {digits : Text} (h : IsDigits digits) :
    ∃ c later, digits = c :: later ∧ c.isDigit = true ∧ ∀ d ∈ later, d.isDigit = true := by
  obtain ⟨hne, hall⟩ := h
  cases digits with
  | nil => exact absurd rfl hne
  | cons c later =>
    exact ⟨c, later, rfl, hall c List.mem_cons_self, fun d hd => hall d (List.mem_cons_of_mem c hd)⟩

/-- Digits are read up to the first character that is none. -/
theorem readDigits_append {digits rest : Text} (h : IsDigits digits)
    (hrest : ∀ c ∈ rest.head?, c.isDigit = false) :
    readDigits (digits ++ rest) = .ok (digits, rest) := by
  have htake := Text.takeWhile_append_of_stop h.2 hrest
  have hdrop := Text.dropWhile_append_of_stop h.2 hrest
  obtain ⟨c, later, rfl, hc, -⟩ := h.exists_cons
  rw [List.cons_append] at htake hdrop ⊢
  rw [readDigits, if_pos hc, htake, hdrop]

/-- The fraction of a number is read up to its end. -/
theorem readFraction_append {digits fraction rest : Text} (h : IsFraction digits fraction)
    (hrest : ∀ c ∈ rest.head?, c.isDigit = false ∧ c ≠ '.') :
    readFraction (fraction ++ rest) = .ok (digits, rest) := by
  cases h with
  | missing =>
    rw [List.nil_append, readFraction]
    rintro later rfl
    exact (hrest '.' rfl).2 rfl
  | digits h => exact readDigits_append h fun c hc => (hrest c hc).1

/-- The exponent of a number is read up to its end. -/
theorem readExponent_append {negative : Bool} {digits exponent rest : Text}
    (h : IsExponent negative digits exponent) (hrest : Stops rest) :
    readExponent (exponent ++ rest) = .ok (negative, digits, rest) := by
  have hdigits : IsDigits digits → readDigits (digits ++ rest) = .ok (digits, rest) := fun h =>
    readDigits_append h fun c hc => (hrest c hc).1
  cases h with
  | missing =>
    rw [List.nil_append, readExponent]
    · rintro later rfl
      exact (hrest 'e' rfl).2.2.1 rfl
    · rintro later rfl
      exact (hrest 'E' rfl).2.2.2 rfl
  | unsigned hmark h =>
    have hread := hdigits h
    obtain ⟨c, later, rfl, hc, -⟩ := h.exists_cons
    rw [List.cons_append] at hread
    have hplus : c ≠ '+' := by
      rintro rfl
      exact absurd hc (by decide)
    have hminus : c ≠ '-' := by
      rintro rfl
      exact absurd hc (by decide)
    rcases hmark with rfl | rfl <;> simp [readExponent, hplus, hminus, hread, Except.map]
  | plus hmark h | minus hmark h =>
    rcases hmark with rfl | rfl <;> simp [readExponent, hdigits h, Except.map]

/-- Neither an exponent nor what stands behind the number begins with a digit or a point. -/
theorem IsExponent.head_append {negative : Bool} {digits exponent rest : Text}
    (h : IsExponent negative digits exponent) (hrest : Stops rest) :
    ∀ c ∈ (exponent ++ rest).head?, c.isDigit = false ∧ c ≠ '.' := by
  cases h with
  | missing => exact fun c hc => ⟨(hrest c hc).1, (hrest c hc).2.1⟩
  | unsigned hmark h | plus hmark h | minus hmark h =>
    rintro c ⟨rfl⟩
    rcases hmark with rfl | rfl <;> decide

/-- Neither a fraction nor what stands behind it begins with a digit. -/
theorem IsFraction.head_append {digits fraction rest : Text} (h : IsFraction digits fraction)
    (hrest : ∀ c ∈ rest.head?, c.isDigit = false) :
    ∀ c ∈ (fraction ++ rest).head?, c.isDigit = false := by
  cases h with
  | missing => exact hrest
  | digits h =>
    rintro c ⟨rfl⟩
    rfl

/-- The whole part of a number begins with a digit and is read up to its end. -/
theorem IsWhole.exists_cons {whole : Text} (h : IsWhole whole) :
    ∃ c later, whole = c :: later ∧ c.isDigit = true ∧
      ∀ rest : Text, (∀ d ∈ rest.head?, d.isDigit = false) →
        readWhole c (later ++ rest) = .ok (whole, rest) := by
  cases h with
  | zero =>
    refine ⟨'0', [], rfl, rfl, fun rest hrest => ?_⟩
    have hnone : rest.head?.any Char.isDigit = false := by
      cases hhead : rest.head? with
      | none => rfl
      | some d => exact hrest d hhead
    rw [List.nil_append, readWhole, if_pos rfl, hnone]
    rfl
  | digits h hzero =>
    obtain ⟨c, later, rfl, hc, hlater⟩ := h.exists_cons
    refine ⟨c, later, rfl, hc, fun rest hrest => ?_⟩
    have hne : c ≠ '0' := by simpa using hzero
    rw [readWhole, if_neg hne, Text.takeWhile_append_of_stop hlater hrest,
      Text.dropWhile_append_of_stop hlater hrest]

/-- A number without a sign is read up to its end. -/
theorem Numeral.Spells.exists_cons {numeral : Numeral} {t : Text} (h : numeral.Spells t) :
    ∃ c later, t = c :: later ∧ c.isDigit = true ∧
      ∀ rest, Stops rest → readNumeral c (later ++ rest) = .ok (numeral, rest) := by
  obtain @⟨fraction, exponent, hwhole, hfraction, hexponent⟩ := h
  obtain ⟨c, later, hcons, hc, hread⟩ := hwhole.exists_cons
  refine ⟨c, later ++ (fraction ++ exponent), by rw [hcons, List.cons_append], hc, ?_⟩
  intro rest hrest
  have hpoint := hexponent.head_append hrest
  have hdigit := hfraction.head_append fun c hc => (hpoint c hc).1
  rw [readNumeral, List.append_assoc, List.append_assoc, hread _ hdigit]
  simp only [bind, Except.bind, readFraction_append hfraction hpoint,
    readExponent_append hexponent hrest]
  rfl

/-- A digit begins a number. -/
theorem readLexeme_digit {c : Char} (hc : c.isDigit = true) (rest : Text) :
    readLexeme c rest =
      (.number (verdict (readNumeral c rest)).1, (verdict (readNumeral c rest)).2) := by
  unfold readLexeme
  split
  case h_12 => rw [if_pos hc]
  all_goals exact absurd hc (by decide)

/-- A digit is no white space. -/
theorem isSpace_of_isDigit {c : Char} (hc : c.isDigit = true) : isSpace c = false := by
  rw [isSpace]
  simp only [Bool.or_eq_false_iff, beq_eq_false_iff_ne]
  refine ⟨⟨⟨?_, ?_⟩, ?_⟩, ?_⟩ <;> rintro rfl <;> exact absurd hc (by decide)

/-- A number is one lexeme. -/
theorem lexemes_number {numeral : Numeral} {t rest : Text} (h : numeral.Spells t)
    (hrest : Stops rest) : lexemes (t ++ rest) = .number (.ok numeral) :: lexemes rest := by
  obtain ⟨c, later, rfl, hc, hread⟩ := h.exists_cons
  rw [List.cons_append, lexemes_cons (isSpace_of_isDigit hc), readLexeme_digit hc, hread rest hrest]
  rfl

/-- The sign of a number is not kept. -/
theorem lexemes_negative {numeral : Numeral} {t rest : Text} (h : numeral.Spells t)
    (hrest : Stops rest) :
    lexemes ('-' :: t ++ rest) = .number (.ok numeral) :: lexemes rest := by
  obtain ⟨c, later, rfl, hc, hread⟩ := h.exists_cons
  have hlexeme : readLexeme '-' (c :: (later ++ rest)) = (.number (.ok numeral), rest) := by
    rw [readLexeme, readNegative, if_pos hc, hread rest hrest]
    rfl
  rw [List.cons_append, List.cons_append, lexemes_cons rfl, hlexeme]

/-! ## Passing over values -/

/-- Where a value can come next: where one is expected, or at the start of an array. -/
inductive AwaitsValue : List Bracket → Expected → Prop
  | value (enclosing) : AwaitsValue enclosing .value
  | entry (outer) : AwaitsValue (.array :: outer) .entry

/-- Where a key can come next: where one is expected, or at the start of an object. -/
inductive AwaitsKey : List Bracket → Expected → Prop
  | key (enclosing) : AwaitsKey enclosing .key
  | entry (outer) : AwaitsKey (.object :: outer) .entry

/-- What is done after a value: the outermost one is the end. -/
def resume (enclosing : List Bracket) (rest : List Lexeme) : Except Fault (List Lexeme) :=
  match enclosing with
  | [] => .ok rest
  | _ => skipFrom enclosing .next rest

/-- After a step that completes a value. -/
theorem skipFrom_of_step_next {enclosing outer : List Bracket} {expected : Expected}
    {lexeme : Lexeme} (h : skipStep enclosing expected lexeme = .ok (outer, .next))
    (rest : List Lexeme) : skipFrom enclosing expected (lexeme :: rest) = resume outer rest := by
  rw [skipFrom, h]
  cases outer <;> rfl

/-- After a step within a value. -/
theorem skipFrom_of_step {enclosing outer : List Bracket} {expected following : Expected}
    {lexeme : Lexeme} (h : skipStep enclosing expected lexeme = .ok (outer, following))
    (hnext : following ≠ .next) (rest : List Lexeme) :
    skipFrom enclosing expected (lexeme :: rest) = skipFrom outer following rest := by
  rw [skipFrom, h]
  cases following with
  | next => exact absurd rfl hnext
  | value | entry | key | colon => cases outer <;> rfl

/-- Where a value is awaited, any lexeme but the end of an array begins one. -/
theorem AwaitsValue.skipStep_eq {enclosing : List Bracket} {expected : Expected} {lexeme : Lexeme}
    (h : AwaitsValue enclosing expected) (hclose : lexeme ≠ .closeArray) :
    skipStep enclosing expected lexeme = beginValue enclosing lexeme := by
  cases h with
  | value => rfl
  | entry => cases lexeme <;> first | rfl | exact absurd rfl hclose

/-- Where a key is awaited, a string is taken for it. -/
theorem AwaitsKey.skipStep_eq {enclosing : List Bracket} {expected : Expected}
    {pieces : List Piece} (h : AwaitsKey enclosing expected) :
    skipStep enclosing expected (.string pieces (.ok ())) = .ok (enclosing, .colon) := by
  cases h <;> rfl

/-- A part of JSON is passed over up to its end. -/
def Part.Skips (t : Text) : Part → Prop
  | value | element => ∀ enclosing expected, AwaitsValue enclosing expected → ∀ rest, Stops rest →
      skipFrom enclosing expected (lexemes (t ++ rest)) = resume enclosing (lexemes rest)
  | elements => ∀ outer expected, AwaitsValue (.array :: outer) expected → ∀ rest,
      skipFrom (.array :: outer) expected (lexemes (t ++ ']' :: rest)) = resume outer (lexemes rest)
  | member => ∀ outer expected, AwaitsKey (.object :: outer) expected → ∀ rest, Stops rest →
      skipFrom (.object :: outer) expected (lexemes (t ++ rest)) =
        resume (.object :: outer) (lexemes rest)
  | members => ∀ outer expected, AwaitsKey (.object :: outer) expected → ∀ rest,
      skipFrom (.object :: outer) expected (lexemes (t ++ '}' :: rest)) =
        resume outer (lexemes rest)

/-- A comma does not go on with a number. -/
theorem stops_comma (rest : Text) : Stops (',' :: rest) :=
  stops_cons rfl (by decide) (by decide) (by decide)

/-- The bracket behind an array does not go on with a number. -/
theorem stops_closeArray (rest : Text) : Stops (']' :: rest) :=
  stops_cons rfl (by decide) (by decide) (by decide)

/-- The brace behind an object does not go on with a number. -/
theorem stops_closeObject (rest : Text) : Stops ('}' :: rest) :=
  stops_cons rfl (by decide) (by decide) (by decide)

/-- Every part of JSON is passed over up to its end. -/
theorem Derives.skips {part : Part} {t : Text} (h : Derives part t) : part.Skips t := by
  -- What is open around a part stays general: an array passes over its elements with itself on top.
  induction h with
  | word value =>
    intro enclosing expected hawaits rest _
    rw [lexemes_word]
    exact skipFrom_of_step_next (hawaits.skipStep_eq (by simp)) _
  | number h =>
    intro enclosing expected hawaits rest hrest
    rw [lexemes_number h hrest]
    exact skipFrom_of_step_next (hawaits.skipStep_eq (by simp)) _
  | negative h =>
    intro enclosing expected hawaits rest hrest
    rw [lexemes_negative h hrest]
    exact skipFrom_of_step_next (hawaits.skipStep_eq (by simp)) _
  | string content =>
    intro enclosing expected hawaits rest _
    rw [lexemes_literal]
    exact skipFrom_of_step_next (hawaits.skipStep_eq (by simp)) _
  | @emptyArray space hspace =>
    intro enclosing expected hawaits rest _
    have hopen : skipStep enclosing expected .openArray = .ok (.array :: enclosing, .entry) :=
      hawaits.skipStep_eq (by simp)
    rw [List.cons_append, List.append_assoc, lexemes_openArray, lexemes_space hspace,
      List.singleton_append, lexemes_closeArray, skipFrom_of_step hopen (by simp)]
    exact skipFrom_of_step_next rfl _
  | @array t _ ih =>
    intro enclosing expected hawaits rest _
    have hopen : skipStep enclosing expected .openArray = .ok (.array :: enclosing, .entry) :=
      hawaits.skipStep_eq (by simp)
    rw [List.cons_append, List.append_assoc, lexemes_openArray, List.singleton_append,
      skipFrom_of_step hopen (by simp)]
    exact ih enclosing .entry (.entry enclosing) rest
  | @emptyObject space hspace =>
    intro enclosing expected hawaits rest _
    have hopen : skipStep enclosing expected .openObject = .ok (.object :: enclosing, .entry) :=
      hawaits.skipStep_eq (by simp)
    rw [List.cons_append, List.append_assoc, lexemes_openObject, lexemes_space hspace,
      List.singleton_append, lexemes_closeObject, skipFrom_of_step hopen (by simp)]
    exact skipFrom_of_step_next rfl _
  | @object t _ ih =>
    intro enclosing expected hawaits rest _
    have hopen : skipStep enclosing expected .openObject = .ok (.object :: enclosing, .entry) :=
      hawaits.skipStep_eq (by simp)
    rw [List.cons_append, List.append_assoc, lexemes_openObject, List.singleton_append,
      skipFrom_of_step hopen (by simp)]
    exact ih enclosing .entry (.entry enclosing) rest
  | @element before t after hbefore _ hafter ih =>
    intro enclosing expected hawaits rest hrest
    rw [List.append_assoc, List.append_assoc, lexemes_space hbefore,
      ih enclosing expected hawaits _ (hrest.append hafter), lexemes_space hafter]
  | @lastElement t _ ih =>
    intro outer expected hawaits rest
    rw [ih _ expected hawaits _ (stops_closeArray rest), lexemes_closeArray]
    exact skipFrom_of_step_next rfl _
  | @elements t later _ _ ih ihlater =>
    intro outer expected hawaits rest
    have hcomma : skipStep (.array :: outer) .next .comma = .ok (.array :: outer, .value) := rfl
    rw [List.append_assoc, List.cons_append, ih _ expected hawaits _ (stops_comma _), lexemes_comma]
    exact (skipFrom_of_step hcomma (by simp) _).trans (ihlater outer .value (.value _) rest)
  | @member before after t content hbefore hafter _ ih =>
    intro outer expected hawaits rest hrest
    rw [List.append_assoc, List.append_assoc, List.append_assoc, lexemes_space hbefore,
      lexemes_literal, lexemes_space hafter, List.cons_append, lexemes_colon,
      skipFrom_of_step hawaits.skipStep_eq (by simp)]
    exact (skipFrom_of_step rfl (by simp) _).trans (ih _ .value (.value _) rest hrest)
  | @lastMember t _ ih =>
    intro outer expected hawaits rest
    rw [ih _ expected hawaits _ (stops_closeObject rest), lexemes_closeObject]
    exact skipFrom_of_step_next rfl _
  | @members t later _ _ ih ihlater =>
    intro outer expected hawaits rest
    have hcomma : skipStep (.object :: outer) .next .comma = .ok (.object :: outer, .key) := rfl
    rw [List.append_assoc, List.cons_append, ih _ expected hawaits _ (stops_comma _), lexemes_comma]
    exact (skipFrom_of_step hcomma (by simp) _).trans (ihlater outer .key (.key _) rest)

/-- Passing over a value, with white space around it, leaves exactly what follows. -/
theorem skipValue_append {t rest : Text} (h : Derives .element t) (hrest : Stops rest) :
    skipValue (lexemes (t ++ rest)) = .ok (lexemes rest) :=
  h.skips [] .value (.value []) rest hrest

end Storyboard.Json
