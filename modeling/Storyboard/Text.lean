/-!
# Text and its byte offsets

A text is a list of characters. Positions in it are byte offsets of its UTF-8 form, so this file
measures texts in bytes, cuts them at offsets, and splits them into lines. Cutting is total, and
`Text.isCut` tells which offsets fall between two characters; the forms with a question mark
refuse all others.
-/

namespace Storyboard

/-- A sequence of Unicode characters. -/
abbrev Text := List Char

namespace Text

/-- The number of bytes in the UTF-8 form of a text. -/
def byteSize : Text → Nat
  | [] => 0
  | c :: rest => c.utf8Size + byteSize rest

/-- What is left after the first `n` bytes; a character that is cut in two goes with them. -/
def dropBytes (n : Nat) : Text → Text
  | [] => []
  | c :: rest => if n = 0 then c :: rest else dropBytes (n - c.utf8Size) rest

/-- The characters that begin within the first `n` bytes. -/
def takeBytes (n : Nat) : Text → Text
  | [] => []
  | c :: rest => if n = 0 then [] else c :: takeBytes (n - c.utf8Size) rest

/-- Whether offset `n` lies within the text, between two characters or at one of its ends. -/
def isCut (n : Nat) : Text → Bool
  | [] => n == 0
  | c :: rest => n == 0 || (decide (c.utf8Size ≤ n) && isCut (n - c.utf8Size) rest)

/-- The text between two offsets; empty when they are equal or out of order. -/
def slice (line : Text) (start stop : Nat) : Text :=
  if start < stop then takeBytes (stop - start) (dropBytes start line) else []

/-- The offset one character after `offset`, or the end of the text if there is none. -/
def pastChar (line : Text) (offset : Nat) : Nat :=
  match dropBytes offset line with
  | [] => byteSize line
  | c :: _ => offset + c.utf8Size

/-- The text between two offsets, where they can be cut at; empty when they are equal or out of
order. -/
def slice? (line : Text) (start stop : Nat) : Option Text :=
  if start < stop then
    if line.isCut start && line.isCut stop then some (line.slice start stop) else none
  else some []

/-- The offset one character after one that can be cut at, or the end of the text. -/
def pastChar? (line : Text) (offset : Nat) : Option Nat :=
  if line.isCut offset then some (line.pastChar offset) else none

/-- The pieces between separators, of which there is always at least one. -/
def pieces (separator : Char) : Text → List Text
  | [] => [[]]
  | c :: rest =>
    if c = separator then [] :: pieces separator rest
    else
      match pieces separator rest with
      | [] => [[c]]
      | first :: others => (c :: first) :: others

/-- The pieces between line feeds. -/
def lines (t : Text) : List Text :=
  t.pieces '\n'

/-- Two texts in a row have the bytes of both. -/
@[simp] theorem byteSize_append (a b : Text) : byteSize (a ++ b) = byteSize a + byteSize b := by
  induction a with
  | nil => simp [byteSize]
  | cons c rest ih => simp [byteSize, ih, Nat.add_assoc]

/-- Without bytes to skip, all is left. -/
@[simp] theorem dropBytes_zero (t : Text) : dropBytes 0 t = t := by
  cases t <;> simp [dropBytes]

/-- Without bytes to take, nothing is taken. -/
@[simp] theorem takeBytes_zero (t : Text) : takeBytes 0 t = [] := by
  cases t <;> simp [takeBytes]

/-- Skipping the bytes of a leading part leaves the other part. -/
@[simp] theorem dropBytes_append (a b : Text) : dropBytes (byteSize a) (a ++ b) = b := by
  induction a with
  | nil => simp [byteSize]
  | cons c rest ih =>
    have hc := c.utf8Size_pos
    have h : byteSize (c :: rest) ≠ 0 := by simp only [byteSize]; omega
    rw [List.cons_append, dropBytes, if_neg h]
    simpa only [byteSize, Nat.add_sub_cancel_left] using ih

/-- Taking the bytes of a leading part gives that part. -/
@[simp] theorem takeBytes_append (a b : Text) : takeBytes (byteSize a) (a ++ b) = a := by
  induction a with
  | nil => simp [byteSize]
  | cons c rest ih =>
    have hc := c.utf8Size_pos
    have h : byteSize (c :: rest) ≠ 0 := by simp only [byteSize]; omega
    rw [List.cons_append, takeBytes, if_neg h]
    simpa only [byteSize, Nat.add_sub_cancel_left, List.cons.injEq, true_and] using ih

/-- Cutting a text and joining the two sides gives it back. -/
theorem takeBytes_append_dropBytes (n : Nat) (t : Text) : takeBytes n t ++ dropBytes n t = t := by
  induction t generalizing n with
  | nil => rfl
  | cons c rest ih =>
    by_cases h : n = 0
    · simp [h]
    · simp [takeBytes, dropBytes, h, ih]

/-- The characters of a class at the start of a text end where another one follows. -/
theorem takeWhile_append_of_stop {p : Char → Bool} {a rest : Text} (ha : ∀ c ∈ a, p c = true)
    (hrest : ∀ c, rest.head? = some c → p c = false) : (a ++ rest).takeWhile p = a := by
  rw [List.takeWhile_append_of_pos ha]
  cases rest with
  | nil => simp
  | cons c rest => simp [hrest c rfl]

/-- What follows the characters of a class is left over when they are dropped. -/
theorem dropWhile_append_of_stop {p : Char → Bool} {a rest : Text} (ha : ∀ c ∈ a, p c = true)
    (hrest : ∀ c, rest.head? = some c → p c = false) : (a ++ rest).dropWhile p = rest := by
  rw [List.dropWhile_append_of_pos ha]
  cases rest with
  | nil => rfl
  | cons c rest => simp [hrest c rfl]

/-- A text has at least one piece. -/
theorem exists_pieces_eq_cons (separator : Char) (t : Text) :
    ∃ first others, t.pieces separator = first :: others := by
  cases t with
  | nil => exact ⟨[], [], rfl⟩
  | cons c rest =>
    rw [pieces]
    split
    · exact ⟨_, _, rfl⟩
    · split <;> exact ⟨_, _, rfl⟩

/-- A separator ends the first piece, and any other character goes on with it. -/
theorem pieces_cons {separator c : Char} {rest first : Text} {others : List Text}
    (h : rest.pieces separator = first :: others) :
    pieces separator (c :: rest) =
      if c = separator then [] :: first :: others else (c :: first) :: others := by
  rw [pieces, h]

/-- The pieces of a text are what it is split into. -/
theorem pieces_eq_splitOn (separator : Char) (t : Text) :
    t.pieces separator = t.splitOn separator := by
  induction t with
  | nil => simp [pieces]
  | cons c rest ih =>
    obtain ⟨first, others, hpieces⟩ := exists_pieces_eq_cons separator rest
    have hsplit : List.splitOnP (· == separator) rest = first :: others := by
      rw [← hpieces, ih]
      rfl
    rw [pieces_cons hpieces, List.splitOn_eq_splitOnP, List.splitOnP_cons_eq_if_modifyHead, hsplit]
    simp

/-- The offsets that can be cut at are the sizes of the leading parts. -/
theorem isCut_iff {n : Nat} {t : Text} : isCut n t = true ↔ ∃ a b, t = a ++ b ∧ n = byteSize a := by
  induction t generalizing n with
  | nil =>
    constructor
    · intro h
      exact ⟨[], [], rfl, by simpa [isCut, byteSize] using h⟩
    · rintro ⟨a, b, hab, rfl⟩
      obtain ⟨rfl, rfl⟩ := List.append_eq_nil_iff.mp hab.symm
      rfl
  | cons c rest ih =>
    have hc := c.utf8Size_pos
    constructor
    · intro h
      rw [isCut, Bool.or_eq_true, Bool.and_eq_true] at h
      rcases h with h | ⟨hle, h⟩
      · exact ⟨[], c :: rest, rfl, by simpa [byteSize] using h⟩
      · obtain ⟨a, b, rfl, hn⟩ := ih.mp h
        have hle := of_decide_eq_true hle
        exact ⟨c :: a, b, rfl, by simp only [byteSize]; omega⟩
    · rintro ⟨a, b, hab, rfl⟩
      cases a with
      | nil => simp [isCut, byteSize]
      | cons d a =>
        obtain ⟨rfl, rfl⟩ := List.cons.inj hab
        have h : isCut (byteSize a) (a ++ b) = true := ih.mpr ⟨a, b, rfl, rfl⟩
        simp [isCut, byteSize, h]

end Text

end Storyboard
