import Storyboard.Window
import Storyboard.Proofs.Locations

/-!
# Cutting a line at its tokens

A line can be cut wherever a token begins, at its keyword and behind it, and one character further
on. Slices between such offsets fit together again. A token that does not begin the line is opened
by the delimiter between its two offsets, and the character behind a keyword, if there is one, is a
delimiter too.
-/

namespace Storyboard

namespace Text

variable {t : Text} {start middle stop n : Nat}

/-- A text can be cut at its start. -/
theorem isCut_zero (t : Text) : t.isCut 0 = true :=
  isCut_iff.mpr ⟨[], t, rfl, rfl⟩

/-- A text can be cut at its end. -/
theorem isCut_byteSize (t : Text) : t.isCut t.byteSize = true :=
  isCut_iff.mpr ⟨t, [], by simp, rfl⟩

/-- A text can be cut nowhere behind its end. -/
theorem le_byteSize_of_isCut (h : t.isCut n = true) : n ≤ t.byteSize := by
  obtain ⟨a, b, rfl, rfl⟩ := isCut_iff.mp h
  rw [byteSize_append]
  exact Nat.le_add_right _ _

/-- A text that can be cut at an offset can be cut one character further on. -/
theorem isCut_pastChar (h : t.isCut n = true) :
    t.isCut (t.pastChar n) = true ∧ n ≤ t.pastChar n := by
  obtain ⟨a, b, rfl, rfl⟩ := isCut_iff.mp h
  cases b with
  | nil =>
    rw [List.append_nil, pastChar_byteSize]
    exact ⟨isCut_byteSize a, Nat.le_refl _⟩
  | cons c b =>
    rw [pastChar_append_cons]
    exact ⟨isCut_iff.mpr ⟨a ++ [c], b, by simp, by simp⟩, Nat.le_add_right _ _⟩

/-- Two cuts in order fall into a text at the ends of a middle part. -/
theorem exists_append_of_isCut (hstart : t.isCut start = true) (hstop : t.isCut stop = true)
    (h : start ≤ stop) :
    ∃ a m b, t = a ++ m ++ b ∧ start = byteSize a ∧ stop = byteSize (a ++ m) := by
  obtain ⟨a, b, rfl, rfl⟩ := isCut_iff.mp hstart
  obtain ⟨p, q, hsplit, rfl⟩ := isCut_iff.mp hstop
  obtain ⟨m, rfl, rfl⟩ := exists_between_of_byteSize_le hsplit h
  exact ⟨a, m, q, by simp, rfl, rfl⟩

/-- Two slices that meet at a cut make one. -/
theorem slice_append_slice (hstart : t.isCut start = true) (hmiddle : t.isCut middle = true)
    (hstop : t.isCut stop = true) (h : start ≤ middle) (h' : middle ≤ stop) :
    t.slice start middle ++ t.slice middle stop = t.slice start stop := by
  obtain ⟨a, m, b, rfl, rfl, rfl⟩ := exists_append_of_isCut hstart hmiddle h
  obtain ⟨p, n, c, hsplit, hp, rfl⟩ := exists_append_of_isCut hmiddle hstop h'
  rw [List.append_assoc p] at hsplit
  obtain ⟨rfl, rfl⟩ := append_inj_of_byteSize_eq hsplit hp
  have hwhole := slice_append a (m ++ n) c
  have hright := slice_append (a ++ m) n c
  simp only [← List.append_assoc] at hwhole hright ⊢
  rw [hwhole, hright, List.append_assoc _ n c, slice_append]

/-- A slice has as many bytes as there are between its ends. -/
theorem byteSize_slice (hstart : t.isCut start = true) (hstop : t.isCut stop = true)
    (h : start ≤ stop) : byteSize (t.slice start stop) = stop - start := by
  obtain ⟨a, m, b, rfl, rfl, rfl⟩ := exists_append_of_isCut hstart hstop h
  rw [slice_append, byteSize_append, Nat.add_sub_cancel_left]

/-- Nothing lies between an offset and itself. -/
theorem slice_self (t : Text) (n : Nat) : t.slice n n = [] := by
  rw [slice, if_neg (Nat.lt_irrefl n)]

/-- A slice from the start of a text is what is taken from it. -/
theorem slice_zero (t : Text) (stop : Nat) : t.slice 0 stop = t.takeBytes stop := by
  rw [slice]
  split
  next => rw [dropBytes_zero, Nat.sub_zero]
  next h =>
    obtain rfl : stop = 0 := by omega
    rw [takeBytes_zero]

/-- A slice to the end of a text is what is left of it. -/
theorem slice_byteSize (h : t.isCut start = true) :
    t.slice start t.byteSize = t.dropBytes start := by
  obtain ⟨a, b, rfl, rfl⟩ := isCut_iff.mp h
  have hslice := slice_append a b []
  rw [List.append_nil] at hslice
  rw [hslice, dropBytes_append]

end Text

namespace Token

/-- A line can be cut at the three offsets of a token. -/
structure CutsIn (line : Text) (token : Token) : Prop where
  matchOffset : line.isCut token.matchOffset = true
  keywordOffset : line.isCut token.keywordOffset = true
  keywordEnd : line.isCut token.keywordEnd = true

namespace StandsIn

variable {line : Text} {token a b : Token}

/-- A line can be cut at the offsets of a token that stands in it. -/
theorem cutsIn (h : StandsIn line token) : CutsIn line token := by
  obtain ⟨before, after, rfl, h⟩ := h
  refine ⟨?_, ?_, ?_⟩
  · rcases h.opened with ⟨_, hzero⟩ | ⟨m, d, rfl, _, hmatch⟩
    · rw [hzero]
      exact Text.isCut_zero _
    · exact Text.isCut_iff.mpr ⟨m, d :: (token.keyword ++ after), by simp, hmatch⟩
  · exact Text.isCut_iff.mpr ⟨before, token.keyword ++ after, rfl, h.keywordOffset_eq⟩
  · exact Text.isCut_iff.mpr ⟨before ++ token.keyword, after, by simp, h.keywordEnd_eq⟩

/-- The match of a token does not begin behind its keyword. -/
theorem matchOffset_le_keywordOffset (h : StandsIn line token) :
    token.matchOffset ≤ token.keywordOffset := by
  obtain ⟨_, _, _, h⟩ := h
  exact h.matchOffset_le_keywordOffset

/-- A keyword begins in front of its end. -/
theorem keywordOffset_lt_keywordEnd (h : StandsIn line token) :
    token.keywordOffset < token.keywordEnd := by
  obtain ⟨_, _, _, h⟩ := h
  exact h.keywordOffset_lt_keywordEnd

/-- The keyword is the stretch of the line between its offsets. -/
theorem slice_keyword (h : StandsIn line token) :
    line.slice token.keywordOffset token.keywordEnd = token.keyword := by
  obtain ⟨before, after, rfl, h⟩ := h
  rw [h.keywordOffset_eq, h.keywordEnd_eq, ← List.append_assoc]
  exact Text.slice_append before token.keyword after

/-- A token that does not begin the line is opened by the delimiter in front of its keyword. -/
theorem exists_opener (h : StandsIn line token) (hpos : 0 < token.keywordOffset) :
    line.pastChar token.matchOffset = token.keywordOffset ∧
      ∃ d, isDelimiter d = true ∧ line.slice token.matchOffset token.keywordOffset = [d] := by
  obtain ⟨before, after, rfl, h⟩ := h
  rw [h.keywordOffset_eq] at hpos ⊢
  rcases h.opened with ⟨rfl, _⟩ | ⟨m, d, rfl, hd, hmatch⟩
  · simp at hpos
  · have hline : m ++ [d] ++ (token.keyword ++ after) = m ++ d :: (token.keyword ++ after) := by
      simp
    refine ⟨?_, d, hd, ?_⟩
    · rw [hmatch, hline, Text.pastChar_append_cons]
      simp
    · rw [hmatch, Text.slice_append]

/-- A keyword ends with the line or is closed by a delimiter. -/
theorem exists_closing (h : StandsIn line token) :
    ∃ closing, line.slice token.keywordEnd (line.pastChar token.keywordEnd) = closing ∧
      (closing = [] ∧ token.keywordEnd = line.byteSize ∨
        ∃ d, closing = [d] ∧ isDelimiter d = true) := by
  obtain ⟨before, after, rfl, h⟩ := h
  have hends := h.spells.2
  rw [h.keywordEnd_eq, ← List.append_assoc]
  cases after with
  | nil =>
    rw [List.append_nil, Text.pastChar_byteSize]
    exact ⟨[], Text.slice_self _ _, Or.inl ⟨rfl, rfl⟩⟩
  | cons d after =>
    have hslice := Text.slice_append (before ++ token.keyword) [d] after
    rw [Text.byteSize_append (before ++ token.keyword) [d]] at hslice
    rw [Text.pastChar_append_cons]
    exact ⟨[d], by simpa using hslice, Or.inr ⟨d, rfl, hends⟩⟩

/-- The character that closes a keyword comes before every later keyword. -/
theorem pastChar_keywordEnd_le (ha : StandsIn line a) (hb : StandsIn line b)
    (h : a.keywordOffset < b.keywordOffset) :
    line.pastChar a.keywordEnd ≤ b.keywordOffset := by
  obtain ⟨front, gap, d, rest, rfl, _, hend, _, hoffset⟩ := ha.exists_gap hb h
  rw [hend, hoffset]
  cases gap with
  | nil =>
    rw [List.nil_append, Text.pastChar_append_cons]
    simp
  | cons c gap =>
    rw [List.cons_append, Text.pastChar_append_cons]
    simp only [Text.byteSize_append, Text.byteSize_cons]
    omega

end StandsIn

end Token

end Storyboard
