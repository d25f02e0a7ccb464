import Storyboard.Text

/-!
# Cutting a text at byte offsets

An offset at which a text can be cut is the size of a leading part. Two cuts of one text are
therefore ordered like their leading parts, and what lies between them is a text of its own. The
facts about slices and about the offset past a character are stated for such leading parts.
-/

namespace Storyboard.Text

/-- The empty text has no bytes. -/
@[simp] theorem byteSize_nil : byteSize [] = 0 := rfl

/-- A text has the bytes of its first character and those of the others. -/
@[simp] theorem byteSize_cons (c : Char) (t : Text) :
    byteSize (c :: t) = c.utf8Size + byteSize t := rfl

/-- Only the empty text has no bytes. -/
theorem byteSize_eq_zero_iff {t : Text} : byteSize t = 0 ↔ t = [] := by
  cases t with
  | nil => simp
  | cons c t =>
    have hc := c.utf8Size_pos
    simp only [byteSize_cons, reduceCtorEq, iff_false]
    omega

/-- A text with characters has bytes. -/
theorem byteSize_pos {t : Text} (h : t ≠ []) : 0 < byteSize t :=
  Nat.pos_of_ne_zero fun h0 => h (byteSize_eq_zero_iff.mp h0)

/-- A text with characters has a last one. -/
theorem exists_append_singleton {t : Text} (h : t ≠ []) : ∃ m d, t = m ++ [d] :=
  ⟨t.dropLast, t.getLast h, (List.dropLast_concat_getLast h).symm⟩

/-- Of two ways to cut one text, the one with fewer bytes in front comes first. -/
theorem exists_between_of_byteSize_le {a b p q : Text} (h : a ++ b = p ++ q)
    (hle : byteSize a ≤ byteSize p) : ∃ m, p = a ++ m ∧ b = m ++ q := by
  rcases List.append_eq_append_iff.mp h with ⟨m, hp, hb⟩ | ⟨m, ha, hq⟩
  · exact ⟨m, hp, hb⟩
  · have hm : m = [] := by
      rw [ha, byteSize_append] at hle
      exact byteSize_eq_zero_iff.mp (by omega)
    subst hm
    exact ⟨[], by simpa using ha.symm, by simpa using hq.symm⟩

/-- A stretch of a text that lies between two cuts is a stretch of what lies between them. -/
theorem exists_within_of_byteSize_le {lead window rest before part after : Text}
    (h : lead ++ (window ++ rest) = before ++ (part ++ after))
    (hfront : byteSize lead ≤ byteSize before)
    (hback : byteSize (before ++ part) ≤ byteSize (lead ++ window)) :
    ∃ front back, before = lead ++ front ∧ window = front ++ (part ++ back) ∧
      after = back ++ rest := by
  obtain ⟨front, rfl, hwindow⟩ := exists_between_of_byteSize_le h hfront
  simp only [byteSize_append] at hback
  have hpart : (front ++ part) ++ after = window ++ rest := by simp [hwindow]
  obtain ⟨back, rfl, rfl⟩ := exists_between_of_byteSize_le hpart (by rw [byteSize_append]; omega)
  exact ⟨front, back, rfl, by simp, rfl⟩

/-- Two ways to cut one text after the same number of bytes are the same. -/
theorem append_inj_of_byteSize_eq {a b p q : Text} (h : a ++ b = p ++ q)
    (heq : byteSize a = byteSize p) : a = p ∧ b = q := by
  obtain ⟨m, rfl, rfl⟩ := exists_between_of_byteSize_le h (Nat.le_of_eq heq)
  have hm : m = [] := by
    rw [byteSize_append] at heq
    exact byteSize_eq_zero_iff.mp (by omega)
  simp [hm]

/-- A character that ends after a stretch of text begins, and begins before the stretch ends, is
one of the characters of the stretch. -/
theorem exists_inside_of_byteSize_lt {p k r m t : Text} {d : Char}
    (h : p ++ (k ++ r) = m ++ d :: t) (hfront : byteSize p < byteSize (m ++ [d]))
    (hback : byteSize m < byteSize (p ++ k)) : ∃ x rest, k = x ++ d :: rest ∧ t = rest ++ r := by
  have hsplit : p ++ (k ++ r) = (m ++ [d]) ++ t := by simpa using h
  obtain ⟨between, hbetween, _⟩ := exists_between_of_byteSize_le hsplit (Nat.le_of_lt hfront)
  rcases List.eq_nil_or_concat between with rfl | ⟨x, e, rfl⟩
  · rw [List.append_nil] at hbetween
    rw [hbetween] at hfront
    omega
  · rw [List.concat_eq_append, ← List.append_assoc] at hbetween
    obtain ⟨rfl, _⟩ := List.append_inj' hbetween rfl
    have hsame : (p ++ x) ++ (d :: t) = (p ++ k) ++ r := by simpa using h.symm
    obtain ⟨inner, hk, hrest⟩ := exists_between_of_byteSize_le hsame (Nat.le_of_lt hback)
    rw [List.append_assoc] at hk
    obtain rfl := List.append_cancel_left hk
    cases inner with
    | nil => simp at hback
    | cons e rest =>
      obtain ⟨rfl, rfl⟩ := List.cons.inj hrest
      exact ⟨x, rest, rfl, rfl⟩

/-- Taking more bytes than a leading part has takes all of it. -/
theorem takeBytes_append_of_le (a b : Text) {n : Nat} (h : byteSize a ≤ n) :
    takeBytes n (a ++ b) = a ++ takeBytes (n - byteSize a) b := by
  induction a generalizing n with
  | nil => simp
  | cons c a ih =>
    have hc := c.utf8Size_pos
    rw [byteSize_cons] at h
    have hn : n ≠ 0 := by omega
    rw [List.cons_append, takeBytes, if_neg hn, ih (by omega), byteSize_cons, Nat.sub_sub]
    rfl

/-- The text between two cuts is the slice between their offsets. -/
theorem slice_append (a m b : Text) :
    slice (a ++ m ++ b) (byteSize a) (byteSize (a ++ m)) = m := by
  by_cases hm : m = []
  · simp [slice, hm]
  · have hpos := byteSize_pos hm
    rw [slice, if_pos (by rw [byteSize_append]; omega), List.append_assoc, dropBytes_append,
      byteSize_append, Nat.add_sub_cancel_left, takeBytes_append]

/-- A slice that begins earlier has the text in between in front. -/
theorem slice_append_left (a g b : Text) {stop : Nat} (h : byteSize (a ++ g) ≤ stop) :
    slice (a ++ g ++ b) (byteSize a) stop =
      g ++ slice (a ++ g ++ b) (byteSize (a ++ g)) stop := by
  have hsize := byteSize_append a g
  have hdrop : dropBytes (byteSize a) (a ++ g ++ b) = g ++ b := by
    rw [List.append_assoc, dropBytes_append]
  have hleft : slice (a ++ g ++ b) (byteSize a) stop = takeBytes (stop - byteSize a) (g ++ b) := by
    rw [slice, hdrop]
    split
    · rfl
    · rw [show stop - byteSize a = 0 by omega, takeBytes_zero]
  have hright : slice (a ++ g ++ b) (byteSize (a ++ g)) stop =
      takeBytes (stop - byteSize (a ++ g)) b := by
    rw [slice, dropBytes_append]
    split
    · rfl
    · rw [show stop - byteSize (a ++ g) = 0 by omega, takeBytes_zero]
  rw [hleft, hright, takeBytes_append_of_le _ _ (by omega), hsize, Nat.sub_sub]

/-- Skipping more bytes than a leading part has goes on in the other part. -/
theorem dropBytes_append_add (a b : Text) (n : Nat) :
    dropBytes (byteSize a + n) (a ++ b) = dropBytes n b := by
  induction a with
  | nil => simp
  | cons c a ih =>
    have hc := c.utf8Size_pos
    have hn : byteSize (c :: a) + n ≠ 0 := by
      rw [byteSize_cons]
      omega
    have hsub : byteSize (c :: a) + n - c.utf8Size = byteSize a + n := by
      rw [byteSize_cons]
      omega
    rw [List.cons_append, dropBytes, if_neg hn, hsub, ih]

/-- A slice behind a leading part is a slice of the other part. -/
theorem slice_append_add (a b : Text) (start stop : Nat) :
    slice (a ++ b) (byteSize a + start) (byteSize a + stop) = slice b start stop := by
  rw [slice, slice, dropBytes_append_add, Nat.add_sub_add_left]
  exact ite_congr (propext (Nat.add_lt_add_iff_left)) (fun _ => rfl) (fun _ => rfl)

/-- Past an offset behind a leading part comes the same offset as in the other part. -/
theorem pastChar_append_add (a b : Text) (n : Nat) :
    pastChar (a ++ b) (byteSize a + n) = byteSize a + pastChar b n := by
  rw [pastChar, pastChar, dropBytes_append_add]
  cases dropBytes n b with
  | nil => simp
  | cons c rest => simp [Nat.add_assoc]

/-- Taking no more bytes than a leading part has takes nothing of the other part. -/
theorem takeBytes_append_of_ge (a b : Text) {n : Nat} (h : n ≤ byteSize a) :
    takeBytes n (a ++ b) = takeBytes n a := by
  induction a generalizing n with
  | nil =>
    obtain rfl : n = 0 := by simpa using h
    simp
  | cons c a ih =>
    rw [byteSize_cons] at h
    rw [List.cons_append, takeBytes, takeBytes, ih (by omega)]

/-- A slice of a leading part is a slice of the whole text. -/
theorem slice_append_of_le (a b : Text) {start stop : Nat} (hstart : isCut start a = true)
    (hstop : stop ≤ byteSize a) : slice (a ++ b) start stop = slice a start stop := by
  obtain ⟨p, q, rfl, rfl⟩ := isCut_iff.mp hstart
  rw [byteSize_append] at hstop
  rw [slice, slice, List.append_assoc, dropBytes_append, dropBytes_append,
    takeBytes_append_of_ge q b (by omega)]

/-- A slice is a part of the text. -/
theorem slice_isInfix (t : Text) (start stop : Nat) : slice t start stop <:+: t := by
  rw [slice]
  split
  · refine ⟨takeBytes start t, dropBytes (stop - start) (dropBytes start t), ?_⟩
    rw [List.append_assoc, takeBytes_append_dropBytes, takeBytes_append_dropBytes]
  · exact List.nil_infix

/-- Past a leading part comes the offset behind the next character. -/
theorem pastChar_append_cons (a : Text) (c : Char) (b : Text) :
    pastChar (a ++ c :: b) (byteSize a) = byteSize a + c.utf8Size := by
  rw [pastChar, dropBytes_append]

/-- Past the whole text comes its end. -/
theorem pastChar_byteSize (t : Text) : pastChar t (byteSize t) = byteSize t := by
  have hdrop : dropBytes (byteSize t) t = [] := by simpa using dropBytes_append t []
  rw [pastChar, hdrop]

end Storyboard.Text
