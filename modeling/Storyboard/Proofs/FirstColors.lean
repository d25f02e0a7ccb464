import Storyboard.Proofs.Colors
import Storyboard.Proofs.Occurrences

/-!
# The color at a word

Which color is found can be told without a search for colors. The word "background" is gone through
from one occurrence to the next, and at each the color is read off the text in front of it: the
word characters there, with a number sign in front of them where that makes a code. After "fondo"
and a number sign up to six of the hexadecimal digits that follow are taken.
-/

namespace Storyboard

namespace Prose

/-- Whether digits are a run of a color code can be computed. -/
instance (digits : Text) : Decidable (IsHexRun digits) :=
  decidable_of_iff (digits.all isHexDigit = true ∧ 3 ≤ digits.length ∧ digits.length ≤ 6)
    ⟨fun h => ⟨List.all_eq_true.mp h.1, h.2.1, h.2.2⟩,
      fun h => ⟨List.all_eq_true.mpr h.digits_isHexDigit, h.three_le, h.le_six⟩⟩

/-- The color at the end of a text: its last word characters, with the number sign in front of them
if they are the digits of a code. -/
def colorBefore? (front : Text) : Option Text :=
  let run := front.rtakeWhile isWord
  if run = [] then none
  else if (front.rdropWhile isWord).getLast? = some '#' ∧ IsHexRun run then some ('#' :: run)
  else some run

/-- The color code at the start of a text, after its number sign: up to six hexadecimal digits, of
which there have to be three. -/
def codeBehind? (back : Text) : Option Text :=
  let digits := back.takeWhile isHexDigit
  if 3 ≤ digits.length then some ('#' :: digits.take 6) else none

/-- A whole color is the color at the end of the text up to it. -/
theorem IsWholeColor.colorBefore?_eq {before color : Text} (h : IsWholeColor before color) :
    colorBefore? (before ++ color) = some color := by
  cases h with
  | @code digits hrun =>
    have hword : ∀ c ∈ digits, isWord c = true :=
      fun c hc => isWord_of_isHexDigit (hrun.digits_isHexDigit c hc)
    have hstop : ∀ c, (before ++ ['#']).getLast? = some c → isWord c = false := by
      intro c hc
      obtain rfl : '#' = c := by simpa using hc
      decide
    have hne : digits ≠ [] := by
      rintro rfl
      exact absurd hrun.three_le (by decide)
    have hread := Text.rtakeWhile_append_of_stop hword hstop
    have hrest := Text.rdropWhile_append_of_stop hword hstop
    rw [List.append_assoc, List.singleton_append] at hread hrest
    rw [colorBefore?, hread, hrest, if_neg hne, if_pos ⟨by simp, hrun⟩]
  | word hne hrun hwhole hcode =>
    rw [colorBefore?, Text.rtakeWhile_append_of_stop hrun hwhole,
      Text.rdropWhile_append_of_stop hrun hwhole, if_neg hne, if_neg fun h => hcode h.1 h.2]

/-- The color at the end of a text is whole. -/
theorem exists_isWholeColor_of_colorBefore? {front color : Text}
    (h : colorBefore? front = some color) :
    ∃ before, front = before ++ color ∧ IsWholeColor before color := by
  have hsplit : front.rdropWhile isWord ++ front.rtakeWhile isWord = front :=
    List.rdropWhile_append_rtakeWhile
  have hword : ∀ c ∈ front.rtakeWhile isWord, isWord c = true := fun _ => List.mem_rtakeWhile_imp
  rw [colorBefore?, Option.ite_none_left_eq_some] at h
  obtain ⟨hne, h⟩ := h
  split at h
  next hcode =>
    obtain rfl := Option.some.inj h
    obtain ⟨before, hbefore⟩ := List.getLast?_eq_some_iff.mp hcode.1
    refine ⟨before, ?_, .code hcode.2⟩
    conv_lhs => rw [← hsplit, hbefore]
    simp
  next hcode =>
    obtain rfl := Option.some.inj h
    refine ⟨_, hsplit.symm, .word hne hword (fun c => Text.eq_false_of_getLast?_rdropWhile) ?_⟩
    exact fun hsign hrun => hcode ⟨hsign, hrun⟩

namespace ColorMention

/-- The space in front of one word does not stand inside the color of another. Of two colors in one
text, the one that begins first ends first. -/
theorem wordOffset_le {m other : ColorMention} (htext : m.text = other.text)
    (hle : m.offset ≤ other.offset) : m.wordOffset ≤ other.wordOffset := by
  refine Nat.le_of_not_lt fun hlt => ?_
  have hsplit : m.before ++ (m.color ++ (' ' :: (m.word ++ m.after))) =
      (other.before ++ other.color) ++ ' ' :: (other.word ++ other.after) := by
    rw [List.append_assoc]
    exact htext
  have hspace := Char.utf8Size_pos ' '
  simp only [offset, wordOffset, Text.byteSize_append, Text.byteSize_cons, Text.byteSize_nil]
    at hle hlt
  obtain ⟨x, inner, hcolor, _⟩ := Text.exists_inside_of_byteSize_lt hsplit
    (by simp only [Text.byteSize_append, Text.byteSize_cons, Text.byteSize_nil]; omega)
    (by simp only [Text.byteSize_append]; omega)
  exact absurd (m.whole.isColor.isDelimiter_eq_false ' ' (by simp [hcolor])) (by decide)

/-- One color ends at one place. -/
theorem before_eq_of_wordOffset_eq {m other : ColorMention} (htext : m.text = other.text)
    (heq : m.wordOffset = other.wordOffset) : m.before = other.before ∧ m.color = other.color := by
  have hsplit : (m.before ++ m.color) ++ (' ' :: (m.word ++ m.after)) =
      (other.before ++ other.color) ++ (' ' :: (other.word ++ other.after)) := by
    simpa [text] using htext
  have hsize :
      Text.byteSize (m.before ++ m.color) = Text.byteSize (other.before ++ other.color) := by
    simp only [wordOffset, Text.byteSize_append] at heq ⊢
    omega
  obtain ⟨hfront, _⟩ := Text.append_inj_of_byteSize_eq hsplit hsize
  have hcolor := m.whole.colorBefore?_eq
  rw [hfront, other.whole.colorBefore?_eq] at hcolor
  obtain hcolor := Option.some.inj hcolor
  rw [hcolor] at hfront
  exact ⟨List.append_cancel_right hfront, hcolor.symm⟩

/-- Of two colors in one text, the one that ends first begins first. -/
theorem offset_le {m other : ColorMention} (htext : m.text = other.text)
    (hle : m.wordOffset ≤ other.wordOffset) : m.offset ≤ other.offset := by
  refine Nat.le_of_not_lt fun hlt => ?_
  have hback := wordOffset_le htext.symm (Nat.le_of_lt hlt)
  obtain ⟨hbefore, _⟩ := before_eq_of_wordOffset_eq htext (Nat.le_antisymm hle hback)
  rw [offset, offset, hbefore] at hlt
  exact Nat.lt_irrefl _ hlt

/-- The first color is the one in front of the first word that has one. -/
theorem isLeftmost_iff {t : Text} {m : ColorMention} :
    IsLeftmost (fun m => m.text = t) offset m ↔ IsLeftmost (fun m => m.text = t) wordOffset m := by
  constructor
  · rintro ⟨htext, hfirst⟩
    exact ⟨htext, fun other hother => wordOffset_le (htext.trans hother.symm) (hfirst other hother)⟩
  · rintro ⟨htext, hfirst⟩
    exact ⟨htext, fun other hother => offset_le (htext.trans hother.symm) (hfirst other hother)⟩

/-- A color stands in front of an occurrence of the word. -/
theorem exists_occurrence (m : ColorMention) :
    ∃ o : Occurrence " background".toList, o.text = m.text ∧ m.wordOffset = 1 + o.offset ∧
      colorBefore? o.before = some m.color := by
  refine ⟨⟨m.before ++ m.color, ' ' :: m.word, m.after, ?_⟩, ?_, ?_, m.whole.colorBefore?_eq⟩
  · rw [List.map_cons, m.spelled]
    rfl
  · simp [Occurrence.text, text]
  · have hspace : ' '.utf8Size = 1 := by decide
    simp only [wordOffset, Occurrence.offset, Text.byteSize_append, Text.byteSize_cons,
      Text.byteSize_nil, hspace]
    omega

/-- An occurrence of the word with a color in front of it is a mention of that color. -/
theorem exists_of_colorBefore? {o : Occurrence " background".toList} {color : Text}
    (h : colorBefore? o.before = some color) :
    ∃ m : ColorMention, m.text = o.text ∧ m.wordOffset = 1 + o.offset ∧ m.color = color := by
  obtain ⟨before, hbefore, hwhole⟩ := exists_isWholeColor_of_colorBefore? h
  have hfold := o.fold_eq
  cases hspelled : o.spelled with
  | nil => simp [hspelled] at hfold
  | cons c word =>
    rw [hspelled] at hfold
    obtain ⟨hc, hword⟩ := List.cons.inj hfold
    obtain rfl : c = ' ' := foldCase_eq_space_iff.mp hc
    refine ⟨⟨before, color, word, o.after, hwhole, hword⟩, ?_, ?_, rfl⟩
    · simp [Occurrence.text, text, hbefore, hspelled]
    · have hspace : ' '.utf8Size = 1 := by decide
      simp only [wordOffset, Occurrence.offset, hbefore, Text.byteSize_append, Text.byteSize_cons,
        Text.byteSize_nil, hspace]
      omega

end ColorMention

/-- A color is written in its text. -/
theorem ColorMention.isInfix_text (m : ColorMention) : m.color <:+: m.text :=
  ⟨m.before, ' ' :: (m.word ++ m.after), List.append_assoc _ _ _⟩

/-- The color in front of the word "background" is read at its first occurrence that has one. -/
theorem backgroundColor?_eq_findSome? (window : Text) :
    backgroundColor? window =
      (occurrences " background".toList window).findSome? fun place => colorBefore? place.1 := by
  refine Option.ext fun color => ?_
  simp only [backgroundColor?_eq_some_iff, ColorMention.isLeftmost_iff]
  refine exists_isLeftmost_iff_occurrences 1 (fun o found htext hfound => ?_) fun m htext => ?_
  · obtain ⟨m, hm, hoffset, hcolor⟩ := ColorMention.exists_of_colorBefore? hfound
    exact ⟨m, hm.trans htext, hoffset, hcolor⟩
  · obtain ⟨o, ho, hoffset, hcolor⟩ := m.exists_occurrence
    exact ⟨o, ho.trans htext, hoffset, hcolor⟩

/-- A row of hexadecimal digits that is whole, or has all six of them, is what is taken. -/
theorem FondoMention.codeBehind?_eq (m : FondoMention) :
    codeBehind? (m.digits ++ m.after) = some m.color := by
  have hread : (m.digits ++ m.after).takeWhile isHexDigit =
      m.digits ++ m.after.takeWhile isHexDigit :=
    List.takeWhile_append_of_pos m.code.digits_isHexDigit
  have hthree := m.code.three_le
  have hsix : (m.digits ++ m.after.takeWhile isHexDigit).take 6 = m.digits := by
    rcases m.whole with hsix | hends
    · rw [← hsix, List.take_left]
    · have hnil : m.after.takeWhile isHexDigit = [] := by
        cases hafter : m.after with
        | nil => rfl
        | cons c after => simp [hends c (by rw [hafter]; rfl)]
      rw [hnil, List.append_nil, List.take_of_length_le m.code.le_six]
  rw [codeBehind?, hread, hsix, if_pos (by rw [List.length_append]; omega), FondoMention.color]

/-- What is taken is a whole row of digits, or has six of them. -/
theorem exists_of_codeBehind? {back color : Text} (h : codeBehind? back = some color) :
    ∃ digits after, back = digits ++ after ∧ IsHexRun digits ∧
      (digits.length = 6 ∨ ∀ c, after.head? = some c → isHexDigit c = false) ∧
      color = '#' :: digits := by
  have hdigits : ∀ c ∈ back.takeWhile isHexDigit, isHexDigit c = true :=
    fun _ => List.mem_takeWhile_imp
  rw [codeBehind?, Option.ite_none_right_eq_some] at h
  obtain ⟨hthree, hcolor⟩ := h
  obtain rfl := Option.some.inj hcolor
  have hsplit : back = (back.takeWhile isHexDigit).take 6 ++
      ((back.takeWhile isHexDigit).drop 6 ++ back.dropWhile isHexDigit) := by
    rw [← List.append_assoc, List.take_append_drop, List.takeWhile_append_dropWhile]
  refine ⟨_, _, hsplit, ⟨fun c hc => hdigits c (List.mem_of_mem_take hc), ?_, ?_⟩, ?_, rfl⟩
  · rw [List.length_take]
    omega
  · rw [List.length_take]
    omega
  · rcases Nat.lt_or_ge (back.takeWhile isHexDigit).length 6 with hlt | hge
    · refine Or.inr fun c hc => ?_
      rw [List.drop_of_length_le (Nat.le_of_lt hlt), List.nil_append] at hc
      exact Text.eq_false_of_head?_dropWhile hc
    · exact Or.inl (by rw [List.length_take]; omega)

/-- A code is written in its text, number sign and all. -/
theorem FondoMention.isInfix_text (m : FondoMention) : m.color <:+: m.text :=
  ⟨m.before ++ (m.word ++ [' ']), m.after, by simp [color, text]⟩

/-- A code stands behind an occurrence of the word with its number sign. -/
theorem FondoMention.exists_occurrence (m : FondoMention) :
    ∃ o : Occurrence "fondo #".toList, o.text = m.text ∧ m.wordOffset = 0 + o.offset ∧
      codeBehind? o.after = some m.color := by
  refine ⟨⟨m.before, m.word ++ [' ', '#'], m.digits ++ m.after, ?_⟩, ?_, ?_, m.codeBehind?_eq⟩
  · rw [List.map_append, m.spelled]
    rfl
  · simp [Occurrence.text, text]
  · exact (Nat.zero_add _).symm

/-- An occurrence of the word with a code behind it is a mention of that code. -/
theorem FondoMention.exists_of_codeBehind? {o : Occurrence "fondo #".toList} {color : Text}
    (h : codeBehind? o.after = some color) :
    ∃ m : FondoMention, m.text = o.text ∧ m.wordOffset = 0 + o.offset ∧ m.color = color := by
  obtain ⟨digits, after, hafter, hrun, hends, rfl⟩ := Prose.exists_of_codeBehind? h
  have hfold : o.spelled.map foldCase = "fondo".toList.map foldCase ++ [' ', '#'] := o.fold_eq
  obtain ⟨word, sign, hspelled, hword, hsign⟩ := List.map_eq_append_iff.mp hfold
  obtain ⟨c, sign, rfl, hc, hsign⟩ := List.map_eq_cons_iff.mp hsign
  obtain ⟨d, sign, rfl, hd, hsign⟩ := List.map_eq_cons_iff.mp hsign
  obtain rfl := List.map_eq_nil_iff.mp hsign
  obtain rfl : c = ' ' := foldCase_eq_space_iff.mp hc
  obtain rfl : d = '#' := foldCase_eq_numberSign_iff.mp hd
  refine ⟨⟨o.before, word, digits, after, hword, hrun, hends⟩, ?_, (Nat.zero_add _).symm, rfl⟩
  simp [Occurrence.text, text, hspelled, hafter]

/-- The code behind the word "fondo" is read at its first occurrence that has one. -/
theorem fondoColor?_eq_findSome? (window : Text) :
    fondoColor? window =
      (occurrences "fondo #".toList window).findSome? fun place => codeBehind? place.2 := by
  refine Option.ext fun color => ?_
  rw [fondoColor?_eq_some_iff]
  refine exists_isLeftmost_iff_occurrences 0 (fun o found htext hfound => ?_) fun m htext => ?_
  · obtain ⟨m, hm, hoffset, hcolor⟩ := FondoMention.exists_of_codeBehind? hfound
    exact ⟨m, hm.trans htext, hoffset, hcolor⟩
  · obtain ⟨o, ho, hoffset, hcolor⟩ := m.exists_occurrence
    exact ⟨o, ho.trans htext, hoffset, hcolor⟩

/-- Colors are read at the first word that has one, as they are written. In front of the word
"background" the color is the whole row of word characters, with its number sign if it is a code.
Behind the word "fondo" it is a code, cut off after the sixth digit. -/
theorem colors_are_read_at_first_word (window : Text) :
    backgroundColor? window =
        (occurrences " background".toList window).findSome? (fun place => colorBefore? place.1) ∧
      fondoColor? window =
        (occurrences "fondo #".toList window).findSome? (fun place => codeBehind? place.2) ∧
      ∀ color, backgroundColor? window = some color ∨ fondoColor? window = some color →
        color <:+: window := by
  refine ⟨backgroundColor?_eq_findSome? window, fondoColor?_eq_findSome? window, ?_⟩
  rintro color (hcolor | hcolor)
  · obtain ⟨m, ⟨rfl, _⟩, rfl⟩ := backgroundColor?_eq_some_iff.mp hcolor
    exact m.isInfix_text
  · obtain ⟨m, ⟨rfl, _⟩, rfl⟩ := fondoColor?_eq_some_iff.mp hcolor
    exact m.isInfix_text

/-- Seven digits are a word in front of "background", and more than a code behind "fondo". -/
example : backgroundColor? "a BacKground, #abCdef0 background".toList = some "a".toList ∧
    backgroundColor? "#abCdef0 background".toList = some "abCdef0".toList ∧
    fondoColor? "Fondo #ab, fondo #abCdef0".toList = some "#abCdef".toList := by
  decide +kernel

end Prose

end Storyboard
