import Storyboard.Prose.Color
import Storyboard.Proofs.Leftmost

/-!
# Colors beside a word

A color is mentioned in front of the word "background", or as a hexadecimal code behind the word
"fondo". The color that a search finds is that of the first mention, and it is whole: no word
character in front of a plain word belongs to it, nor a number sign that would make it a code, and
a code ends with its sixth digit or where no further digit comes.
-/

namespace Storyboard

namespace Matcher

/-- A word behind one space. -/
theorem mem_spelled_space_cons_iff {word t r : Text} :
    r ∈ spelled foldsTo (' ' :: word) t ↔
      ∃ u, t = ' ' :: (u ++ r) ∧ u.map foldCase = word.map foldCase := by
  rw [mem_spelled_foldsTo_iff]
  constructor
  · rintro ⟨u, rfl, hfold⟩
    cases u with
    | nil => simp at hfold
    | cons c u =>
      obtain ⟨hc, hword⟩ := List.cons.inj hfold
      obtain rfl : c = ' ' := foldCase_eq_space_iff.mp hc
      exact ⟨u, rfl, hword⟩
  · rintro ⟨u, rfl, hfold⟩
    exact ⟨' ' :: u, rfl, by rw [List.map_cons, List.map_cons, hfold]⟩

/-- A word with one space behind it. -/
theorem mem_spelled_append_space_iff {word t r : Text} :
    r ∈ spelled foldsTo (word ++ [' ']) t ↔
      ∃ u, t = u ++ ' ' :: r ∧ u.map foldCase = word.map foldCase := by
  rw [mem_spelled_foldsTo_iff]
  constructor
  · rintro ⟨u, rfl, hfold⟩
    rw [List.map_append] at hfold
    obtain ⟨v, space, rfl, hv, hspace⟩ := List.map_eq_append_iff.mp hfold
    obtain ⟨c, rfl, hc⟩ := List.map_eq_singleton_iff.mp hspace
    obtain rfl : c = ' ' := foldCase_eq_space_iff.mp hc
    exact ⟨v, by simp, hv⟩
  · rintro ⟨u, rfl, hfold⟩
    exact ⟨u ++ [' '], by simp, by simp [hfold]⟩

/-- A word is spelled in one way only. -/
theorem spelled_eq_of_mem {same : Char → Char → Bool} {word t r : Text}
    (h : r ∈ spelled same word t) : spelled same word t = [r] := by
  induction word generalizing t with
  | nil => simpa [spelled, eq_comm] using h
  | cons expected word ih =>
    cases t with
    | nil => simp [spelled] at h
    | cons c rest =>
      rw [spelled] at h ⊢
      split at h
      next hc => rw [if_pos hc, ih h]
      next => simp at h

end Matcher

namespace Prose

/-- The digits of a hexadecimal color code. -/
structure IsHexRun (digits : Text) : Prop where
  digits_isHexDigit : ∀ c ∈ digits, isHexDigit c = true
  three_le : 3 ≤ digits.length
  le_six : digits.length ≤ 6

/-- What can be read as a color. -/
inductive IsColor : Text → Prop
  | code {digits : Text} (hrun : IsHexRun digits) : IsColor ('#' :: digits)
  | word {run : Text} (hne : run ≠ []) (hrun : ∀ c ∈ run, isWord c = true) : IsColor run

/-- A whole color behind the text in front of it. A number sign in front of a plain word does not
belong to it only if the word is no code. -/
inductive IsWholeColor (before : Text) : Text → Prop
  | code {digits : Text} (hrun : IsHexRun digits) : IsWholeColor before ('#' :: digits)
  | word {run : Text} (hne : run ≠ []) (hrun : ∀ c ∈ run, isWord c = true)
      (hwhole : ∀ c, before.getLast? = some c → isWord c = false)
      (hcode : before.getLast? = some '#' → ¬IsHexRun run) : IsWholeColor before run

/-- A color in front of the word "background", at its place in a text. -/
structure ColorMention where
  before : Text
  color : Text
  word : Text
  after : Text
  whole : IsWholeColor before color
  spelled : word.map foldCase = "background".toList.map foldCase

/-- A color code behind the word "fondo", at its place in a text. -/
structure FondoMention where
  before : Text
  word : Text
  digits : Text
  after : Text
  spelled : word.map foldCase = "fondo".toList.map foldCase
  code : IsHexRun digits
  whole : digits.length = 6 ∨ ∀ c, after.head? = some c → isHexDigit c = false

/-- A whole color is a color. -/
theorem IsWholeColor.isColor {before color : Text} (h : IsWholeColor before color) :
    IsColor color := by
  cases h with
  | code hrun => exact .code hrun
  | word hne hrun => exact .word hne hrun

/-- Whether a color is whole depends on the character in front of it alone. -/
theorem IsWholeColor.of_getLast? {before other color : Text} (h : IsWholeColor before color)
    (hlast : ∀ c, other.getLast? = some c → before.getLast? = some c) :
    IsWholeColor other color := by
  cases h with
  | code hrun => exact .code hrun
  | word hne hrun hwhole hcode =>
    exact .word hne hrun (fun c hc => hwhole c (hlast c hc)) fun hc => hcode (hlast '#' hc)

/-- Hexadecimal digits are word characters. -/
theorem isWord_of_isHexDigit {c : Char} (h : isHexDigit c = true) : isWord c = true := by
  refine isWord_of_isAlphanum ?_
  unfold Char.isAlphanum Char.isAlpha Char.isUpper Char.isLower
  simp only [isHexDigit, Bool.or_eq_true, Bool.and_eq_true, decide_eq_true_eq, Char.le_def,
    ge_iff_le] at h ⊢
  rcases h with (h | ⟨h, h'⟩) | ⟨h, h'⟩
  · exact Or.inr h
  · exact Or.inl (Or.inr ⟨h, UInt32.le_trans h' (by decide)⟩)
  · exact Or.inl (Or.inl ⟨h, UInt32.le_trans h' (by decide)⟩)

/-- A character of a word separates no keywords. -/
theorem isDelimiter_of_isWord {c : Char} (h : isWord c = true) : isDelimiter c = false := by
  rw [← Bool.not_eq_true]
  intro hd
  simp [isWord_of_isDelimiter hd] at h

/-- A hexadecimal digit separates no keywords. -/
theorem isDelimiter_of_isHexDigit {c : Char} (h : isHexDigit c = true) : isDelimiter c = false :=
  isDelimiter_of_isWord (isWord_of_isHexDigit h)

/-- No delimiter is part of a color. -/
theorem IsColor.isDelimiter_eq_false {color : Text} (h : IsColor color) :
    ∀ c ∈ color, isDelimiter c = false := by
  intro c hc
  cases h with
  | code hrun =>
    rcases List.mem_cons.mp hc with rfl | hc
    · decide
    · exact isDelimiter_of_isHexDigit (hrun.digits_isHexDigit c hc)
  | word _ hrun => exact isDelimiter_of_isWord (hrun c hc)

/-- A color has at least one character. -/
theorem IsColor.ne_nil {color : Text} (h : IsColor color) : color ≠ [] := by
  cases h with
  | code => exact List.cons_ne_nil _ _
  | word hne => exact hne

/-- A color code is read off the front of a text. -/
theorem mem_hexCode_iff {t r : Text} :
    r ∈ hexCode t ↔ ∃ digits, t = '#' :: (digits ++ r) ∧ IsHexRun digits := by
  rw [hexCode, Matcher.mem_andThen]
  constructor
  · rintro ⟨s, hs, hr⟩
    obtain ⟨c, rfl, hc⟩ := Matcher.mem_one_iff.mp hs
    obtain rfl : c = '#' := beq_iff_eq.mp hc
    obtain ⟨digits, rfl, hdigits, hthree, hsix⟩ := Matcher.mem_run_iff.mp hr
    exact ⟨digits, rfl, hdigits, hthree, hsix⟩
  · rintro ⟨digits, rfl, hrun⟩
    exact ⟨digits ++ r, Matcher.mem_one_iff.mpr ⟨'#', rfl, by decide⟩, Matcher.mem_run_iff.mpr
      ⟨digits, rfl, hrun.digits_isHexDigit, hrun.three_le, hrun.le_six⟩⟩

/-- A color is read off the front of a text. -/
theorem mem_color_iff {t r : Text} :
    r ∈ backgroundPattern.body t ↔ ∃ color, t = color ++ r ∧ IsColor color := by
  simp only [backgroundPattern, Matcher.mem_oneOf, List.mem_cons, List.not_mem_nil, or_false,
    exists_eq_or_imp, exists_eq_left, mem_hexCode_iff, Matcher.mem_runs_iff]
  constructor
  · rintro (⟨digits, rfl, hrun⟩ | ⟨run, rfl, hrun, hlength⟩)
    · exact ⟨_, rfl, .code hrun⟩
    · exact ⟨run, rfl, .word (List.length_pos_iff.mp hlength) hrun⟩
  · rintro ⟨color, rfl, hcolor⟩
    cases hcolor with
    | code hrun => exact Or.inl ⟨_, rfl, hrun⟩
    | word hne hrun => exact Or.inr ⟨_, rfl, hrun, List.length_pos_iff.mpr hne⟩

/-- What is left behind a color is the end of the text. -/
theorem leavesSuffix_color : backgroundPattern.body.LeavesSuffix := by
  intro t r hr
  obtain ⟨color, rfl, _⟩ := mem_color_iff.mp hr
  exact List.suffix_append _ _

/-- The pattern matches at the start of a text exactly if the text begins with a color and the word
behind it. -/
theorem isSome_matchAt_backgroundPattern_iff {t : Text} :
    (backgroundPattern.matchAt t).isSome = true ↔
      ∃ color word after, t = color ++ (' ' :: (word ++ after)) ∧ IsColor color ∧
        word.map foldCase = "background".toList.map foldCase := by
  rw [Pattern.isSome_matchAt_iff]
  constructor
  · rintro ⟨opened, hlead, closed, hbody, hfollow⟩
    obtain rfl := List.mem_singleton.mp hlead
    obtain ⟨color, rfl, hcolor⟩ := mem_color_iff.mp hbody
    obtain ⟨after, hafter⟩ := List.exists_mem_of_ne_nil _ hfollow
    obtain ⟨word, rfl, hword⟩ := Matcher.mem_spelled_space_cons_iff.mp hafter
    exact ⟨color, word, after, rfl, hcolor, hword⟩
  · rintro ⟨color, word, after, rfl, hcolor, hword⟩
    refine ⟨_, List.mem_singleton_self _, _, mem_color_iff.mpr ⟨color, rfl, hcolor⟩, ?_⟩
    exact List.ne_nil_of_mem (Matcher.mem_spelled_space_cons_iff.mpr ⟨word, rfl, hword⟩)

namespace ColorMention

/-- The text that holds the mention. -/
def text (m : ColorMention) : Text :=
  m.before ++ (m.color ++ (' ' :: (m.word ++ m.after)))

/-- Where the color begins. -/
def offset (m : ColorMention) : Nat :=
  Text.byteSize m.before

/-- Where the word begins. -/
def wordOffset (m : ColorMention) : Nat :=
  Text.byteSize (m.before ++ (m.color ++ [' ']))

/-- The color of a mention is matched where it stands. -/
theorem isSome_matchAt (m : ColorMention) :
    (backgroundPattern.matchAt (m.color ++ (' ' :: (m.word ++ m.after)))).isSome = true :=
  isSome_matchAt_backgroundPattern_iff.mpr ⟨_, _, _, rfl, m.whole.isColor, m.spelled⟩

/-- One color begins at one place: it ends at the first space. -/
theorem color_eq {m other : ColorMention} (htext : m.text = other.text)
    (hbefore : m.before = other.before) : m.color = other.color := by
  have hread (m : ColorMention) :
      (m.color ++ (' ' :: (m.word ++ m.after))).takeWhile (fun c => !isDelimiter c) = m.color := by
    refine Text.takeWhile_append_of_stop (fun c hc => ?_) fun c hc => ?_
    · simp [m.whole.isColor.isDelimiter_eq_false c hc]
    · obtain rfl : ' ' = c := by simpa using hc
      decide
  rw [text, text, hbefore] at htext
  rw [← hread m, List.append_cancel_left htext, hread other]

end ColorMention

/-- The leftmost match is a mention: a character in front of it that belonged to the color would
begin a match of its own. -/
theorem exists_colorMention_of_matchAt {front back : Text} {found : Match}
    (h : backgroundPattern.matchAt back = some found)
    (hfirst : ∀ p q, front ++ back = p ++ q → Text.byteSize p < Text.byteSize front →
      backgroundPattern.matchAt q = none) :
    ∃ m : ColorMention, m.text = front ++ back ∧ m.before = front ∧ m.color = found.text := by
  obtain ⟨closed, hlead, hbody, hfollow⟩ := Pattern.exists_closed_of_matchAt leavesSuffix_color h
  obtain rfl := List.mem_singleton.mp hlead
  obtain ⟨color, hsplit, hcolor⟩ := mem_color_iff.mp hbody
  obtain rfl := List.append_cancel_right hsplit
  obtain ⟨word, rfl, hword⟩ := Matcher.mem_spelled_space_cons_iff.mp hfollow
  have hearlier : ∀ c, front.getLast? = some c → ¬IsColor (c :: found.text) := by
    intro c hc hlonger
    obtain ⟨front, rfl⟩ := List.getLast?_eq_some_iff.mp hc
    have hnone := hfirst front (c :: (found.text ++ ' ' :: (word ++ found.rest))) (by simp)
      (by simpa using c.utf8Size_pos)
    have hsome := isSome_matchAt_backgroundPattern_iff.mpr ⟨_, _, found.rest, rfl, hlonger, hword⟩
    rw [List.cons_append, hnone] at hsome
    simp at hsome
  have hwhole : IsWholeColor front found.text := by
    generalize found.text = color at hcolor hearlier
    cases hcolor with
    | code hrun => exact .code hrun
    | word hne hrun =>
      refine .word hne hrun (fun c hc => ?_) fun hc hcode => hearlier '#' hc (.code hcode)
      rw [← Bool.not_eq_true]
      intro hword
      exact hearlier c hc (.word (List.cons_ne_nil _ _) (by simpa [hword] using hrun))
  exact ⟨⟨front, found.text, word, found.rest, hwhole, hword⟩, rfl, rfl, rfl⟩

/-- The color in front of the word "background" is that of the first mention. -/
theorem backgroundColor?_eq_some_iff {t color : Text} :
    backgroundColor? t = some color ↔
      ∃ m : ColorMention, IsLeftmost (fun m => m.text = t) ColorMention.offset m ∧
        m.color = color :=
  Pattern.map_text_find?_eq_some_iff (fun _ _ _ => exists_colorMention_of_matchAt)
    (fun m => ⟨_, rfl, m.isSome_matchAt⟩) fun _ _ => ColorMention.color_eq

/-- The digits of a code that is read off the front of a text go on to the sixth one or to where no
further digit comes. -/
theorem IsHexRun.exists_whole {digits : Text} (h : IsHexRun digits) (rest : Text) :
    ∃ whole after, digits ++ rest = whole ++ after ∧ IsHexRun whole ∧
      (whole.length = 6 ∨ ∀ c, after.head? = some c → isHexDigit c = false) := by
  induction rest generalizing digits with
  | nil => exact ⟨digits, [], rfl, h, Or.inr (by simp)⟩
  | cons c rest ih =>
    by_cases hsix : digits.length = 6
    · exact ⟨digits, c :: rest, rfl, h, Or.inl hsix⟩
    · cases hc : isHexDigit c with
      | false => exact ⟨digits, c :: rest, rfl, h, Or.inr (by simpa using hc)⟩
      | true =>
        have hlonger : IsHexRun (digits ++ [c]) := by
          refine ⟨fun d hd => ?_, ?_, ?_⟩
          · rcases List.mem_append.mp hd with hd | hd
            · exact h.digits_isHexDigit d hd
            · rw [List.mem_singleton.mp hd, hc]
          · simpa using Nat.le_succ_of_le h.three_le
          · have hle := h.le_six
            simp only [List.length_append, List.length_singleton]
            omega
        obtain ⟨whole, after, hsplit, hrest⟩ := ih hlonger
        exact ⟨whole, after, by rw [← hsplit]; simp, hrest⟩

namespace FondoMention

/-- The text that holds the mention. -/
def text (m : FondoMention) : Text :=
  m.before ++ (m.word ++ (' ' :: '#' :: (m.digits ++ m.after)))

/-- Where the word begins. -/
def wordOffset (m : FondoMention) : Nat :=
  Text.byteSize m.before

/-- The color with its number sign. -/
def color (m : FondoMention) : Text :=
  '#' :: m.digits

/-- Where a mention begins, the pattern matches its word and all of its code. -/
theorem matchAt_eq (m : FondoMention) :
    fondoPattern.matchAt (m.word ++ (' ' :: '#' :: (m.digits ++ m.after))) =
      some ⟨m.color, m.after⟩ := by
  have hlead : fondoPattern.lead (m.word ++ (' ' :: (m.color ++ m.after))) = [m.color ++ m.after] :=
    Matcher.spelled_eq_of_mem (Matcher.mem_spelled_append_space_iff.mpr ⟨m.word, rfl, m.spelled⟩)
  have hbody : hexCode ('#' :: (m.digits ++ m.after)) =
      Matcher.run isHexDigit 3 6 (m.digits ++ m.after) := by
    simp [hexCode, Matcher.andThen, Matcher.one]
  have hrun : (Matcher.run isHexDigit 3 6 (m.digits ++ m.after)).head? = some m.after :=
    Matcher.head?_runOnto m.code.digits_isHexDigit m.code.three_le
      (fun n hn => Option.some.inj hn ▸ m.code.le_six) (m.whole.imp_left fun hsix => by rw [hsix])
  exact Pattern.matchAt_eq_some hlead ((congrArg List.head? hbody).trans hrun) rfl

/-- The word of a mention is matched where it stands. -/
theorem isSome_matchAt (m : FondoMention) :
    (fondoPattern.matchAt (m.word ++ (' ' :: '#' :: (m.digits ++ m.after)))).isSome = true := by
  rw [m.matchAt_eq]
  rfl

/-- One code stands at one place. -/
theorem color_eq {m other : FondoMention} (htext : m.text = other.text)
    (hbefore : m.before = other.before) : m.color = other.color := by
  rw [text, text, hbefore] at htext
  have hmatch := m.matchAt_eq
  rw [List.append_cancel_left htext, other.matchAt_eq, Option.some.injEq, Match.mk.injEq] at hmatch
  exact hmatch.1.symm

end FondoMention

/-- Where the pattern matches, a mention begins. -/
theorem exists_fondoMention_of_isSome_matchAt (front : Text) {back : Text}
    (h : (fondoPattern.matchAt back).isSome = true) :
    ∃ m : FondoMention, m.text = front ++ back ∧ m.before = front := by
  obtain ⟨opened, hlead, closed, hbody, _⟩ := Pattern.isSome_matchAt_iff.mp h
  obtain ⟨word, rfl, hword⟩ : ∃ u, back = u ++ ' ' :: opened ∧
      u.map foldCase = "fondo".toList.map foldCase :=
    Matcher.mem_spelled_append_space_iff.mp hlead
  obtain ⟨digits, rfl, hrun⟩ := mem_hexCode_iff.mp hbody
  obtain ⟨whole, after, hsplit, hwhole, hends⟩ := hrun.exists_whole closed
  exact ⟨⟨front, word, whole, after, hword, hwhole, hends⟩, by rw [FondoMention.text, hsplit], rfl⟩

/-- A match is a mention, with its code as far as it goes. -/
theorem exists_fondoMention_of_matchAt {front back : Text} {found : Match}
    (h : fondoPattern.matchAt back = some found) :
    ∃ m : FondoMention, m.text = front ++ back ∧ m.before = front ∧ m.color = found.text := by
  obtain ⟨m, htext, rfl⟩ := exists_fondoMention_of_isSome_matchAt front (by rw [h]; rfl)
  obtain rfl := List.append_cancel_left htext
  rw [m.matchAt_eq] at h
  obtain rfl := Option.some.inj h
  exact ⟨m, rfl, rfl, rfl⟩

/-- The color behind the word "fondo" is that of the first mention. -/
theorem fondoColor?_eq_some_iff {t color : Text} :
    fondoColor? t = some color ↔
      ∃ m : FondoMention, IsLeftmost (fun m => m.text = t) FondoMention.wordOffset m ∧
        m.color = color :=
  Pattern.map_text_find?_eq_some_iff (fun _ _ _ h _ => exists_fondoMention_of_matchAt h)
    (fun m => ⟨_, rfl, m.isSome_matchAt⟩) fun _ _ => FondoMention.color_eq

end Prose

end Storyboard
