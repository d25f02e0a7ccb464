import Storyboard.Assembly
import Storyboard.Proofs.Colors
import Storyboard.Proofs.Reach

/-!
# Which color a background gets

A background takes its color from the first "background" in its backward window that a color comes
before, the Spanish one from the first "fondo" in its forward window that a code comes behind. That
word is its own keyword, or no keyword that stands alone and is scanned: the color of another token
is never taken.
-/

namespace Storyboard

namespace Prose

section

variable {line lead body closing opener tail rest : Text} {previous next : Option Token}
  {token : Token}

namespace ColorMention

/-- A color and the space behind it qualify the word. -/
theorem qualifies (m : ColorMention) : Token.Qualifies (m.color ++ [' ']) := by
  refine .of_append m.whole.isColor.ne_nil (List.cons_ne_nil _ _)
    m.whole.isColor.isDelimiter_eq_false fun c hc => ?_
  rw [List.mem_singleton.mp hc]
  decide

/-- The word holds no delimiter. -/
theorem word_isDelimiter (m : ColorMention) : ∀ c ∈ m.word, isDelimiter c = false :=
  isDelimiter_of_map_foldCase_eq m.spelled (by decide)

/-- The word of a mention has at least one character. -/
theorem word_ne_nil (m : ColorMention) : m.word ≠ [] := by
  intro hnil
  have hlength := congrArg List.length m.spelled
  simp [hnil] at hlength

/-- The color of a mention is in reach of a token behind it. -/
def InReach (line : Text) (previous : Option Token) (token : Token) (m : ColorMention) : Prop :=
  Token.ReachesBack line previous token m.before (m.color ++ [' ']) (m.word ++ m.after)

/-- No mention in reach of the token begins earlier. -/
def FirstInReach (line : Text) (previous : Option Token) (token : Token) : ColorMention → Prop :=
  IsLeftmost (InReach line previous token) offset

/-- A mention in reach of a token stands in its backward window. -/
theorem InReach.exists_in_window {m : ColorMention} (hreach : m.InReach line previous token)
    (h : token.DividesBackward line previous lead body closing rest)
    (htoken : token.StandsIn line) :
    ∃ w : ColorMention, w.text = token.backward line previous ∧
      m.offset = Text.byteSize lead + w.offset ∧ w.color = m.color := by
  obtain ⟨before, after, hbefore, hwindow⟩ :=
    Token.ReachesBack.exists_in_window hreach h htoken m.word_isDelimiter
  have hwhole : IsWholeColor before m.color := by
    refine m.whole.of_getLast? fun c hc => ?_
    rw [hbefore, List.getLast?_append, hc, Option.some_or]
  refine ⟨⟨before, m.color, m.word, after, hwhole, m.spelled⟩, ?_, ?_, rfl⟩
  · rw [hwindow, text]
    simp
  · rw [offset, offset, hbefore, Text.byteSize_append]

/-- The color of a mention whose word is the keyword stands right in front of it. -/
theorem InReach.takeBytes_eq {m : ColorMention} (hreach : m.InReach line previous token)
    (hword : m.wordOffset = token.keywordOffset) :
    line.takeBytes token.keywordOffset = m.before ++ (m.color ++ [' ']) := by
  rw [← hword, hreach.line_eq, ← List.append_assoc, wordOffset, Text.takeBytes_append]

/-- A mention in the backward window of a background is in its reach. -/
theorem exists_inReach {w : ColorMention} (hw : w.text = token.backward line previous)
    (h : token.DividesBackward line previous lead body closing rest)
    (hkeyword : ∀ c ∈ token.keyword, isDelimiter c = false) :
    ∃ m : ColorMention, m.InReach line previous token ∧
      m.offset = Text.byteSize lead + w.offset ∧ m.color = w.color := by
  have hwindow : token.backward line previous =
      w.before ++ ((w.color ++ [' ']) ++ (w.word ++ w.after)) := by
    rw [← hw, text]
    simp
  obtain ⟨hreach, hlast⟩ := h.reachesBack hkeyword w.qualifies
    (List.append_ne_nil_of_left_ne_nil w.word_ne_nil _) hwindow
  have hwhole : IsWholeColor (lead ++ w.before) w.color :=
    w.whole.of_getLast? fun c hc => by rwa [hlast] at hc
  refine ⟨⟨lead ++ w.before, w.color, w.word, w.after ++ rest, hwhole, w.spelled⟩,
    by simpa [InReach] using hreach, ?_, rfl⟩
  rw [offset, offset, Text.byteSize_append]

end ColorMention

namespace FondoMention

/-- The color code of a mention is in reach of a token in front of it. -/
def InReach (line : Text) (token : Token) (next : Option Token) (m : FondoMention) : Prop :=
  Token.ReachesOn line token next m.before (m.word ++ (' ' :: m.color)) m.after

/-- No mention in reach of the token begins earlier. -/
def FirstInReach (line : Text) (token : Token) (next : Option Token) : FondoMention → Prop :=
  IsLeftmost (InReach line token next) wordOffset

/-- The word holds no delimiter. -/
theorem word_isDelimiter (m : FondoMention) : ∀ c ∈ m.word, isDelimiter c = false :=
  isDelimiter_of_map_foldCase_eq m.spelled (by decide)

/-- A mention begins with its word, and so with no delimiter. -/
theorem exists_head? (m : FondoMention) :
    ∃ c, (m.word ++ (' ' :: m.color)).head? = some c ∧ isDelimiter c = false := by
  have hlength := congrArg List.length m.spelled
  cases hfirst : m.word with
  | nil => simp [hfirst] at hlength
  | cons c word => exact ⟨c, rfl, m.word_isDelimiter c (by simp [hfirst])⟩

/-- A mention ends with a digit, and so with no delimiter. -/
theorem exists_getLast? (m : FondoMention) :
    ∃ c, (m.word ++ (' ' :: m.color)).getLast? = some c ∧ isDelimiter c = false := by
  have hne : m.digits ≠ [] := by
    intro hnil
    have hleast := m.code.three_le
    simp [hnil] at hleast
  obtain ⟨digits, c, hdigits⟩ := Text.exists_append_singleton hne
  have hcolor : IsColor m.color := .code m.code
  exact ⟨c, by simp [color, hdigits, List.getLast?_append, List.getLast?_cons],
    hcolor.isDelimiter_eq_false c (by simp [color, hdigits])⟩

/-- A mention in reach of a token stands in its forward window. -/
theorem InReach.exists_in_window {m : FondoMention} (hreach : m.InReach line token next)
    (h : token.DividesForward line next lead opener tail rest) :
    ∃ w : FondoMention, w.text = token.forward line next ∧
      m.wordOffset = Text.byteSize lead + w.wordOffset ∧ w.color = m.color := by
  obtain ⟨before, after, hbefore, hafter, hwindow⟩ :=
    Token.ReachesOn.exists_in_window hreach h
  have hwhole : m.digits.length = 6 ∨ ∀ c, after.head? = some c → isHexDigit c = false := by
    refine m.whole.imp_right fun hends c hc => hends c ?_
    rw [hafter, List.head?_append, hc, Option.some_or]
  refine ⟨⟨before, m.word, m.digits, after, m.spelled, m.code, hwhole⟩, ?_, ?_, rfl⟩
  · rw [hwindow, text, color]
    simp
  · rw [wordOffset, wordOffset, hbefore, Text.byteSize_append]

/-- The code of a mention whose word is the keyword stands right behind it. -/
theorem InReach.dropBytes_eq {m : FondoMention} (hreach : m.InReach line token next)
    (htoken : token.StandsIn line) (hkind : token.kind = .fondo)
    (hword : m.wordOffset = token.keywordOffset) :
    line.dropBytes token.keywordEnd = ' ' :: (m.color ++ m.after) := by
  have hkeyword := (htoken.spells hkind).isDelimiter_eq_false (by decide)
  obtain ⟨p, s, hline, hoccurs⟩ := htoken
  have hsplit :
      m.before ++ (m.word ++ (' ' :: (m.color ++ m.after))) = p ++ (token.keyword ++ s) := by
    rw [← hline, hreach.line_eq]
    simp
  obtain ⟨rfl, hrest⟩ :=
    Text.append_inj_of_byteSize_eq hsplit (hword.trans hoccurs.keywordOffset_eq)
  obtain ⟨_, hafter⟩ :=
    Text.firstWord_inj m.word_isDelimiter hkeyword hrest rfl hoccurs.spells.2
  rw [hline, hoccurs.keywordEnd_eq, ← List.append_assoc, Text.dropBytes_append, ← hafter]

/-- A mention in the forward window of a token is in its reach. -/
theorem exists_inReach {w : FondoMention} (hw : w.text = token.forward line next)
    (h : token.DividesForward line next lead opener tail rest) :
    ∃ m : FondoMention, m.InReach line token next ∧
      m.wordOffset = Text.byteSize lead + w.wordOffset ∧ m.color = w.color := by
  have hwindow : token.forward line next =
      w.before ++ ((w.word ++ (' ' :: w.color)) ++ w.after) := by
    rw [← hw, text, color]
    simp
  obtain ⟨c, hhead, hc⟩ := w.exists_head?
  obtain ⟨d, hlast, hd⟩ := w.exists_getLast?
  have hreach := h.reachesOn hhead hc hwindow
  have hwhole : w.digits.length = 6 ∨ ∀ e, (w.after ++ rest).head? = some e →
      isHexDigit e = false := by
    rw [h.head?_append hlast hd hwindow]
    exact w.whole
  refine ⟨⟨lead ++ w.before, w.word, w.digits, w.after ++ rest, w.spelled, w.code, hwhole⟩,
    hreach, ?_, rfl⟩
  rw [wordOffset, wordOffset, Text.byteSize_append]

end FondoMention

end

end Prose

open Prose

namespace Assembly

variable {line color : Text} {previous next : Option Token} {token : Token}

/-- A background has the color that is found, if any. -/
theorem descriptor?_background {found : Option Text} :
    (background found).descriptor? = some (.background color) ↔ found = some color := by
  cases found <;> simp [background, Outcome.descriptor?]

/-- A background is colored by its backward window. -/
theorem descriptor?_assemble_background (hkind : token.kind = .background) :
    (assemble line previous token next).descriptor? = some (.background color) ↔
      backgroundColor? (token.backward line previous) = some color := by
  have hwindow : token.window line previous next = token.backward line previous := by
    rw [Token.window, hkind]
    rfl
  rw [assemble, hwindow, hkind]
  exact descriptor?_background

/-- The Spanish background is colored by its forward window. -/
theorem descriptor?_assemble_fondo (hkind : token.kind = .fondo) :
    (assemble line previous token next).descriptor? = some (.background color) ↔
      fondoColor? (token.forward line next) = some color := by
  have hwindow : token.window line previous next = token.forward line next := by
    rw [Token.window, hkind]
    rfl
  rw [assemble, hwindow, hkind]
  exact descriptor?_background

end Assembly

section

variable {mode : ScanMode} {line color : Text} {front back : List Token} {token : Token}

/-- A background is given the first color in its reach. -/
theorem descriptor?_eq_background_iff (hscan : scan mode line = front ++ token :: back)
    (hkind : token.kind = .background) :
    (Assembly.assemble line front.getLast? token back.head?).descriptor? =
        some (.background color) ↔
      ∃ m : ColorMention, m.FirstInReach line front.getLast? token ∧ m.color = color := by
  have hfollow := follow_of_scan_eq hscan
  have htoken := hfollow.standsIn_token
  obtain ⟨lead, body, closing, rest, hdivides⟩ := hfollow.exists_dividesBackward
  have hkeyword := (htoken.spells hkind).isDelimiter_eq_false (by decide)
  rw [Assembly.descriptor?_assemble_background hkind, backgroundColor?_eq_some_iff]
  exact exists_isLeftmost_iff (Text.byteSize lead)
    (fun _ hw => ColorMention.exists_inReach hw hdivides hkeyword)
    fun _ hreach => hreach.exists_in_window hdivides htoken

/-- The Spanish background is given the first color code in its reach. -/
theorem descriptor?_eq_fondo_iff (hscan : scan mode line = front ++ token :: back)
    (hkind : token.kind = .fondo) :
    (Assembly.assemble line front.getLast? token back.head?).descriptor? =
        some (.background color) ↔
      ∃ m : FondoMention, m.FirstInReach line token back.head? ∧ m.color = color := by
  have hfollow := follow_of_scan_eq hscan
  obtain ⟨lead, opener, tail, rest, hdivides⟩ := hfollow.exists_dividesForward
  rw [Assembly.descriptor?_assemble_fondo hkind, fondoColor?_eq_some_iff]
  exact exists_isLeftmost_iff (Text.byteSize lead)
    (fun _ hw => FondoMention.exists_inReach hw hdivides)
    fun _ hreach => hreach.exists_in_window hdivides

/-- A background is given the first color in its reach. The word behind such a color is the keyword
itself, and the color stands right in front of it, or it is no keyword that stands alone. The
Spanish background is given the first code in its reach. The word in front of such a code is the
keyword itself, and the code stands right behind it, or it is no keyword of the scan. -/
theorem backgrounds_take_first_color (hscan : scan mode line = front ++ token :: back) :
    (token.kind = .background →
      (∀ color, (Assembly.assemble line front.getLast? token back.head?).descriptor? =
          some (.background color) ↔
        ∃ m : ColorMention, m.FirstInReach line front.getLast? token ∧ m.color = color) ∧
      ∀ m : ColorMention, m.InReach line front.getLast? token →
        (m.wordOffset = token.keywordOffset ∧
            line.takeBytes token.keywordOffset = m.before ++ (m.color ++ [' '])) ∨
          ∀ other ∈ Token.isolated line, other.keywordOffset ≠ m.wordOffset) ∧
    (token.kind = .fondo →
      (∀ color, (Assembly.assemble line front.getLast? token back.head?).descriptor? =
          some (.background color) ↔
        ∃ m : FondoMention, m.FirstInReach line token back.head? ∧ m.color = color) ∧
      ∀ m : FondoMention, m.InReach line token back.head? →
        (m.wordOffset = token.keywordOffset ∧
            line.dropBytes token.keywordEnd = ' ' :: (m.color ++ m.after)) ∨
          ∀ other ∈ scan mode line, other.keywordOffset ≠ m.wordOffset) := by
  have hfollow := follow_of_scan_eq hscan
  refine ⟨fun hkind => ⟨fun color => descriptor?_eq_background_iff hscan hkind, fun m hreach => ?_⟩,
    fun hkind => ⟨fun color => descriptor?_eq_fondo_iff hscan hkind, fun m hreach => ?_⟩⟩
  · by_cases hword : m.wordOffset = token.keywordOffset
    · exact Or.inl ⟨hword, hreach.takeBytes_eq hword⟩
    · exact Or.inr (Token.ReachesBack.keywordOffset_ne hscan hreach m.qualifies hword)
  · by_cases hword : m.wordOffset = token.keywordOffset
    · exact Or.inl ⟨hword, hreach.dropBytes_eq hfollow.standsIn_token hkind hword⟩
    · refine Or.inr (Token.ReachesOn.keywordOffset_ne hscan hreach ?_ hword)
      simp

/-- The first color of a line stands in front of a word that only begins like the keyword. -/
theorem backgrounds_take_first_color_stray :
    ∃ m : ColorMention,
      m.FirstInReach "red backgrounds blue background".toList none
          ⟨.background, "background".toList, 20, 21⟩ ∧
        m.color = "red".toList := by
  let line : Text := "red backgrounds blue background".toList
  let token : Token := ⟨.background, "background".toList, 20, 21⟩
  have hscan : scan .boundaryPreserving line = [] ++ token :: [] := by decide +kernel
  have hcolor : (Assembly.assemble line none token none).descriptor? =
      some (.background "red".toList) :=
    (Assembly.descriptor?_assemble_background rfl).mpr (by decide +kernel)
  exact (((backgrounds_take_first_color hscan).1 rfl).1 _).mp hcolor

/-- A background is not always given its own color. -/
theorem not_every_background_has_own_color :
    ¬∀ (mode : ScanMode) (line color : Text) (front back : List Token) (token : Token),
      scan mode line = front ++ token :: back →
        (Assembly.assemble line front.getLast? token back.head?).descriptor? =
          some (.background color) →
        (token.kind = .background → ∃ before,
          line.takeBytes token.keywordOffset = before ++ (color ++ [' ']) ∧
            ∀ c, before.getLast? = some c → isWord c = false ∧ c ≠ '#') ∧
        (token.kind = .fondo → ∃ after,
          line.dropBytes token.keywordEnd = ' ' :: (color ++ after) ∧
            ∀ c, after.head? = some c → isHexDigit c = false) := by
  intro h
  let line : Text := "red backgrounds blue background".toList
  let token : Token := ⟨.background, "background".toList, 20, 21⟩
  have hscan : scan .boundaryPreserving line = [] ++ token :: [] := by decide +kernel
  have hcolor : (Assembly.assemble line none token none).descriptor? =
      some (.background "red".toList) :=
    (Assembly.descriptor?_assemble_background rfl).mpr (by decide +kernel)
  obtain ⟨before, hbefore, _⟩ := (h .boundaryPreserving line _ [] [] token hscan hcolor).1 rfl
  have hsuffix : "red ".toList <:+ line.takeBytes 21 := ⟨before, hbefore.symm⟩
  exact absurd hsuffix (by decide +kernel)

end

end Storyboard
