import Storyboard.Proofs.OwnColors
import Storyboard.Proofs.OwnNumbers

/-!
# Durations and colors that are not missed

A number right in front of a unit of time, a word in front of a background and a color code behind
the Spanish one are never cut off by the windows of the scan: the tokens around leave them alone.
Whatever spelling of a keyword the scan accepts is one for the pattern that reads it again. What is
reported as a missing duration or a missing color is therefore missing.
-/

namespace Storyboard

open Prose

/-- Where the table has one word for a kind, the patterns take every keyword of the kind for it. -/
theorem SpellsKeyword.map_foldCase_eq {kind : Kind} {word keyword : Text}
    (hall : ∀ entry ∈ keywords, entry.2 = kind → entry.1 = word) (h : SpellsKeyword kind keyword) :
    keyword.map foldCase = word.map foldCase := by
  rw [← hall _ h rfl, Text.map_foldCase_lowerCase]

/-- Every spelling of the keyword "background" is the word itself up to case folding. -/
theorem SpellsKeyword.fold_background {keyword : Text} (h : SpellsKeyword .background keyword) :
    keyword.map foldCase = "background".toList.map foldCase :=
  h.map_foldCase_eq (by decide)

/-- Every spelling of the keyword "fondo" is the word itself up to case folding. -/
theorem SpellsKeyword.fold_fondo {keyword : Text} (h : SpellsKeyword .fondo keyword) :
    keyword.map foldCase = "fondo".toList.map foldCase :=
  h.map_foldCase_eq (by decide)

/-- No keyword begins with a number sign. -/
theorem SpellsKeyword.head?_ne {kind : Kind} {keyword : Text} (h : SpellsKeyword kind keyword) :
    keyword.head? ≠ some '#' := by
  have hall : ∀ entry ∈ keywords, entry.1.head? ≠ some '#' := by decide
  intro hhead
  refine hall _ h ?_
  rw [Text.lowerCase, List.head?_map, hhead]
  rfl

namespace Token

section

variable {line lead body closing opener tail rest before part after : Text}
  {previous next : Option Token} {token : Token}

/-- What stands right in front of the keyword stands so in its backward window, if it begins no
earlier than the window. -/
theorem DividesBackward.exists_in_front
    (h : DividesBackward line previous token lead body closing rest)
    (hbody : lead ++ body = before ++ part) (hstart : Text.byteSize lead ≤ Text.byteSize before) :
    ∃ front, backward line previous token = front ++ (part ++ (token.keyword ++ closing)) := by
  obtain ⟨front, rfl, hpart⟩ := Text.exists_between_of_byteSize_le hbody hstart
  exact ⟨front, by rw [h.window_eq, hpart]; simp⟩

/-- A code behind one space and the keyword is not cut off from its forward window: the space opens
no keyword, as none begins with a number sign. -/
theorem DividesForward.exists_behind (h : DividesForward line token next lead opener tail rest)
    {digits : Text} (hline : line = before ++ (token.keyword ++ (' ' :: '#' :: (digits ++ after))))
    (hoffset : token.keywordOffset = Text.byteSize before)
    (hdigits : ∀ c ∈ digits, isHexDigit c = true) :
    ∃ back, forward line token next =
      opener ++ (token.keyword ++ (' ' :: '#' :: (digits ++ back))) := by
  have hsplit : (lead ++ opener) ++ (token.keyword ++ (tail ++ rest)) =
      before ++ (token.keyword ++ (' ' :: '#' :: (digits ++ after))) := by
    simpa using h.line_eq.symm.trans hline
  obtain ⟨_, htail⟩ := Text.append_inj_of_byteSize_eq hsplit (h.keywordOffset_eq.symm.trans hoffset)
  have htail : tail ++ rest = (' ' :: '#' :: digits) ++ after := by
    simpa using List.append_cancel_left htail
  rw [h.window_eq]
  rcases List.append_eq_append_iff.mp htail with ⟨cut, hcode, hrest⟩ | ⟨back, rfl, _⟩
  · -- The window would end inside the code, with a delimiter and in front of a keyword.
    rcases h.closed with rfl | ⟨front, d, rfl, hd, kind, keyword, later, rfl, hspells⟩
    · obtain ⟨rfl, rfl⟩ := List.append_eq_nil_iff.mp hrest.symm
      exact ⟨[], by simpa using hcode.symm⟩
    · cases front with
      | nil =>
        obtain ⟨-, rfl⟩ : ' ' = d ∧ '#' :: digits = cut := by simpa using hcode
        have hhead := hspells.head?_ne
        obtain ⟨c, keyword, rfl⟩ := List.exists_cons_of_ne_nil hspells.ne_nil
        obtain ⟨rfl, _⟩ := List.cons.inj hrest
        exact absurd rfl hhead
      | cons e front =>
        obtain ⟨-, hcode⟩ := List.cons.inj hcode
        have hmem : d ∈ '#' :: digits := by
          rw [hcode]
          simp
        have hcolor : isDelimiter d = false := by
          rcases List.mem_cons.mp hmem with rfl | hdigit
          · decide
          · exact isDelimiter_of_isHexDigit (hdigits d hdigit)
        simp [hcolor] at hd
  · exact ⟨back, by simp⟩

end

end Token

section

variable {mode : ScanMode} {line before after digits blanks : Text} {front back : List Token}
  {token : Token}

/-- A number right in front of a unit of time is in its backward window, so that there is a first
one to be stated. -/
theorem exists_duration_of_number_in_front (hscan : scan mode line = front ++ token :: back)
    (hkind : token.kind = .duration) (hline : line = before ++ (digits ++ blanks) ++ after)
    (hoffset : token.keywordOffset = Text.byteSize (before ++ (digits ++ blanks)))
    (hne : digits ≠ []) (hdigits : ∀ c ∈ digits, c.isDigit = true)
    (hne' : blanks ≠ []) (hblanks : ∀ c ∈ blanks, isBlank c = true) :
    ∃ m : Measure,
      IsLeftmost (fun m => m.text = token.backward line front.getLast?) Measure.offset m ∧
      (m.seconds ≤ longestDuration →
        (Assembly.assemble line front.getLast? token back.head?).descriptor? =
          some (.duration m.seconds)) := by
  have hfollow := follow_of_scan_eq hscan
  obtain ⟨lead, body, closing, rest, hdivides⟩ := hfollow.exists_dividesBackward
  have hspells := hfollow.standsIn_token.spells hkind
  have hbody := hdivides.lead_append_body hline hoffset
  have hstart := hdivides.byteSize_lead_le hbody fun c hc =>
    (List.mem_append.mp hc).imp (hdigits c) fun hc => isDelimiter_of_isBlank (hblanks c hc)
  obtain ⟨x, hwindow⟩ := hdivides.exists_in_front hbody hstart
  have hstates : statesDuration (token.backward line front.getLast?) = true :=
    statesDuration_iff.mpr ⟨x, digits, blanks, token.keyword, closing, by rw [hwindow]; simp,
      hne, hdigits, hne', hblanks, hspells.spellsUnit⟩
  obtain ⟨m, hfirst⟩ := exists_measure_of_statesDuration hstates
  refine ⟨m, hfirst, fun hle => (Assembly.descriptor?_assemble_duration hkind).mpr ?_⟩
  exact duration?_eq_some_iff.mpr ⟨hle, m, hfirst, rfl⟩

/-- A word right in front of a background gives it some color. -/
theorem exists_color_of_word_in_front (hscan : scan mode line = front ++ token :: back)
    (hkind : token.kind = .background) {c : Char} (hline : line = before ++ [c, ' '] ++ after)
    (hoffset : token.keywordOffset = Text.byteSize (before ++ [c, ' ']))
    (hc : isWord c = true) (hstart : Token.backwardStart front.getLast? ≤ Text.byteSize before) :
    ∃ color, (Assembly.assemble line front.getLast? token back.head?).descriptor? =
      some (.background color) := by
  have hfollow := follow_of_scan_eq hscan
  obtain ⟨lead, body, closing, rest, hdivides⟩ := hfollow.exists_dividesBackward
  have hspells := hfollow.standsIn_token.spells hkind
  rw [hdivides.start_eq] at hstart
  obtain ⟨x, hwindow⟩ :=
    hdivides.exists_in_front (hdivides.lead_append_body hline hoffset) hstart
  have hmatch :
      (backgroundPattern.matchAt ([c, ' '] ++ (token.keyword ++ closing))).isSome = true :=
    isSome_matchAt_backgroundPattern_iff.mpr
      ⟨[c], token.keyword, closing, rfl, .word (by simp) (by simpa using hc),
        hspells.fold_background⟩
  obtain ⟨found, hfound⟩ := Option.isSome_iff_exists.mp
    (Pattern.occursIn_iff.mpr ⟨x, _, hwindow, hmatch⟩)
  refine ⟨found.text, (Assembly.descriptor?_assemble_background hkind).mpr ?_⟩
  rw [backgroundColor?, hfound, Option.map_some]

/-- A code right behind the Spanish background gives it some color. -/
theorem exists_color_of_code_behind (hscan : scan mode line = front ++ token :: back)
    (hkind : token.kind = .fondo)
    (hline : line = before ++ (token.keyword ++ (' ' :: '#' :: (digits ++ after))))
    (hoffset : token.keywordOffset = Text.byteSize before)
    (hdigits : ∀ c ∈ digits, isHexDigit c = true) (hlength : 3 ≤ digits.length) :
    ∃ color, (Assembly.assemble line front.getLast? token back.head?).descriptor? =
      some (.background color) := by
  have hfollow := follow_of_scan_eq hscan
  obtain ⟨lead, opener, tail, rest, hdivides⟩ := hfollow.exists_dividesForward
  have hspells := hfollow.standsIn_token.spells hkind
  obtain ⟨x, hwindow⟩ := hdivides.exists_behind hline hoffset hdigits
  have hrun : IsHexRun (digits.take 3) :=
    ⟨fun c hc => hdigits c (List.mem_of_mem_take hc), by simp [hlength], by simp⟩
  obtain ⟨whole, rest', hsplit, hwhole, hends⟩ := hrun.exists_whole (digits.drop 3 ++ x)
  let m : FondoMention := ⟨opener, token.keyword, whole, rest', hspells.fold_fondo, hwhole, hends⟩
  have htext : m.text = token.forward line back.head? := by
    rw [hwindow, FondoMention.text, ← hsplit, ← List.append_assoc (digits.take 3),
      List.take_append_drop]
  obtain ⟨first, hfirst⟩ := exists_isLeftmost FondoMention.wordOffset
    (P := fun m => m.text = token.forward line back.head?) htext
  exact ⟨first.color, (Assembly.descriptor?_assemble_fondo hkind).mpr
    (fondoColor?_eq_some_iff.mpr ⟨first, hfirst, rfl⟩)⟩

/-- What is reported as missing is not there. A unit of time with a number right in front of it
states a duration, unless the first number of its window is out of range; a background with a word
right in front of it, and the Spanish one with a code right behind it, have a color. The patterns
accept every spelling of a keyword that the scan accepts. -/
theorem nothing_is_missed (hscan : scan mode line = front ++ token :: back) :
    (token.kind = .duration →
      [] ∈ timeUnit token.keyword ∧
      ∀ before digits blanks after, line = before ++ (digits ++ blanks) ++ after →
        token.keywordOffset = Text.byteSize (before ++ (digits ++ blanks)) →
        digits ≠ [] → (∀ c ∈ digits, c.isDigit = true) →
        blanks ≠ [] → (∀ c ∈ blanks, isBlank c = true) →
        ∃ m : Measure,
          IsLeftmost (fun m => m.text = token.backward line front.getLast?) Measure.offset m ∧
          (m.seconds ≤ longestDuration →
            (Assembly.assemble line front.getLast? token back.head?).descriptor? =
              some (.duration m.seconds))) ∧
    (token.kind = .background →
      [] ∈ backgroundPattern.follow (' ' :: token.keyword) ∧
      ∀ before c after, line = before ++ [c, ' '] ++ after →
        token.keywordOffset = Text.byteSize (before ++ [c, ' ']) → isWord c = true →
        Token.backwardStart front.getLast? ≤ Text.byteSize before →
        ∃ color, (Assembly.assemble line front.getLast? token back.head?).descriptor? =
          some (.background color)) ∧
    (token.kind = .fondo →
      [] ∈ fondoPattern.lead (token.keyword ++ [' ']) ∧
      ∀ before digits after, line = before ++ (token.keyword ++ (' ' :: '#' :: (digits ++ after))) →
        token.keywordOffset = Text.byteSize before → (∀ c ∈ digits, isHexDigit c = true) →
        3 ≤ digits.length →
        ∃ color, (Assembly.assemble line front.getLast? token back.head?).descriptor? =
          some (.background color)) := by
  have htoken := (follow_of_scan_eq hscan).standsIn_token
  refine ⟨fun hkind => ⟨?_, ?_⟩, fun hkind => ⟨?_, ?_⟩, fun hkind => ⟨?_, ?_⟩⟩
  · exact mem_timeUnit_iff.mpr ⟨token.keyword, by simp, (htoken.spells hkind).spellsUnit⟩
  · intro before digits blanks after hline hoffset hne hdigits hne' hblanks
    exact exists_duration_of_number_in_front hscan hkind hline hoffset hne hdigits hne' hblanks
  · exact Matcher.mem_spelled_space_cons_iff.mpr
      ⟨token.keyword, by simp, (htoken.spells hkind).fold_background⟩
  · intro before c after hline hoffset hc hstart
    exact exists_color_of_word_in_front hscan hkind hline hoffset hc hstart
  · exact Matcher.mem_spelled_append_space_iff.mpr
      ⟨token.keyword, rfl, (htoken.spells hkind).fold_fondo⟩
  · intro before digits after hline hoffset hdigits hlength
    exact exists_color_of_code_behind hscan hkind hline hoffset hdigits hlength

/-- The Kelvin sign is a letter of a keyword for the scan and for the pattern. -/
theorem nothing_is_missed_kelvin :
    ∃ color, (Assembly.assemble "red bacKground".toList none
        ⟨.background, "bacKground".toList, 3, 4⟩ none).descriptor? =
      some (.background color) := by
  let line : Text := "red bacKground".toList
  let token : Token := ⟨.background, "bacKground".toList, 3, 4⟩
  have hscan : scan .boundaryPreserving line = [] ++ token :: [] := by decide +kernel
  exact ((nothing_is_missed hscan).2.1 rfl).2 "re".toList 'd' token.keyword (by decide)
    (by decide) (by decide) (by decide)

end

end Storyboard
