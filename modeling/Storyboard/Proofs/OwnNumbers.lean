import Storyboard.Proofs.Measures
import Storyboard.Proofs.Reach
import Storyboard.Proofs.Outcomes

/-!
# Which number a unit of time gets

A unit of time takes the first number in its backward window that any unit follows. Such a number
is either its own, which stands right in front of it, or it leads to a word that only begins or
folds like a unit and is no keyword. The number of another keyword is never taken, and where no
such word is in reach the unit takes its own number or none.
-/

namespace Storyboard

/-- The scanner spells a unit of time as the pattern does. -/
theorem SpellsKeyword.spellsUnit {unit : Text} (h : SpellsKeyword .duration unit) :
    Prose.SpellsUnit unit := by
  have hall : ∀ entry ∈ keywords, entry.2 = Kind.duration →
      entry.1 ∈ ["⏲".toList, "seconds".toList, "second".toList, "segundos".toList] := by decide
  exact ⟨unit.lowerCase, hall _ h rfl, (Text.map_foldCase_lowerCase unit).symm⟩

namespace Prose

/-- No unit of time holds a delimiter. -/
theorem SpellsUnit.isDelimiter_eq_false {unit : Text} (h : SpellsUnit unit) :
    ∀ c ∈ unit, isDelimiter c = false := by
  obtain ⟨word, hword, hfold⟩ := h
  have hall : ∀ word ∈ ["⏲".toList, "seconds".toList, "second".toList, "segundos".toList],
      (word.all fun c => !isDelimiter c) = true := by decide
  exact isDelimiter_of_map_foldCase_eq hfold (hall word hword)

/-- A unit of time has at least one character. -/
theorem SpellsUnit.ne_nil {unit : Text} (h : SpellsUnit unit) : unit ≠ [] := by
  obtain ⟨word, hword, hfold⟩ := h
  have hall : ∀ word ∈ ["⏲".toList, "seconds".toList, "second".toList, "segundos".toList],
      word ≠ [] := by decide
  rintro rfl
  exact hall word hword (List.map_eq_nil_iff.mp hfold.symm)

namespace Measure

/-- A number and its white space qualify the unit. -/
theorem qualifies (m : Measure) : Token.Qualifies (m.digits ++ m.blanks) :=
  .of_append m.expression.digits_ne_nil m.expression.blanks_ne_nil
    (fun c hc => isDelimiter_of_isDigit (m.expression.digits_isDigit c hc))
    fun d hd => isDelimiter_of_isBlank (m.expression.blanks_isBlank d hd)

/-- The number of a measure is in reach of a token behind it. -/
def InReach (line : Text) (previous : Option Token) (token : Token) (m : Measure) : Prop :=
  Token.ReachesBack line previous token m.before (m.digits ++ m.blanks) (m.unit ++ m.after)

/-- No measure in reach of the token begins earlier. -/
def FirstInReach (line : Text) (previous : Option Token) (token : Token) : Measure → Prop :=
  IsLeftmost (InReach line previous token) offset

section

variable {mode : ScanMode} {line lead body closing rest : Text} {previous : Option Token}
  {token : Token} {front back : List Token}

/-- A measure in reach of a token stands in its backward window. -/
theorem InReach.exists_in_window {m : Measure} (hreach : m.InReach line previous token)
    (h : token.DividesBackward line previous lead body closing rest)
    (htoken : token.StandsIn line) :
    ∃ w : Measure, w.text = token.backward line previous ∧
      m.offset = Text.byteSize lead + w.offset ∧ w.digits = m.digits := by
  obtain ⟨before, after, hbefore, hwindow⟩ :=
    Token.ReachesBack.exists_in_window hreach h htoken
      m.expression.unit_spelled.isDelimiter_eq_false
  have hwhole : ∀ c, before.getLast? = some c → c.isDigit = false := by
    intro c hc
    refine m.whole c ?_
    rw [hbefore, List.getLast?_append, hc, Option.some_or]
  refine ⟨⟨before, m.digits, m.blanks, m.unit, after, m.expression, hwhole⟩, ?_, ?_, rfl⟩
  · rw [hwindow, text]
    simp
  · rw [offset, offset, hbefore, Text.byteSize_append]

/-- A measure in the backward window of a unit of time is in its reach. -/
theorem exists_inReach {w : Measure} (hw : w.text = token.backward line previous)
    (h : token.DividesBackward line previous lead body closing rest)
    (hkeyword : ∀ c ∈ token.keyword, isDelimiter c = false) :
    ∃ m : Measure, m.InReach line previous token ∧
      m.offset = Text.byteSize lead + w.offset ∧ m.digits = w.digits := by
  have hwindow : token.backward line previous =
      w.before ++ ((w.digits ++ w.blanks) ++ (w.unit ++ w.after)) := by
    rw [← hw, text]
    simp
  obtain ⟨hreach, hlast⟩ := h.reachesBack hkeyword w.qualifies
    (List.append_ne_nil_of_left_ne_nil w.expression.unit_spelled.ne_nil _) hwindow
  have hwhole : ∀ c, (lead ++ w.before).getLast? = some c → c.isDigit = false := by
    rw [hlast]
    exact w.whole
  refine ⟨⟨lead ++ w.before, w.digits, w.blanks, w.unit, w.after ++ rest, w.expression, hwhole⟩,
    by simpa [InReach] using hreach, ?_, rfl⟩
  rw [offset, offset, Text.byteSize_append]

/-- The number of a measure whose unit is the keyword stands right in front of it. -/
theorem InReach.numberAtEnd?_eq {m : Measure} (hreach : m.InReach line previous token)
    (hunit : m.unitOffset = token.keywordOffset) :
    numberAtEnd? (line.takeBytes token.keywordOffset) = some m.seconds := by
  rw [← hunit, hreach.line_eq, ← List.append_assoc, unitOffset, Text.takeBytes_append,
    m.numberAtEnd?_eq]

/-- The number right in front of a unit of time is in its reach: no keyword ends in it or in the
white space behind it. -/
theorem exists_inReach_of_numberAtEnd? (htoken : token.StandsIn line)
    (hkind : token.kind = .duration)
    (h : token.DividesBackward line previous lead body closing rest) {seconds : Nat}
    (hnumber : numberAtEnd? (line.takeBytes token.keywordOffset) = some seconds) :
    ∃ m : Measure, m.InReach line previous token ∧ m.unitOffset = token.keywordOffset := by
  have hspells := htoken.spells hkind
  obtain ⟨p, s, rfl, hoccurs⟩ := htoken
  rw [hoccurs.keywordOffset_eq, Text.takeBytes_append, numberAtEnd?,
    Option.ite_none_left_eq_some] at hnumber
  obtain ⟨before, blanks, hp, hdigits, hblanks, hwhole⟩ := Text.exists_eq_append_digitsAtEnd p
  have hne : blanks ≠ [] := by
    rintro rfl
    obtain ⟨m, c, hlast⟩ := Text.exists_append_singleton hnumber.1
    have hc := isDelimiter_of_isDigit (hdigits c (by simp [hlast]))
    rw [List.append_nil, hlast, ← List.append_assoc] at hp
    simp [hoccurs.isDelimiter_getLast? (by rw [hp, List.getLast?_concat])] at hc
  have hsplit : lead ++ body = p := h.lead_append_body rfl hoccurs.keywordOffset_eq
  have hstart : Text.byteSize lead ≤ Text.byteSize before := by
    refine h.byteSize_lead_le (hsplit.trans hp) fun c hc => ?_
    rcases List.mem_append.mp hc with hc | hc
    · exact Or.inl (hdigits c hc)
    · exact Or.inr (isDelimiter_of_isBlank (hblanks c hc))
  refine ⟨⟨before, p.digitsAtEnd, blanks, token.keyword, s,
    ⟨hnumber.1, hdigits, hne, hblanks, hspells.spellsUnit⟩, hwhole⟩, ⟨?_, ?_, ?_⟩, ?_⟩
  · have hline := congrArg (fun front => front ++ (token.keyword ++ s)) hp
    simpa using hline
  · rw [h.start_eq]
    exact hstart
  · rw [← hp, hoccurs.keywordOffset_eq]
  · rw [unitOffset, ← hp, hoccurs.keywordOffset_eq]

end

end Measure

end Prose

open Prose

/-- A unit of time states the duration of its backward window. -/
theorem Assembly.descriptor?_assemble_duration {line : Text} {previous next : Option Token}
    {token : Token} (hkind : token.kind = .duration) {seconds : Nat} :
    (assemble line previous token next).descriptor? = some (.duration seconds) ↔
      duration? (token.backward line previous) = some seconds := by
  rw [assemble_duration hkind]
  cases duration? (token.backward line previous) <;> simp [Outcome.descriptor?]

section

variable {mode : ScanMode} {line : Text} {front back : List Token} {token : Token}

/-- A unit of time is given the first number in its reach, if that is in range. -/
theorem descriptor?_eq_duration_iff (hscan : scan mode line = front ++ token :: back)
    (hkind : token.kind = .duration) {seconds : Nat} :
    (Assembly.assemble line front.getLast? token back.head?).descriptor? =
        some (.duration seconds) ↔
      seconds ≤ longestDuration ∧
        ∃ m : Measure, m.FirstInReach line front.getLast? token ∧ m.seconds = seconds := by
  have hfollow := follow_of_scan_eq hscan
  have htoken := hfollow.standsIn_token
  obtain ⟨lead, body, closing, rest, hdivides⟩ := hfollow.exists_dividesBackward
  have hkeyword := (htoken.spells hkind).isDelimiter_eq_false (by decide)
  rw [Assembly.descriptor?_assemble_duration hkind, duration?_eq_some_iff]
  refine and_congr_right fun _ =>
    exists_isLeftmost_iff (Text.byteSize lead) (fun w hw => ?_) fun m hreach => ?_
  · obtain ⟨m, hreach, hoffset, hdigits⟩ := Measure.exists_inReach hw hdivides hkeyword
    exact ⟨m, hreach, hoffset, congrArg decimalValue hdigits⟩
  · obtain ⟨w, hw, hoffset, hdigits⟩ := hreach.exists_in_window hdivides htoken
    exact ⟨w, hw, hoffset, congrArg decimalValue hdigits⟩

/-- A unit of time states the first number in its reach that a unit follows, exactly if that is in
range. Such a number is its own, or leads to a word that is no keyword standing alone. Where every
number in reach is its own, the unit states the number right in front of it or none. -/
theorem unit_states_first_number (hscan : scan mode line = front ++ token :: back)
    (hkind : token.kind = .duration) :
    (∀ seconds, (Assembly.assemble line front.getLast? token back.head?).descriptor? =
        some (.duration seconds) ↔
      seconds ≤ longestDuration ∧
        ∃ m : Measure, m.FirstInReach line front.getLast? token ∧ m.seconds = seconds) ∧
    (∀ m : Measure, m.InReach line front.getLast? token →
      (m.unitOffset = token.keywordOffset ∧
          numberAtEnd? (line.takeBytes token.keywordOffset) = some m.seconds) ∨
        ∀ other ∈ Token.isolated line, other.keywordOffset ≠ m.unitOffset) ∧
    ((∀ m : Measure, m.InReach line front.getLast? token → m.unitOffset = token.keywordOffset) →
      ∀ seconds, (Assembly.assemble line front.getLast? token back.head?).descriptor? =
          some (.duration seconds) ↔
        numberAtEnd? (line.takeBytes token.keywordOffset) = some seconds ∧
          seconds ≤ longestDuration) := by
  refine ⟨fun seconds => descriptor?_eq_duration_iff hscan hkind, fun m hreach => ?_,
    fun hown seconds => ?_⟩
  · by_cases hunit : m.unitOffset = token.keywordOffset
    · exact Or.inl ⟨hunit, hreach.numberAtEnd?_eq hunit⟩
    · exact Or.inr (Token.ReachesBack.keywordOffset_ne hscan hreach m.qualifies hunit)
  · rw [descriptor?_eq_duration_iff hscan hkind]
    constructor
    · rintro ⟨hle, m, ⟨hreach, _⟩, rfl⟩
      exact ⟨hreach.numberAtEnd?_eq (hown m hreach), hle⟩
    · rintro ⟨hnumber, hle⟩
      have hfollow := follow_of_scan_eq hscan
      obtain ⟨lead, body, closing, rest, hdivides⟩ := hfollow.exists_dividesBackward
      obtain ⟨m, hreach, _⟩ :=
        Measure.exists_inReach_of_numberAtEnd? hfollow.standsIn_token hkind hdivides hnumber
      obtain ⟨first, hfirst⟩ := exists_isLeftmost Measure.offset hreach
      have hnumber' := hfirst.1.numberAtEnd?_eq (hown first hfirst.1)
      exact ⟨hle, first, hfirst, Option.some.inj (hnumber'.symm.trans hnumber)⟩

/-- The first number of a line belongs to a word that only begins like a unit. -/
theorem unit_states_first_number_stray :
    5 ≤ longestDuration ∧ ∃ m : Measure,
      m.FirstInReach "5 secondsX 7 seconds".toList none ⟨.duration, "seconds".toList, 12, 13⟩ ∧
        m.seconds = 5 := by
  let line : Text := "5 secondsX 7 seconds".toList
  let token : Token := ⟨.duration, "seconds".toList, 12, 13⟩
  have hscan : scan .boundaryPreserving line = [] ++ token :: [] := by decide +kernel
  have hstated : (Assembly.assemble line none token none).descriptor? = some (.duration 5) :=
    (Assembly.descriptor?_assemble_duration rfl).mpr (by decide +kernel)
  exact ((unit_states_first_number hscan rfl).1 5).mp hstated

/-- A unit of time does not always state its own number. -/
theorem not_every_unit_states_own_number :
    ¬∀ (mode : ScanMode) (line : Text) (front back : List Token) (token : Token),
      scan mode line = front ++ token :: back → token.kind = .duration →
        ∀ seconds, (Assembly.assemble line front.getLast? token back.head?).descriptor? =
            some (.duration seconds) ↔
          numberAtEnd? (line.takeBytes token.keywordOffset) = some seconds ∧
            seconds ≤ longestDuration := by
  intro h
  let line : Text := "5 secondsX 7 seconds".toList
  let token : Token := ⟨.duration, "seconds".toList, 12, 13⟩
  have hscan : scan .boundaryPreserving line = [] ++ token :: [] := by decide +kernel
  have hstated : (Assembly.assemble line none token none).descriptor? = some (.duration 5) :=
    (Assembly.descriptor?_assemble_duration rfl).mpr (by decide +kernel)
  have hown : numberAtEnd? (line.takeBytes token.keywordOffset) = some 7 := by decide +kernel
  have hnumber := ((h .boundaryPreserving line [] [] token hscan rfl 5).mp hstated).1
  rw [hown] at hnumber
  exact absurd hnumber (by decide)

end

end Storyboard
