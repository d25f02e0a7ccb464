import Storyboard.Proofs.Outcomes
import Storyboard.Proofs.Thinning

/-!
# Durations in both scan modes

Where each delimiter belongs to the keyword in front of it, keywords are left out and the backward
windows of the later ones grow. The durations of a line stay the same. A keyword that is left out
begins where another one has ended, so there was no room for a number before it, and a window
grows by keywords and their delimiters only, which hold no digit.
-/

namespace Storyboard

namespace Text

/-- A text can be cut at two offsets, and no digit comes between them. -/
def DigitFreeBetween (line : Text) (start stop : Nat) : Prop :=
  ∃ front gap back, line = front ++ gap ++ back ∧ (∀ c ∈ gap, c.isDigit = false) ∧
    start = byteSize front ∧ stop = byteSize (front ++ gap)

namespace DigitFreeBetween

variable {line : Text} {start middle stop : Nat}

/-- The offsets of a stretch without digits are in order. -/
theorem le (h : line.DigitFreeBetween start stop) : start ≤ stop := by
  obtain ⟨front, gap, back, _, _, rfl, rfl⟩ := h
  rw [byteSize_append]
  exact Nat.le_add_right _ _

/-- No digit comes between an offset and itself. -/
theorem self_right (h : line.DigitFreeBetween start stop) : line.DigitFreeBetween stop stop := by
  obtain ⟨front, gap, back, rfl, _, rfl, rfl⟩ := h
  exact ⟨front ++ gap, [], back, by simp, by simp, rfl, by simp⟩

/-- Two stretches without digits that follow one another make one. -/
theorem trans (h : line.DigitFreeBetween start middle) (h' : line.DigitFreeBetween middle stop) :
    line.DigitFreeBetween start stop := by
  obtain ⟨front, gap, back, rfl, hgap, rfl, rfl⟩ := h
  obtain ⟨front', gap', back', hline, hgap', hmiddle, rfl⟩ := h'
  rw [List.append_assoc front'] at hline
  obtain ⟨rfl, hback⟩ := append_inj_of_byteSize_eq hline hmiddle
  refine ⟨front, gap ++ gap', back', by simp [hback], ?_, rfl, by simp⟩
  intro c hc
  rcases List.mem_append.mp hc with hc | hc
  · exact hgap c hc
  · exact hgap' c hc

/-- A window that begins a stretch without digits earlier states the same duration. -/
theorem duration?_slice (h : line.DigitFreeBetween start middle) (hle : middle ≤ stop) :
    Prose.duration? (line.slice start stop) = Prose.duration? (line.slice middle stop) := by
  obtain ⟨front, gap, back, rfl, hgap, rfl, rfl⟩ := h
  rw [slice_append_left front gap back hle, Prose.duration?_append hgap]

/-- A window without digits states no duration. -/
theorem duration?_slice_eq_none (h : line.DigitFreeBetween start stop) :
    Prose.duration? (line.slice start stop) = none := by
  obtain ⟨front, gap, back, rfl, hgap, rfl, rfl⟩ := h
  rw [slice_append, Prose.duration?_eq_none hgap]

end DigitFreeBetween

end Text

namespace Token

/-- From where a token begins to where its keyword ends there is no digit. -/
theorem StandsIn.digitFree_keyword {line : Text} {token : Token} (h : StandsIn line token) :
    line.DigitFreeBetween token.matchOffset token.keywordEnd := by
  obtain ⟨before, after, rfl, h⟩ := h
  have hkeyword : ∀ c ∈ token.keyword, c.isDigit = false :=
    fun c hc => h.spells.1.isDigit_eq_false hc
  rcases h.opened with ⟨rfl, h0⟩ | ⟨m, d, rfl, hd, hm⟩
  · exact ⟨[], token.keyword, after, by simp, hkeyword, by simpa using h0, h.keywordEnd_eq⟩
  · refine ⟨m, d :: token.keyword, after, by simp, ?_, hm, by simp [h.keywordEnd_eq]⟩
    intro c hc
    rcases List.mem_cons.mp hc with rfl | hc
    · exact isDigit_of_isDelimiter hd
    · exact hkeyword c hc

/-- The delimiter that closes a keyword is no digit. -/
theorem StandsIn.digitFree_closing {line : Text} {token : Token} (h : StandsIn line token) :
    line.DigitFreeBetween token.keywordEnd (line.pastChar token.keywordEnd) := by
  obtain ⟨before, after, rfl, h⟩ := h
  have hends := h.spells.2
  rw [h.keywordEnd_eq, ← List.append_assoc]
  cases after with
  | nil =>
    rw [List.append_nil, Text.pastChar_byteSize]
    exact ⟨before ++ token.keyword, [], [], by simp, by simp, rfl, by simp⟩
  | cons d after =>
    rw [Text.pastChar_append_cons]
    refine ⟨before ++ token.keyword, [d], after, by simp, ?_, rfl, ?_⟩
    · intro c hc
      obtain rfl := List.mem_singleton.mp hc
      exact isDigit_of_isDelimiter hends
    · rw [Text.byteSize_append (before ++ token.keyword) [d]]
      rfl

end Token

namespace Assembly

/-- The seconds of the units of time among tokens that follow one another in a line. -/
def secondsAfter (line : Text) (previous : Option Token) : List Token → List Nat
  | [] => []
  | token :: later =>
    (secondsOf line previous token).toList ++ secondsAfter line (some token) later

/-- The durations among the outcomes of tokens are the seconds of their units of time. -/
theorem filterMap_seconds?_outcomesAfter (line : Text) (previous : Option Token)
    (tokens : List Token) :
    (outcomesAfter line previous tokens).filterMap
        (fun entry => entry.2.descriptor?.bind Descriptor.seconds?) =
      secondsAfter line previous tokens := by
  induction tokens generalizing previous with
  | nil => rfl
  | cons token later ih =>
    rw [outcomesAfter, secondsAfter, List.filterMap_cons, seconds?_assemble, ih]
    cases secondsOf line previous token <;> rfl

/-- A token that begins where its window does states no duration. -/
theorem secondsOf_eq_none {line : Text} {previous : Option Token} {token : Token}
    (h : Token.StandsIn line token) (hstart : Token.backwardStart previous = token.matchOffset) :
    secondsOf line previous token = none := by
  have hfree := h.digitFree_keyword.trans h.digitFree_closing
  rw [secondsOf, Token.backward, hstart, hfree.duration?_slice_eq_none, ite_self]

/-- A window that begins earlier by text without digits states the same duration. -/
theorem secondsOf_eq_of_digitFree {line : Text} {kept previous : Option Token} {token : Token}
    (hfree : line.DigitFreeBetween (Token.backwardStart kept) (Token.backwardStart previous))
    (h : Token.StandsIn line token) (hle : Token.backwardStart previous ≤ token.matchOffset) :
    secondsOf line kept token = secondsOf line previous token := by
  have hwindow := (h.digitFree_keyword.trans h.digitFree_closing).le
  rw [secondsOf, secondsOf, Token.backward, Token.backward,
    hfree.duration?_slice (Nat.le_trans hle hwindow)]

/-- Thinning leaves the durations alone. The windows of the two runs begin behind the last token
kept and behind the last token; the induction keeps the text between them free of digits. -/
theorem secondsAfter_thin {line : Text} {kept previous : Option Token} {tokens : List Token}
    (hstands : ∀ token ∈ tokens, Token.StandsIn line token)
    (hpairs : tokens.Pairwise fun a b => a.keywordEnd ≤ b.matchOffset)
    (hprevious : ∀ token ∈ tokens, Token.backwardStart previous ≤ token.matchOffset)
    (hfree : line.DigitFreeBetween (Token.backwardStart kept) (Token.backwardStart previous)) :
    secondsAfter line kept (Token.thin kept tokens) = secondsAfter line previous tokens := by
  induction tokens generalizing kept previous with
  | nil => rfl
  | cons token later ih =>
    obtain ⟨hlater, hpairs⟩ := List.pairwise_cons.mp hpairs
    have htoken := hstands token List.mem_cons_self
    have hle := hprevious token List.mem_cons_self
    have hstands' : ∀ other ∈ later, Token.StandsIn line other :=
      fun other hother => hstands other (List.mem_cons_of_mem token hother)
    rw [Token.thin, secondsAfter]
    split
    next hdrop =>
      -- The window of a token that is left out begins with it, and no number fits in there.
      have hstart : Token.backwardStart kept = token.matchOffset := by
        rw [Token.backwardStart, hdrop, Option.getD_some]
      have hnone : secondsOf line previous token = none := by
        rw [← secondsOf_eq_of_digitFree hfree htoken hle]
        exact secondsOf_eq_none htoken hstart
      rw [hnone, Option.toList_none, List.nil_append]
      refine ih hstands' hpairs hlater ?_
      rw [hstart]
      exact htoken.digitFree_keyword
    next =>
      rw [secondsAfter, secondsOf_eq_of_digitFree hfree htoken hle]
      refine congrArg _ (ih hstands' hpairs hlater ?_)
      exact htoken.digitFree_keyword.self_right

/-- A line in which a unit of time has its seconds states a duration. -/
theorem statesDuration_of_secondsAfter {line : Text} {previous : Option Token}
    {tokens : List Token} (h : secondsAfter line previous tokens ≠ []) :
    Prose.statesDuration line = true := by
  induction tokens generalizing previous with
  | nil => exact absurd rfl h
  | cons token later ih =>
    cases hseconds : secondsOf line previous token with
    | none =>
      rw [secondsAfter, hseconds] at h
      exact ih h
    | some seconds =>
      rw [secondsOf, Option.ite_none_right_eq_some] at hseconds
      have hwindow := Prose.statesDuration_of_duration? hseconds.2
      exact Prose.statesDuration_of_isInfix (Text.slice_isInfix line _ _) hwindow

end Assembly

/-- The durations of a line are the seconds of the units of time that are scanned in it. -/
theorem filterMap_seconds?_compileLine (options : Options) (line : Text) :
    (compileLine options line).filterMap Descriptor.seconds? =
      Assembly.secondsAfter line none (scan options.scanMode line) := by
  rw [compileLine, ScriptLine.descriptors, List.filterMap_filterMap]
  exact Assembly.filterMap_seconds?_outcomesAfter line none _

/-- Both scan modes leave a line the same durations, in the same order. A line that has any is a
beat of every script it stands in, and its descriptors are an entry of the report. -/
theorem durations_agree_in_both_modes (line : Text) :
    (compileLine ⟨.legacy⟩ line).filterMap Descriptor.seconds? =
      (compileLine ⟨.boundaryPreserving⟩ line).filterMap Descriptor.seconds? ∧
    ∀ options, (compileLine options line).filterMap Descriptor.seconds? ≠ [] →
      Prose.statesDuration line = true ∧
      ∀ script, ∀ beat ∈ scriptLines script, beat.text = line → ∃ index : Nat,
        (beats script)[index]? = some beat ∧
        (compile options script).lines[index]? = some (compileLine options line) := by
  refine ⟨?_, fun options h => ?_⟩
  · rw [filterMap_seconds?_compileLine, filterMap_seconds?_compileLine, scan_legacy,
      scan_boundaryPreserving]
    refine Assembly.secondsAfter_thin (fun token h => Token.mem_isolated_iff.mp h) ?_ ?_ ?_
    · exact (Token.pairwise_isolated line).imp And.right
    · exact fun token _ => Nat.zero_le _
    · exact ⟨[], [], line, rfl, by simp, rfl, rfl⟩
  · rw [filterMap_seconds?_compileLine] at h
    have hstates := Assembly.statesDuration_of_secondsAfter h
    refine ⟨hstates, fun script beat hbeat htext => ?_⟩
    have hmem : beat ∈ beats script := by
      refine List.mem_filter.mpr ⟨hbeat, ?_⟩
      rw [ScriptLine.isBeat, htext, hstates]
    obtain ⟨index, hindex⟩ := List.mem_iff_getElem?.mp hmem
    refine ⟨index, hindex, ?_⟩
    rw [compile, List.getElem?_map, hindex, ← htext]
    rfl

/-- The unit of time that is left out here had no number. -/
example :
    let line := "5 seconds,seconds 7 segundos".toList
    (scan .boundaryPreserving line).length = 3 ∧ (scan .legacy line).length = 2 ∧
      (compileLine ⟨.legacy⟩ line).filterMap Descriptor.seconds? = [5, 7] := by
  decide

end Storyboard
