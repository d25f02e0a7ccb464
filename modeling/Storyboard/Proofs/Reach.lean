import Storyboard.Proofs.Neighbours

/-!
# What is in reach of a token

An attribute in front of a token is in its reach if it begins behind the token before and what it
leads to begins no later than the keyword. An attribute behind a token is in its reach if it begins
no earlier than the keyword and ends no later than the forward window. These are the attributes in
the window of the token, and what surrounds them there is what surrounds them in the line.
-/

namespace Storyboard

namespace Token

/-- A stretch of a line that leads to something else is in reach of a token behind it. -/
structure ReachesBack (line : Text) (previous : Option Token) (token : Token)
    (before part rest : Text) : Prop where
  line_eq : line = before ++ (part ++ rest)
  start_le : backwardStart previous ≤ Text.byteSize before
  stop_le : Text.byteSize (before ++ part) ≤ token.keywordOffset

/-- A stretch of a line is in reach of a token in front of it. -/
structure ReachesOn (line : Text) (token : Token) (next : Option Token)
    (before part rest : Text) : Prop where
  line_eq : line = before ++ (part ++ rest)
  start_le : token.keywordOffset ≤ Text.byteSize before
  stop_le : Text.byteSize (before ++ part) ≤ forwardEnd line next

/-- What qualifies the word behind it begins with no delimiter and is set off by one. -/
def Qualifies (part : Text) : Prop :=
  ∃ c inner d, part = c :: (inner ++ [d]) ∧ isDelimiter c = false ∧ isDelimiter d = true

/-- What holds no delimiter qualifies a word once delimiters set it off. -/
theorem Qualifies.of_append {a b : Text} (ha : a ≠ []) (hb : b ≠ [])
    (hopened : ∀ c ∈ a, isDelimiter c = false) (hclosed : ∀ d ∈ b, isDelimiter d = true) :
    Qualifies (a ++ b) := by
  obtain ⟨c, a, rfl⟩ := List.exists_cons_of_ne_nil ha
  obtain ⟨b, d, rfl⟩ := Text.exists_append_singleton hb
  exact ⟨c, a ++ b, d, by simp, hopened c List.mem_cons_self, hclosed d (by simp)⟩

section

variable {line : Text} {token : Token} {previous next : Option Token}
  {lead body closing opener tail before part word after rest : Text}

/-- A stretch in reach of a token behind it stands in its backward window, with the word that it
leads to. -/
theorem ReachesBack.exists_in_window
    (hreach : ReachesBack line previous token before part (word ++ after))
    (h : DividesBackward line previous token lead body closing rest) (htoken : token.StandsIn line)
    (hword : ∀ c ∈ word, isDelimiter c = false) :
    ∃ front back, before = lead ++ front ∧
      backward line previous token = front ++ (part ++ (word ++ back)) := by
  have hline : line = (before ++ part) ++ (word ++ after) := by simpa using hreach.line_eq
  have hends := htoken.byteSize_le_keywordEnd hline hword hreach.stop_le
  rw [keywordEnd, h.keywordOffset_eq] at hends
  have hsplit : lead ++ (body ++ (token.keyword ++ closing) ++ rest) =
      before ++ ((part ++ word) ++ after) := by
    have hline := h.line_eq.symm.trans hreach.line_eq
    simpa using hline
  have hstart : Text.byteSize lead ≤ Text.byteSize before := by
    rw [← h.start_eq]
    exact hreach.start_le
  obtain ⟨front, back, hfront, hwindow, _⟩ := Text.exists_within_of_byteSize_le hsplit hstart (by
    simp only [Text.byteSize_append] at hends ⊢
    omega)
  exact ⟨front, back, hfront, by rw [h.window_eq, hwindow]; simp⟩

/-- A stretch in the backward window of a token that qualifies the word behind it is in its reach,
and the same character comes before it in the window and in the line. -/
theorem DividesBackward.reachesBack
    (h : DividesBackward line previous token lead body closing rest)
    (hkeyword : ∀ c ∈ token.keyword, isDelimiter c = false) (hpart : Qualifies part)
    (hword : word ≠ []) (hwindow : backward line previous token = before ++ (part ++ word)) :
    ReachesBack line previous token (lead ++ before) part (word ++ rest) ∧
      (lead ++ before).getLast? = before.getLast? := by
  obtain ⟨c, inner, d, rfl, hc, hd⟩ := hpart
  refine ⟨⟨?_, ?_, ?_⟩, h.getLast?_append (by simpa using hwindow) hc⟩
  · have hjoin := congrArg (fun window => lead ++ (window ++ rest)) (h.window_eq.symm.trans hwindow)
    rw [h.line_eq]
    simpa using hjoin
  · rw [h.start_eq, Text.byteSize_append]
    exact Nat.le_add_right _ _
  · have hle : Text.byteSize ((before ++ c :: inner) ++ [d]) ≤ Text.byteSize body :=
      h.byteSize_le_body hkeyword (by simpa using hwindow) hd hword
    rw [h.keywordOffset_eq]
    simp only [Text.byteSize_append, Text.byteSize_cons] at hle ⊢
    omega

/-- A stretch in reach of a token in front of it stands in its forward window. -/
theorem ReachesOn.exists_in_window (hreach : ReachesOn line token next before part after)
    (h : DividesForward line token next lead opener tail rest) :
    ∃ front back, before = lead ++ front ∧ after = back ++ rest ∧
      forward line token next = front ++ (part ++ back) := by
  have hstart := hreach.start_le
  have hstop := hreach.stop_le
  rw [h.keywordOffset_eq, Text.byteSize_append] at hstart
  rw [h.forwardEnd_eq] at hstop
  have hsplit :
      lead ++ (opener ++ (token.keyword ++ tail) ++ rest) = before ++ (part ++ after) := by
    have hline := h.line_eq.symm.trans hreach.line_eq
    simpa using hline
  obtain ⟨front, back, hfront, hwindow, hafter⟩ :=
    Text.exists_within_of_byteSize_le hsplit (by omega) hstop
  exact ⟨front, back, hfront, hafter, by rw [h.window_eq, hwindow]⟩

/-- A stretch in the forward window of a token that begins with no delimiter is in its reach. -/
theorem DividesForward.reachesOn (h : DividesForward line token next lead opener tail rest)
    {c : Char} (hpart : part.head? = some c) (hc : isDelimiter c = false)
    (hwindow : forward line token next = before ++ (part ++ after)) :
    ReachesOn line token next (lead ++ before) part (after ++ rest) := by
  have hsplit := h.window_eq.symm.trans hwindow
  refine ⟨?_, ?_, ?_⟩
  · have hjoin := congrArg (fun window => lead ++ (window ++ rest)) hsplit
    rw [h.line_eq]
    simpa using hjoin
  · rw [h.keywordOffset_eq, Text.byteSize_append, Text.byteSize_append]
    refine Nat.add_le_add_left (Nat.le_of_not_lt fun hlt => ?_) _
    -- Otherwise the stretch would begin inside the delimiter that opens the keyword.
    obtain ⟨gap, rfl, hgap⟩ :=
      Text.exists_between_of_byteSize_le hsplit.symm (Nat.le_of_lt hlt)
    cases gap with
    | nil => simp at hlt
    | cons d gap =>
      obtain ⟨inner, rfl⟩ := List.head?_eq_some_iff.mp hpart
      obtain ⟨rfl, _⟩ := List.cons.inj hgap
      simp [h.opened c (by simp)] at hc
  · have hsize := congrArg Text.byteSize hsplit
    rw [h.forwardEnd_eq]
    simp only [Text.byteSize_append] at hsize ⊢
    omega

/-- Behind what ends with no delimiter, a forward window goes on as the line does. -/
theorem DividesForward.head?_append (h : DividesForward line token next lead opener tail rest)
    {c : Char} (hpart : part.getLast? = some c) (hc : isDelimiter c = false)
    (hwindow : forward line token next = before ++ (part ++ after)) :
    (after ++ rest).head? = after.head? := by
  rcases h.closed with rfl | ⟨body, d, rfl, hd, _⟩
  · rw [List.append_nil]
  · cases after with
    | nil =>
      have hlast : d = c := by
        simpa [List.getLast?_append, hpart] using
          congrArg List.getLast? (h.window_eq.symm.trans hwindow)
      simp [hlast, hc] at hd
    | cons e after => rfl

end

section

variable {mode : ScanMode} {line before part rest : Text} {front back : List Token} {token : Token}

/-- What a stretch in reach leads to, but for the keyword itself, is no keyword that stands
alone. -/
theorem ReachesBack.keywordOffset_ne (hscan : scan mode line = front ++ token :: back)
    (hreach : ReachesBack line front.getLast? token before part rest) (hpart : Qualifies part)
    (hne : Text.byteSize (before ++ part) ≠ token.keywordOffset) :
    ∀ other ∈ isolated line, other.keywordOffset ≠ Text.byteSize (before ++ part) := by
  obtain ⟨c, inner, d, rfl, _, _⟩ := hpart
  have hc := c.utf8Size_pos
  have hstart := hreach.start_le
  have hstop := hreach.stop_le
  have hcut : before ++ c :: (inner ++ [d]) = (before ++ c :: inner) ++ [d] := by simp
  rw [hcut] at hne hstop ⊢
  have hline : line = (before ++ c :: inner) ++ d :: rest := by simpa using hreach.line_eq
  refine keywordOffset_ne_of_mem_isolated hscan hline ?_ (by omega)
  rw [Text.byteSize_append, Text.byteSize_cons]
  omega

/-- A stretch in reach behind a token does not begin at another token of the scan. -/
theorem ReachesOn.keywordOffset_ne (hscan : scan mode line = front ++ token :: back)
    (hreach : ReachesOn line token back.head? before part rest) (hpart : part ≠ [])
    (hne : Text.byteSize before ≠ token.keywordOffset) :
    ∀ other ∈ scan mode line, other.keywordOffset ≠ Text.byteSize before := by
  have hfollow := follow_scan mode line
  rw [hscan] at hfollow ⊢
  intro other hother hoffset
  have hstart := hreach.start_le
  have hstop := hreach.stop_le
  have hpos := Text.byteSize_pos hpart
  rw [Text.byteSize_append] at hstop
  have hopening := hfollow.standsIn_token.matchOffset_le_keywordOffset
  have hlt := (hfollow.standsIn other hother).keywordOffset_lt_keywordEnd
  rcases hfollow.isolates_forward.separate other hother (by rintro rfl; exact hne hoffset.symm)
    with hends | hbegins
  · omega
  · omega

end

end Token

end Storyboard
