import Storyboard.Proofs.Coverage
import Storyboard.Proofs.Thinning

/-!
# A token between its neighbours

The windows of a token divide its line: something comes in front of the window and behind it, and
the keyword stands in the window between the prose in front of it and the prose behind it. No
other keyword that stands alone has room in a window of the scan, but for one that is left out
because the token before it has used up the delimiter between them.
-/

namespace Storyboard

namespace Token

/-- The backward window of a token divides its line: it begins behind the token before, if there is
one, and then with a delimiter, and it ends behind the character that closes the keyword. -/
structure DividesBackward (line : Text) (previous : Option Token) (token : Token)
    (lead body closing rest : Text) : Prop where
  line_eq : line = lead ++ (body ++ (token.keyword ++ (closing ++ rest)))
  start_eq : backwardStart previous = Text.byteSize lead
  keywordOffset_eq : token.keywordOffset = Text.byteSize (lead ++ body)
  window_eq : backward line previous token = body ++ (token.keyword ++ closing)
  opened : lead = [] ∨ ∃ d later, body = d :: later ∧ isDelimiter d = true
  lead_last : ∀ c, lead.getLast? = some c → c.isDigit = false ∧ isDelimiter c = false
  closed : closing = [] ∧ rest = [] ∨ ∃ d, closing = [d] ∧ isDelimiter d = true

/-- The forward window of a token divides its line: it begins with the delimiter in front of the
keyword, if there is one, and ends with the line or with the delimiter in front of the next
keyword. -/
structure DividesForward (line : Text) (token : Token) (next : Option Token)
    (lead opener tail rest : Text) : Prop where
  line_eq : line = lead ++ (opener ++ (token.keyword ++ (tail ++ rest)))
  keywordOffset_eq : token.keywordOffset = Text.byteSize (lead ++ opener)
  window_eq : forward line token next = opener ++ (token.keyword ++ tail)
  forwardEnd_eq : forwardEnd line next = Text.byteSize (lead ++ (opener ++ (token.keyword ++ tail)))
  opened : ∀ c ∈ opener, isDelimiter c = true
  closed : rest = [] ∨ ∃ body d, tail = body ++ [d] ∧ isDelimiter d = true ∧
    ∃ kind keyword later, rest = keyword ++ later ∧ SpellsKeyword kind keyword

section

variable {line : Text} {token : Token} {previous next : Option Token}
  {lead body closing opener tail rest : Text}

/-- A window that begins behind a token has a delimiter in front of everything else, so that the
same character comes before a place in the window and in the line. -/
theorem DividesBackward.getLast?_append
    (h : DividesBackward line previous token lead body closing rest) {before after : Text}
    {c : Char} (hwindow : backward line previous token = before ++ c :: after)
    (hc : isDelimiter c = false) :
    (lead ++ before).getLast? = before.getLast? := by
  rcases h.opened with rfl | ⟨d, later, rfl, hd⟩
  · rfl
  · cases before with
    | nil =>
      rw [h.window_eq] at hwindow
      obtain ⟨rfl, _⟩ := List.cons.inj hwindow
      simp [hd] at hc
    | cons e before => simp [List.getLast?_append, List.getLast?_cons]

/-- What stands behind a delimiter in a window begins no later than a keyword without delimiters:
behind the keyword there is room for one delimiter only. -/
theorem DividesBackward.byteSize_le_body
    (h : DividesBackward line previous token lead body closing rest)
    (hkeyword : ∀ c ∈ token.keyword, isDelimiter c = false) {before after : Text} {d : Char}
    (hwindow : backward line previous token = before ++ d :: after) (hd : isDelimiter d = true)
    (hafter : after ≠ []) : Text.byteSize (before ++ [d]) ≤ Text.byteSize body := by
  rw [h.window_eq] at hwindow
  refine Nat.le_of_not_lt fun hfront => ?_
  rcases Nat.lt_or_ge (Text.byteSize before) (Text.byteSize (body ++ token.keyword)) with hlt | hge
  · obtain ⟨x, inner, hinside, _⟩ := Text.exists_inside_of_byteSize_lt hwindow hfront hlt
    have hfalse := hkeyword d (by simp [hinside])
    simp [hd] at hfalse
  · rw [← List.append_assoc] at hwindow
    obtain ⟨x, _, hclosing⟩ := Text.exists_between_of_byteSize_le hwindow hge
    rcases h.closed with ⟨hnil, _⟩ | ⟨e, hone, _⟩
    · simp [hnil] at hclosing
    · have hlength := congrArg List.length (hone.symm.trans hclosing)
      have hpos := List.length_pos_iff.mpr hafter
      simp only [List.length_append, List.length_cons, List.length_nil] at hlength
      omega

/-- The parts in front of the keyword are all that stands in front of it. -/
theorem DividesBackward.lead_append_body
    (h : DividesBackward line previous token lead body closing rest) {before after : Text}
    (hline : line = before ++ after) (hoffset : token.keywordOffset = Text.byteSize before) :
    lead ++ body = before := by
  have hsplit : (lead ++ body) ++ (token.keyword ++ (closing ++ rest)) = before ++ after := by
    simpa using h.line_eq.symm.trans hline
  exact (Text.append_inj_of_byteSize_eq hsplit (h.keywordOffset_eq.symm.trans hoffset)).1

/-- A row of digits and delimiters in front of the keyword belongs to the window. -/
theorem DividesBackward.byteSize_lead_le
    (h : DividesBackward line previous token lead body closing rest) {before gap : Text}
    (hsplit : lead ++ body = before ++ gap)
    (hgap : ∀ c ∈ gap, c.isDigit = true ∨ isDelimiter c = true) :
    Text.byteSize lead ≤ Text.byteSize before := by
  refine Nat.le_of_not_lt fun hlt => ?_
  obtain ⟨x, rfl, rfl⟩ := Text.exists_between_of_byteSize_le hsplit.symm (Nat.le_of_lt hlt)
  rcases List.eq_nil_or_concat x with rfl | ⟨y, c, rfl⟩
  · simp at hlt
  · obtain ⟨hdigit, hdelimiter⟩ := h.lead_last c (by simp)
    rcases hgap c (by simp) with hc | hc
    · simp [hdigit] at hc
    · simp [hdelimiter] at hc

/-- A token that follows a character begins with that character. -/
theorem StandsIn.matchOffset_eq (h : StandsIn line token) {before after : Text} {d : Char}
    (hline : line = before ++ d :: after)
    (hoffset : token.keywordOffset = Text.byteSize (before ++ [d])) :
    token.matchOffset = Text.byteSize before := by
  obtain ⟨p, s, rfl, h⟩ := h
  have hsplit : p ++ (token.keyword ++ s) = (before ++ [d]) ++ after := by simpa using hline
  obtain ⟨rfl, _⟩ := Text.append_inj_of_byteSize_eq hsplit (h.keywordOffset_eq.symm.trans hoffset)
  rcases h.opened with ⟨hnil, _⟩ | ⟨m, e, hm, _, hmatch⟩
  · simp at hnil
  · obtain ⟨rfl, _⟩ := List.append_inj' hm rfl
    exact hmatch

/-- A stretch without delimiters that begins no later than a keyword ends no later. -/
theorem StandsIn.byteSize_le_keywordEnd (h : StandsIn line token) {before part after : Text}
    (hline : line = before ++ (part ++ after)) (hpart : ∀ c ∈ part, isDelimiter c = false)
    (hle : Text.byteSize before ≤ token.keywordOffset) :
    Text.byteSize (before ++ part) ≤ token.keywordEnd := by
  obtain ⟨p, s, rfl, h⟩ := h
  have hlt := h.keywordOffset_lt_keywordEnd
  have hends := h.spells.2
  rw [h.keywordEnd_eq] at hlt ⊢
  refine Nat.le_of_not_lt fun hback => ?_
  cases s with
  | nil =>
    have hsize := congrArg Text.byteSize hline
    simp only [Text.byteSize_append, Text.byteSize_nil] at hsize hback
    omega
  | cons d s =>
    have hsplit : before ++ (part ++ after) = (p ++ token.keyword) ++ d :: s := by
      rw [← hline]
      simp
    have hfront : Text.byteSize before < Text.byteSize (p ++ token.keyword ++ [d]) := by
      rw [Text.byteSize_append _ [d]]
      omega
    obtain ⟨x, inner, rfl, _⟩ := Text.exists_inside_of_byteSize_lt hsplit hfront hback
    have hfalse := hpart d (by simp)
    rw [show isDelimiter d = true from hends] at hfalse
    exact absurd hfalse (by decide)

end

namespace Occurs

variable {before after : Text} {token : Token}

/-- A keyword ends neither with a digit nor with a delimiter. -/
theorem class_getLast? (h : Occurs before token after) {c : Char}
    (hc : (before ++ token.keyword).getLast? = some c) :
    c.isDigit = false ∧ isDelimiter c = false := by
  obtain ⟨x, e, hkeyword⟩ := Text.exists_append_singleton h.keyword_ne_nil
  have hspells := h.spells.1
  rw [hkeyword, ← List.append_assoc, List.getLast?_concat, Option.some.injEq] at hc
  rw [hkeyword, hc] at hspells
  exact ⟨hspells.isDigit_eq_false (by simp), hspells.isDelimiter_last⟩

/-- Past a keyword comes the delimiter that closes it, if the line goes on. -/
theorem exists_closing (h : Occurs before token after) :
    ∃ closing rest, after = closing ++ rest ∧
      Text.pastChar (before ++ (token.keyword ++ after)) token.keywordEnd =
        Text.byteSize (before ++ (token.keyword ++ closing)) ∧
      (closing = [] ∧ rest = [] ∨ ∃ d, closing = [d] ∧ isDelimiter d = true) := by
  have hends := h.spells.2
  rw [h.keywordEnd_eq, ← List.append_assoc]
  cases after with
  | nil =>
    refine ⟨[], [], rfl, ?_, Or.inl ⟨rfl, rfl⟩⟩
    rw [List.append_nil, Text.pastChar_byteSize, List.append_nil]
  | cons d after =>
    refine ⟨[d], after, rfl, ?_, Or.inr ⟨d, rfl, hends⟩⟩
    rw [Text.pastChar_append_cons]
    simp [Nat.add_assoc]

/-- In front of a keyword stands the delimiter that opens it, unless the line begins with it. -/
theorem exists_opener (h : Occurs before token after) :
    ∃ lead opener, before = lead ++ opener ∧ token.matchOffset = Text.byteSize lead ∧
      ∀ c ∈ opener, isDelimiter c = true := by
  rcases h.opened with ⟨rfl, hzero⟩ | ⟨m, d, rfl, hd, hm⟩
  · exact ⟨[], [], rfl, hzero, by simp⟩
  · exact ⟨m, [d], rfl, hm, by simpa using hd⟩

end Occurs

namespace Follow

variable {line : Text} {front back : List Token} {token : Token}

/-- What stands in front of a token is the part that its backward window leaves out, up to the end
of the token before, and the rest, which begins with the delimiter behind that token. -/
theorem exists_lead (h : Follow line (front ++ token :: back)) {before after : Text}
    (hline : line = before ++ (token.keyword ++ after)) (htoken : Occurs before token after) :
    ∃ lead body, before = lead ++ body ∧ backwardStart front.getLast? = Text.byteSize lead ∧
      (lead = [] ∨ ∃ d later, body = d :: later ∧ isDelimiter d = true) ∧
      ∀ c, lead.getLast? = some c → c.isDigit = false ∧ isDelimiter c = false := by
  obtain ⟨_, hle, _⟩ := h.backwardStart_bounds
  rcases List.eq_nil_or_concat front with rfl | ⟨others, previous, rfl⟩
  · exact ⟨[], before, rfl, rfl, Or.inl rfl, by simp⟩
  · rw [List.concat_eq_append] at h hle ⊢
    rw [List.getLast?_concat] at hle ⊢
    obtain ⟨p, r, hprevious, hoccurs⟩ : StandsIn line previous := h.standsIn_front (by simp)
    have hstart : backwardStart (some previous) = Text.byteSize (p ++ previous.keyword) :=
      hoccurs.keywordEnd_eq
    have hpos := Text.byteSize_pos hoccurs.keyword_ne_nil
    rw [hstart, Text.byteSize_append] at hle
    rcases htoken.opened with ⟨_, hzero⟩ | ⟨m, d, rfl, hd, hm⟩
    · omega
    · have hsplit : (p ++ previous.keyword) ++ r = m ++ d :: (token.keyword ++ after) := by
        rw [List.append_assoc, ← hprevious, hline]
        simp
      obtain ⟨gap, rfl, rfl⟩ :=
        Text.exists_between_of_byteSize_le hsplit (by rw [Text.byteSize_append]; omega)
      refine ⟨p ++ previous.keyword, gap ++ [d], by simp, hstart, Or.inr ?_,
        fun c hc => hoccurs.class_getLast? hc⟩
      cases gap with
      | nil => exact ⟨d, [], rfl, hd⟩
      | cons e gap => exact ⟨e, gap ++ [d], rfl, hoccurs.spells.2⟩

/-- The backward window of a token divides its line at the keywords of the tokens around it. -/
theorem exists_dividesBackward (h : Follow line (front ++ token :: back)) :
    ∃ lead body closing rest,
      DividesBackward line front.getLast? token lead body closing rest := by
  obtain ⟨before, after, hline, htoken⟩ := h.standsIn_token
  obtain ⟨lead, body, rfl, hstart, hopened, hlast⟩ := h.exists_lead hline htoken
  obtain ⟨closing, rest, rfl, hpast, hclosed⟩ := htoken.exists_closing
  rw [← hline] at hpast
  refine ⟨lead, body, closing, rest, by simpa using hline, hstart, htoken.keywordOffset_eq, ?_,
    hopened, hlast, hclosed⟩
  have hslice := Text.slice_append lead (body ++ (token.keyword ++ closing)) rest
  rw [backward, hpast, hstart, hline]
  simpa using hslice

/-- What stands behind a token is the part in its forward window and the rest, which begins with the
next keyword. -/
theorem exists_tail (h : Follow line (front ++ token :: back)) {before after : Text}
    (hline : line = before ++ (token.keyword ++ after)) (htoken : Occurs before token after) :
    ∃ tail rest, after = tail ++ rest ∧
      forwardEnd line back.head? = Text.byteSize (before ++ (token.keyword ++ tail)) ∧
      (rest = [] ∨ ∃ body d, tail = body ++ [d] ∧ isDelimiter d = true ∧
        ∃ kind keyword later, rest = keyword ++ later ∧ SpellsKeyword kind keyword) := by
  rw [h.forwardEnd_head?]
  cases back with
  | nil => exact ⟨after, [], by simp, by simp [hline], Or.inl rfl⟩
  | cons next later =>
    have hlt := h.keywordOffset_lt.2 next List.mem_cons_self
    have hle := h.standsIn_token.keywordEnd_le_matchOffset (h.standsIn_back List.mem_cons_self) hlt
    obtain ⟨q, s, hnext, hoccurs⟩ : StandsIn line next := h.standsIn_back List.mem_cons_self
    have hpos := htoken.keywordOffset_lt_keywordEnd
    rcases hoccurs.opened with ⟨_, hzero⟩ | ⟨m, d, rfl, hd, hm⟩
    · omega
    · rw [htoken.keywordEnd_eq, hm] at hle
      have hcut : (before ++ token.keyword) ++ after = m ++ d :: (next.keyword ++ s) := by
        rw [List.append_assoc, ← hline, hnext]
        simp
      obtain ⟨gap, rfl, rfl⟩ := Text.exists_between_of_byteSize_le hcut hle
      refine ⟨gap ++ [d], next.keyword ++ s, by simp, ?_,
        Or.inr ⟨gap, d, rfl, hd, next.kind, next.keyword, s, rfl, hoccurs.spells.1⟩⟩
      simpa using hoccurs.keywordOffset_eq

/-- The forward window of a token divides its line at the keywords of the tokens around it. -/
theorem exists_dividesForward (h : Follow line (front ++ token :: back)) :
    ∃ lead opener tail rest, DividesForward line token back.head? lead opener tail rest := by
  obtain ⟨before, after, hline, htoken⟩ := h.standsIn_token
  obtain ⟨tail, rest, rfl, hstop, hclosed⟩ := h.exists_tail hline htoken
  obtain ⟨lead, opener, rfl, hstart, hopened⟩ := htoken.exists_opener
  rw [List.append_assoc] at hstop
  refine ⟨lead, opener, tail, rest, by simpa using hline, htoken.keywordOffset_eq, ?_, hstop,
    hopened, hclosed⟩
  have hslice := Text.slice_append lead (opener ++ (token.keyword ++ tail)) rest
  rw [forward, hstop, hstart, hline]
  simpa using hslice

end Follow

end Token

section

variable {mode : ScanMode} {line : Text} {front back : List Token} {token other : Token}

/-- A keyword that stands alone is scanned, or the token that ends where it begins is. -/
theorem mem_scan_or_exists_keywordEnd_eq (mode : ScanMode) (hother : other ∈ Token.isolated line) :
    other ∈ scan mode line ∨ ∃ kept ∈ scan mode line, kept.keywordEnd = other.matchOffset := by
  cases mode with
  | boundaryPreserving =>
    rw [scan_boundaryPreserving]
    exact Or.inl hother
  | legacy =>
    rw [scan_legacy]
    rcases Token.mem_thin_or_exists_keywordEnd_eq none hother with h | h | h
    · exact Or.inl h
    · simp at h
    · exact Or.inr h

/-- A keyword that stands alone in front of a token begins no later than its backward window. -/
theorem matchOffset_le_backwardStart (hscan : scan mode line = front ++ token :: back)
    (hother : other ∈ Token.isolated line) (hlt : other.keywordOffset < token.keywordOffset) :
    other.matchOffset ≤ Token.backwardStart front.getLast? := by
  have hfollow := follow_scan mode line
  have hstands := Token.mem_isolated_iff.mp hother
  have hkept : ∀ kept ∈ scan mode line, kept.keywordOffset < token.keywordOffset →
      kept.keywordEnd ≤ Token.backwardStart front.getLast? := by
    rw [hscan] at hfollow ⊢
    intro kept hmem hless
    rcases List.mem_append.mp hmem with hfront | hback
    · exact hfollow.backwardStart_bounds.2.2 kept hfront
    · rcases List.mem_cons.mp hback with rfl | hback
      · exact absurd hless (Nat.lt_irrefl _)
      · exact absurd hless (Nat.lt_asymm (hfollow.keywordOffset_lt.2 kept hback))
  rcases mem_scan_or_exists_keywordEnd_eq mode hother with hmem | ⟨kept, hmem, hend⟩
  · exact Nat.le_trans (Nat.le_of_lt hstands.matchOffset_lt_keywordEnd) (hkept other hmem hlt)
  · have hless := (hfollow.standsIn kept hmem).keywordOffset_lt_keywordEnd
    have hopening := hstands.matchOffset_le_keywordOffset
    rw [← hend]
    exact hkept kept hmem (by omega)

/-- Inside the backward window of a token, and in front of its keyword, no keyword stands alone. -/
theorem keywordOffset_ne_of_mem_isolated (hscan : scan mode line = front ++ token :: back)
    {before after : Text} {d : Char} (hline : line = before ++ d :: after)
    (hstart : Token.backwardStart front.getLast? < Text.byteSize before)
    (hlt : Text.byteSize (before ++ [d]) < token.keywordOffset) :
    ∀ other ∈ Token.isolated line, other.keywordOffset ≠ Text.byteSize (before ++ [d]) := by
  intro other hother hoffset
  have hmatch := (Token.mem_isolated_iff.mp hother).matchOffset_eq hline hoffset
  have hle := matchOffset_le_backwardStart hscan hother (by rwa [hoffset])
  omega

end

end Storyboard
