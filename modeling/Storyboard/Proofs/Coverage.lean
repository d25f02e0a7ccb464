import Storyboard.Proofs.Cuts

/-!
# What windows cover

The windows of a line are stretches between its tokens. Each of them holds the keyword that it
belongs to and reaches into no other one. The forward windows of neighbours share the delimiter
between them and together hold everything from the first token on; the backward windows together
hold everything up to the last keyword. Both are shown for tokens that follow one another in a line
and hold of a scan in either mode.
-/

namespace Storyboard

namespace Token

/-- A window isolates a token among the tokens of a line: it is the stretch of the line between two
offsets, the keyword of the token stands in it at its place, and no other keyword reaches into
it. -/
structure Isolates (line : Text) (tokens : List Token) (token : Token) (start stop : Nat)
    (window : Text) : Prop where
  eq_slice : window = line.slice start stop
  stop_le : stop ≤ line.byteSize
  contains : ∃ front back, window = front ++ token.keyword ++ back ∧
    token.keywordOffset = start + Text.byteSize front
  separate : ∀ other ∈ tokens, other ≠ token →
    other.keywordEnd ≤ start ∨ stop ≤ other.keywordOffset

/-- The forward windows of tokens that follow one another in a line. -/
def forwardWindows (line : Text) : List Token → List Text
  | [] => []
  | token :: later => forward line token later.head? :: forwardWindows line later

/-- The backward windows of tokens that follow one another in a line behind `previous`, each as far
as its keyword. -/
def backwardParts (line : Text) (previous : Option Token) : List Token → List Text
  | [] => []
  | token :: later =>
    (backward line previous token).takeBytes (token.keywordEnd - backwardStart previous) ::
      backwardParts line (some token) later

/-- Windows one after the other, all but the last one without their final character. -/
def joinWindows : List Text → Text
  | [] => []
  | [window] => window
  | window :: next :: later => window.dropLast ++ joinWindows (next :: later)

section

variable {line : Text} {token : Token} {start stop : Nat}

/-- A stretch of a line around a keyword holds it at its place. -/
theorem StandsIn.exists_slice_eq (h : StandsIn line token) (hstart : line.isCut start = true)
    (hstop : line.isCut stop = true) (hle : start ≤ token.keywordOffset)
    (hle' : token.keywordEnd ≤ stop) :
    ∃ front back, line.slice start stop = front ++ token.keyword ++ back ∧
      token.keywordOffset = start + Text.byteSize front := by
  have hlt := h.keywordOffset_lt_keywordEnd
  refine ⟨line.slice start token.keywordOffset, line.slice token.keywordEnd stop, ?_, ?_⟩
  · rw [← h.slice_keyword,
      Text.slice_append_slice hstart h.cutsIn.keywordOffset h.cutsIn.keywordEnd hle
        (Nat.le_of_lt hlt),
      Text.slice_append_slice hstart h.cutsIn.keywordEnd hstop (by omega) hle']
  · rw [Text.byteSize_slice hstart h.cutsIn.keywordOffset hle]
    omega

/-- A forward window ends at the keyword of the next token. -/
theorem forwardEnd_eq {next : Option Token}
    (hnext : ∀ other, next = some other → StandsIn line other ∧ 0 < other.keywordOffset) :
    forwardEnd line next = (next.map keywordOffset).getD line.byteSize := by
  cases next with
  | none => rfl
  | some other =>
    obtain ⟨hstands, hpos⟩ := hnext other rfl
    exact (hstands.exists_opener hpos).1

end

namespace Follow

variable {line : Text} {front back tokens later : List Token} {token first last : Token}

/-- The tokens behind the first one follow one another. -/
theorem tail (h : Follow line (token :: later)) : Follow line later where
  standsIn other hother := h.standsIn other (List.mem_cons_of_mem token hother)
  pairwise := h.pairwise.of_cons

/-- A token stands behind those in front of it and before those behind it. -/
theorem keywordOffset_lt (h : Follow line (front ++ token :: back)) :
    (∀ other ∈ front, other.keywordOffset < token.keywordOffset) ∧
      ∀ other ∈ back, token.keywordOffset < other.keywordOffset := by
  obtain ⟨_, hback, hacross⟩ := List.pairwise_append.mp h.pairwise
  exact ⟨fun other hother => hacross other hother token List.mem_cons_self,
    (List.pairwise_cons.mp hback).1⟩

/-- Every token of a row stands in the line. -/
theorem standsIn_token (h : Follow line (front ++ token :: back)) : StandsIn line token :=
  h.standsIn token (by simp)

/-- A token further to the left in a row stands in the line. -/
theorem standsIn_front (h : Follow line (front ++ token :: back)) {other : Token}
    (hother : other ∈ front) : StandsIn line other :=
  h.standsIn other (List.mem_append_left _ hother)

/-- A token further to the right in a row stands in the line. -/
theorem standsIn_back (h : Follow line (front ++ token :: back)) {other : Token}
    (hother : other ∈ back) : StandsIn line other :=
  h.standsIn other (List.mem_append_right _ (List.mem_cons_of_mem token hother))

/-- The next token is never at the start of the line. -/
theorem standsIn_next (h : Follow line (front ++ token :: back)) (next : Token)
    (hnext : back.head? = some next) : StandsIn line next ∧ 0 < next.keywordOffset := by
  have hmem := List.mem_of_mem_head? hnext
  exact ⟨h.standsIn_back hmem, Nat.lt_of_le_of_lt (Nat.zero_le _) (h.keywordOffset_lt.2 next hmem)⟩

/-- The window behind a token ends at the next keyword or with the line. -/
theorem forwardEnd_head? (h : Follow line (front ++ token :: back)) :
    forwardEnd line back.head? = (back.head?.map keywordOffset).getD line.byteSize :=
  forwardEnd_eq h.standsIn_next

/-- The window behind a token isolates it. -/
theorem isolates_forward (h : Follow line (front ++ token :: back)) :
    Isolates line (front ++ token :: back) token token.matchOffset (forwardEnd line back.head?)
      (forward line token back.head?) := by
  have htoken := h.standsIn_token
  have hstop : line.isCut (forwardEnd line back.head?) = true ∧
      token.keywordEnd ≤ forwardEnd line back.head? ∧
      ∀ other ∈ back, forwardEnd line back.head? ≤ other.keywordOffset := by
    rw [h.forwardEnd_head?]
    cases back with
    | nil =>
      exact ⟨Text.isCut_byteSize line, Text.le_byteSize_of_isCut htoken.cutsIn.keywordEnd, by simp⟩
    | cons next rest =>
      have hnext : StandsIn line next := h.standsIn_back List.mem_cons_self
      have hlt := h.keywordOffset_lt.2 next List.mem_cons_self
      have hend := htoken.keywordEnd_le_matchOffset hnext hlt
      have hrest := (List.pairwise_cons.mp (List.pairwise_append.mp h.pairwise).2.1).2
      refine ⟨hnext.cutsIn.keywordOffset,
        Nat.le_trans hend hnext.matchOffset_le_keywordOffset, fun other hother => ?_⟩
      rcases List.mem_cons.mp hother with rfl | hother
      · exact Nat.le_refl _
      · exact Nat.le_of_lt ((List.pairwise_cons.mp hrest).1 other hother)
  obtain ⟨hcut, hle, hback⟩ := hstop
  -- The tokens in front end before this one begins, those behind begin where its window ends.
  refine ⟨rfl, Text.le_byteSize_of_isCut hcut,
    htoken.exists_slice_eq htoken.cutsIn.matchOffset hcut htoken.matchOffset_le_keywordOffset hle,
    fun other hother hne => ?_⟩
  rcases List.mem_append.mp hother with hfront | hother
  · exact Or.inl ((h.standsIn_front hfront).keywordEnd_le_matchOffset htoken
      (h.keywordOffset_lt.1 other hfront))
  · rcases List.mem_cons.mp hother with rfl | hmem
    · exact absurd rfl hne
    · exact Or.inr (hback other hmem)

/-- The window in front of a token begins behind the keywords before it. -/
theorem backwardStart_bounds (h : Follow line (front ++ token :: back)) :
    line.isCut (backwardStart front.getLast?) = true ∧
      backwardStart front.getLast? ≤ token.matchOffset ∧
      ∀ other ∈ front, other.keywordEnd ≤ backwardStart front.getLast? := by
  rcases List.eq_nil_or_concat front with rfl | ⟨before, previous, rfl⟩
  · exact ⟨Text.isCut_zero line, Nat.zero_le _, by simp⟩
  · rw [List.concat_eq_append] at h ⊢
    have hprevious : StandsIn line previous := h.standsIn_front (by simp)
    have hlt := h.keywordOffset_lt.1 previous (by simp)
    rw [List.getLast?_concat]
    refine ⟨hprevious.cutsIn.keywordEnd,
      hprevious.keywordEnd_le_matchOffset h.standsIn_token hlt, fun other hother => ?_⟩
    rcases List.mem_append.mp hother with hbefore | hlast
    · have hother := h.standsIn_front (List.mem_append_left [previous] hbefore)
      have hfront := (List.pairwise_append.mp h.pairwise).1
      have hless := (List.pairwise_append.mp hfront).2.2 other hbefore previous (by simp)
      have hend := hother.keywordEnd_le_matchOffset hprevious hless
      exact Nat.le_trans hend (Nat.le_of_lt hprevious.matchOffset_lt_keywordEnd)
    · obtain rfl := List.mem_singleton.mp hlast
      exact Nat.le_refl _

/-- The window in front of a token isolates it. -/
theorem isolates_backward (h : Follow line (front ++ token :: back)) :
    Isolates line (front ++ token :: back) token (backwardStart front.getLast?)
      (line.pastChar token.keywordEnd) (backward line front.getLast? token) := by
  have htoken := h.standsIn_token
  obtain ⟨hstart, hle, hfront⟩ := h.backwardStart_bounds
  obtain ⟨hstop, hpast⟩ := Text.isCut_pastChar htoken.cutsIn.keywordEnd
  refine ⟨rfl, Text.le_byteSize_of_isCut hstop,
    htoken.exists_slice_eq hstart hstop
      (Nat.le_trans hle htoken.matchOffset_le_keywordOffset) hpast,
    fun other hother hne => ?_⟩
  rcases List.mem_append.mp hother with hmem | hother
  · exact Or.inl (hfront other hmem)
  · rcases List.mem_cons.mp hother with rfl | hmem
    · exact absurd rfl hne
    · exact Or.inr (htoken.pastChar_keywordEnd_le (h.standsIn_back hmem)
        (h.keywordOffset_lt.2 other hmem))

/-- The window in front of a token ends with its keyword and the delimiter that closes it. -/
theorem exists_backward_eq (h : Follow line (front ++ token :: back)) :
    ∃ closing, backward line front.getLast? token =
        line.slice (backwardStart front.getLast?) token.keywordEnd ++ closing ∧
      (closing = [] ∧ token.keywordEnd = line.byteSize ∨
        ∃ d, closing = [d] ∧ isDelimiter d = true) := by
  have htoken := h.standsIn_token
  obtain ⟨hstart, hle, _⟩ := h.backwardStart_bounds
  obtain ⟨hstop, hpast⟩ := Text.isCut_pastChar htoken.cutsIn.keywordEnd
  obtain ⟨closing, hclosing, hends⟩ := htoken.exists_closing
  refine ⟨closing, ?_, hends⟩
  have hend := Nat.le_trans hle (Nat.le_of_lt htoken.matchOffset_lt_keywordEnd)
  rw [backward, ← hclosing,
    Text.slice_append_slice hstart htoken.cutsIn.keywordEnd hstop hend hpast]

/-- The window behind a token that has a next one ends with the delimiter that opens the next. -/
theorem exists_forward_eq {next : Token} {rest : List Token}
    (h : Follow line (token :: next :: rest)) :
    ∃ d, isDelimiter d = true ∧
      forward line token (some next) = line.slice token.matchOffset next.matchOffset ++ [d] := by
  have htoken := h.standsIn token List.mem_cons_self
  have hnext := h.standsIn next (by simp)
  have hlt := (List.pairwise_cons.mp h.pairwise).1 next List.mem_cons_self
  have hpos : 0 < next.keywordOffset := Nat.lt_of_le_of_lt (Nat.zero_le _) hlt
  obtain ⟨hpast, d, hd, hslice⟩ := hnext.exists_opener hpos
  have hle := Nat.le_trans (Nat.le_of_lt htoken.matchOffset_lt_keywordEnd)
    (htoken.keywordEnd_le_matchOffset hnext hlt)
  have hend : forwardEnd line (some next) = next.keywordOffset := hpast
  refine ⟨d, hd, ?_⟩
  rw [forward, hend, ← hslice, Text.slice_append_slice htoken.cutsIn.matchOffset
    hnext.cutsIn.matchOffset hnext.cutsIn.keywordOffset hle hnext.matchOffset_le_keywordOffset]

/-- The forward windows, without the delimiters that they share, make up the line from the first
token on. -/
theorem joinWindows_forwardWindows (h : Follow line (first :: later)) :
    joinWindows (forwardWindows line (first :: later)) = line.dropBytes first.matchOffset := by
  induction later generalizing first with
  | nil =>
    have hcut := (h.standsIn first List.mem_cons_self).cutsIn.matchOffset
    exact Text.slice_byteSize hcut
  | cons next rest ih =>
    obtain ⟨d, _, hforward⟩ := h.exists_forward_eq
    have hfirst := h.standsIn first List.mem_cons_self
    have hnext := h.standsIn next (by simp)
    have hlt := (List.pairwise_cons.mp h.pairwise).1 next List.mem_cons_self
    have hle := Nat.le_trans (Nat.le_of_lt hfirst.matchOffset_lt_keywordEnd)
      (hfirst.keywordEnd_le_matchOffset hnext hlt)
    have hrest : joinWindows (forwardWindows line (next :: rest)) =
        line.slice next.matchOffset line.byteSize := by
      rw [ih h.tail, Text.slice_byteSize hnext.cutsIn.matchOffset]
    have hjoin : joinWindows (forwardWindows line (first :: next :: rest)) =
        (forward line first (some next)).dropLast ++
          joinWindows (forwardWindows line (next :: rest)) := rfl
    rw [hjoin, hforward, List.dropLast_concat, hrest,
      Text.slice_append_slice hfirst.cutsIn.matchOffset hnext.cutsIn.matchOffset
        (Text.isCut_byteSize line) hle (Text.le_byteSize_of_isCut hnext.cutsIn.matchOffset),
      Text.slice_byteSize hfirst.cutsIn.matchOffset]

/-- Each forward window but the last one ends with a delimiter. -/
theorem exists_delimiter_of_mem_forwardWindows (h : Follow line tokens) {window : Text}
    (hwindow : window ∈ (forwardWindows line tokens).dropLast) :
    ∃ body d, window = body ++ [d] ∧ isDelimiter d = true := by
  induction tokens with
  | nil => simp [forwardWindows] at hwindow
  | cons token later ih =>
    cases later with
    | nil => simp [forwardWindows] at hwindow
    | cons next rest =>
      rw [forwardWindows, forwardWindows, List.dropLast_cons_cons, ← forwardWindows] at hwindow
      rcases List.mem_cons.mp hwindow with rfl | hwindow
      · obtain ⟨d, hd, hforward⟩ := h.exists_forward_eq
        exact ⟨_, d, hforward, hd⟩
      · exact ih h.tail hwindow

/-- A backward window begins with the line from the token before to the end of the own keyword. -/
theorem takeBytes_backward (h : Follow line (front ++ token :: back)) :
    (backward line front.getLast? token).takeBytes
        (token.keywordEnd - backwardStart front.getLast?) =
      line.slice (backwardStart front.getLast?) token.keywordEnd := by
  obtain ⟨closing, hbackward, _⟩ := h.exists_backward_eq
  obtain ⟨hstart, hle, _⟩ := h.backwardStart_bounds
  have hend := Nat.le_trans hle (Nat.le_of_lt h.standsIn_token.matchOffset_lt_keywordEnd)
  rw [hbackward, ← Text.byteSize_slice hstart h.standsIn_token.cutsIn.keywordEnd hend,
    Text.takeBytes_append]

/-- The backward windows as far as their keywords make up the line up to the last keyword. -/
theorem flatten_backwardParts (h : Follow line (front ++ tokens ++ [last])) :
    (backwardParts line front.getLast? (tokens ++ [last])).flatten =
      line.slice (backwardStart front.getLast?) last.keywordEnd := by
  induction tokens generalizing front with
  | nil =>
    rw [List.append_nil] at h
    simp only [List.nil_append, backwardParts, List.flatten_cons, List.flatten_nil,
      List.append_nil]
    exact h.takeBytes_backward
  | cons token later ih =>
    have hsplit : front ++ token :: later ++ [last] = front ++ token :: (later ++ [last]) := by
      simp
    have hshift : Follow line (front ++ [token] ++ later ++ [last]) := by simpa using h
    have hlater := ih hshift
    rw [List.getLast?_concat] at hlater
    rw [hsplit] at h
    have htoken := h.standsIn_token
    have hlast : StandsIn line last := h.standsIn_back (by simp)
    have hlt := h.keywordOffset_lt.2 last (by simp)
    obtain ⟨hstart, hle, _⟩ := h.backwardStart_bounds
    have hend := Nat.le_trans hle (Nat.le_of_lt htoken.matchOffset_lt_keywordEnd)
    have hends : token.keywordEnd ≤ last.keywordEnd :=
      Nat.le_trans (htoken.keywordEnd_le_matchOffset hlast hlt)
        (Nat.le_of_lt hlast.matchOffset_lt_keywordEnd)
    rw [List.cons_append, backwardParts, List.flatten_cons, h.takeBytes_backward, hlater]
    exact Text.slice_append_slice hstart htoken.cutsIn.keywordEnd hlast.cutsIn.keywordEnd hend hends

end Follow

end Token

/-- Windows isolate and cover. In either mode the forward window of a token reaches from the token
to the keyword of the next one or to the end of the line, and the backward window from the end of
the keyword before it, or the start of the line, to the end of its own keyword and at most one
delimiter more. Each window holds the keyword of its token at its place and reaches into no other
keyword. The forward windows, all but the last one without the delimiter that they end with, make
up the line from the first token on; the backward windows as far as their keywords make up the line
up to the end of the last one. -/
theorem windows_isolate_and_cover (mode : ScanMode) (line : Text) :
    (∀ front token back, scan mode line = front ++ token :: back →
      Token.forward line token back.head? =
        line.slice token.matchOffset ((back.head?.map Token.keywordOffset).getD line.byteSize) ∧
      (∃ closing, Token.backward line front.getLast? token =
          line.slice ((front.getLast?.map Token.keywordEnd).getD 0) token.keywordEnd ++ closing ∧
        (closing = [] ∧ token.keywordEnd = line.byteSize ∨
          ∃ d, closing = [d] ∧ isDelimiter d = true)) ∧
      Token.Isolates line (scan mode line) token token.matchOffset
        (Token.forwardEnd line back.head?) (Token.forward line token back.head?) ∧
      Token.Isolates line (scan mode line) token (Token.backwardStart front.getLast?)
        (line.pastChar token.keywordEnd) (Token.backward line front.getLast? token)) ∧
    (∀ first later, scan mode line = first :: later →
      Token.joinWindows (Token.forwardWindows line (scan mode line)) =
        line.dropBytes first.matchOffset) ∧
    (∀ window ∈ (Token.forwardWindows line (scan mode line)).dropLast,
      ∃ body d, window = body ++ [d] ∧ isDelimiter d = true) ∧
    ∀ front last, scan mode line = front ++ [last] →
      (Token.backwardParts line none (scan mode line)).flatten =
        line.takeBytes last.keywordEnd := by
  have hfollow := follow_scan mode line
  refine ⟨fun front token back htokens => ?_, fun first later htokens => ?_,
    fun window hwindow => hfollow.exists_delimiter_of_mem_forwardWindows hwindow,
    fun front last htokens => ?_⟩
  · rw [htokens] at hfollow ⊢
    refine ⟨?_, hfollow.exists_backward_eq, hfollow.isolates_forward, hfollow.isolates_backward⟩
    rw [Token.forward, hfollow.forwardEnd_head?]
  · rw [htokens] at hfollow ⊢
    exact hfollow.joinWindows_forwardWindows
  · rw [htokens] at hfollow ⊢
    have hwhole : Token.Follow line ([] ++ front ++ [last]) := hfollow
    have hparts := hwhole.flatten_backwardParts
    rw [← Text.slice_zero]
    exact hparts

/-- The ideographic space has three bytes. It closes the unit of time and opens the audio, and both
windows hold it. -/
example :
    let line := "5 seconds\u3000audio left".toList
    let tokens := scan .boundaryPreserving line
    Token.forwardWindows line tokens =
        [" seconds\u3000".toList, "\u3000audio left".toList] ∧
      Token.joinWindows (Token.forwardWindows line tokens) =
        " seconds\u3000audio left".toList ∧
      Token.backwardParts line none tokens = ["5 seconds".toList, "\u3000audio".toList] := by
  decide +kernel

end Storyboard
