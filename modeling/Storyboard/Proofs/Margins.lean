import Storyboard.Proofs.Cuts
import Storyboard.Proofs.Independence
import Storyboard.Proofs.Lines
import Storyboard.Proofs.Thinning

/-!
# Lines with margins

White space behind a line changes none of its tokens, and the last windows only gain white space.
White space in front of a line moves its tokens to the right, and the first windows gain it. Since
no object is described by white space, every token keeps its outcome, and of a diagnostic only the
column grows.
-/

namespace Storyboard

/-- No keyword begins with a delimiter. -/
theorem keywordAt?_cons_of_isDelimiter {d : Char} (hd : isDelimiter d = true) (t : Text) :
    keywordAt? (d :: t) = none := by
  rw [← Option.not_isSome_iff_eq_none, Option.isSome_iff_exists]
  rintro ⟨⟨kind, keyword⟩, hkeyword⟩
  obtain ⟨after, heq, hspells, _⟩ := exists_after_of_keywordAt? hkeyword
  obtain ⟨c, keyword, rfl⟩ := List.exists_cons_of_ne_nil hspells.ne_nil
  obtain ⟨rfl, _⟩ := List.cons.inj heq
  have hall : (keywords.all fun entry => entry.1.head?.all fun c => !isDelimiter c) = true := by
    decide
  have hfirst := List.all_eq_true.mp hall _ hspells
  simp [hd] at hfirst

/-- Delimiters behind a text do not change the keyword at its start. -/
theorem keywordAt?_append_delimiters {w : Text} (hw : ∀ c ∈ w, isDelimiter c = true) (t : Text) :
    keywordAt? (t ++ w) = keywordAt? t := by
  have hends : endsKeyword w = true := by
    cases w with
    | nil => rfl
    | cons d w => exact hw d List.mem_cons_self
  refine keywordAt?_congr fun kind spelled hspells => ?_
  constructor
  · rintro ⟨after, heq, hafter⟩
    rcases List.append_eq_append_iff.mp heq with ⟨m, hspelled, rfl⟩ | ⟨m, rfl, hrest⟩
    · -- The keyword would end with a delimiter if it went on behind the text.
      rcases List.eq_nil_or_concat m with rfl | ⟨m, d, rfl⟩
      · exact ⟨[], by simp [hspelled], rfl⟩
      · rw [hspelled, List.concat_eq_append, ← List.append_assoc] at hspells
        have hd := hw d (by simp)
        rw [hspells.isDelimiter_last] at hd
        exact absurd hd Bool.false_ne_true
    · refine ⟨m, rfl, ?_⟩
      cases m with
      | nil => rfl
      | cons c m =>
        rw [hrest] at hafter
        exact hafter
  · rintro ⟨after, rfl, hafter⟩
    refine ⟨after ++ w, by simp, ?_⟩
    cases after with
    | nil => exact hends
    | cons c after => exact hafter

namespace Token

/-- No keyword stands in a text of delimiters. -/
theorem isolatedFrom_of_delimiters {w : Text} (hw : ∀ c ∈ w, isDelimiter c = true)
    (before : Option Char) (offset : Nat) : isolatedFrom before offset w = [] := by
  induction w generalizing before offset with
  | nil => rfl
  | cons d w ih =>
    obtain ⟨hd, hw⟩ := List.forall_mem_cons.mp hw
    have hnone : isolatedAt? before offset (d :: w) = none := by
      rw [isolatedAt?, keywordAt?_cons_of_isDelimiter hd]
      split <;> rfl
    rw [isolatedFrom, hnone, ih hw]
    rfl

/-- Delimiters behind a line do not change which keywords stand alone in it. -/
theorem isolated_append_delimiters {w : Text} (hw : ∀ c ∈ w, isDelimiter c = true) (line : Text) :
    isolated (line ++ w) = isolated line := by
  have hkeyword : ∀ t, t ≠ [] → t <:+ line → keywordAt? (t ++ w) = keywordAt? t :=
    fun t _ _ => keywordAt?_append_delimiters hw t
  rw [isolated, isolatedFrom_append hkeyword, isolatedFrom_of_delimiters hw, List.append_nil]
  rfl

/-- The same token in a line that has delimiters put in front. A token at the start of the line is
now opened by the last one of them. -/
def indent (w : Text) (token : Token) : Token :=
  { token with
    matchOffset :=
      if token.keywordOffset = 0 then Text.byteSize w.dropLast
      else Text.byteSize w + token.matchOffset
    keywordOffset := Text.byteSize w + token.keywordOffset }

/-- A keyword in an indented line ends as much further to the right. -/
theorem keywordEnd_indent (w : Text) (token : Token) :
    (token.indent w).keywordEnd = Text.byteSize w + token.keywordEnd :=
  Nat.add_assoc _ token.keywordOffset _

/-- A token that does not begin the line is only moved. -/
theorem indent_eq_shift (w : Text) {token : Token} (h : token.keywordOffset ≠ 0) :
    token.indent w = token.shift (Text.byteSize w) := by
  rw [indent, if_neg h]
  rfl

/-- Delimiters in front of a line move the keywords that stand alone in it. -/
theorem isolated_append_left {w : Text} (hw : ∀ c ∈ w, isDelimiter c = true) (line : Text) :
    isolated (w ++ line) = (isolated line).map (indent w) := by
  have hkeyword : ∀ t, t ≠ [] → t <:+ w → keywordAt? (t ++ line) = keywordAt? t := by
    intro t hne ht
    obtain ⟨d, t, rfl⟩ := List.exists_cons_of_ne_nil hne
    have hd := hw d (ht.subset List.mem_cons_self)
    rw [List.cons_append, keywordAt?_cons_of_isDelimiter hd, keywordAt?_cons_of_isDelimiter hd]
  rw [isolated, isolatedFrom_append hkeyword, isolatedFrom_of_delimiters hw, List.nil_append,
    Option.or_none, Nat.zero_add]
  cases line with
  | nil => rfl
  | cons c rest =>
    -- A keyword at the start now has a delimiter to open it; all others only move.
    have hopening : opening? w.getLast? (Text.byteSize w) = some (Text.byteSize w.dropLast) := by
      rcases List.eq_nil_or_concat w with rfl | ⟨m, d, rfl⟩
      · rfl
      · have hd := hw d (by simp)
        simp [opening?, hd]
    have hfirst : isolatedAt? w.getLast? (Text.byteSize w) (c :: rest) =
        (isolatedAt? none 0 (c :: rest)).map (indent w) := by
      rw [isolatedAt?, isolatedAt?, hopening, opening?]
      cases keywordAt? (c :: rest) <;> rfl
    have hlater : isolatedFrom (some c) (Text.byteSize w + c.utf8Size) rest =
        (isolatedFrom (some c) c.utf8Size rest).map (indent w) := by
      rw [isolatedFrom_shift _ (by rintro e ⟨⟩; exact Nat.le_refl _)]
      refine List.map_congr_left fun token htoken => (indent_eq_shift w ?_).symm
      have hle := le_keywordOffset_of_mem htoken
      have hc := c.utf8Size_pos
      omega
    rw [isolatedFrom, hfirst, hlater, isolated, isolatedFrom, Nat.zero_add, List.map_append]
    cases isolatedAt? none 0 (c :: rest) <;> rfl

/-- A change of tokens that keeps which of them meet keeps which of them are left out. -/
theorem thin_map {f : Token → Token} {kept : Option Token} {tokens : List Token}
    (hkept : ∀ a ∈ kept, ∀ b ∈ tokens,
      (f a).keywordEnd = (f b).matchOffset ↔ a.keywordEnd = b.matchOffset)
    (hpairs : tokens.Pairwise fun a b =>
      (f a).keywordEnd = (f b).matchOffset ↔ a.keywordEnd = b.matchOffset) :
    thin (kept.map f) (tokens.map f) = (thin kept tokens).map f := by
  induction tokens generalizing kept with
  | nil => rfl
  | cons token later ih =>
    obtain ⟨hfirst, hlater⟩ := List.pairwise_cons.mp hpairs
    have hmeets : (kept.map f).map keywordEnd = some (f token).matchOffset ↔
        kept.map keywordEnd = some token.matchOffset := by
      cases kept with
      | none => simp
      | some a => simpa using hkept a rfl token List.mem_cons_self
    have hrest : ∀ a ∈ kept, ∀ b ∈ later,
        (f a).keywordEnd = (f b).matchOffset ↔ a.keywordEnd = b.matchOffset :=
      fun a ha b hb => hkept a ha b (List.mem_cons_of_mem token hb)
    rw [List.map_cons, thin, thin]
    by_cases h : kept.map keywordEnd = some token.matchOffset
    · rw [if_pos h, if_pos (hmeets.mpr h), ih hrest hlater]
    · have htoken : ∀ a ∈ some token, ∀ b ∈ later,
          (f a).keywordEnd = (f b).matchOffset ↔ a.keywordEnd = b.matchOffset := by
        rintro a ⟨⟩ b hb
        exact hfirst b hb
      rw [if_neg h, if_neg (mt hmeets.mp h), List.map_cons, ← ih htoken hlater]
      rfl

end Token

/-- Delimiters behind a line do not change its tokens. -/
theorem scan_append_delimiters {w : Text} (hw : ∀ c ∈ w, isDelimiter c = true) (mode : ScanMode)
    (line : Text) : scan mode (line ++ w) = scan mode line := by
  have hisolated := Token.isolated_append_delimiters hw line
  cases mode with
  | boundaryPreserving => rw [scan_boundaryPreserving, scan_boundaryPreserving, hisolated]
  | legacy => rw [scan_legacy, scan_legacy, hisolated]

/-- Delimiters in front of a line move its tokens. -/
theorem scan_append_left {w : Text} (hw : ∀ c ∈ w, isDelimiter c = true) (mode : ScanMode)
    (line : Text) : scan mode (w ++ line) = (scan mode line).map (Token.indent w) := by
  have hisolated := Token.isolated_append_left hw line
  cases mode with
  | boundaryPreserving => rw [scan_boundaryPreserving, scan_boundaryPreserving, hisolated]
  | legacy =>
    rw [scan_legacy, scan_legacy, hisolated]
    have hpairs : (Token.isolated line).Pairwise fun a b =>
        (a.indent w).keywordEnd = (b.indent w).matchOffset ↔ a.keywordEnd = b.matchOffset := by
      refine (Token.pairwise_isolated line).imp fun {a b} h => ?_
      have hb : b.keywordOffset ≠ 0 := by omega
      rw [Token.keywordEnd_indent, Token.indent_eq_shift w hb]
      exact Nat.add_left_cancel_iff
    have hnone : ∀ a ∈ (none : Option Token), ∀ b ∈ Token.isolated line,
        (a.indent w).keywordEnd = (b.indent w).matchOffset ↔ a.keywordEnd = b.matchOffset := by
      simp
    exact Token.thin_map hnone hpairs

namespace Text

variable {line after : Text} {n start stop stop' : Nat}

/-- An offset that ends a stretch of a line does so with more behind the line as well, or it is the
end of the line and has moved into what comes behind. -/
def EndsAlike (line : Text) (stop stop' : Nat) : Prop :=
  (stop' = stop ∧ stop ≤ byteSize line) ∨ (stop = byteSize line ∧ byteSize line ≤ stop')

/-- Past an offset comes the same one with more behind the line, unless the line ends there. -/
theorem endsAlike_pastChar (h : line.isCut n = true) (after : Text) :
    line.EndsAlike (line.pastChar n) ((line ++ after).pastChar n) := by
  obtain ⟨a, b, rfl, rfl⟩ := isCut_iff.mp h
  cases b with
  | nil =>
    have hcut : (a ++ [] ++ after).isCut (byteSize a) = true :=
      isCut_iff.mpr ⟨a, after, by simp, rfl⟩
    rw [List.append_nil] at hcut ⊢
    exact Or.inr ⟨pastChar_byteSize a, (isCut_pastChar hcut).2⟩
  | cons c b =>
    left
    rw [List.append_assoc, List.cons_append, pastChar_append_cons, pastChar_append_cons,
      byteSize_append, byteSize_cons]
    omega

/-- A slice that ends alike with white space behind the line gains white space at most. -/
theorem exists_slice_append (hstart : line.isCut start = true) (hstop : line.EndsAlike stop stop')
    (hafter : after.AllBlank) :
    ∃ w, AllBlank w ∧ (line ++ after).slice start stop' = line.slice start stop ++ w := by
  rcases hstop with ⟨rfl, hle⟩ | ⟨rfl, hle⟩
  · exact ⟨[], AllBlank.nil, by rw [slice_append_of_le _ _ hstart hle, List.append_nil]⟩
  · obtain ⟨p, q, rfl, rfl⟩ := isCut_iff.mp hstart
    obtain ⟨k, rfl⟩ := Nat.exists_eq_add_of_le hle
    refine ⟨takeBytes k after, hafter.of_subset ?_, ?_⟩
    · intro c hc
      rw [← takeBytes_append_dropBytes k after]
      exact List.mem_append_left _ hc
    · have hleft := slice_append p q []
      have hright := slice_append_add p (q ++ after) 0 (byteSize q + k)
      rw [Nat.add_zero, slice_zero, takeBytes_append_of_le _ _ (Nat.le_add_right _ _),
        Nat.add_sub_cancel_left] at hright
      rw [List.append_nil] at hleft
      rw [List.append_assoc, byteSize_append, Nat.add_assoc, hright, ← byteSize_append, hleft]

end Text

namespace Token

/-- White space behind a line is all that a window gains. -/
theorem StandsIn.exists_window_append {line after : Text} (hafter : after.AllBlank) {token : Token}
    (htoken : StandsIn line token) {previous next : Option Token}
    (hprevious : ∀ other ∈ previous, StandsIn line other)
    (hnext : ∀ other ∈ next, StandsIn line other) :
    ∃ w, Text.AllBlank w ∧
      token.window (line ++ after) previous next = token.window line previous next ++ w := by
  have hstart : line.isCut (backwardStart previous) = true := by
    cases previous with
    | none => exact Text.isCut_zero line
    | some other => exact (hprevious other rfl).cutsIn.keywordEnd
  have hend : line.EndsAlike (forwardEnd line next) (forwardEnd (line ++ after) next) := by
    cases next with
    | none =>
      refine Or.inr ⟨rfl, ?_⟩
      rw [forwardEnd, Option.map_none, Option.getD_none, Text.byteSize_append]
      exact Nat.le_add_right _ _
    | some other => exact Text.endsAlike_pastChar (hnext other rfl).cutsIn.matchOffset after
  rw [window, window]
  split
  · exact Text.exists_slice_append hstart (Text.endsAlike_pastChar htoken.cutsIn.keywordEnd after)
      hafter
  · exact Text.exists_slice_append htoken.cutsIn.matchOffset hend hafter

section

variable {w : Text} (hw : ∀ c ∈ w, isDelimiter c = true) {line : Text} {token : Token}

include hw

/-- Delimiters in front of a line are all that a forward window gains. -/
theorem exists_forward_indent (htoken : token.keywordOffset = 0 → token.matchOffset = 0)
    {next : Option Token} (hnext : ∀ other ∈ next, other.keywordOffset ≠ 0) :
    ∃ v, (∀ c ∈ v, isDelimiter c = true) ∧
      (token.indent w).forward (w ++ line) (next.map (indent w)) =
        v ++ token.forward line next := by
  have hend : forwardEnd (w ++ line) (next.map (indent w)) =
      Text.byteSize w + forwardEnd line next := by
    cases next with
    | none => exact Text.byteSize_append w line
    | some other =>
      rw [Option.map_some, indent_eq_shift w (hnext other rfl)]
      exact forwardEnd_shift w line (some other)
  rw [forward, forward, hend]
  by_cases hzero : token.keywordOffset = 0
  · -- The window of a token at the start of the line gains the delimiter that now opens it.
    have hmatch : (token.indent w).matchOffset = Text.byteSize w.dropLast := if_pos hzero
    have hline := Text.slice_append_add w line 0 (forwardEnd line next)
    rw [Nat.add_zero] at hline
    rw [hmatch, htoken hzero]
    rcases List.eq_nil_or_concat w with rfl | ⟨m, d, rfl⟩
    · exact ⟨[], List.forall_mem_nil _, hline⟩
    · rw [List.concat_eq_append] at hw hline ⊢
      refine ⟨[d], List.forall_mem_singleton.mpr (hw d (by simp)), ?_⟩
      rw [List.dropLast_concat, Text.slice_append_left m [d] line (Nat.le_add_right _ _), hline]
  · refine ⟨[], List.forall_mem_nil _, ?_⟩
    have hmatch : (token.indent w).matchOffset = Text.byteSize w + token.matchOffset :=
      if_neg hzero
    rw [hmatch, Text.slice_append_add, List.nil_append]

/-- Delimiters in front of a line are all that a backward window gains. -/
theorem exists_backward_indent (previous : Option Token) :
    ∃ v, (∀ c ∈ v, isDelimiter c = true) ∧
      (token.indent w).backward (w ++ line) (previous.map (indent w)) =
        v ++ token.backward line previous := by
  rw [backward, backward, keywordEnd_indent, Text.pastChar_append_add]
  cases previous with
  | none =>
    have hleft := Text.slice_append_left [] w line
      (Nat.le_add_right (Text.byteSize w) (line.pastChar token.keywordEnd))
    have hline := Text.slice_append_add w line 0 (line.pastChar token.keywordEnd)
    rw [Nat.add_zero] at hline
    rw [List.nil_append, hline] at hleft
    exact ⟨w, hw, hleft⟩
  | some other =>
    refine ⟨[], List.forall_mem_nil _, ?_⟩
    have hstart : backwardStart ((some other).map (indent w)) =
        Text.byteSize w + backwardStart (some other) := keywordEnd_indent w other
    rw [hstart, Text.slice_append_add, List.nil_append]

/-- Delimiters in front of a line are all that a window gains. -/
theorem exists_window_indent (htoken : token.keywordOffset = 0 → token.matchOffset = 0)
    (previous : Option Token) {next : Option Token}
    (hnext : ∀ other ∈ next, other.keywordOffset ≠ 0) :
    ∃ v, (∀ c ∈ v, isDelimiter c = true) ∧
      (token.indent w).window (w ++ line) (previous.map (indent w)) (next.map (indent w)) =
        v ++ token.window line previous next := by
  rw [window, window]
  have hkind : (token.indent w).kind = token.kind := rfl
  rw [hkind]
  split
  · exact exists_backward_indent hw previous
  · exact exists_forward_indent hw htoken hnext

end

/-- A match begins with the line where its keyword does. -/
theorem StandsIn.matchOffset_eq_zero {line : Text} {token : Token} (h : StandsIn line token)
    (hzero : token.keywordOffset = 0) : token.matchOffset = 0 := by
  have hle := h.matchOffset_le_keywordOffset
  omega

end Token

namespace Assembly

open Token

/-- White space behind a line changes no outcome. -/
theorem outcomesAfter_append_blanks {line after : Text} (hafter : after.AllBlank)
    {previous : Option Token} {tokens : List Token}
    (hstands : ∀ token ∈ tokens, StandsIn line token)
    (hprevious : ∀ other ∈ previous, StandsIn line other) :
    outcomesAfter (line ++ after) previous tokens = outcomesAfter line previous tokens := by
  induction tokens generalizing previous with
  | nil => rfl
  | cons token later ih =>
    obtain ⟨htoken, hlater⟩ := List.forall_mem_cons.mp hstands
    have hnext : ∀ other ∈ later.head?, StandsIn line other :=
      fun other hother => hlater other (List.mem_of_mem_head? hother)
    have hsome : ∀ other ∈ some token, StandsIn line other := by
      rintro other ⟨⟩
      exact htoken
    obtain ⟨w, hw, hwindow⟩ := htoken.exists_window_append hafter hprevious hnext
    have hpadded := ofWindow_padded (List.forall_mem_nil _) hw token.kind
      (token.window line previous later.head?)
    rw [List.nil_append] at hpadded
    rw [outcomesAfter, outcomesAfter, assemble, assemble, hwindow, hpadded, ih hlater hsome]

/-- Delimiters in front of a line change no outcome but the place of its token. -/
theorem outcomesAfter_indent {w : Text} (hw : ∀ c ∈ w, isDelimiter c = true) {line : Text}
    (previous : Option Token) {tokens : List Token} (h : Follow line tokens) :
    outcomesAfter (w ++ line) (previous.map (indent w)) (tokens.map (indent w)) =
      (outcomesAfter line previous tokens).map fun entry => (entry.1.indent w, entry.2) := by
  induction tokens generalizing previous with
  | nil => rfl
  | cons token later ih =>
    obtain ⟨htoken, hlater⟩ := List.forall_mem_cons.mp h.standsIn
    obtain ⟨hfirst, hpairs⟩ := List.pairwise_cons.mp h.pairwise
    have hnext : ∀ other ∈ later.head?, other.keywordOffset ≠ 0 := by
      intro other hother
      have hlt := hfirst other (List.mem_of_mem_head? hother)
      omega
    obtain ⟨v, hv, hwindow⟩ := exists_window_indent hw htoken.matchOffset_eq_zero previous hnext
    have hpadded := ofWindow_padded hv Text.AllBlank.nil token.kind
      (token.window line previous later.head?)
    rw [List.append_nil] at hpadded
    have hhere : assemble (w ++ line) (previous.map (indent w)) (token.indent w)
          (later.map (indent w)).head? =
        assemble line previous token later.head? := by
      rw [List.head?_map, assemble, assemble, hwindow]
      exact hpadded
    have hrest := ih (some token) ⟨hlater, hpairs⟩
    rw [Option.map_some] at hrest
    rw [List.map_cons, outcomesAfter, outcomesAfter, hhere, hrest, List.map_cons]

/-- White space around a line changes no outcome but the place of its token. -/
theorem outcomes_padded {before after : Text} (hbefore : before.AllBlank) (hafter : after.AllBlank)
    (mode : ScanMode) (line : Text) :
    outcomes mode (before ++ (line ++ after)) =
      (outcomes mode line).map fun entry => (entry.1.indent before, entry.2) := by
  have hfollow := follow_scan mode line
  have hfollow' : Follow (line ++ after) (scan mode line) := by
    have h := follow_scan mode (line ++ after)
    rwa [scan_append_delimiters hafter.isDelimiter] at h
  have hafter' : outcomesAfter (line ++ after) none (scan mode line) =
      outcomesAfter line none (scan mode line) :=
    outcomesAfter_append_blanks hafter hfollow.standsIn (by simp)
  have hindent := outcomesAfter_indent hbefore.isDelimiter none hfollow'
  rw [outcomes, outcomes, scan_append_left hbefore.isDelimiter,
    scan_append_delimiters hafter.isDelimiter, ← hafter', ← hindent]
  rfl

end Assembly

end Storyboard
