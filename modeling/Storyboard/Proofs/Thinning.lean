import Storyboard.Proofs.Scanning

/-!
# Scanning with delimiters of one's own

Where a delimiter belongs to the keyword in front of it, fewer keywords are found. They are those
that remain when the isolated keywords are thinned from left to right, leaving out each one whose
opening delimiter closes the last one kept.
-/

namespace Storyboard

namespace Token

/-- Goes through tokens from left to right and leaves out each one that begins where the last one
kept has ended. -/
def thin (kept : Option Token) : List Token → List Token
  | [] => []
  | token :: later =>
    if kept.map keywordEnd = some token.matchOffset then thin kept later
    else token :: thin (some token) later

/-- Thinning keeps some of the tokens, in their order. -/
theorem thin_sublist (kept : Option Token) (tokens : List Token) :
    (thin kept tokens).Sublist tokens := by
  induction tokens generalizing kept with
  | nil => exact List.Sublist.refl _
  | cons token later ih =>
    rw [thin]
    split
    · exact (ih kept).cons token
    · exact (ih (some token)).cons_cons token

/-- Two consecutive entries of a list are its first two or come later. -/
private theorem pair_infix_cons_iff {a b c : Token} {tokens : List Token} :
    [a, b] <:+: c :: tokens ↔ (a = c ∧ tokens.head? = some b) ∨ [a, b] <:+: tokens := by
  rw [List.infix_cons_iff, List.cons_prefix_cons]
  cases tokens with
  | nil => simp
  | cons d later => simp [eq_comm]

/-- A token that is left out begins where a token that is kept has ended. -/
theorem mem_thin_or_exists_keywordEnd_eq (kept : Option Token) {tokens : List Token}
    {token : Token} (h : token ∈ tokens) :
    token ∈ thin kept tokens ∨ kept.map keywordEnd = some token.matchOffset ∨
      ∃ a ∈ thin kept tokens, a.keywordEnd = token.matchOffset := by
  induction tokens generalizing kept with
  | nil => simp at h
  | cons first later ih =>
    rw [thin]
    rcases List.mem_cons.mp h with rfl | h
    · split
      next hdrop => exact Or.inr (Or.inl hdrop)
      next => exact Or.inl List.mem_cons_self
    · split
      next => exact ih kept h
      next =>
        rcases ih (some first) h with hmem | hfirst | ⟨a, ha, hend⟩
        · exact Or.inl (List.mem_cons_of_mem first hmem)
        · exact Or.inr (Or.inr ⟨first, List.mem_cons_self, by simpa using hfirst⟩)
        · exact Or.inr (Or.inr ⟨a, List.mem_cons_of_mem first ha, hend⟩)

/-- A token that begins where no token has ended is kept. -/
theorem mem_thin_of_forall_ne {kept : Option Token} {tokens : List Token} {token : Token}
    (h : token ∈ tokens) (hkept : kept.map keywordEnd ≠ some token.matchOffset)
    (hne : ∀ a ∈ tokens, a.keywordEnd ≠ token.matchOffset) : token ∈ thin kept tokens := by
  rcases mem_thin_or_exists_keywordEnd_eq kept h with hmem | hdrop | ⟨a, ha, hend⟩
  · exact hmem
  · exact absurd hdrop hkept
  · exact absurd hend (hne a ((thin_sublist kept tokens).mem ha))

/-- Of two consecutive tokens, at least one is kept. -/
theorem mem_thin_or_mem_thin {kept : Option Token} {tokens : List Token} {a b : Token}
    (hpairs : tokens.Pairwise fun a b => a.matchOffset < b.matchOffset)
    (h : [a, b] <:+: tokens) : a ∈ thin kept tokens ∨ b ∈ thin kept tokens := by
  induction tokens generalizing kept with
  | nil => simp at h
  | cons token later ih =>
    obtain ⟨hfirst, hlater⟩ := List.pairwise_cons.mp hpairs
    rcases pair_infix_cons_iff.mp h with ⟨rfl, hb⟩ | h
    · obtain ⟨rest, rfl⟩ := List.head?_eq_some_iff.mp hb
      rw [thin]
      split
      next hdrop =>
        -- The first is left out since it begins where the kept one ends; the second begins later.
        right
        have hlt := hfirst b List.mem_cons_self
        have hkeep : kept.map keywordEnd ≠ some b.matchOffset := by
          rw [hdrop]
          simpa using Nat.ne_of_lt hlt
        rw [thin, if_neg hkeep]
        exact List.mem_cons_self
      next => exact Or.inl List.mem_cons_self
    · rw [thin]
      split
      · exact ih hlater h
      · exact (ih hlater h).imp (List.mem_cons_of_mem _) (List.mem_cons_of_mem _)

/-- Thinning behind a kept token leaves out nothing exactly if no token begins where the one in
front of it has ended. -/
theorem thin_some_eq_self_iff {kept : Token} {tokens : List Token} :
    thin (some kept) tokens = tokens ↔
      ∀ a b, [a, b] <:+: kept :: tokens → a.keywordEnd ≠ b.matchOffset := by
  induction tokens generalizing kept with
  | nil =>
    refine ⟨fun _ a b h => ?_, fun _ => rfl⟩
    have hlength := h.length_le
    simp at hlength
  | cons token later ih =>
    rw [thin]
    by_cases hdrop : kept.keywordEnd = token.matchOffset
    · rw [if_pos (by rw [Option.map_some, hdrop])]
      constructor
      · intro h
        have hlength := (thin_sublist (some kept) later).length_le
        rw [h, List.length_cons] at hlength
        omega
      · intro h
        exact absurd hdrop (h kept token ⟨[], later, rfl⟩)
    · rw [if_neg (by simpa using hdrop), List.cons_inj_right, ih]
      constructor
      · intro h a b hinfix
        rcases pair_infix_cons_iff.mp hinfix with ⟨rfl, hb⟩ | hinfix
        · obtain rfl : token = b := by simpa using hb
          exact hdrop
        · exact h a b hinfix
      · intro h a b hinfix
        exact h a b (pair_infix_cons_iff.mpr (Or.inr hinfix))

/-- Thinning drops nothing exactly if no token begins where the one before it ends. -/
theorem thin_eq_self_iff {tokens : List Token} :
    thin none tokens = tokens ↔ ∀ a b, [a, b] <:+: tokens → a.keywordEnd ≠ b.matchOffset := by
  cases tokens with
  | nil => simp [thin]
  | cons token later => simp [thin, thin_some_eq_self_iff]

/-- A choice by what is used up is a thinning, where the two agree on each token that comes up and
on each pair of them. -/
theorem keepFree_eq_thin {reserved : Token → Nat} {used : Nat} {kept : Option Token}
    {tokens : List Token}
    (hused : ∀ token ∈ tokens,
      used ≤ token.matchOffset ↔ kept.map keywordEnd ≠ some token.matchOffset)
    (hpairs : tokens.Pairwise fun a b =>
      reserved a ≤ b.matchOffset ↔ a.keywordEnd ≠ b.matchOffset) :
    keepFree reserved used tokens = thin kept tokens := by
  induction tokens generalizing used kept with
  | nil => rfl
  | cons token later ih =>
    obtain ⟨hfirst, hlater⟩ := List.pairwise_cons.mp hpairs
    rw [keepFree, thin]
    by_cases h : used ≤ token.matchOffset
    · rw [if_pos h, if_neg ((hused token List.mem_cons_self).mp h)]
      refine congrArg _ (ih (fun other hother => ?_) hlater)
      simpa using hfirst other hother
    · have hdrop : kept.map keywordEnd = some token.matchOffset := by
        simpa using mt (hused token List.mem_cons_self).mpr h
      rw [if_neg h, if_pos hdrop]
      exact ih (fun other hother => hused other (List.mem_cons_of_mem _ hother)) hlater

/-- A token begins behind what an earlier one uses up, its delimiter included, exactly if it does
not begin right where the earlier one has ended. -/
theorem StandsIn.reservedEnd_legacy_le_iff {line : Text} {a b : Token} (ha : StandsIn line a)
    (hb : StandsIn line b) (h : a.keywordOffset < b.keywordOffset) :
    reservedEnd .legacy line a ≤ b.matchOffset ↔ a.keywordEnd ≠ b.matchOffset := by
  obtain ⟨front, gap, d, rest, rfl, _, hend, hmatch, _⟩ := ha.exists_gap hb h
  rw [reservedEnd, hend, hmatch, Text.byteSize_append]
  cases gap with
  | nil =>
    have hd := d.utf8Size_pos
    rw [List.nil_append, Text.pastChar_append_cons, Text.byteSize_nil]
    omega
  | cons c gap =>
    have hc := c.utf8Size_pos
    rw [List.cons_append, Text.pastChar_append_cons, Text.byteSize_cons]
    omega

/-- One delimiter separates two tokens exactly if it closes the first and opens the second. -/
theorem StandsIn.slice_eq_delimiter_iff {line : Text} {a b : Token} (ha : StandsIn line a)
    (hb : StandsIn line b) (h : a.keywordOffset < b.keywordOffset) :
    (∃ d, isDelimiter d = true ∧ line.slice a.keywordEnd b.keywordOffset = [d]) ↔
      a.keywordEnd = b.matchOffset := by
  obtain ⟨front, gap, d, rest, rfl, hd, hend, hmatch, hoffset⟩ := ha.exists_gap hb h
  have hslice : Text.slice (front ++ (gap ++ d :: rest)) a.keywordEnd b.keywordOffset =
      gap ++ [d] := by
    rw [hend, hoffset]
    simpa using Text.slice_append front (gap ++ [d]) rest
  rw [hslice, hend, hmatch, Text.byteSize_append]
  constructor
  · rintro ⟨e, _, hgap⟩
    have hnil : gap = [] := by
      rw [show [e] = [] ++ [e] from rfl] at hgap
      exact (List.append_inj' hgap rfl).1
    rw [hnil, Text.byteSize_nil, Nat.add_zero]
  · intro hsize
    have hnil : gap = [] := Text.byteSize_eq_zero_iff.mp (by omega)
    exact ⟨d, hd, by rw [hnil, List.nil_append]⟩

/-- Two consecutive tokens of a list in the order of their offsets are in that order. -/
private theorem keywordOffset_lt_of_infix {line : Text} {a b : Token}
    (h : [a, b] <:+: isolated line) : a.keywordOffset < b.keywordOffset := by
  have hpair := (pairwise_isolated line).sublist h.sublist
  exact (List.pairwise_pair.mp hpair).1

end Token

/-- Where each delimiter belongs to the keyword in front of it, the tokens of a line are its
isolated keywords, thinned. -/
theorem scan_legacy (line : Text) :
    scan .legacy line = Token.thin none (Token.isolated line) := by
  refine Token.keepFree_eq_thin (fun token _ => by simp) ?_
  refine (Token.pairwise_isolated line).imp_of_mem fun ha hb h => ?_
  exact (Token.mem_isolated_iff.mp ha).reservedEnd_legacy_le_iff (Token.mem_isolated_iff.mp hb) h.1

/-- A scan with delimiters of one's own is the greedy thinning of the scan that shares them. Its
tokens are among the tokens of that scan, unchanged and in the same order; of two consecutive
tokens at least one is left; and the two scans are the same exactly if no two consecutive tokens
are separated by a single delimiter. -/
theorem scan_legacy_is_greedy_thinning (line : Text) :
    scan .legacy line = Token.thin none (scan .boundaryPreserving line) ∧
    (scan .legacy line).Sublist (scan .boundaryPreserving line) ∧
    (∀ a b, [a, b] <:+: scan .boundaryPreserving line →
      a ∈ scan .legacy line ∨ b ∈ scan .legacy line) ∧
    (scan .legacy line = scan .boundaryPreserving line ↔
      ∀ a b, [a, b] <:+: scan .boundaryPreserving line →
        ¬∃ d, isDelimiter d = true ∧ line.slice a.keywordEnd b.keywordOffset = [d]) := by
  rw [scan_legacy, scan_boundaryPreserving]
  have hmatch : (Token.isolated line).Pairwise fun a b => a.matchOffset < b.matchOffset := by
    refine (Token.pairwise_isolated line).imp_of_mem fun ha _ h => ?_
    exact Nat.lt_of_lt_of_le (Token.mem_isolated_iff.mp ha).matchOffset_lt_keywordEnd h.2
  refine ⟨rfl, Token.thin_sublist none _, fun a b h => Token.mem_thin_or_mem_thin hmatch h, ?_⟩
  rw [Token.thin_eq_self_iff]
  refine forall_congr' fun a => forall_congr' fun b => forall_congr' fun h => not_congr ?_
  have ha := Token.mem_isolated_iff.mp (h.mem (by simp) : a ∈ Token.isolated line)
  have hb := Token.mem_isolated_iff.mp (h.mem (by simp) : b ∈ Token.isolated line)
  exact (ha.slice_eq_delimiter_iff hb (Token.keywordOffset_lt_of_infix h)).symm

/-- A chain of keywords with one delimiter between any two loses every other one. -/
example : (scan .legacy "audio,video,image,text".toList).map Token.keywordOffset = [0, 12] := by
  decide

end Storyboard
