import Storyboard.Proofs.Isolation

/-!
# What a scan finds

A scan can be made in one pass that carries the offset up to which the line is used up. Where a
delimiter may close one keyword and open the next, this offset never hides a keyword: the scan
finds exactly the keywords that stand alone, each of them once and in the order of the line.
-/

namespace Storyboard

namespace Token

/-- One pass over the rest of a line. A keyword is looked for only where its match would begin
behind what is used up, and it uses the line up in turn. -/
def scanFrom (mode : ScanMode) (line : Text) (used : Nat) (before : Option Char) (offset : Nat) :
    Text → List Token
  | [] => []
  | c :: rest =>
    let next used := scanFrom mode line used (some c) (offset + c.utf8Size) rest
    match (opening? before offset).filter fun start => used ≤ start with
    | none => next used
    | some start =>
      match keywordAt? (c :: rest) with
      | none => next used
      | some (kind, keyword) =>
        let token : Token := ⟨kind, keyword, start, offset⟩
        token :: next (reservedEnd mode line token)

/-- The pass keeps those isolated keywords that begin behind what is used up. -/
theorem keepFree_isolatedFrom (mode : ScanMode) (line : Text) (used : Nat) (before : Option Char)
    (offset : Nat) (t : Text) :
    keepFree (reservedEnd mode line) used (isolatedFrom before offset t) =
      scanFrom mode line used before offset t := by
  induction t generalizing used before offset with
  | nil => rfl
  | cons c rest ih =>
    rw [isolatedFrom, isolatedAt?, scanFrom]
    cases opening? before offset with
    | none => simpa using ih used (some c) (offset + c.utf8Size)
    | some start =>
      cases keywordAt? (c :: rest) with
      | none =>
        simp only [Option.map_none, Option.toList_none, List.nil_append, ih]
        split <;> rfl
      | some found =>
        obtain ⟨kind, keyword⟩ := found
        by_cases h : used ≤ start
        · simp [keepFree, Option.filter_some, h, ih]
        · simp [keepFree, Option.filter_some, h, ih]

/-- Tokens that all begin behind what is used up, and each behind what the ones in front of it use
up, are all kept. -/
theorem keepFree_eq_self {reserved : Token → Nat} {used : Nat} {tokens : List Token}
    (hused : ∀ token ∈ tokens, used ≤ token.matchOffset)
    (hpairs : tokens.Pairwise fun a b => reserved a ≤ b.matchOffset) :
    keepFree reserved used tokens = tokens := by
  induction tokens generalizing used with
  | nil => rfl
  | cons token later ih =>
    obtain ⟨hfirst, hlater⟩ := List.pairwise_cons.mp hpairs
    rw [keepFree, if_pos (hused token List.mem_cons_self), ih hfirst hlater]

/-- What is kept are some of the tokens, in their order. -/
theorem keepFree_sublist (reserved : Token → Nat) (used : Nat) (tokens : List Token) :
    (keepFree reserved used tokens).Sublist tokens := by
  induction tokens generalizing used with
  | nil => exact List.Sublist.refl _
  | cons token later ih =>
    rw [keepFree]
    split
    · exact (ih _).cons_cons token
    · exact (ih used).cons token

/-- Tokens of a line that follow one another. -/
structure Follow (line : Text) (tokens : List Token) : Prop where
  standsIn : ∀ token ∈ tokens, StandsIn line token
  pairwise : tokens.Pairwise fun a b => a.keywordOffset < b.keywordOffset

end Token

/-- Whatever the mode, the tokens of a line are among its isolated keywords. -/
theorem scan_sublist_isolated (mode : ScanMode) (line : Text) :
    (scan mode line).Sublist (Token.isolated line) :=
  Token.keepFree_sublist _ 0 _

/-- The tokens that are scanned in a line follow one another, in either mode. -/
theorem follow_scan (mode : ScanMode) (line : Text) : Token.Follow line (scan mode line) where
  standsIn _ h := Token.mem_isolated_iff.mp ((scan_sublist_isolated mode line).mem h)
  pairwise :=
    ((Token.pairwise_isolated line).imp And.left).sublist (scan_sublist_isolated mode line)

/-- The tokens that a scan finds follow one another. -/
theorem follow_of_scan_eq {mode : ScanMode} {line : Text} {tokens : List Token}
    (h : scan mode line = tokens) : Token.Follow line tokens :=
  h ▸ follow_scan mode line

/-- A scan is one pass over the line. -/
theorem scan_eq_scanFrom (mode : ScanMode) (line : Text) :
    scan mode line = Token.scanFrom mode line 0 none 0 line :=
  Token.keepFree_isolatedFrom mode line 0 none 0 line

/-- Where delimiters are shared, every isolated keyword is kept. -/
theorem scan_boundaryPreserving (line : Text) :
    scan .boundaryPreserving line = Token.isolated line :=
  Token.keepFree_eq_self (fun _ _ => Nat.zero_le _)
    ((Token.pairwise_isolated line).imp fun h => h.2)

/-- Some token of a line has an offset exactly if a keyword stands alone there. -/
theorem exists_isolated_iff {line : Text} {p : Nat} :
    (∃ token ∈ Token.isolated line, token.keywordOffset = p) ↔
      ∃ before rest, line = before ++ rest ∧ p = Text.byteSize before ∧
        StandsAlone before rest := by
  constructor
  · rintro ⟨token, htoken, rfl⟩
    obtain ⟨before, after, rfl, h⟩ := Token.mem_isolated_iff.mp htoken
    obtain ⟨hspells, hends⟩ := h.spells
    refine ⟨before, token.keyword ++ after, rfl, h.keywordOffset_eq, ?_, ?_⟩
    · intro d hd
      rcases h.opened with ⟨rfl, _⟩ | ⟨m, e, rfl, he, _⟩
      · simp at hd
      · obtain rfl : e = d := by simpa using hd
        exact he
    · exact ⟨_, hspells, token.keyword, after, (spelling?_entry_iff hspells).mpr ⟨rfl, rfl⟩, hends⟩
  · rintro ⟨before, rest, rfl, rfl, hopen, ⟨word, kind⟩, hentry, spelled, after, hspell, hends⟩
    obtain ⟨rfl, hlower⟩ := (spelling?_entry_iff hentry).mp hspell
    have hspells : SpellsKeyword kind spelled := by rwa [SpellsKeyword, hlower]
    obtain ⟨⟨kind, keyword⟩, hkeyword⟩ :=
      Option.isSome_iff_exists.mp (isSome_keywordAt? hspells hends)
    obtain ⟨rest, hrest, _⟩ := exists_after_of_keywordAt? hkeyword
    obtain ⟨start, hstart⟩ : ∃ start,
        Token.opening? before.getLast? (Text.byteSize before) = some start := by
      cases hlast : before.getLast? with
      | none => exact ⟨_, rfl⟩
      | some d => exact ⟨_, by rw [Token.opening?, if_pos (hopen d hlast)]⟩
    rw [hrest] at hkeyword ⊢
    exact ⟨⟨kind, keyword, start, Text.byteSize before⟩,
      Token.mem_isolated_iff.mpr ⟨before, rest, rfl, rfl, hstart, hkeyword⟩, rfl⟩

/-- A scan that shares delimiters finds the isolated keywords of a line: one token for each place
where a keyword stands alone and none elsewhere, with the keyword as it is written there, opened
at the delimiter in front of it. The tokens follow one another without overlapping, and none of
the isolated keywords is hidden by what is used up. -/
theorem scan_finds_isolated_keywords (line : Text) :
    (∀ p, (∃ token ∈ scan .boundaryPreserving line, token.keywordOffset = p) ↔
      ∃ before rest, line = before ++ rest ∧ p = Text.byteSize before ∧
        StandsAlone before rest) ∧
    (∀ a ∈ scan .boundaryPreserving line, ∀ b ∈ scan .boundaryPreserving line,
      a.keywordOffset = b.keywordOffset → a = b) ∧
    (∀ token ∈ scan .boundaryPreserving line,
      keywordAt? (line.dropBytes token.keywordOffset) = some (token.kind, token.keyword) ∧
      line.slice token.keywordOffset token.keywordEnd = token.keyword ∧
      ((token.keywordOffset = 0 ∧ token.matchOffset = 0) ∨
        ∃ m d rest, line = m ++ d :: rest ∧ isDelimiter d = true ∧
          token.matchOffset = Text.byteSize m ∧
          token.keywordOffset = Text.byteSize (m ++ [d]))) ∧
    (scan .boundaryPreserving line).Pairwise (fun a b =>
      a.keywordOffset < b.keywordOffset ∧ a.keywordEnd ≤ b.matchOffset) ∧
    scan .boundaryPreserving line = Token.isolated line := by
  rw [scan_boundaryPreserving]
  refine ⟨fun p => exists_isolated_iff, ?_, ?_, Token.pairwise_isolated line, rfl⟩
  · intro a ha b hb h
    exact (Token.mem_isolated_iff.mp ha).eq_of_keywordOffset_eq (Token.mem_isolated_iff.mp hb) h
  · intro token htoken
    obtain ⟨before, after, rfl, h⟩ := Token.mem_isolated_iff.mp htoken
    refine ⟨?_, ?_, ?_⟩
    · rw [h.keywordOffset_eq, Text.dropBytes_append, h.keywordAt_eq]
    · rw [h.keywordOffset_eq, h.keywordEnd_eq, ← List.append_assoc]
      exact Text.slice_append before token.keyword after
    · rcases h.opened with ⟨rfl, h0⟩ | ⟨m, d, rfl, hd, hm⟩
      · exact Or.inl ⟨h.keywordOffset_eq, h0⟩
      · exact Or.inr ⟨m, d, token.keyword ++ after, by simp, hd, hm, h.keywordOffset_eq⟩

/-- The comma closes the first keyword and opens the second one, which holds a space itself. -/
example : (scan .boundaryPreserving "audio,video esfera".toList).map
    (fun token => (token.matchOffset, token.keywordEnd)) = [(0, 5), (5, 18)] := by
  decide

end Storyboard
