import Storyboard.Token
import Storyboard.Proofs.Keywords
import Storyboard.Proofs.Offsets

/-!
# Keywords that stand alone

A keyword stands alone where the line begins or a delimiter comes before it, and where it is
closed. This file describes the tokens of a line by the places they have in it, and shows that no
two of them overlap: none opens before the one in front of it has ended. A scan that lets a
delimiter close one keyword and open the next therefore lists every keyword that stands alone.
-/

namespace Storyboard

/-- A keyword stands alone between the text in front of it and the rest of the line: nothing or a
delimiter comes before, and an entry of the table is spelled there and closed. -/
def StandsAlone (before rest : Text) : Prop :=
  (∀ d, before.getLast? = some d → isDelimiter d = true) ∧
    ∃ entry ∈ keywords, ∃ spelled after,
      spelling? entry.1 rest = some (spelled, after) ∧ endsKeyword after = true

namespace Token

/-- A token describes the keyword that has `before` in front of it and `after` behind it. -/
structure Occurs (before : Text) (token : Token) (after : Text) : Prop where
  /-- The keyword begins behind the text in front of it. -/
  keywordOffset_eq : token.keywordOffset = Text.byteSize before
  /-- The match begins at the delimiter that opens the keyword, if there is one. -/
  opening_eq : opening? before.getLast? (Text.byteSize before) = some token.matchOffset
  /-- The keyword is the one that is found there. -/
  keywordAt_eq : keywordAt? (token.keyword ++ after) = some (token.kind, token.keyword)

/-- A token has a place in a line. -/
def StandsIn (line : Text) (token : Token) : Prop :=
  ∃ before after, line = before ++ (token.keyword ++ after) ∧ Occurs before token after

namespace Occurs

variable {before after : Text} {token : Token}

/-- The keyword of a token is spelled as one of its kind and closed. -/
theorem spells (h : Occurs before token after) :
    SpellsKeyword token.kind token.keyword ∧ endsKeyword after = true := by
  obtain ⟨rest, heq, hspells, hends⟩ := exists_after_of_keywordAt? h.keywordAt_eq
  obtain rfl := List.append_cancel_left heq
  exact ⟨hspells, hends⟩

/-- A keyword has at least one character. -/
theorem keyword_ne_nil (h : Occurs before token after) : token.keyword ≠ [] :=
  h.spells.1.ne_nil

/-- The keyword ends behind itself. -/
theorem keywordEnd_eq (h : Occurs before token after) :
    token.keywordEnd = Text.byteSize (before ++ token.keyword) := by
  rw [keywordEnd, h.keywordOffset_eq, Text.byteSize_append]

/-- A keyword begins in front of its end. -/
theorem keywordOffset_lt_keywordEnd (h : Occurs before token after) :
    token.keywordOffset < token.keywordEnd :=
  Nat.lt_add_of_pos_right (Text.byteSize_pos h.keyword_ne_nil)

/-- A match begins with the line or at the delimiter in front of its keyword. -/
theorem opened (h : Occurs before token after) :
    (before = [] ∧ token.matchOffset = 0) ∨
      ∃ m d, before = m ++ [d] ∧ isDelimiter d = true ∧ token.matchOffset = Text.byteSize m := by
  have hopening := h.opening_eq
  rcases List.eq_nil_or_concat before with rfl | ⟨m, d, rfl⟩
  · left
    simpa [opening?, eq_comm] using hopening
  · right
    simp only [List.concat_eq_append, List.getLast?_append, List.getLast?_singleton,
      Option.some_or, opening?, Text.byteSize_append, Text.byteSize_cons, Text.byteSize_nil,
      Option.ite_none_right_eq_some, Option.some.injEq] at hopening
    exact ⟨m, d, by simp, hopening.1, by omega⟩

/-- What stands right in front of a keyword is a delimiter. -/
theorem isDelimiter_getLast? (h : Occurs before token after) {c : Char}
    (hc : before.getLast? = some c) : isDelimiter c = true := by
  rcases h.opened with ⟨rfl, _⟩ | ⟨m, d, rfl, hd, _⟩
  · simp at hc
  · obtain rfl : d = c := by simpa using hc
    exact hd

/-- The match of an occurrence does not begin behind its keyword. -/
theorem matchOffset_le_keywordOffset (h : Occurs before token after) :
    token.matchOffset ≤ token.keywordOffset := by
  rw [h.keywordOffset_eq]
  rcases h.opened with ⟨_, h0⟩ | ⟨m, d, rfl, _, hm⟩
  · omega
  · rw [hm, Text.byteSize_append]
    omega

end Occurs

/-- The keyword of a token that stands in a line spells its kind. -/
theorem StandsIn.spells {line : Text} {token : Token} (h : StandsIn line token) {kind : Kind}
    (hkind : token.kind = kind) : SpellsKeyword kind token.keyword := by
  obtain ⟨_, _, _, h⟩ := h
  exact hkind ▸ h.spells.1

/-- The match of a token begins in front of the end of its keyword. -/
theorem StandsIn.matchOffset_lt_keywordEnd {line : Text} {token : Token}
    (h : StandsIn line token) : token.matchOffset < token.keywordEnd := by
  obtain ⟨_, _, _, h⟩ := h
  exact Nat.lt_of_le_of_lt h.matchOffset_le_keywordOffset h.keywordOffset_lt_keywordEnd

/-- A keyword that is read at an offset has that offset. -/
theorem keywordOffset_of_isolatedAt? {before : Option Char} {offset : Nat} {t : Text}
    {token : Token} (h : isolatedAt? before offset t = some token) :
    token.keywordOffset = offset := by
  rw [isolatedAt?] at h
  split at h
  next => simp at h
  next =>
    obtain ⟨_, _, rfl⟩ := Option.map_eq_some_iff.mp h
    rfl

/-- A keyword is read at the start of a text exactly if it occurs there. -/
theorem isolatedAt?_eq_some_iff {before t : Text} {token : Token} :
    isolatedAt? before.getLast? (Text.byteSize before) t = some token ↔
      ∃ after, t = token.keyword ++ after ∧ Occurs before token after := by
  rw [isolatedAt?]
  constructor
  · intro h
    split at h
    next => simp at h
    next start hopening =>
      obtain ⟨⟨kind, keyword⟩, hkeyword, rfl⟩ := Option.map_eq_some_iff.mp h
      obtain ⟨after, rfl, _⟩ := exists_after_of_keywordAt? hkeyword
      exact ⟨after, rfl, rfl, hopening, hkeyword⟩
  · rintro ⟨after, rfl, hoffset, hopening, hkeyword⟩
    simp only [hopening, hkeyword, Option.map_some]
    rw [← hoffset]

/-- The keywords listed in the rest of a line are those that occur in it. The induction is on the
rest, while the text in front of it grows. -/
theorem mem_isolatedFrom_iff {before t : Text} {token : Token} :
    token ∈ isolatedFrom before.getLast? (Text.byteSize before) t ↔
      ∃ p after, t = p ++ (token.keyword ++ after) ∧ Occurs (before ++ p) token after := by
  induction t generalizing before with
  | nil =>
    simp only [isolatedFrom, List.not_mem_nil, false_iff]
    rintro ⟨p, after, h, hoccurs⟩
    have hnil := (List.append_eq_nil_iff.mp h.symm).2
    exact hoccurs.keyword_ne_nil (List.append_eq_nil_iff.mp hnil).1
  | cons c rest ih =>
    have hlast : some c = (before ++ [c]).getLast? := by simp
    have hsize : Text.byteSize before + c.utf8Size = Text.byteSize (before ++ [c]) := by simp
    rw [isolatedFrom, List.mem_append, Option.mem_toList, isolatedAt?_eq_some_iff, hlast, hsize, ih]
    constructor
    · rintro (⟨after, h, hoccurs⟩ | ⟨p, after, h, hoccurs⟩)
      · exact ⟨[], after, h, by simpa using hoccurs⟩
      · exact ⟨c :: p, after, by rw [h]; rfl, by simpa using hoccurs⟩
    · rintro ⟨p, after, h, hoccurs⟩
      cases p with
      | nil => exact Or.inl ⟨after, h, by simpa using hoccurs⟩
      | cons d p =>
        obtain ⟨rfl, rfl⟩ := List.cons.inj h
        exact Or.inr ⟨p, after, rfl, by simpa using hoccurs⟩

/-- The isolated keywords of a line are the tokens that have a place in it. -/
theorem mem_isolated_iff {line : Text} {token : Token} :
    token ∈ isolated line ↔ StandsIn line token := by
  have h : token ∈ isolatedFrom (List.getLast? []) (Text.byteSize []) line ↔ _ :=
    mem_isolatedFrom_iff
  simpa only [isolated, StandsIn, List.getLast?_nil, Text.byteSize_nil, List.nil_append] using h

/-- The place of a token determines it. -/
theorem StandsIn.eq_of_keywordOffset_eq {line : Text} {a b : Token} (ha : StandsIn line a)
    (hb : StandsIn line b) (h : a.keywordOffset = b.keywordOffset) : a = b := by
  obtain ⟨p, r, rfl, ha⟩ := ha
  obtain ⟨q, s, heq, hb⟩ := hb
  have hsize : Text.byteSize p = Text.byteSize q := by
    rw [← ha.keywordOffset_eq, ← hb.keywordOffset_eq, h]
  obtain ⟨rfl, hrest⟩ := Text.append_inj_of_byteSize_eq heq hsize
  have hkeyword : some (a.kind, a.keyword) = some (b.kind, b.keyword) := by
    rw [← ha.keywordAt_eq, ← hb.keywordAt_eq, hrest]
  have hopening : some a.matchOffset = some b.matchOffset := by
    rw [← ha.opening_eq, ← hb.opening_eq]
  cases a
  cases b
  simp_all

/-- A token opens only after every token in front of it has ended. If it opened earlier, the
delimiter that opens it would lie inside the other keyword, and it would begin there with a
letter that begins no keyword. -/
theorem StandsIn.keywordEnd_le_matchOffset {line : Text} {a b : Token} (ha : StandsIn line a)
    (hb : StandsIn line b) (h : a.keywordOffset < b.keywordOffset) :
    a.keywordEnd ≤ b.matchOffset := by
  obtain ⟨p, r, rfl, ha⟩ := ha
  obtain ⟨q, s, heq, hb⟩ := hb
  rw [ha.keywordOffset_eq, hb.keywordOffset_eq] at h
  rcases hb.opened with ⟨rfl, _⟩ | ⟨m, d, rfl, hd, hm⟩
  · simp at h
  · rw [hm, ha.keywordEnd_eq]
    refine Nat.le_of_not_lt fun hlt => ?_
    have hline : p ++ (a.keyword ++ r) = m ++ d :: (b.keyword ++ s) := by simpa using heq
    obtain ⟨x, rest, hkeyword, hrest⟩ := Text.exists_inside_of_byteSize_lt hline h hlt
    have hspells := ha.spells.1
    rw [hkeyword] at hspells
    exact hspells.not_opens_inside hd hb.spells.1 hrest.symm

/-- Between two tokens of a line there is a gap that ends with the delimiter of the second one; what
comes before that delimiter belongs to neither. -/
theorem StandsIn.exists_gap {line : Text} {a b : Token} (ha : StandsIn line a)
    (hb : StandsIn line b) (h : a.keywordOffset < b.keywordOffset) :
    ∃ front gap d rest, line = front ++ (gap ++ d :: rest) ∧ isDelimiter d = true ∧
      a.keywordEnd = Text.byteSize front ∧ b.matchOffset = Text.byteSize (front ++ gap) ∧
      b.keywordOffset = Text.byteSize (front ++ gap ++ [d]) := by
  have hle := ha.keywordEnd_le_matchOffset hb h
  obtain ⟨p, r, rfl, ha⟩ := ha
  obtain ⟨q, s, heq, hb⟩ := hb
  rcases hb.opened with ⟨rfl, h0⟩ | ⟨m, d, rfl, hd, hm⟩
  · have hlt := ha.keywordOffset_lt_keywordEnd
    omega
  · rw [ha.keywordEnd_eq, hm] at hle
    have hline : (p ++ a.keyword) ++ r = m ++ (d :: (b.keyword ++ s)) := by simpa using heq
    obtain ⟨gap, rfl, rfl⟩ := Text.exists_between_of_byteSize_le hline hle
    exact ⟨p ++ a.keyword, gap, d, b.keyword ++ s, by simp, hd, ha.keywordEnd_eq, hm,
      hb.keywordOffset_eq⟩

/-- A token read later in a line has a greater offset. -/
theorem le_keywordOffset_of_mem {before : Option Char} {offset : Nat} {t : Text} {token : Token}
    (h : token ∈ isolatedFrom before offset t) : offset ≤ token.keywordOffset := by
  induction t generalizing before offset with
  | nil => simp [isolatedFrom] at h
  | cons c rest ih =>
    rw [isolatedFrom, List.mem_append, Option.mem_toList] at h
    rcases h with h | h
    · exact Nat.le_of_eq (keywordOffset_of_isolatedAt? h).symm
    · exact Nat.le_trans (Nat.le_add_right _ _) (ih h)

/-- The isolated keywords come in the order of their offsets. -/
theorem pairwise_keywordOffset_isolatedFrom (before : Option Char) (offset : Nat) (t : Text) :
    (isolatedFrom before offset t).Pairwise fun a b => a.keywordOffset < b.keywordOffset := by
  induction t generalizing before offset with
  | nil => exact List.Pairwise.nil
  | cons c rest ih =>
    have hc := c.utf8Size_pos
    rw [isolatedFrom, List.pairwise_append]
    refine ⟨?_, ih _ _, ?_⟩
    · cases isolatedAt? before offset (c :: rest) <;> simp
    · intro a ha b hb
      rw [Option.mem_toList] at ha
      have hoffset := keywordOffset_of_isolatedAt? ha
      have hlater := le_keywordOffset_of_mem hb
      omega

/-- The isolated keywords of a line follow one another without overlapping. -/
theorem pairwise_isolated (line : Text) :
    (isolated line).Pairwise fun a b =>
      a.keywordOffset < b.keywordOffset ∧ a.keywordEnd ≤ b.matchOffset := by
  refine (pairwise_keywordOffset_isolatedFrom none 0 line).imp_of_mem fun ha hb h => ⟨h, ?_⟩
  exact (mem_isolated_iff.mp ha).keywordEnd_le_matchOffset (mem_isolated_iff.mp hb) h

end Token

end Storyboard
