import Mathlib.Data.List.Basic
import Storyboard.Proofs.Scanning

/-!
# Scanning two texts one after the other

Where a delimiter stands between two texts and the second one begins with a keyword, no keyword
reaches from one text into the other: a delimiter inside a keyword is followed by a letter that
begins none. The isolated keywords of the whole line are therefore those of the two texts, those of
the second one further to the right.
-/

namespace Storyboard

/-- The keyword that one entry of the table finds at the start of a text. -/
def closedSpelling? (word : Text) (kind : Kind) (t : Text) : Option (Kind × Text) :=
  match spelling? word t with
  | some (spelled, after) => if endsKeyword after then some (kind, spelled) else none
  | none => none

/-- An entry of the table finds each keyword that is spelled as its word and closed. -/
theorem closedSpelling?_eq_some_iff {word t : Text} {kind : Kind} (hentry : (word, kind) ∈ keywords)
    {found : Kind × Text} :
    closedSpelling? word kind t = some found ↔
      found.1 = kind ∧ found.2.lowerCase = word ∧
        ∃ after, t = found.2 ++ after ∧ endsKeyword after = true := by
  obtain ⟨foundKind, foundText⟩ := found
  rw [closedSpelling?]
  constructor
  · intro hfound
    split at hfound
    next spelled after hspell =>
      rw [Option.ite_none_right_eq_some, Option.some.injEq, Prod.mk.injEq] at hfound
      obtain ⟨hends, rfl, rfl⟩ := hfound
      obtain ⟨ht, hlower⟩ := (spelling?_entry_iff hentry).mp hspell
      exact ⟨rfl, hlower, after, ht, hends⟩
    next => simp at hfound
  · rintro ⟨rfl, hlower, after, ht, hends⟩
    have hspell : spelling? word t = some (foundText, after) :=
      (spelling?_entry_iff hentry).mpr ⟨ht, hlower⟩
    simp only [hspell, hends, if_true]

/-- The keyword at the start of a text depends only on which keywords are spelled there and
closed. -/
theorem keywordAt?_congr {t u : Text}
    (h : ∀ kind spelled, SpellsKeyword kind spelled →
      ((∃ after, t = spelled ++ after ∧ endsKeyword after = true) ↔
        ∃ after, u = spelled ++ after ∧ endsKeyword after = true)) :
    keywordAt? t = keywordAt? u := by
  rw [keywordAt?, keywordAt?, ← List.head?_filterMap, ← List.head?_filterMap]
  refine congrArg List.head? (List.filterMap_congr fun entry hentry => ?_)
  obtain ⟨word, kind⟩ := entry
  change closedSpelling? word kind t = closedSpelling? word kind u
  refine Option.ext fun found => ?_
  rw [closedSpelling?_eq_some_iff hentry, closedSpelling?_eq_some_iff hentry]
  refine and_congr_right fun hkind => and_congr_right fun hlower => h kind found.2 ?_
  rw [SpellsKeyword, hlower]
  exact hentry

/-- A text begins with a keyword, whatever follows it. -/
def BeginsWithKeyword (t : Text) : Prop :=
  ∃ kind spelled after, SpellsKeyword kind spelled ∧ t = spelled ++ after

/-- A keyword in front of a delimiter is the same whatever follows the delimiter, as long as that
begins with a keyword itself. -/
theorem keywordAt?_append_delimiter {d : Char} (hd : isDelimiter d = true) {b : Text}
    (hb : BeginsWithKeyword b) (t : Text) : keywordAt? (t ++ d :: b) = keywordAt? (t ++ [d]) := by
  refine keywordAt?_congr fun kind spelled hspells => ?_
  constructor
  · rintro ⟨after, heq, hafter⟩
    rcases List.append_eq_append_iff.mp heq with ⟨m, hspelled, hrest⟩ | ⟨m, rfl, hrest⟩
    · cases m with
      | nil => exact ⟨[d], by simp [hspelled], hd⟩
      | cons e m =>
        -- The keyword would run on over the delimiter into the keyword behind it.
        obtain ⟨rfl, hbm⟩ := List.cons.inj hrest
        obtain ⟨other, keyword, tail, hkeyword, hb⟩ := hb
        rw [hspelled] at hspells
        exact absurd (hbm.symm.trans hb) (hspells.not_opens_inside hd hkeyword)
    · refine ⟨m ++ [d], by simp, ?_⟩
      rw [hrest] at hafter
      cases m with
      | nil => exact hd
      | cons c m => exact hafter
  · rintro ⟨after, heq, hafter⟩
    rcases List.append_eq_append_iff.mp heq with ⟨m, hspelled, hrest⟩ | ⟨m, rfl, hrest⟩
    · cases m with
      | nil => exact ⟨d :: b, by simp [hspelled], hd⟩
      | cons e m =>
        -- The keyword would end with the delimiter.
        obtain ⟨rfl, hnil⟩ := List.cons.inj hrest
        obtain ⟨rfl, rfl⟩ := List.append_eq_nil_iff.mp hnil.symm
        rw [hspelled] at hspells
        exact absurd hd (by simp [hspells.isDelimiter_last])
    · refine ⟨m ++ d :: b, by simp, ?_⟩
      rw [hrest] at hafter
      cases m with
      | nil => exact hd
      | cons c m => exact hafter

namespace Token

/-- The same token further to the right in a line. -/
def shift (count : Nat) (token : Token) : Token :=
  { token with
    matchOffset := count + token.matchOffset
    keywordOffset := count + token.keywordOffset }

/-- A keyword ends as much further to the right as its token is moved. -/
theorem keywordEnd_shift (count : Nat) (token : Token) :
    (token.shift count).keywordEnd = count + token.keywordEnd :=
  Nat.add_assoc count token.keywordOffset _

/-- The isolated keywords of a text are those of a leading part and those of the rest, if whatever
keyword begins in the leading part is already found there. -/
theorem isolatedFrom_append {before : Option Char} {offset : Nat} {a b : Text}
    (h : ∀ t, t ≠ [] → t <:+ a → keywordAt? (t ++ b) = keywordAt? t) :
    isolatedFrom before offset (a ++ b) =
      isolatedFrom before offset a ++
        isolatedFrom (a.getLast?.or before) (offset + Text.byteSize a) b := by
  induction a generalizing before offset with
  | nil => simp [isolatedFrom]
  | cons c a ih =>
    have hfirst : isolatedAt? before offset (c :: (a ++ b)) =
        isolatedAt? before offset (c :: a) := by
      rw [isolatedAt?, isolatedAt?, ← List.cons_append, h (c :: a) (by simp) List.suffix_rfl]
    have hlater : ∀ t, t ≠ [] → t <:+ a → keywordAt? (t ++ b) = keywordAt? t :=
      fun t hne ht => h t hne (ht.trans (List.suffix_cons c a))
    have hlast : (c :: a).getLast?.or before = a.getLast?.or (some c) := by
      rw [List.getLast?_cons]
      cases a.getLast? <;> rfl
    rw [List.cons_append, isolatedFrom, isolatedFrom, hfirst, ih hlater, hlast, Text.byteSize_cons,
      Nat.add_assoc, List.append_assoc]

/-- Further to the right in a line the same keywords are isolated. -/
theorem isolatedFrom_shift (count : Nat) {before : Option Char} {offset : Nat} {t : Text}
    (hbefore : ∀ c, before = some c → c.utf8Size ≤ offset) :
    isolatedFrom before (count + offset) t = (isolatedFrom before offset t).map (shift count) := by
  induction t generalizing before offset with
  | nil => rfl
  | cons c rest ih =>
    have hopening :
        opening? before (count + offset) = (opening? before offset).map (count + ·) := by
      cases before with
      | none => rfl
      | some e =>
        have he := hbefore e rfl
        rw [opening?, opening?, Nat.add_sub_assoc he]
        split <;> rfl
    have hfirst : isolatedAt? before (count + offset) (c :: rest) =
        (isolatedAt? before offset (c :: rest)).map (shift count) := by
      rw [isolatedAt?, isolatedAt?, hopening]
      cases opening? before offset with
      | none => rfl
      | some start => cases keywordAt? (c :: rest) <;> rfl
    have hlater : isolatedFrom (some c) (count + (offset + c.utf8Size)) rest =
        (isolatedFrom (some c) (offset + c.utf8Size) rest).map (shift count) := by
      refine ih ?_
      rintro e ⟨⟩
      exact Nat.le_add_left _ _
    rw [isolatedFrom, isolatedFrom, hfirst, Nat.add_assoc, hlater, List.map_append]
    cases isolatedAt? before offset (c :: rest) <;> rfl

/-- A first token at the start of a line is what is read there, and the others are read behind its
first character. -/
theorem isolated_eq_cons {b : Text} {first : Token} {later : List Token}
    (h : isolated b = first :: later) (hfirst : first.keywordOffset = 0) :
    ∃ c rest, b = c :: rest ∧ keywordAt? b = some (first.kind, first.keyword) ∧
      first.matchOffset = 0 ∧ isolatedFrom (some c) c.utf8Size rest = later := by
  cases b with
  | nil => simp [isolated, isolatedFrom] at h
  | cons c rest =>
    refine ⟨c, rest, rfl, ?_⟩
    rw [isolated, isolatedFrom, Nat.zero_add] at h
    cases hread : isolatedAt? none 0 (c :: rest) with
    | none =>
      rw [hread, Option.toList_none, List.nil_append] at h
      have hmem : first ∈ isolatedFrom (some c) c.utf8Size rest := by simp [h]
      have hle := le_keywordOffset_of_mem hmem
      have hc := c.utf8Size_pos
      omega
    | some token =>
      rw [hread, Option.toList_some, List.singleton_append] at h
      obtain ⟨rfl, hlater⟩ := List.cons.inj h
      obtain ⟨⟨kind, keyword⟩, hkeyword, rfl⟩ := Option.map_eq_some_iff.mp hread
      exact ⟨hkeyword, rfl, hlater⟩

/-- A line in which a delimiter comes before a text that begins with a keyword has the isolated
keywords of its two parts. The first one of the second part begins at the delimiter. -/
theorem isolated_append_delimiter {a b : Text} {d : Char} (hd : isDelimiter d = true)
    {first : Token} {later : List Token} (h : isolated b = first :: later)
    (hfirst : first.keywordOffset = 0) :
    isolated (a ++ d :: b) =
      isolated (a ++ [d]) ++
        ⟨first.kind, first.keyword, Text.byteSize a, Text.byteSize (a ++ [d])⟩ ::
          later.map (shift (Text.byteSize (a ++ [d]))) := by
  obtain ⟨c, rest, rfl, hkeyword, hmatch, hlater⟩ := isolated_eq_cons h hfirst
  obtain ⟨after, hb, hspells, _⟩ := exists_after_of_keywordAt? hkeyword
  have hbegins : BeginsWithKeyword (c :: rest) := ⟨_, _, after, hspells, hb⟩
  have hsplice : ∀ t, t ≠ [] → t <:+ a ++ [d] →
      keywordAt? (t ++ (c :: rest)) = keywordAt? t := by
    rintro t hne ⟨front, hfront⟩
    obtain ⟨m, e, rfl⟩ := Text.exists_append_singleton hne
    rw [← List.append_assoc] at hfront
    obtain ⟨_, he⟩ := List.append_inj' hfront rfl
    obtain rfl : e = d := by simpa using he
    rw [List.append_assoc]
    exact keywordAt?_append_delimiter hd hbegins m
  have hread : isolatedAt? (some d) (Text.byteSize (a ++ [d])) (c :: rest) =
      some ⟨first.kind, first.keyword, Text.byteSize a, Text.byteSize (a ++ [d])⟩ := by
    have hopening : opening? (some d) (Text.byteSize (a ++ [d])) = some (Text.byteSize a) := by
      simp [opening?, hd]
    simp only [isolatedAt?, hopening, hkeyword, Option.map_some]
  have hline : a ++ d :: c :: rest = (a ++ [d]) ++ (c :: rest) := by simp
  rw [hline, isolated, isolatedFrom_append hsplice, Nat.zero_add, List.getLast?_concat,
    Option.some_or, isolatedFrom, hread, Option.toList_some, List.singleton_append,
    isolatedFrom_shift _ (by rintro e ⟨⟩; exact Nat.le_refl _), hlater]
  rfl

end Token

end Storyboard
