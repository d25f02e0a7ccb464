import Storyboard.Proofs.Splicing

/-!
# The longest keyword counts

More than one keyword can be spelled at a place of a line, as some words of the table begin longer
ones. What is found there is the first of them in the order of the table that is closed. It is the
longest one as well: a word that stands in the table before one that it begins is not closed where
the longer one is spelled, because there it goes on with a letter.
-/

namespace Storyboard

/-- An entry of the table is spelled at the start of a text, in any mixture of cases, and closed. -/
def Fits (t : Text) (entry : Text × Kind) (keyword : Text) : Prop :=
  keyword.lowerCase = entry.1 ∧ ∃ after, t = keyword ++ after ∧ endsKeyword after = true

/-- An entry of the table fits a text, and all others that do are shorter. -/
structure IsLongestFit (t : Text) (entry : Text × Kind) (keyword : Text) : Prop where
  mem_keywords : entry ∈ keywords
  fits : Fits t entry keyword
  longest : ∀ other ∈ keywords, ∀ spelled, Fits t other spelled →
    other = entry ∨ other.1.length < entry.1.length

/-- An entry is not closed at the start of another one: if it stands there, the other one goes on
with a letter. -/
def NotClosedIn (a b : Text × Kind) : Prop :=
  a.1 <+: b.1 → endsKeyword (b.1.drop a.1.length) = false

/-- Whether an entry is closed at the start of another one can be computed. -/
instance (a b : Text × Kind) : Decidable (NotClosedIn a b) :=
  inferInstanceAs (Decidable (a.1 <+: b.1 → endsKeyword (b.1.drop a.1.length) = false))

/-- No entry of the table is closed at the start of a later one. -/
theorem pairwise_keywords : keywords.Pairwise NotClosedIn := by
  decide +kernel

/-- An entry that a shorter one begins does not begin a longer one. -/
theorem eq_of_isPrefix_of_isPrefix {a b c : Text × Kind} (ha : a ∈ keywords) (hb : b ∈ keywords)
    (hc : c ∈ keywords) (hab : a.1 <+: b.1) (hne : a ≠ b) (hbc : b.1 <+: c.1) : b = c := by
  have hall : ∀ a ∈ keywords, ∀ b ∈ keywords, a.1 <+: b.1 → a ≠ b →
      ∀ c ∈ keywords, b.1 <+: c.1 → b = c := by
    decide +kernel
  exact hall a ha b hb hab hne c hc hbc

/-- Of two stretches at the start of one text the one that is no longer begins the other. -/
theorem Text.exists_between_of_length_le {a b p q : Text} (h : a ++ p = b ++ q)
    (hle : a.length ≤ b.length) : ∃ m, b = a ++ m ∧ p = m ++ q := by
  obtain ⟨m, rfl⟩ : a <+: b :=
    List.prefix_of_prefix_length_le (List.prefix_append a p) (h ▸ List.prefix_append b q) hle
  rw [List.append_assoc] at h
  exact ⟨m, rfl, List.append_cancel_left h⟩

/-- The lower-case form of the shorter of two such stretches begins that of the longer one. -/
theorem Text.lowerCase_isPrefix_of_length_le {a b p q : Text} (h : a ++ p = b ++ q)
    (hle : a.length ≤ b.length) : a.lowerCase <+: b.lowerCase := by
  obtain ⟨m, rfl, _⟩ := exists_between_of_length_le h hle
  rw [lowerCase_append]
  exact List.prefix_append a.lowerCase (lowerCase m)

/-- What is closed in front of a text is closed in front of its beginning, also in lower case. -/
theorem endsKeyword_lowerCase_of_append {m rest : Text} (h : endsKeyword (m ++ rest) = true) :
    endsKeyword m.lowerCase = true := by
  cases m with
  | nil => rfl
  | cons c m =>
    have hc : isDelimiter c = true := h
    rw [Text.lowerCase_cons, endsKeyword, isDelimiter_lowerCase, hc]

namespace Fits

variable {t keyword spelled : Text} {a b : Text × Kind}

/-- An entry is as long as the keyword that is spelled by it. -/
theorem length_eq (h : Fits t a keyword) : a.1.length = keyword.length := by
  rw [← h.1, Text.length_lowerCase]

/-- An entry fits a text in one spelling. -/
theorem keyword_eq (h : Fits t a keyword) (h' : Fits t a spelled) : keyword = spelled := by
  have hlength : keyword.length = spelled.length := by rw [← h.length_eq, ← h'.length_eq]
  obtain ⟨_, after, rfl, _⟩ := h
  obtain ⟨_, after', heq, _⟩ := h'
  exact (List.append_inj heq hlength).1

/-- Of two entries that fit a text the one that is no longer begins the other. -/
theorem isPrefix_of_length_le (ha : Fits t a keyword) (hb : Fits t b spelled)
    (hle : a.1.length ≤ b.1.length) : a.1 <+: b.1 := by
  rw [ha.length_eq, hb.length_eq] at hle
  obtain ⟨hlower, after, rfl, _⟩ := ha
  obtain ⟨hlower', after', heq, _⟩ := hb
  rw [← hlower, ← hlower']
  exact Text.lowerCase_isPrefix_of_length_le heq hle

/-- Of two entries that fit a text the one that is no longer is closed where the other one goes
on. -/
theorem endsKeyword_drop (ha : Fits t a keyword) (hb : Fits t b spelled)
    (hle : a.1.length ≤ b.1.length) : endsKeyword (b.1.drop a.1.length) = true := by
  rw [ha.length_eq, hb.length_eq] at hle
  obtain ⟨hlower, after, rfl, hends⟩ := ha
  obtain ⟨hlower', after', heq, _⟩ := hb
  obtain ⟨m, rfl, rfl⟩ := Text.exists_between_of_length_le heq hle
  rw [← hlower, ← hlower', Text.lowerCase_append, List.drop_left]
  exact endsKeyword_lowerCase_of_append hends

/-- Of two entries that fit a text the one that comes later in the table is shorter. -/
theorem length_lt (ha : Fits t a keyword) (hb : Fits t b spelled) (hpair : NotClosedIn a b) :
    b.1.length < a.1.length := by
  by_contra hlt
  have hle : a.1.length ≤ b.1.length := by omega
  have hopen := hpair (ha.isPrefix_of_length_le hb hle)
  rw [ha.endsKeyword_drop hb hle] at hopen
  exact Bool.noConfusion hopen

end Fits

/-- An entry of the table is found by itself where it fits. -/
theorem closedSpelling?_eq_some_iff_fits {t : Text} {entry : Text × Kind} (h : entry ∈ keywords)
    {found : Kind × Text} :
    closedSpelling? entry.1 entry.2 t = some found ↔ found.1 = entry.2 ∧ Fits t entry found.2 :=
  closedSpelling?_eq_some_iff h

/-- The keyword at the start of a text is the longest entry that fits it. The entries in front of
the one that is found do not fit, and those behind it are shorter if they do. -/
theorem exists_isLongestFit_of_keywordAt? {t : Text} {found : Kind × Text}
    (h : keywordAt? t = some found) :
    ∃ entry, IsLongestFit t entry found.2 ∧ entry.2 = found.1 := by
  obtain ⟨front, entry, back, hsplit, hentry, hfront⟩ := List.findSome?_eq_some_iff.mp h
  have hmem : entry ∈ keywords := by simp [hsplit]
  obtain ⟨hkind, hfits⟩ := (closedSpelling?_eq_some_iff_fits hmem).mp hentry
  have hpairs : (front ++ entry :: back).Pairwise NotClosedIn := hsplit ▸ pairwise_keywords
  have hbehind := (List.pairwise_cons.mp (List.pairwise_append.mp hpairs).2.1).1
  refine ⟨entry, ⟨hmem, hfits, fun other hother spelled hspelled => ?_⟩, hkind.symm⟩
  have hplace : other ∈ front ∨ other = entry ∨ other ∈ back := by
    rwa [hsplit, List.mem_append, List.mem_cons] at hother
  rcases hplace with hmem | rfl | hmem
  · have hfound : closedSpelling? other.1 other.2 t = some (other.2, spelled) :=
      (closedSpelling?_eq_some_iff_fits hother).mpr ⟨rfl, hspelled⟩
    exact absurd (hfound.symm.trans (hfront other hmem)) (Option.some_ne_none _)
  · exact Or.inl rfl
  · exact Or.inr (hfits.length_lt hspelled (hbehind other hmem))

/-- No keyword is found at the start of a text exactly if no entry fits it. -/
theorem keywordAt?_eq_none_iff {t : Text} :
    keywordAt? t = none ↔ ∀ entry ∈ keywords, ∀ keyword, ¬Fits t entry keyword := by
  constructor
  · rintro h entry hentry keyword ⟨hlower, after, rfl, hends⟩
    have hspells : SpellsKeyword entry.2 keyword := by rwa [SpellsKeyword, hlower]
    have hsome := isSome_keywordAt? hspells hends
    simp [h] at hsome
  · intro h
    refine Option.eq_none_iff_forall_ne_some.mpr fun found hfound => ?_
    obtain ⟨entry, hlongest, _⟩ := exists_isLongestFit_of_keywordAt? hfound
    exact h entry hlongest.mem_keywords found.2 hlongest.fits

namespace IsLongestFit

variable {t keyword spelled : Text} {entry other short long : Text × Kind}

/-- Only one entry is the longest that fits a text. -/
theorem entry_eq (h : IsLongestFit t entry keyword) (h' : IsLongestFit t other spelled) :
    entry = other := by
  rcases h.longest other h'.mem_keywords spelled h'.fits with heq | hlt
  · exact heq.symm
  · rcases h'.longest entry h.mem_keywords keyword h.fits with heq | hlt'
    · exact heq
    · omega

/-- The longest entry that fits a text is found. -/
theorem keywordAt?_eq (h : IsLongestFit t entry keyword) :
    keywordAt? t = some (entry.2, keyword) := by
  cases hfound : keywordAt? t with
  | none => exact absurd h.fits (keywordAt?_eq_none_iff.mp hfound entry h.mem_keywords keyword)
  | some found =>
    obtain ⟨longest, hlongest, hkind⟩ := exists_isLongestFit_of_keywordAt? hfound
    obtain rfl := h.entry_eq hlongest
    rw [h.fits.keyword_eq hlongest.fits, hkind]

/-- An entry that a shorter one begins is the longest wherever it fits. -/
theorem of_isPrefix (hshort : short ∈ keywords) (hlong : long ∈ keywords)
    (hbegins : short.1 <+: long.1) (hne : short ≠ long) (h : Fits t long keyword) :
    IsLongestFit t long keyword := by
  refine ⟨hlong, h, fun other hother spelled hspelled => ?_⟩
  by_cases hlt : other.1.length < long.1.length
  · exact Or.inr hlt
  · have hlonger := h.isPrefix_of_length_le hspelled (by omega)
    exact Or.inl (eq_of_isPrefix_of_isPrefix hshort hlong hother hbegins hne hlonger).symm

/-- An entry that fits is the longest where a longer one that it begins is spelled but not
closed. -/
theorem of_not_closed {after : Text} (hshort : short ∈ keywords) (hlong : long ∈ keywords)
    (hbegins : short.1 <+: long.1) (hne : short ≠ long) (hspelled : spelled.lowerCase = long.1)
    (hends : endsKeyword after = false) (h : Fits (spelled ++ after) short keyword) :
    IsLongestFit (spelled ++ after) short keyword := by
  refine ⟨hshort, h, fun other hother found hfound => or_iff_not_imp_right.mpr fun hlt => ?_⟩
  have hother' : short.1 <+: other.1 := h.isPrefix_of_length_le hfound (by omega)
  by_contra hne'
  have hlength := hfound.length_eq
  obtain ⟨hlower, rest, ht, hclosed⟩ := hfound
  -- the other entry and the longer one both go on from the short one, so they are the same
  have hsame : other = long := by
    rcases Nat.le_total found.length spelled.length with hle | hle
    · have hlonger := Text.lowerCase_isPrefix_of_length_le ht.symm hle
      rw [hlower, hspelled] at hlonger
      exact eq_of_isPrefix_of_isPrefix hshort hother hlong hother' (Ne.symm hne') hlonger
    · have hlonger := Text.lowerCase_isPrefix_of_length_le ht hle
      rw [hlower, hspelled] at hlonger
      exact (eq_of_isPrefix_of_isPrefix hshort hlong hother hbegins hne hlonger).symm
  rw [hsame, ← hspelled, Text.length_lowerCase] at hlength
  obtain ⟨_, rfl⟩ := List.append_inj ht hlength
  rw [hends] at hclosed
  exact Bool.noConfusion hclosed

end IsLongestFit

/-- The keyword at any place of a line is the longest entry of the table that is spelled there, in
any mixture of cases, and closed; none is found where there is no such entry. Of two words of which
one begins the other, the longer one is found where it is closed, and where it is spelled but not
closed the shorter one still is. -/
theorem keyword_is_longest_match (before rest : Text) :
    let found := keywordAt? (Text.dropBytes (Text.byteSize before) (before ++ rest))
    (∀ kind keyword, found = some (kind, keyword) ↔
      ∃ entry, IsLongestFit rest entry keyword ∧ entry.2 = kind) ∧
    (found = none ↔ ∀ entry ∈ keywords, ∀ keyword, ¬Fits rest entry keyword) ∧
    ∀ short ∈ keywords, ∀ long ∈ keywords, short.1 <+: long.1 → short ≠ long →
      (∀ keyword, Fits rest long keyword → found = some (long.2, keyword)) ∧
      ∀ spelled after keyword, rest = spelled ++ after → spelled.lowerCase = long.1 →
        endsKeyword after = false → Fits rest short keyword → found = some (short.2, keyword) := by
  intro found
  have hfound : found = keywordAt? rest := congrArg keywordAt? (Text.dropBytes_append before rest)
  rw [hfound]
  refine ⟨fun kind keyword => ⟨exists_isLongestFit_of_keywordAt?, ?_⟩, keywordAt?_eq_none_iff, ?_⟩
  · rintro ⟨entry, hlongest, rfl⟩
    exact hlongest.keywordAt?_eq
  · intro short hshort long hlong hbegins hne
    constructor
    · intro keyword hfits
      exact (IsLongestFit.of_isPrefix hshort hlong hbegins hne hfits).keywordAt?_eq
    · rintro spelled after keyword rfl hspelled hends hfits
      exact (IsLongestFit.of_not_closed hshort hlong hbegins hne hspelled hends hfits).keywordAt?_eq

/-- These are the words of which one begins another. The name of a sphere wins over that of a plain
video, which is still found where the longer name goes on. -/
example : (keywords.flatMap fun long =>
      (keywords.filter fun short => short.1.isPrefixOf long.1 && short != long).map fun short =>
        (String.ofList short.1, String.ofList long.1)) =
      [("text", "texto"), ("video", "videosphere"), ("video", "video esfera"),
        ("second", "seconds"), ("model", "modelo")] ∧
    keywordAt? "Video Esfera.".toList = some (.videosphere, "Video Esfera".toList) ∧
    keywordAt? "Video Esferas.".toList = some (.video, "Video".toList) := by
  decide +kernel

end Storyboard
