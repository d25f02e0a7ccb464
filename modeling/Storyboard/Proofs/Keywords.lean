import Mathlib.Data.List.TakeWhile
import Storyboard.Keyword
import Storyboard.Proofs.Letters

/-!
# What a keyword can look like

The table spells every keyword in lower case, so a stretch of a line spells a keyword exactly if
its lower-case form is in the table. From the table come the facts that scanning rests on: no
keyword begins with the letter that follows a delimiter inside a keyword, no keyword holds a
digit, and the units of time are the only keywords whose first word is a unit of time.
-/

namespace Storyboard

/-- A stretch of text spells a keyword of a kind, in any mixture of cases. -/
def SpellsKeyword (kind : Kind) (spelled : Text) : Prop :=
  (spelled.lowerCase, kind) ∈ keywords

/-- Whether a text spells a keyword of a kind can be computed. -/
instance (kind : Kind) (spelled : Text) : Decidable (SpellsKeyword kind spelled) :=
  inferInstanceAs (Decidable ((spelled.lowerCase, kind) ∈ keywords))

/-- The table holds lower-case forms only. -/
theorem lowerCase_of_mem_keywords {entry : Text × Kind} (h : entry ∈ keywords) :
    entry.1.lowerCase = entry.1 := by
  have hall : ∀ entry ∈ keywords, entry.1.lowerCase = entry.1 := by decide
  exact hall entry h

/-- A word is spelled by each leading part with the same lower-case form, and by no other. -/
theorem spelling?_eq_some_iff {word t spelled after : Text} :
    spelling? word t = some (spelled, after) ↔
      t = spelled ++ after ∧ spelled.lowerCase = word.lowerCase := by
  induction word generalizing t spelled with
  | nil =>
    simp only [spelling?, Option.some.injEq, Prod.mk.injEq, Text.lowerCase, List.map_nil,
      List.map_eq_nil_iff]
    constructor
    · rintro ⟨rfl, rfl⟩
      exact ⟨rfl, rfl⟩
    · rintro ⟨rfl, rfl⟩
      exact ⟨rfl, rfl⟩
  | cons expected word ih =>
    cases t with
    | nil =>
      simp only [spelling?, reduceCtorEq, false_iff, not_and]
      intro h
      obtain ⟨rfl, rfl⟩ := List.append_eq_nil_iff.mp h.symm
      simp [Text.lowerCase]
    | cons c rest =>
      have hstep : spelling? (expected :: word) (c :: rest) = some (spelled, after) ↔
          lowerCase c = lowerCase expected ∧
            ∃ s, spelling? word rest = some (s, after) ∧ spelled = c :: s := by
        rw [spelling?]
        split
        next h =>
          rw [Option.map_eq_some_iff]
          simp only [Prod.exists, Prod.mk.injEq, sameLetter_iff.mp h, true_and]
          constructor
          · rintro ⟨s, a, hs, rfl, rfl⟩
            exact ⟨s, hs, rfl⟩
          · rintro ⟨s, hs, rfl⟩
            exact ⟨s, after, hs, rfl, rfl⟩
        next h =>
          rw [sameLetter_iff] at h
          simp [h]
      rw [hstep]
      constructor
      · rintro ⟨hc, s, hs, rfl⟩
        obtain ⟨rfl, hlower⟩ := ih.mp hs
        simp [hc, hlower]
      · rintro ⟨ht, hlower⟩
        cases spelled with
        | nil => simp [Text.lowerCase] at hlower
        | cons d s =>
          obtain ⟨rfl, rfl⟩ := List.cons.inj ht
          obtain ⟨hc, hlower⟩ := List.cons.inj hlower
          exact ⟨hc, s, ih.mpr ⟨rfl, hlower⟩, rfl⟩

/-- An entry of the table is spelled at the start of a text and closed there exactly if a closed
leading part has the entry's word as lower-case form. -/
theorem spelling?_entry_iff {word t spelled after : Text} {kind : Kind}
    (h : (word, kind) ∈ keywords) :
    spelling? word t = some (spelled, after) ↔ t = spelled ++ after ∧ spelled.lowerCase = word := by
  rw [spelling?_eq_some_iff, lowerCase_of_mem_keywords h]

/-- The keyword at the start of a text is spelled there and closed. -/
theorem exists_after_of_keywordAt? {t keyword : Text} {kind : Kind}
    (h : keywordAt? t = some (kind, keyword)) :
    ∃ after, t = keyword ++ after ∧ SpellsKeyword kind keyword ∧ endsKeyword after = true := by
  obtain ⟨⟨word, entryKind⟩, hmem, hentry⟩ := List.exists_of_findSome?_eq_some h
  simp only at hentry
  split at hentry
  next spelled after hspell =>
    split at hentry
    next hends =>
      obtain ⟨rfl, rfl⟩ : entryKind = kind ∧ spelled = keyword := by simpa using hentry
      obtain ⟨ht, hlower⟩ := (spelling?_entry_iff hmem).mp hspell
      exact ⟨after, ht, by rw [SpellsKeyword, hlower]; exact hmem, hends⟩
    next => simp at hentry
  next => simp at hentry

/-- Where some keyword is spelled and closed, one is found. -/
theorem isSome_keywordAt? {spelled after : Text} {kind : Kind} (h : SpellsKeyword kind spelled)
    (hends : endsKeyword after = true) : (keywordAt? (spelled ++ after)).isSome = true := by
  rw [keywordAt?, List.findSome?_isSome_iff]
  have hspell : spelling? spelled.lowerCase (spelled ++ after) = some (spelled, after) :=
    (spelling?_entry_iff h).mpr ⟨rfl, rfl⟩
  exact ⟨_, h, by simp only [hspell, hends, if_true, Option.isSome_some]⟩

/-- No keyword is empty. -/
theorem SpellsKeyword.ne_nil {kind : Kind} {spelled : Text} (h : SpellsKeyword kind spelled) :
    spelled ≠ [] := by
  have hall : ∀ entry ∈ keywords, entry.1 ≠ [] := by decide
  rintro rfl
  exact hall _ h rfl

/-- No keyword holds a digit. -/
theorem SpellsKeyword.isDigit_eq_false {kind : Kind} {spelled : Text}
    (h : SpellsKeyword kind spelled) {c : Char} (hc : c ∈ spelled) : c.isDigit = false := by
  have hall : (keywords.all fun entry => entry.1.all fun c => !c.isDigit) = true := by decide
  have hword := List.all_eq_true.mp hall _ h
  have hlower := List.all_eq_true.mp hword (lowerCase c) (List.mem_map_of_mem hc)
  simpa using hlower

/-- The keywords of durations and backgrounds are single words. -/
theorem SpellsKeyword.isDelimiter_eq_false {kind : Kind} {spelled : Text}
    (hkind : kind ∈ [Kind.duration, Kind.background, Kind.fondo])
    (h : SpellsKeyword kind spelled) : ∀ c ∈ spelled, isDelimiter c = false := by
  have hall : ∀ entry ∈ keywords, entry.2 ∈ [Kind.duration, Kind.background, Kind.fondo] →
      (entry.1.all fun c => !isDelimiter c) = true := by decide
  intro c hc
  have hlower := List.all_eq_true.mp (hall _ h hkind) (lowerCase c) (List.mem_map_of_mem hc)
  simpa using hlower

/-- A delimiter inside a keyword is followed by a letter that begins no keyword. -/
theorem keywords_inner_letter {entry : Text × Kind} (h : entry ∈ keywords) {m rest : Text}
    {d : Char} (hsplit : entry.1 = m ++ d :: rest) (hd : isDelimiter d = true) :
    ∃ c, rest.head? = some c ∧ ∀ other ∈ keywords, other.1.head? ≠ some c := by
  have hall : ∀ entry ∈ keywords, ∀ i < entry.1.length, entry.1[i]?.any isDelimiter = true →
      entry.1[i + 1]?.any (fun c => keywords.all fun other => other.1.head? != some c) = true := by
    decide +kernel
  have hi := hall entry h m.length (by simp [hsplit]) (by simp [hsplit, hd])
  rw [hsplit, List.getElem?_append_right (by omega), Nat.add_sub_cancel_left,
    List.getElem?_cons_succ, ← List.head?_eq_getElem?, Option.any_eq_true] at hi
  obtain ⟨c, hc, hothers⟩ := hi
  refine ⟨c, hc, fun other hother => ?_⟩
  simpa using List.all_eq_true.mp hothers other hother

/-- A delimiter inside a spelled keyword is followed by a letter that begins no keyword. -/
theorem SpellsKeyword.inner_letter {kind : Kind} {m rest : Text} {d : Char}
    (h : SpellsKeyword kind (m ++ d :: rest)) (hd : isDelimiter d = true) :
    ∃ c inner, rest = c :: inner ∧ ∀ other ∈ keywords, other.1.head? ≠ some (lowerCase c) := by
  have hsplit : ((m ++ d :: rest).lowerCase, kind).1 =
      m.lowerCase ++ lowerCase d :: rest.lowerCase := by simp
  obtain ⟨c, hc, hothers⟩ := keywords_inner_letter h hsplit (by simpa using hd)
  cases rest with
  | nil => simp [Text.lowerCase] at hc
  | cons x inner =>
    obtain rfl : lowerCase x = c := by simpa using hc
    exact ⟨x, inner, rfl, hothers⟩

/-- No keyword ends with a delimiter. -/
theorem SpellsKeyword.isDelimiter_last {kind : Kind} {m : Text} {d : Char}
    (h : SpellsKeyword kind (m ++ [d])) : isDelimiter d = false := by
  rw [← Bool.not_eq_true]
  intro hd
  obtain ⟨_, _, hrest, _⟩ := h.inner_letter hd
  simp at hrest

/-- No keyword can open inside another one: whatever follows a delimiter inside a keyword spells
none. -/
theorem SpellsKeyword.not_opens_inside {kind other : Kind} {m rest spelled q after : Text}
    {d : Char} (h : SpellsKeyword kind (m ++ d :: rest)) (hd : isDelimiter d = true)
    (hother : SpellsKeyword other spelled) : rest ++ q ≠ spelled ++ after := by
  intro heq
  obtain ⟨c, inner, rfl, hothers⟩ := h.inner_letter hd
  obtain ⟨x, spelled, rfl⟩ := List.exists_cons_of_ne_nil hother.ne_nil
  obtain ⟨rfl, _⟩ := List.cons.inj heq
  exact hothers _ hother rfl

/-- The first word of a text, up to a delimiter. -/
def Text.firstWord (t : Text) : Text :=
  t.takeWhile fun c => !isDelimiter c

/-- A closed leading part of a text has the same first word. -/
theorem Text.firstWord_append {t after : Text} (h : endsKeyword after = true) :
    (t ++ after).firstWord = t.firstWord := by
  have hafter : after.firstWord = [] := by
    cases after with
    | nil => rfl
    | cons c rest =>
      have hc : isDelimiter c = true := h
      rw [firstWord, List.takeWhile_cons]
      simp [hc]
  rw [firstWord] at hafter
  rw [firstWord, firstWord, List.takeWhile_append, hafter]
  split
  next hall =>
    rw [List.append_nil]
    exact ((List.takeWhile_prefix _).eq_of_length hall).symm
  next => rfl

/-- A text begins in one way only with a closed part without delimiters. -/
theorem Text.firstWord_inj {a b p q : Text} (ha : ∀ c ∈ a, isDelimiter c = false)
    (hp : ∀ c ∈ p, isDelimiter c = false) (h : a ++ b = p ++ q) (hb : endsKeyword b = true)
    (hq : endsKeyword q = true) : a = p ∧ b = q := by
  have hword {a : Text} (ha : ∀ c ∈ a, isDelimiter c = false) : a.firstWord = a :=
    List.takeWhile_eq_self_iff.mpr fun c hc => by simp [ha c hc]
  have hsame : a = p := by
    rw [← hword ha, ← firstWord_append hb, h, firstWord_append hq, hword hp]
  exact ⟨hsame, List.append_cancel_left (hsame ▸ h)⟩

/-- The lower-case form of a text has the lower-case form of its first word. -/
theorem Text.firstWord_lowerCase (t : Text) : t.lowerCase.firstWord = t.firstWord.lowerCase := by
  rw [firstWord, firstWord, Text.lowerCase, Text.lowerCase, List.takeWhile_map]
  simp [Function.comp_def]

/-- A keyword whose first word is a unit of time is itself one. -/
theorem eq_duration_of_firstWord {entry : Text × Kind} (h : entry ∈ keywords)
    (hfirst : (entry.1.firstWord, Kind.duration) ∈ keywords) : entry.2 = .duration := by
  have hall : ∀ entry ∈ keywords,
      (entry.1.firstWord, Kind.duration) ∈ keywords → entry.2 = .duration := by decide +kernel
  exact hall entry h hfirst

/-- A unit of time holds no delimiter. -/
theorem SpellsKeyword.firstWord_duration {unit : Text} (h : SpellsKeyword .duration unit) :
    unit.firstWord = unit := by
  have hall : ∀ entry ∈ keywords, entry.2 = .duration → entry.1.firstWord = entry.1 := by decide
  have hlower := congrArg List.length (hall _ h rfl)
  rw [Text.firstWord_lowerCase, Text.length_lowerCase, Text.length_lowerCase] at hlower
  exact (List.takeWhile_prefix _).eq_of_length hlower

/-- Where a unit of time is spelled and closed, the keyword is one of a duration. -/
theorem keywordAt?_of_spells_duration {unit after : Text} (h : SpellsKeyword .duration unit)
    (hends : endsKeyword after = true) :
    ∃ keyword, keywordAt? (unit ++ after) = some (.duration, keyword) := by
  obtain ⟨⟨kind, keyword⟩, hkeyword⟩ := Option.isSome_iff_exists.mp (isSome_keywordAt? h hends)
  obtain ⟨rest, heq, hspells, hrest⟩ := exists_after_of_keywordAt? hkeyword
  have hfirst : keyword.firstWord = unit := by
    rw [← Text.firstWord_append hrest, ← heq, Text.firstWord_append hends, h.firstWord_duration]
  have hkind : kind = .duration := by
    refine eq_duration_of_firstWord hspells ?_
    rw [Text.firstWord_lowerCase, hfirst]
    exact h
  exact ⟨keyword, by rw [hkeyword, hkind]⟩

end Storyboard
