import Storyboard.Text.Blank
import Storyboard.Text.Letter

/-!
# What lower case leaves alone

Only letters have another lower-case form, and there are few of them: those of the Latin
alphabet, those of the Latin-1 range and two signs. A class of characters that holds no letter,
such as the delimiters or the digits, is therefore the same before and after lower-casing.
-/

namespace Storyboard

/-- The characters whose lower-case form is another character, with the one sign of Latin-1 that
stands between them. -/
def casedLetters : List Char :=
  (List.range 26).map (fun i => Char.ofNat (65 + i)) ++
    (List.range 31).map (fun i => Char.ofNat (192 + i)) ++ ['\u212a', '\u212b']

private theorem eq_ofNat_of_le {c : Char} {first count : Nat} (hlow : first ≤ c.toNat)
    (hhigh : c.toNat < first + count) :
    c ∈ (List.range count).map fun i => Char.ofNat (first + i) := by
  refine List.mem_map.mpr ⟨c.toNat - first, List.mem_range.mpr (by omega), ?_⟩
  rw [Nat.add_sub_cancel' hlow, Char.ofNat_toNat]

/-- A character with another lower-case form is one of the letters. -/
theorem mem_casedLetters {c : Char} (h : lowerCase c ≠ c) : c ∈ casedLetters := by
  unfold lowerCase at h
  rw [casedLetters, List.mem_append, List.mem_append]
  split at h
  next hupper =>
    unfold Char.isUpper at hupper
    simp only [decide_eq_true_eq, ge_iff_le, UInt32.le_iff_toNat_le] at hupper
    obtain ⟨hlow, hhigh⟩ := hupper
    exact Or.inl (Or.inl (eq_ofNat_of_le hlow (Nat.lt_succ_of_le hhigh)))
  next =>
    split at h
    next hlatin =>
      obtain ⟨hlow, hhigh, _⟩ := hlatin
      exact Or.inl (Or.inr (eq_ofNat_of_le (UInt32.le_iff_toNat_le.mp hlow)
        (Nat.lt_succ_of_le (UInt32.le_iff_toNat_le.mp hhigh))))
    next =>
      split at h
      next hkelvin => simp [hkelvin]
      next =>
        split at h
        next hangstrom => simp [hangstrom]
        next => exact absurd rfl h

/-- What is checked of all cased letters and their lower-case forms holds of every character. -/
theorem lowerCase_rec {P : Char → Char → Bool} (hself : ∀ c, P c c = true)
    (hcased : (casedLetters.all fun c => P c (lowerCase c)) = true) (c : Char) :
    P c (lowerCase c) = true := by
  by_cases h : lowerCase c = c
  · rw [h]
    exact hself c
  · exact List.all_eq_true.mp hcased c (mem_casedLetters h)

/-- Lower-casing makes no delimiter and unmakes none. -/
@[simp] theorem isDelimiter_lowerCase (c : Char) : isDelimiter (lowerCase c) = isDelimiter c := by
  have h := lowerCase_rec (P := fun c d => isDelimiter d == isDelimiter c)
    (fun c => beq_self_eq_true (isDelimiter c)) (by decide) c
  exact beq_iff_eq.mp h

/-- Lower-casing makes no digit and unmakes none. -/
@[simp] theorem isDigit_lowerCase (c : Char) : (lowerCase c).isDigit = c.isDigit := by
  have h := lowerCase_rec (P := fun c d => d.isDigit == c.isDigit)
    (fun c => beq_self_eq_true c.isDigit) (by decide) c
  exact beq_iff_eq.mp h

/-- No delimiter is a digit. -/
theorem isDigit_of_isDelimiter {c : Char} (h : isDelimiter c = true) : c.isDigit = false := by
  have hblanks : (blanks.all fun b => !b.isDigit) = true := by decide
  simp only [isDelimiter, Bool.or_eq_true, beq_iff_eq] at h
  rcases h with (((h | rfl) | rfl) | rfl) | rfl
  · have hblank := List.all_eq_true.mp hblanks c (by simpa [isBlank] using h)
    simpa using hblank
  all_goals decide

/-- No digit is a delimiter. -/
theorem isDelimiter_of_isDigit {c : Char} (h : c.isDigit = true) : isDelimiter c = false := by
  rw [← Bool.not_eq_true]
  intro hd
  simp [isDigit_of_isDelimiter hd] at h

/-- Letters are compared by their lower-case forms alone. -/
theorem sameLetter_iff {expected actual : Char} :
    sameLetter expected actual = true ↔ lowerCase actual = lowerCase expected := by
  rw [sameLetter, Bool.or_eq_true, beq_iff_eq, beq_iff_eq]
  constructor
  · rintro (rfl | h)
    · rfl
    · exact h
  · exact Or.inr

/-- Patterns compare letters by their case foldings. -/
theorem foldsTo_iff {expected actual : Char} :
    foldsTo expected actual = true ↔ foldCase actual = foldCase expected := by
  rw [foldsTo, beq_iff_eq]

/-- Lower-casing a character leaves its case folding alone. -/
@[simp] theorem foldCase_lowerCase (c : Char) : foldCase (lowerCase c) = foldCase c := by
  have h := lowerCase_rec (P := fun c d => foldCase d == foldCase c)
    (fun c => beq_self_eq_true (foldCase c)) (by decide) c
  exact beq_iff_eq.mp h

/-- Only the character itself folds to a character that is no letter. -/
theorem foldCase_eq_iff {d : Char} (hd : d ≠ 's' ∧ d ≠ 'ſ')
    (hcased : (casedLetters.all fun c => (lowerCase c == d) == (c == d)) = true) {c : Char} :
    foldCase c = d ↔ c = d := by
  have h := lowerCase_rec (P := fun c l => (l == d) == (c == d))
    (fun c => beq_self_eq_true (c == d)) hcased c
  have hlower : lowerCase c = d ↔ c = d := by
    rw [← beq_iff_eq, beq_iff_eq.mp h, beq_iff_eq]
  rw [foldCase]
  split
  next hs =>
    rw [hs]
    exact ⟨fun heq => absurd heq.symm hd.1, fun heq => absurd heq.symm hd.2⟩
  next => exact hlower

/-- Only the space folds to a space. -/
@[simp] theorem foldCase_eq_space_iff {c : Char} : foldCase c = ' ' ↔ c = ' ' :=
  foldCase_eq_iff (by decide) (by decide)

/-- Only the number sign folds to a number sign. -/
@[simp] theorem foldCase_eq_numberSign_iff {c : Char} : foldCase c = '#' ↔ c = '#' :=
  foldCase_eq_iff (by decide) (by decide)

namespace Text

/-- The lower-case form of two texts in a row is that of one and then the other. -/
@[simp] theorem lowerCase_append (a b : Text) :
    (a ++ b).lowerCase = a.lowerCase ++ b.lowerCase :=
  List.map_append

/-- Letters get their lower-case forms one by one. -/
@[simp] theorem lowerCase_cons (c : Char) (t : Text) :
    Text.lowerCase (c :: t) = Storyboard.lowerCase c :: t.lowerCase := rfl

/-- The lower-case form of a text has as many characters. -/
@[simp] theorem length_lowerCase (t : Text) : t.lowerCase.length = t.length :=
  List.length_map _

/-- Lower-casing a text leaves its case folding alone. -/
theorem map_foldCase_lowerCase (t : Text) : t.lowerCase.map foldCase = t.map foldCase := by
  simp [lowerCase]

end Text

end Storyboard
