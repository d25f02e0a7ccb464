import Storyboard.Pattern
import Storyboard.Proofs.Letters

/-!
# Searching for patterns

What a matcher leaves of a text is what follows a leading part of a certain form. From this come
the facts about a search: it succeeds exactly if the pattern matches somewhere, and it passes over
a leading part in which no match begins.
-/

namespace Storyboard

namespace Matcher

/-- A run of unlimited length is read off the front. -/
theorem mem_runs_iff {p : Char → Bool} {least : Nat} {t r : Text} :
    r ∈ runs p least t ↔ ∃ a, t = a ++ r ∧ (∀ c ∈ a, p c = true) ∧ least ≤ a.length := by
  rw [runs, mem_runOnto]
  simp

/-- A run of limited length is read off the front. -/
theorem mem_run_iff {p : Char → Bool} {least most : Nat} {t r : Text} :
    r ∈ run p least most t ↔
      ∃ a, t = a ++ r ∧ (∀ c ∈ a, p c = true) ∧ least ≤ a.length ∧ a.length ≤ most := by
  rw [run, mem_runOnto]
  simp

/-- One character is read off the front. -/
theorem mem_one_iff {p : Char → Bool} {t r : Text} :
    r ∈ one p t ↔ ∃ c, t = c :: r ∧ p c = true := by
  cases t with
  | nil => simp [one]
  | cons c rest =>
    rw [one, List.mem_ite_nil_right, List.mem_singleton]
    constructor
    · rintro ⟨hc, rfl⟩
      exact ⟨c, rfl, hc⟩
    · rintro ⟨d, heq, hd⟩
      obtain ⟨rfl, rfl⟩ := List.cons.inj heq
      exact ⟨hd, rfl⟩

/-- Nothing is read, and the text does not go on with the class. -/
theorem mem_notBefore_iff {p : Char → Bool} {t r : Text} :
    r ∈ notBefore p t ↔ t = r ∧ ∀ c, r.head? = some c → p c = false := by
  cases t with
  | nil =>
    rw [notBefore, List.mem_singleton]
    constructor
    · rintro rfl
      exact ⟨rfl, by simp⟩
    · exact fun h => h.1.symm
  | cons c rest =>
    rw [notBefore]
    split
    next hc =>
      constructor
      · simp
      · rintro ⟨rfl, hstop⟩
        simp [hstop c rfl] at hc
    next hc =>
      rw [List.mem_singleton]
      constructor
      · rintro rfl
        exact ⟨rfl, by simpa using hc⟩
      · exact fun h => h.1.symm

/-- A word is read off the front as it stands. -/
theorem mem_spelled_beq_iff {word t r : Text} : r ∈ spelled (· == ·) word t ↔ t = word ++ r := by
  induction word generalizing t with
  | nil => simp [spelled, eq_comm]
  | cons expected word ih =>
    cases t with
    | nil => simp [spelled]
    | cons c rest =>
      rw [spelled, List.mem_ite_nil_right, ih, beq_iff_eq, List.cons_append, List.cons.injEq,
        eq_comm]

/-- A word is read off the front in any spelling with the same case folding. -/
theorem mem_spelled_foldsTo_iff {word t r : Text} :
    r ∈ spelled foldsTo word t ↔ ∃ u, t = u ++ r ∧ u.map foldCase = word.map foldCase := by
  induction word generalizing t with
  | nil => simp [spelled, eq_comm]
  | cons expected word ih =>
    cases t with
    | nil =>
      simp only [spelled, List.not_mem_nil, false_iff]
      rintro ⟨u, hu, hfold⟩
      obtain ⟨rfl, rfl⟩ := List.append_eq_nil_iff.mp hu.symm
      simp at hfold
    | cons c rest =>
      have hstep : r ∈ spelled foldsTo (expected :: word) (c :: rest) ↔
          foldCase c = foldCase expected ∧ r ∈ spelled foldsTo word rest := by
        rw [spelled]
        split
        next h => simp [foldsTo_iff.mp h]
        next h => simp [mt foldsTo_iff.mpr h]
      rw [hstep, ih]
      constructor
      · rintro ⟨hc, u, rfl, hu⟩
        exact ⟨c :: u, rfl, by simp [hc, hu]⟩
      · rintro ⟨u, hu, hfold⟩
        cases u with
        | nil => simp at hfold
        | cons d u =>
          obtain ⟨rfl, rfl⟩ := List.cons.inj hu
          obtain ⟨hc, hfold⟩ := List.cons.inj hfold
          exact ⟨hc, u, rfl, hfold⟩

end Matcher

namespace Pattern

variable {pattern : Pattern}

/-- A pattern matches at the start of a text exactly if its three parts can be read one after the
other. -/
theorem isSome_matchAt_iff {t : Text} :
    (pattern.matchAt t).isSome = true ↔
      ∃ opened ∈ pattern.lead t, ∃ closed ∈ pattern.body opened, pattern.follow closed ≠ [] := by
  simp only [matchAt, List.findSome?_isSome_iff, Option.isSome_map, List.isSome_head?]

/-- A search succeeds exactly if the pattern matches at some place. -/
theorem occursIn_iff {t : Text} :
    pattern.occursIn t = true ↔ ∃ a b, t = a ++ b ∧ (pattern.matchAt b).isSome = true := by
  rw [occursIn]
  induction t with
  | nil =>
    constructor
    · intro h
      exact ⟨[], [], rfl, h⟩
    · rintro ⟨a, b, hab, h⟩
      obtain ⟨rfl, rfl⟩ := List.append_eq_nil_iff.mp hab.symm
      exact h
  | cons c rest ih =>
    rw [find?]
    cases hmatch : pattern.matchAt (c :: rest) with
    | some found => exact ⟨fun _ => ⟨[], c :: rest, rfl, by simp [hmatch]⟩, fun _ => rfl⟩
    | none =>
      rw [ih]
      constructor
      · rintro ⟨a, b, rfl, h⟩
        exact ⟨c :: a, b, rfl, h⟩
      · rintro ⟨a, b, hab, h⟩
        cases a with
        | nil =>
          rw [List.nil_append] at hab
          rw [← hab, hmatch] at h
          simp at h
        | cons d a =>
          obtain ⟨rfl, rfl⟩ := List.cons.inj hab
          exact ⟨a, b, rfl, h⟩

/-- A pattern opens with a class of characters: each match begins with one of them. -/
def OpensWith (pattern : Pattern) (p : Char → Bool) : Prop :=
  ∀ t, (pattern.matchAt t).isSome = true → ∃ c rest, t = c :: rest ∧ p c = true

/-- A search passes over characters that the pattern does not open with. -/
theorem OpensWith.find?_append {p : Char → Bool} (hopens : pattern.OpensWith p) {w : Text}
    (hw : ∀ c ∈ w, p c = false) (t : Text) : pattern.find? (w ++ t) = pattern.find? t := by
  induction w with
  | nil => rfl
  | cons c w ih =>
    have hnone : pattern.matchAt (c :: (w ++ t)) = none := by
      rw [← Option.not_isSome_iff_eq_none]
      intro hsome
      obtain ⟨d, rest, heq, hd⟩ := hopens _ hsome
      obtain ⟨rfl, _⟩ := List.cons.inj heq
      simp [hw c List.mem_cons_self] at hd
    rw [List.cons_append, find?, hnone]
    exact ih fun d hd => hw d (List.mem_cons_of_mem c hd)

/-- Nothing is found in a text without a character that the pattern opens with. -/
theorem OpensWith.find?_eq_none {p : Char → Bool} (hopens : pattern.OpensWith p) {t : Text}
    (ht : ∀ c ∈ t, p c = false) : pattern.find? t = none := by
  have hnil : pattern.find? [] = none := by
    rw [find?, ← Option.not_isSome_iff_eq_none]
    intro hsome
    obtain ⟨_, _, heq, _⟩ := hopens _ hsome
    simp at heq
  simpa [hnil] using hopens.find?_append ht []

end Pattern

end Storyboard
