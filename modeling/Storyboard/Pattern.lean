import Storyboard.Text

/-!
# Patterns in running text

A matcher reads a text from its start and lists what can be left of it, the preferred way first. A
pattern is searched for from left to right; at the first place where it matches, the preferred
match counts.
-/

namespace Storyboard

/-- What can be left of a text once a match has been read from its start, preferred ways first. -/
abbrev Matcher := Text → List Text

namespace Matcher

/-- Reads nothing. -/
def nothing : Matcher := fun t => [t]

/-- Reads one character of a class. -/
def one (p : Char → Bool) : Matcher
  | [] => []
  | c :: rest => if p c then [rest] else []

/-- Reads a word whose letters are compared by `same`. -/
def spelled (same : Char → Char → Bool) : Text → Matcher
  | [], t => [t]
  | _ :: _, [] => []
  | expected :: word, c :: rest => if same expected c then spelled same word rest else []

/-- Reads one match and then another. -/
def andThen (first second : Matcher) : Matcher := fun t => (first t).flatMap second

/-- Reads one of several matches, earlier ones preferred. -/
def oneOf (choices : List Matcher) : Matcher := fun t => choices.flatMap fun choice => choice t

/-- Continues `run` with the ends found so far, the shortest run last. There is no upper bound
where `most` is absent. -/
def runOnto (p : Char → Bool) (least : Nat) (most : Option Nat) (found : List Text) :
    Text → List Text
  | [] => if least = 0 then [] :: found else found
  | c :: rest =>
    let found := if least = 0 then (c :: rest) :: found else found
    if most ≠ some 0 ∧ p c then runOnto p (least - 1) (most.map (· - 1)) found rest else found

/-- Reads between `least` and `most` characters of a class, as many as possible preferred. -/
def run (p : Char → Bool) (least most : Nat) : Matcher := runOnto p least (some most) []

/-- Reads at least `least` characters of a class, as many as possible preferred. -/
def runs (p : Char → Bool) (least : Nat) : Matcher := runOnto p least none []

/-- Reads nothing, where the text does not go on with a character of the class. -/
def notBefore (p : Char → Bool) : Matcher
  | [] => [[]]
  | c :: rest => if p c then [] else [c :: rest]

/-- What two matchers leave one after the other is left by the second behind the first. -/
theorem mem_andThen {first second : Matcher} {t r : Text} :
    r ∈ andThen first second t ↔ ∃ s ∈ first t, r ∈ second s := by
  simp [andThen]

/-- What a choice leaves is left by one of its matchers. -/
theorem mem_oneOf {choices : List Matcher} {t r : Text} :
    r ∈ oneOf choices t ↔ ∃ choice ∈ choices, r ∈ choice t := by
  simp [oneOf]

section

variable {p : Char → Bool} {least : Nat} {most : Option Nat} {r : Text}

/-- At the end of a text only an empty run is left. -/
theorem exists_run_nil_iff :
    (∃ a, [] = a ++ r ∧ (∀ c ∈ a, p c = true) ∧ least ≤ a.length ∧
      ∀ m, most = some m → a.length ≤ m) ↔ least = 0 ∧ r = [] := by
  constructor
  · rintro ⟨a, ha, -, hleast, -⟩
    obtain ⟨rfl, rfl⟩ := List.append_eq_nil_iff.mp ha.symm
    exact ⟨by simpa using hleast, rfl⟩
  · rintro ⟨rfl, rfl⟩
    exact ⟨[], rfl, by simp, Nat.le_refl 0, by simp⟩

/-- A run either is empty or reads one more character, and then it goes on within bounds that are
less by one. -/
theorem exists_run_cons_iff {c : Char} {rest : Text} :
    (∃ a, c :: rest = a ++ r ∧ (∀ d ∈ a, p d = true) ∧ least ≤ a.length ∧
      ∀ m, most = some m → a.length ≤ m) ↔
      (least = 0 ∧ r = c :: rest) ∨ (most ≠ some 0 ∧ p c = true) ∧
        ∃ a, rest = a ++ r ∧ (∀ d ∈ a, p d = true) ∧ least - 1 ≤ a.length ∧
          ∀ m, most.map (· - 1) = some m → a.length ≤ m := by
  constructor
  · rintro ⟨a, ha, hall, hleast, hmost⟩
    cases a with
    | nil => exact Or.inl ⟨by simpa using hleast, ha.symm⟩
    | cons d a =>
      obtain ⟨rfl, rfl⟩ := List.cons.inj ha
      simp only [List.length_cons] at hleast hmost
      refine Or.inr ⟨⟨fun hzero => ?_, hall c List.mem_cons_self⟩, a, rfl,
        fun d hd => hall d (List.mem_cons_of_mem c hd), by omega, fun m hm => ?_⟩
      · have hnone := hmost 0 hzero
        omega
      · obtain ⟨n, hn, rfl⟩ := Option.map_eq_some_iff.mp hm
        have hbound := hmost n hn
        omega
  · rintro (⟨rfl, rfl⟩ | ⟨⟨hne, hc⟩, a, rfl, hall, hleast, hmost⟩)
    · exact ⟨[], rfl, by simp, Nat.le_refl 0, by simp⟩
    · refine ⟨c :: a, rfl, by simpa [hc] using hall, ?_, ?_⟩
      · simp only [List.length_cons]
        omega
      · rintro m rfl
        have hbound := hmost (m - 1) rfl
        have hpos : m ≠ 0 := fun hzero => hne (by rw [hzero])
        simp only [List.length_cons]
        omega

/-- A run may end where it is as soon as it has read enough. -/
theorem mem_end_iff {found : List Text} {t : Text} :
    (r ∈ if least = 0 then t :: found else found) ↔ r ∈ found ∨ (least = 0 ∧ r = t) := by
  split
  · simp [*, or_comm]
  · simp [*]

/-- A run reads any number of characters of its class within its bounds. -/
theorem mem_runOnto {found : List Text} {t : Text} :
    r ∈ runOnto p least most found t ↔
      r ∈ found ∨ ∃ a, t = a ++ r ∧ (∀ c ∈ a, p c = true) ∧ least ≤ a.length ∧
        ∀ m, most = some m → a.length ≤ m := by
  induction t generalizing least most found with
  | nil => rw [runOnto, mem_end_iff, exists_run_nil_iff]
  | cons c rest ih =>
    rw [runOnto, exists_run_cons_iff]
    by_cases hgo : most ≠ some 0 ∧ p c = true
    · rw [if_pos hgo, ih, mem_end_iff, and_iff_right hgo, or_assoc]
    · have hstops (P : Prop) : ¬((most ≠ some 0 ∧ p c = true) ∧ P) := fun h => hgo h.1
      rw [if_neg hgo, mem_end_iff, or_iff_left (hstops _)]

end

end Matcher

/-- What to look for: the part that is kept, what stands before it and what follows it. -/
structure Pattern where
  lead : Matcher := Matcher.nothing
  body : Matcher
  follow : Matcher := Matcher.nothing

/-- A match: the text of the part that is kept, and what is left after the whole match. -/
structure Match where
  text : Text
  rest : Text

namespace Pattern

/-- The preferred match at the start of a text. -/
def matchAt (pattern : Pattern) (t : Text) : Option Match :=
  (pattern.lead t).findSome? fun opened =>
    (pattern.body opened).findSome? fun closed =>
      (pattern.follow closed).head?.map fun rest =>
        ⟨opened.take (opened.length - closed.length), rest⟩

/-- The leftmost match in a text. -/
def find? (pattern : Pattern) : Text → Option Match
  | [] => pattern.matchAt []
  | c :: rest =>
    match pattern.matchAt (c :: rest) with
    | some found => some found
    | none => pattern.find? rest

/-- Whether a text holds a match. -/
def occursIn (pattern : Pattern) (t : Text) : Bool :=
  (pattern.find? t).isSome

/-- The kept parts of all matches, each searched for after the end of the one before it. A match
that reads nothing is the last one. -/
def findAll (pattern : Pattern) (t : Text) : List Text :=
  match pattern.find? t with
  | none => []
  | some found =>
    if found.rest.length < t.length then found.text :: pattern.findAll found.rest else [found.text]
termination_by t.length

end Pattern

end Storyboard
