import Storyboard.Proofs.Search
import Storyboard.Prose.Address
import Storyboard.Prose.Caption
import Storyboard.Prose.Color
import Storyboard.Prose.Placement

/-!
# How matches begin

What is read from a window never begins with a delimiter: addresses begin with a scheme, captions
with a quote, colors with a number sign or a word, and the words for locations and sizes with a
letter. What is left behind a match is the end of the window, so that a match that reads something
leaves less than there was.
-/

namespace Storyboard

/-- Case folding makes no delimiter and unmakes none. -/
@[simp] theorem isDelimiter_foldCase (c : Char) : isDelimiter (foldCase c) = isDelimiter c := by
  rw [foldCase]
  split
  next h =>
    rw [h]
    decide
  next => exact isDelimiter_lowerCase c

/-- A spelling of a word without delimiters has none either. -/
theorem isDelimiter_of_map_foldCase_eq {spelled word : Text}
    (h : spelled.map foldCase = word.map foldCase)
    (hword : (word.all fun c => !isDelimiter c) = true) :
    ∀ c ∈ spelled, isDelimiter c = false := by
  intro c hc
  have hmem : foldCase c ∈ word.map foldCase := by
    rw [← h]
    exact List.mem_map_of_mem hc
  obtain ⟨d, hd, hfold⟩ := List.mem_map.mp hmem
  rw [← isDelimiter_foldCase, ← hfold, isDelimiter_foldCase]
  simpa using List.all_eq_true.mp hword d hd

/-- A character that separates no keywords. Whatever is read from a window begins with such a
character. -/
def isOpening (c : Char) : Bool :=
  !isDelimiter c

/-- The characters of a class that holds no delimiter can open a match. -/
theorem isOpening_of_class {p : Char → Bool} (h : ∀ c, isDelimiter c = true → p c = false)
    {c : Char} (hc : p c = true) : isOpening c = true := by
  cases hd : isDelimiter c with
  | true =>
    rw [h c hd] at hc
    exact absurd hc Bool.false_ne_true
  | false => simp [isOpening, hd]

namespace Matcher

/-- A matcher opens with a class of characters: whatever it reads begins with one of them. -/
def OpensWith (matcher : Matcher) (p : Char → Bool) : Prop :=
  ∀ t, matcher t ≠ [] → ∃ c rest, t = c :: rest ∧ p c = true

/-- A matcher reads from the front: what it leaves is the end of the text. -/
def LeavesSuffix (matcher : Matcher) : Prop :=
  ∀ t, ∀ r ∈ matcher t, r <:+ t

section

variable {p : Char → Bool} {first second : Matcher} {choices : List Matcher}

/-- One character of a class opens with any class that holds it. -/
theorem opensWith_one {q : Char → Bool} (h : ∀ c, q c = true → p c = true) :
    (one q).OpensWith p := by
  intro t ht
  cases t with
  | nil => exact absurd rfl ht
  | cons c rest =>
    by_cases hc : q c = true
    · exact ⟨c, rest, rfl, h c hc⟩
    · simp [one, hc] at ht

/-- A run that is not empty opens with its class. -/
theorem opensWith_runs {q : Char → Bool} (h : ∀ c, q c = true → p c = true) {least : Nat} :
    (runs q (least + 1)).OpensWith p := by
  intro t ht
  obtain ⟨r, hr⟩ := List.exists_mem_of_ne_nil _ ht
  obtain ⟨a, rfl, hall, hlength⟩ := mem_runs_iff.mp hr
  cases a with
  | nil => simp at hlength
  | cons c a => exact ⟨c, a ++ r, rfl, h c (hall c List.mem_cons_self)⟩

/-- A word that does not begin with a delimiter is opened by the spellings of its first letter. -/
theorem opensWith_spelled {same : Char → Char → Bool}
    (hsame : ∀ expected c, same expected c = true → isOpening expected = true → isOpening c = true)
    {word : Text} (h : word.head?.any isOpening = true) :
    (spelled same word).OpensWith isOpening := by
  intro t ht
  cases word with
  | nil => simp at h
  | cons expected word =>
    cases t with
    | nil => exact absurd rfl ht
    | cons c rest =>
      by_cases hc : same expected c = true
      · exact ⟨c, rest, rfl, hsame expected c hc (by simpa using h)⟩
      · simp [spelled, hc] at ht

/-- A word that is compared exactly opens with its first character, unless it is a delimiter. -/
theorem opensWith_spelled_beq {word : Text} (h : word.head?.any isOpening = true) :
    (spelled (· == ·) word).OpensWith isOpening := by
  refine opensWith_spelled (fun expected c hc hexpected => ?_) h
  rwa [← beq_iff_eq.mp hc]

/-- A word that is compared by case folding opens with no delimiter, unless it begins with one. -/
theorem opensWith_spelled_foldsTo {word : Text} (h : word.head?.any isOpening = true) :
    (spelled foldsTo word).OpensWith isOpening := by
  refine opensWith_spelled (fun expected c hc hexpected => ?_) h
  rwa [isOpening, ← isDelimiter_foldCase, foldsTo_iff.mp hc, isDelimiter_foldCase]

/-- Two matchers in a row open as the first does. -/
theorem OpensWith.andThen (h : first.OpensWith p) : (first.andThen second).OpensWith p := by
  intro t ht
  obtain ⟨r, hr⟩ := List.exists_mem_of_ne_nil _ ht
  obtain ⟨s, hs, _⟩ := mem_andThen.mp hr
  exact h t (List.ne_nil_of_mem hs)

/-- A choice opens with a class if all of its matchers do. -/
theorem opensWith_oneOf (h : ∀ choice ∈ choices, choice.OpensWith p) :
    (oneOf choices).OpensWith p := by
  intro t ht
  obtain ⟨r, hr⟩ := List.exists_mem_of_ne_nil _ ht
  obtain ⟨choice, hchoice, hmem⟩ := mem_oneOf.mp hr
  exact h choice hchoice t (List.ne_nil_of_mem hmem)

/-- The words of a vocabulary, none of which begins with a delimiter. -/
theorem opensWith_words {α : Type} {words : List (Text × α)}
    (h : (words.all fun entry => entry.1.head?.any isOpening) = true) :
    (oneOf (words.map fun entry => spelled foldsTo entry.1)).OpensWith isOpening := by
  refine opensWith_oneOf fun choice hchoice => ?_
  obtain ⟨entry, hentry, rfl⟩ := List.mem_map.mp hchoice
  exact opensWith_spelled_foldsTo (List.all_eq_true.mp h entry hentry)

/-- One character is read off the front. -/
theorem leavesSuffix_one (q : Char → Bool) : (one q).LeavesSuffix := by
  intro t r hr
  cases t with
  | nil => simp [one] at hr
  | cons c rest =>
    rw [one] at hr
    split at hr
    · obtain rfl := List.mem_singleton.mp hr
      exact List.suffix_cons c _
    · simp at hr

/-- A word is read off the front. -/
theorem leavesSuffix_spelled (same : Char → Char → Bool) (word : Text) :
    (spelled same word).LeavesSuffix := by
  intro t r hr
  induction word generalizing t with
  | nil =>
    obtain rfl : r = t := by simpa [spelled] using hr
    exact List.suffix_rfl
  | cons expected word ih =>
    cases t with
    | nil => simp [spelled] at hr
    | cons c rest =>
      rw [spelled] at hr
      split at hr
      · exact (ih rest hr).trans (List.suffix_cons c rest)
      · simp at hr

/-- A run is read off the front. -/
theorem leavesSuffix_runOnto (q : Char → Bool) (least : Nat) (most : Option Nat) :
    LeavesSuffix (runOnto q least most []) := by
  intro t r hr
  rcases mem_runOnto.mp hr with h | ⟨a, rfl, _⟩
  · simp at h
  · exact List.suffix_append a r

/-- A look at the next character leaves the text as it is. -/
theorem leavesSuffix_notBefore (q : Char → Bool) : (notBefore q).LeavesSuffix := by
  intro t r hr
  cases t with
  | nil =>
    obtain rfl := List.mem_singleton.mp hr
    exact List.suffix_rfl
  | cons c rest =>
    rw [notBefore] at hr
    split at hr
    · simp at hr
    · obtain rfl := List.mem_singleton.mp hr
      exact List.suffix_rfl

/-- Two matchers in a row read off the front if both do. -/
theorem LeavesSuffix.andThen (hfirst : first.LeavesSuffix) (hsecond : second.LeavesSuffix) :
    (first.andThen second).LeavesSuffix := by
  intro t r hr
  obtain ⟨s, hs, hr⟩ := mem_andThen.mp hr
  exact (hsecond s r hr).trans (hfirst t s hs)

/-- A spelled word is as long as the word. -/
theorem length_of_mem_spelled {same : Char → Char → Bool} {word t r : Text}
    (h : r ∈ spelled same word t) : r.length + word.length = t.length := by
  induction word generalizing t with
  | nil =>
    obtain rfl : r = t := by simpa [spelled] using h
    rfl
  | cons expected word ih =>
    cases t with
    | nil => simp [spelled] at h
    | cons c rest =>
      rw [spelled] at h
      split at h
      · rw [List.length_cons, List.length_cons, ← ih h, Nat.add_assoc]
      · simp at h

end

end Matcher

namespace Pattern

variable {pattern : Pattern} {p : Char → Bool}

/-- The parts of a match. -/
theorem exists_of_matchAt {t : Text} {found : Match} (h : pattern.matchAt t = some found) :
    ∃ opened ∈ pattern.lead t, ∃ closed ∈ pattern.body opened,
      found.rest ∈ pattern.follow closed := by
  obtain ⟨opened, hopened, h⟩ := List.exists_of_findSome?_eq_some h
  obtain ⟨closed, hclosed, h⟩ := List.exists_of_findSome?_eq_some h
  obtain ⟨rest, hrest, rfl⟩ := Option.map_eq_some_iff.mp h
  exact ⟨opened, hopened, closed, hclosed, List.mem_of_mem_head? hrest⟩

/-- A pattern opens as its lead does. -/
theorem opensWith_of_lead (h : pattern.lead.OpensWith p) : pattern.OpensWith p := by
  intro t ht
  obtain ⟨opened, hopened, _⟩ := isSome_matchAt_iff.mp ht
  exact h t (List.ne_nil_of_mem hopened)

/-- A pattern without a lead opens as its body does. -/
theorem opensWith_of_body (hlead : pattern.lead = Matcher.nothing)
    (h : pattern.body.OpensWith p) : pattern.OpensWith p := by
  intro t ht
  obtain ⟨opened, hopened, closed, hclosed, _⟩ := isSome_matchAt_iff.mp ht
  obtain rfl : opened = t := by simpa [hlead, Matcher.nothing] using hopened
  exact h opened (List.ne_nil_of_mem hclosed)

/-- Where every match reads something, less is left behind a match than there was in front of it. -/
theorem length_rest_lt_of_find? {found : Match}
    (h : ∀ t found, pattern.matchAt t = some found → found.rest.length < t.length) {t : Text}
    (hfound : pattern.find? t = some found) : found.rest.length < t.length := by
  induction t with
  | nil => exact h [] found hfound
  | cons c rest ih =>
    rw [find?] at hfound
    split at hfound
    next other hmatch =>
      obtain rfl := Option.some.inj hfound
      exact h _ _ hmatch
    next => exact Nat.lt_succ_of_lt (ih hfound)

end Pattern

namespace Prose

/-- A scheme begins with no delimiter. -/
theorem scheme_opensWith : scheme.OpensWith isOpening := by
  refine Matcher.opensWith_oneOf fun choice hchoice => ?_
  simp only [List.mem_cons, List.not_mem_nil, or_false] at hchoice
  rcases hchoice with rfl | rfl
  all_goals exact Matcher.opensWith_spelled_beq (by decide)

/-- An address begins with no delimiter. -/
theorem addressPattern_opensWith : addressPattern.OpensWith isOpening :=
  Pattern.opensWith_of_body rfl scheme_opensWith.andThen

/-- A caption begins with no delimiter. -/
theorem captionPattern_opensWith : captionPattern.OpensWith isOpening := by
  refine Pattern.opensWith_of_body rfl (Matcher.OpensWith.andThen (Matcher.opensWith_one ?_))
  intro c hc
  rw [beq_iff_eq.mp hc]
  decide

/-- A color in front of "background" begins with no delimiter. -/
theorem backgroundPattern_opensWith : backgroundPattern.OpensWith isOpening := by
  refine Pattern.opensWith_of_body rfl (Matcher.opensWith_oneOf fun choice hchoice => ?_)
  simp only [List.mem_cons, List.not_mem_nil, or_false] at hchoice
  rcases hchoice with rfl | rfl
  · refine Matcher.OpensWith.andThen (Matcher.opensWith_one fun c hc => ?_)
    rw [beq_iff_eq.mp hc]
    decide
  · exact Matcher.opensWith_runs fun c hc => isOpening_of_class (fun _ => isWord_of_isDelimiter) hc

/-- The word "fondo" in front of a color begins with no delimiter. -/
theorem fondoPattern_opensWith : fondoPattern.OpensWith isOpening :=
  Pattern.opensWith_of_lead (Matcher.opensWith_spelled_foldsTo (by decide))

/-- A word for a location begins with no delimiter. -/
theorem locationPattern_opensWith : locationPattern.OpensWith isOpening :=
  Pattern.opensWith_of_body rfl (Matcher.opensWith_words (by decide))

/-- A word for a size begins with no delimiter. -/
theorem sizePattern_opensWith : sizePattern.OpensWith isOpening :=
  Pattern.opensWith_of_body rfl (Matcher.opensWith_words (by decide))

/-- A scheme reads something. -/
theorem length_lt_of_mem_scheme {t r : Text} (h : r ∈ scheme t) : r.length < t.length := by
  obtain ⟨choice, hchoice, hr⟩ := Matcher.mem_oneOf.mp h
  simp only [List.mem_cons, List.not_mem_nil, or_false] at hchoice
  rcases hchoice with rfl | rfl
  · have hlength := Matcher.length_of_mem_spelled hr
    have hword : "https://".toList.length = 8 := by decide
    omega
  · have hlength := Matcher.length_of_mem_spelled hr
    have hword : "http://".toList.length = 7 := by decide
    omega

/-- An address reads something. -/
theorem length_rest_lt_of_addressPattern {t : Text} {found : Match}
    (h : addressPattern.matchAt t = some found) : found.rest.length < t.length := by
  obtain ⟨opened, hopened, closed, hclosed, hrest⟩ := Pattern.exists_of_matchAt h
  obtain rfl : opened = t := List.mem_singleton.mp hopened
  obtain rfl : found.rest = closed := List.mem_singleton.mp hrest
  obtain ⟨r, hr, hclosed⟩ := Matcher.mem_andThen.mp hclosed
  have htopLevel : topLevel.LeavesSuffix :=
    (Matcher.leavesSuffix_one _).andThen
      ((Matcher.leavesSuffix_runOnto _ _ _).andThen (Matcher.leavesSuffix_notBefore _))
  have hsuffix := (Matcher.leavesSuffix_runOnto isHostChar 1 (some 256)).andThen
    (htopLevel.andThen (Matcher.leavesSuffix_runOnto isPathChar 0 none)) r _ hclosed
  exact Nat.lt_of_le_of_lt hsuffix.length_le (length_lt_of_mem_scheme hr)

end Prose

end Storyboard
