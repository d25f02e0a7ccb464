import Mathlib.Data.List.Forall2
import Storyboard.Proofs.Blanks
import Storyboard.Proofs.Cuts
import Storyboard.Proofs.Margins
import Storyboard.Proofs.Measures
import Storyboard.Proofs.Vocabulary

/-!
# Letter case is not looked at

Writing a letter from A to Z in lower case changes neither its lower-case form nor its case folding,
and it takes up one byte as before. So a text and the same text in small letters are read alike:
every matcher of a search stops at the same places, and every keyword is found at the same offsets.
Two lines that have the same small letters are told apart by what is written in them alone.
-/

namespace Storyboard

/-- A text with the letters from A to Z in lower case, and every other character as it is. -/
def Text.uncapitalized (t : Text) : Text :=
  t.map Char.toLower

/-- Two texts differ in nothing but the case of the letters from A to Z. -/
def SameButForCase (a b : Text) : Prop :=
  a.uncapitalized = b.uncapitalized

/-- Whether two texts differ in letter case only can be computed. -/
instance (a b : Text) : Decidable (SameButForCase a b) :=
  inferInstanceAs (Decidable (a.uncapitalized = b.uncapitalized))

/-- A letter from A to Z gets its lower-case form, and nothing else is changed. -/
theorem toLower_eq_ite (c : Char) : c.toLower = if c.isUpper then lowerCase c else c := by
  by_cases h : c.val ≥ 'A'.val ∧ c.val ≤ 'Z'.val
  · have hupper : c.isUpper = true := decide_eq_true h
    rw [lowerCase, if_pos hupper, if_pos hupper]
  · have hupper : ¬c.isUpper = true := fun hup => h (of_decide_eq_true hup)
    have hsame : c.toLower = c := dif_neg h
    rw [if_neg hupper, hsame]

/-- What is checked of all cased letters and their lower-case forms holds of small letters. -/
theorem toLower_rec {P : Char → Char → Bool} (hself : ∀ c, P c c = true)
    (hcased : (casedLetters.all fun c => P c (lowerCase c)) = true) (c : Char) :
    P c c.toLower = true := by
  rw [toLower_eq_ite]
  split
  · exact lowerCase_rec hself hcased c
  · exact hself c

/-- Making letters small changes no lower-case form. -/
@[simp] theorem lowerCase_toLower (c : Char) : lowerCase c.toLower = lowerCase c := by
  have h := toLower_rec (P := fun c d => lowerCase d == lowerCase c)
    (fun c => beq_self_eq_true (lowerCase c)) (by decide) c
  exact beq_iff_eq.mp h

/-- Making letters small changes no case folding. -/
@[simp] theorem foldCase_toLower (c : Char) : foldCase c.toLower = foldCase c := by
  rw [← foldCase_lowerCase, lowerCase_toLower, foldCase_lowerCase]

/-- Making letters small makes no delimiter and unmakes none. -/
@[simp] theorem isDelimiter_toLower (c : Char) : isDelimiter c.toLower = isDelimiter c := by
  rw [← isDelimiter_lowerCase, lowerCase_toLower, isDelimiter_lowerCase]

/-- Making letters small makes no digit and unmakes none. -/
@[simp] theorem isDigit_toLower (c : Char) : c.toLower.isDigit = c.isDigit := by
  rw [← isDigit_lowerCase, lowerCase_toLower, isDigit_lowerCase]

/-- Making letters small makes no white space and unmakes none. -/
@[simp] theorem isBlank_toLower (c : Char) : isBlank c.toLower = isBlank c := by
  have h := toLower_rec (P := fun c d => isBlank d == isBlank c)
    (fun c => beq_self_eq_true (isBlank c)) (by decide) c
  exact beq_iff_eq.mp h

/-- A letter from A to Z takes up one byte in either case. -/
@[simp] theorem utf8Size_toLower (c : Char) : c.toLower.utf8Size = c.utf8Size := by
  rw [toLower_eq_ite]
  split
  next h =>
    have hsize := lowerCase_rec (P := fun c d => !c.isUpper || d.utf8Size == c.utf8Size)
      (fun c => by simp) (by decide) c
    simpa [h] using hsize
  next => rfl

/-- A digit is no letter. -/
theorem toLower_of_isDigit {c : Char} (h : c.isDigit = true) : c.toLower = c := by
  have hdigit := toLower_rec (P := fun c d => !c.isDigit || d == c) (fun c => by simp) (by decide) c
  simpa [h] using hdigit

namespace Text

/-- The empty text has no letters. -/
@[simp] theorem uncapitalized_nil : uncapitalized [] = [] := rfl

/-- Letters are made small one by one. -/
@[simp] theorem uncapitalized_cons (c : Char) (t : Text) :
    uncapitalized (c :: t) = c.toLower :: uncapitalized t := rfl

/-- Making letters small keeps the number of characters. -/
@[simp] theorem length_uncapitalized (t : Text) : t.uncapitalized.length = t.length :=
  List.length_map _

/-- Making letters small keeps the number of bytes. -/
@[simp] theorem byteSize_uncapitalized (t : Text) : byteSize t.uncapitalized = byteSize t := by
  induction t with
  | nil => rfl
  | cons c rest ih => rw [uncapitalized_cons, byteSize_cons, byteSize_cons, utf8Size_toLower, ih]

/-- Making letters small changes no lower-case form of a text. -/
@[simp] theorem lowerCase_uncapitalized (t : Text) : t.uncapitalized.lowerCase = t.lowerCase := by
  rw [uncapitalized, lowerCase, lowerCase, List.map_map]
  exact List.map_congr_left fun c _ => lowerCase_toLower c

end Text

/-- The same match in a text in small letters. -/
def Match.uncapitalized (found : Match) : Match :=
  ⟨found.text.uncapitalized, found.rest.uncapitalized⟩

namespace Matcher

/-- A matcher ignores case: it stops at the same places of a text in small letters. -/
def IgnoresCase (matcher : Matcher) : Prop :=
  ∀ t, matcher t.uncapitalized = (matcher t).map Text.uncapitalized

variable {first second : Matcher} {choices : List Matcher} {p : Char → Bool}

/-- Reading nothing ignores case. -/
theorem ignoresCase_nothing : nothing.IgnoresCase := fun _ => rfl

/-- A word is compared by its letters, whatever their case. -/
theorem ignoresCase_spelled (word : Text) : (spelled foldsTo word).IgnoresCase := by
  induction word with
  | nil => exact fun t => rfl
  | cons expected word ih =>
    intro t
    cases t with
    | nil => rfl
    | cons c rest =>
      have hsame : foldsTo expected c.toLower = foldsTo expected c := by
        rw [foldsTo, foldsTo, foldCase_toLower]
      rw [Text.uncapitalized_cons, spelled, spelled, hsame]
      split
      · exact ih rest
      · rfl

/-- A run of a class that makes no difference between cases ends at the same places. -/
theorem uncapitalized_runOnto (h : ∀ c, p c.toLower = p c) (least : Nat) (most : Option Nat)
    (found : List Text) (t : Text) :
    runOnto p least most (found.map Text.uncapitalized) t.uncapitalized =
      (runOnto p least most found t).map Text.uncapitalized := by
  induction t generalizing least most found with
  | nil =>
    rw [Text.uncapitalized_nil, runOnto, runOnto]
    split <;> rfl
  | cons c t ih =>
    have hfound : (if least = 0 then Text.uncapitalized (c :: t) :: found.map Text.uncapitalized
          else found.map Text.uncapitalized) =
        (if least = 0 then (c :: t) :: found else found).map Text.uncapitalized := by
      split <;> rfl
    rw [Text.uncapitalized_cons] at hfound ⊢
    rw [runOnto, runOnto, hfound, ih, h]
    split <;> rfl

/-- A run of a class that makes no difference between cases ignores case. -/
theorem ignoresCase_runs (h : ∀ c, p c.toLower = p c) (least : Nat) :
    (runs p least).IgnoresCase :=
  fun t => uncapitalized_runOnto h least none [] t

/-- Two matchers in a row ignore case if both do. -/
theorem IgnoresCase.andThen (hfirst : first.IgnoresCase) (hsecond : second.IgnoresCase) :
    (first.andThen second).IgnoresCase := by
  intro t
  have hlater (r : Text) : second r.uncapitalized = (second r).map Text.uncapitalized := hsecond r
  simp only [Matcher.andThen, hfirst t, List.flatMap_map, hlater, List.map_flatMap]

/-- A choice ignores case if all of its matchers do. -/
theorem ignoresCase_oneOf (h : ∀ choice ∈ choices, choice.IgnoresCase) :
    (oneOf choices).IgnoresCase := by
  intro t
  rw [oneOf, oneOf, List.map_flatMap]
  exact List.flatMap_congr fun choice hchoice => h choice hchoice t

end Matcher

namespace Pattern

/-- A pattern ignores case if its parts do. -/
structure IgnoresCase (pattern : Pattern) : Prop where
  lead : pattern.lead.IgnoresCase
  body : pattern.body.IgnoresCase
  follow : pattern.follow.IgnoresCase

namespace IgnoresCase

variable {pattern : Pattern} (h : pattern.IgnoresCase)

include h

/-- What is kept of a match is kept in small letters. -/
theorem readKept_uncapitalized (opened : Text) :
    pattern.readKept opened.uncapitalized = (pattern.readKept opened).map Match.uncapitalized := by
  rw [readKept, readKept, h.body opened, List.findSome?_map, List.map_findSome?]
  congr 1
  funext closed
  simp only [Function.comp_apply]
  rw [h.follow closed, List.head?_map, Option.map_map, Option.map_map, Text.length_uncapitalized,
    Text.length_uncapitalized, Text.uncapitalized, ← List.map_take]
  rfl

/-- A pattern matches at the start of a text in small letters as it matches in the text itself. -/
theorem matchAt_uncapitalized (t : Text) :
    pattern.matchAt t.uncapitalized = (pattern.matchAt t).map Match.uncapitalized := by
  have hread : pattern.readKept ∘ Text.uncapitalized =
      Option.map Match.uncapitalized ∘ pattern.readKept :=
    funext h.readKept_uncapitalized
  rw [matchAt_eq_findSome?, matchAt_eq_findSome?, h.lead t, List.findSome?_map, hread,
    List.map_findSome?]

/-- A search finds the same match in a text in small letters. -/
theorem find?_uncapitalized (t : Text) :
    pattern.find? t.uncapitalized = (pattern.find? t).map Match.uncapitalized := by
  induction t with
  | nil => exact h.matchAt_uncapitalized []
  | cons c t ih =>
    have hmatch := h.matchAt_uncapitalized (c :: t)
    rw [Text.uncapitalized_cons] at hmatch ⊢
    rw [find?, find?, hmatch, ih]
    cases pattern.matchAt (c :: t) <;> rfl

end IgnoresCase

end Pattern

namespace Prose

/-- Units of time ignore case. -/
theorem timeUnit_ignoresCase : timeUnit.IgnoresCase := by
  refine Matcher.ignoresCase_oneOf fun choice hchoice => ?_
  obtain ⟨word, _, rfl⟩ := List.mem_map.mp hchoice
  exact Matcher.ignoresCase_spelled word

/-- Durations are searched for regardless of case. -/
theorem durationPattern_ignoresCase : durationPattern.IgnoresCase where
  lead := Matcher.ignoresCase_nothing
  body := Matcher.ignoresCase_runs isDigit_toLower 1
  follow := (Matcher.ignoresCase_runs isBlank_toLower 1).andThen timeUnit_ignoresCase

/-- The words of a vocabulary are searched for regardless of case. -/
theorem wordPattern_ignoresCase {α : Type} (words : List (Text × α)) :
    (wordPattern words).IgnoresCase where
  lead := Matcher.ignoresCase_nothing
  body := by
    refine Matcher.ignoresCase_oneOf fun choice hchoice => ?_
    obtain ⟨entry, _, rfl⟩ := List.mem_map.mp hchoice
    exact Matcher.ignoresCase_spelled entry.1
  follow := Matcher.ignoresCase_nothing

/-- Whether a text states a duration does not depend on letter case. -/
theorem statesDuration_uncapitalized (t : Text) :
    statesDuration t.uncapitalized = statesDuration t := by
  rw [statesDuration, statesDuration, Pattern.occursIn, Pattern.occursIn,
    durationPattern_ignoresCase.find?_uncapitalized, Option.isSome_map]

/-- The number of a duration has no letters. -/
theorem uncapitalized_of_find?_durationPattern {t : Text} {found : Match}
    (h : durationPattern.find? t = some found) : found.text.uncapitalized = found.text := by
  obtain ⟨m, _, hdigits⟩ := map_text_find?_durationPattern.mp (by rw [h, Option.map_some])
  have hsame : ∀ c ∈ m.digits, c.toLower = id c :=
    fun c hc => toLower_of_isDigit (m.expression.digits_isDigit c hc)
  rw [← hdigits, Text.uncapitalized, List.map_congr_left hsame, List.map_id]

/-- A duration does not depend on letter case. -/
theorem duration?_uncapitalized (t : Text) : duration? t.uncapitalized = duration? t := by
  rw [duration?, duration?, durationPattern_ignoresCase.find?_uncapitalized]
  cases hfound : durationPattern.find? t with
  | none => rfl
  | some found =>
    have htext : found.uncapitalized.text = found.text :=
      uncapitalized_of_find?_durationPattern hfound
    rw [Option.map_some, Option.bind_some, Option.bind_some, htext]

/-- What the first word of a window names does not depend on letter case. -/
theorem firstNamed_uncapitalized {α : Type} (words : List (Text × α)) (default : α) (t : Text) :
    firstNamed words default t.uncapitalized = firstNamed words default t := by
  rw [firstNamed, firstNamed, (wordPattern_ignoresCase words).find?_uncapitalized]
  cases (wordPattern words).find? t with
  | none => rfl
  | some found =>
    rw [Option.map_some, Option.bind_some, Option.bind_some, Match.uncapitalized,
      Text.lowerCase_uncapitalized]

/-- The location in a window does not depend on letter case. -/
theorem location_uncapitalized (t : Text) : location t.uncapitalized = location t :=
  firstNamed_uncapitalized Location.words .front t

/-- The size in a window does not depend on letter case. -/
theorem size_uncapitalized (t : Text) : size t.uncapitalized = size t :=
  firstNamed_uncapitalized Size.words .normal t

end Prose

/-- A keyword is spelled alike in small letters. -/
theorem spelling?_uncapitalized (word t : Text) :
    spelling? word t.uncapitalized =
      (spelling? word t).map fun found => (found.1.uncapitalized, found.2.uncapitalized) := by
  induction word generalizing t with
  | nil => rfl
  | cons expected word ih =>
    cases t with
    | nil => rfl
    | cons c rest =>
      have hsame : sameLetter expected c.toLower = sameLetter expected c := by
        rw [Bool.eq_iff_iff, sameLetter_iff, sameLetter_iff, lowerCase_toLower]
      rw [Text.uncapitalized_cons, spelling?, spelling?, hsame]
      split
      · rw [ih, Option.map_map, Option.map_map]
        rfl
      · rfl

/-- What closes a keyword does not depend on letter case. -/
theorem endsKeyword_uncapitalized (t : Text) : endsKeyword t.uncapitalized = endsKeyword t := by
  cases t with
  | nil => rfl
  | cons c rest => exact isDelimiter_toLower c

/-- An entry of the table finds the same keyword in small letters. -/
theorem closedSpelling?_uncapitalized (word : Text) (kind : Kind) (t : Text) :
    closedSpelling? word kind t.uncapitalized =
      (closedSpelling? word kind t).map (Prod.map id Text.uncapitalized) := by
  rw [closedSpelling?, closedSpelling?, spelling?_uncapitalized]
  cases spelling? word t with
  | none => rfl
  | some found =>
    simp only [Option.map_some, endsKeyword_uncapitalized]
    split <;> rfl

/-- The keyword at the start of a text is found in small letters as well. -/
theorem keywordAt?_uncapitalized (t : Text) :
    keywordAt? t.uncapitalized = (keywordAt? t).map (Prod.map id Text.uncapitalized) := by
  have hentry : (fun entry : Text × Kind => closedSpelling? entry.1 entry.2 t.uncapitalized) =
      Option.map (Prod.map id Text.uncapitalized) ∘
        fun entry : Text × Kind => closedSpelling? entry.1 entry.2 t :=
    funext fun entry => closedSpelling?_uncapitalized entry.1 entry.2 t
  calc keywordAt? t.uncapitalized
    _ = keywords.findSome? fun entry => closedSpelling? entry.1 entry.2 t.uncapitalized := rfl
    _ = (keywords.findSome? fun entry => closedSpelling? entry.1 entry.2 t).map
          (Prod.map id Text.uncapitalized) := by rw [hentry, List.map_findSome?]
    _ = (keywordAt? t).map (Prod.map id Text.uncapitalized) := rfl

namespace Token

/-- The same token with its keyword in small letters. -/
def uncapitalized (token : Token) : Token :=
  { token with keyword := token.keyword.uncapitalized }

/-- A keyword in small letters ends at the same offset. -/
@[simp] theorem keywordEnd_uncapitalized (token : Token) :
    token.uncapitalized.keywordEnd = token.keywordEnd := by
  rw [keywordEnd, keywordEnd, uncapitalized, Text.byteSize_uncapitalized]

/-- What opens a keyword does not depend on letter case. -/
theorem opening?_map_toLower (before : Option Char) (offset : Nat) :
    opening? (before.map Char.toLower) offset = opening? before offset := by
  cases before with
  | none => rfl
  | some c =>
    simp only [Option.map_some, opening?, isDelimiter_toLower, utf8Size_toLower]

/-- An isolated keyword at the start of a text is found in small letters as well. -/
theorem isolatedAt?_uncapitalized (before : Option Char) (offset : Nat) (t : Text) :
    isolatedAt? (before.map Char.toLower) offset t.uncapitalized =
      (isolatedAt? before offset t).map uncapitalized := by
  rw [isolatedAt?, isolatedAt?, opening?_map_toLower]
  cases opening? before offset with
  | none => rfl
  | some start =>
    simp only [keywordAt?_uncapitalized, Option.map_map]
    rfl

/-- The rest of a line has the same isolated keywords in small letters. -/
theorem isolatedFrom_uncapitalized (before : Option Char) (offset : Nat) (t : Text) :
    isolatedFrom (before.map Char.toLower) offset t.uncapitalized =
      (isolatedFrom before offset t).map uncapitalized := by
  induction t generalizing before offset with
  | nil => rfl
  | cons c rest ih =>
    have hhere := isolatedAt?_uncapitalized before offset (c :: rest)
    have hlater := ih (some c) (offset + c.utf8Size)
    rw [Text.uncapitalized_cons] at hhere ⊢
    rw [isolatedFrom, isolatedFrom, hhere, utf8Size_toLower, List.map_append, ← hlater]
    cases isolatedAt? before offset (c :: rest) <;> rfl

end Token

/-- A scan finds the same tokens in a line in small letters. -/
theorem scan_uncapitalized (mode : ScanMode) (line : Text) :
    scan mode line.uncapitalized = (scan mode line).map Token.uncapitalized := by
  have hisolated : Token.isolated line.uncapitalized =
      (Token.isolated line).map Token.uncapitalized :=
    Token.isolatedFrom_uncapitalized none 0 line
  cases mode with
  | boundaryPreserving => rw [scan_boundaryPreserving, scan_boundaryPreserving, hisolated]
  | legacy =>
    have hmeets (a b : Token) : a.uncapitalized.keywordEnd = b.uncapitalized.matchOffset ↔
        a.keywordEnd = b.matchOffset := by
      rw [Token.keywordEnd_uncapitalized, Token.uncapitalized]
    have hnone : ∀ a ∈ (none : Option Token), ∀ b ∈ Token.isolated line,
        a.uncapitalized.keywordEnd = b.uncapitalized.matchOffset ↔
          a.keywordEnd = b.matchOffset := by
      simp
    rw [scan_legacy, scan_legacy, hisolated]
    exact Token.thin_map hnone (List.pairwise_of_forall hmeets)

/-- Two tokens of two lines are of one kind and lie at one place, each with the text of its own line
there as its keyword. -/
structure Token.Corresponds (a b : Text) (x y : Token) : Prop where
  kind_eq : x.kind = y.kind
  matchOffset_eq : x.matchOffset = y.matchOffset
  keywordOffset_eq : x.keywordOffset = y.keywordOffset
  keywordEnd_eq : x.keywordEnd = y.keywordEnd
  left_keyword : a.slice x.keywordOffset x.keywordEnd = x.keyword
  right_keyword : b.slice y.keywordOffset y.keywordEnd = y.keyword

/-- Tokens that are the same in small letters correspond. -/
theorem Token.StandsIn.corresponds {a b : Text} {x y : Token} (hx : StandsIn a x)
    (hy : StandsIn b y) (h : x.uncapitalized = y.uncapitalized) : Corresponds a b x y where
  kind_eq := (congrArg Token.kind h :)
  matchOffset_eq := (congrArg matchOffset h :)
  keywordOffset_eq := (congrArg keywordOffset h :)
  keywordEnd_eq := by rw [← keywordEnd_uncapitalized, h, keywordEnd_uncapitalized]
  left_keyword := hx.slice_keyword
  right_keyword := hy.slice_keyword

/-- Two lines that differ in the case of letters only have corresponding tokens. -/
theorem forall₂_corresponds_scan {a b : Text} (h : SameButForCase a b) (mode : ScanMode) :
    List.Forall₂ (Token.Corresponds a b) (scan mode a) (scan mode b) := by
  have hmap : (scan mode a).map Token.uncapitalized = (scan mode b).map Token.uncapitalized := by
    calc (scan mode a).map Token.uncapitalized
      _ = scan mode a.uncapitalized := (scan_uncapitalized mode a).symm
      _ = scan mode b.uncapitalized := congrArg (scan mode) h
      _ = (scan mode b).map Token.uncapitalized := scan_uncapitalized mode b
  have hlength : (scan mode a).length = (scan mode b).length := by
    simpa using congrArg List.length hmap
  refine List.forall₂_iff_get.mpr ⟨hlength, fun i hi hi' => ?_⟩
  have hsame := List.getElem_of_eq hmap (by rwa [List.length_map])
  rw [List.getElem_map, List.getElem_map] at hsame
  exact ((follow_scan mode a).standsIn _ (List.getElem_mem hi)).corresponds
    ((follow_scan mode b).standsIn _ (List.getElem_mem hi')) hsame

/-- What does not depend on the case of letters is the same for texts that differ in it only. -/
theorem SameButForCase.eq {α : Type} {a b : Text} (h : SameButForCase a b) {read : Text → α}
    (hread : ∀ t : Text, read t.uncapitalized = read t) : read a = read b :=
  calc read a
    _ = read a.uncapitalized := (hread a).symm
    _ = read b.uncapitalized := congrArg read h
    _ = read b := hread b

/-- Recognition ignores letter case. Two texts that differ only in the case of letters from A to Z
state a duration both or neither, and the same one; they have tokens of the same kinds at the same
offsets in either mode, each with the text of its own line as its keyword; and they name the same
location and the same size. -/
theorem recognition_ignores_letter_case {a b : Text} (h : SameButForCase a b) :
    Prose.statesDuration a = Prose.statesDuration b ∧ Prose.duration? a = Prose.duration? b ∧
    (∀ mode, List.Forall₂ (Token.Corresponds a b) (scan mode a) (scan mode b)) ∧
    Prose.location a = Prose.location b ∧ Prose.size a = Prose.size b :=
  ⟨h.eq Prose.statesDuration_uncapitalized, h.eq Prose.duration?_uncapitalized,
    forall₂_corresponds_scan h, h.eq Prose.location_uncapitalized, h.eq Prose.size_uncapitalized⟩

/-- A beat in capital letters, apart from the accented ones, is recognized as it is in small
letters. -/
theorem recognition_ignores_letter_case_capitals :
    let capitals : Text := "12 SEGUNDOS, GRáFICO ATRáS; Voz En OFF Huge".toList
    let plain : Text := "12 segundos, gráfico atrás; voz en off huge".toList
    SameButForCase capitals plain ∧
    Prose.duration? plain = some 12 ∧ Prose.duration? capitals = some 12 ∧
    (scan .legacy plain).map Token.kind = [.duration, .chart, .voiceover] ∧
    List.Forall₂ (Token.Corresponds capitals plain) (scan .legacy capitals) (scan .legacy plain) ∧
    Prose.location capitals = .behind ∧ Prose.size capitals = .huge := by
  intro capitals plain
  have hsame : SameButForCase capitals plain := by decide
  have hplain : Prose.duration? plain = some 12 ∧
      (scan .legacy plain).map Token.kind = [.duration, .chart, .voiceover] ∧
      Prose.location plain = .behind ∧ Prose.size plain = .huge := by
    decide +kernel
  obtain ⟨hseconds, hkinds, hbehind, hhuge⟩ := hplain
  obtain ⟨_, hduration, htokens, hlocation, hsize⟩ := recognition_ignores_letter_case hsame
  exact ⟨hsame, hseconds, hduration.trans hseconds, hkinds, htokens .legacy,
    hlocation.trans hbehind, hsize.trans hhuge⟩

end Storyboard
