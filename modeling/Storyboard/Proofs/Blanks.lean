import Mathlib.Data.List.Basic
import Storyboard.Assembly
import Storyboard.Proofs.Durations
import Storyboard.Proofs.Openings

/-!
# Delimiters in front of a window and blanks behind it

Nothing that is read from a window begins with a delimiter or ends with white space, and where a
match looks at what comes behind it, white space is as good as the end of the text. A search
therefore passes over delimiters in front of a window and leaves the white space behind it over,
and neither changes anything about the object that the window describes.
-/

namespace Storyboard

/-- A text of white space only. -/
def Text.AllBlank (w : Text) : Prop :=
  ∀ c ∈ w, isBlank c = true

/-- Whether a text is white space can be computed. -/
instance (w : Text) : Decidable w.AllBlank :=
  List.decidableBAll _ w

namespace Text.AllBlank

variable {w : Text} {c : Char}

/-- The empty text counts as white space. -/
theorem nil : AllBlank [] := by
  simp [AllBlank]

/-- White space begins with white space. -/
theorem head (h : AllBlank (c :: w)) : isBlank c = true :=
  h c List.mem_cons_self

/-- White space goes on with white space. -/
theorem tail (h : AllBlank (c :: w)) : AllBlank w :=
  fun d hd => h d (List.mem_cons_of_mem c hd)

/-- A part of white space is white space. -/
theorem of_subset {part : Text} (h : AllBlank w) (hpart : part ⊆ w) : AllBlank part :=
  fun d hd => h d (hpart hd)

/-- White space separates keywords. -/
theorem isDelimiter (h : AllBlank w) : ∀ c ∈ w, isDelimiter c = true :=
  fun c hc => isDelimiter_of_isBlank (h c hc)

end Text.AllBlank

/-- Whether anything in a text is no white space. -/
def Text.hasInk (t : Text) : Bool :=
  t.any fun c => !isBlank c

/-- A text without ink is white space. -/
theorem Text.hasInk_eq_false_iff {t : Text} : t.hasInk = false ↔ t.AllBlank := by
  simp [hasInk, AllBlank]

/-- Texts without ink can be left out where nothing comes of them. -/
theorem flatMap_filter_hasInk {α : Type} {f : Text → List α}
    (hf : ∀ t, t.hasInk = false → f t = []) (texts : List Text) :
    (texts.filter Text.hasInk).flatMap f = texts.flatMap f := by
  induction texts with
  | nil => rfl
  | cons t texts ih =>
    cases ht : t.hasInk with
    | true => rw [List.filter_cons_of_pos ht, List.flatMap_cons, List.flatMap_cons, ih]
    | false =>
      rw [List.filter_cons_of_neg (by simp [ht]), List.flatMap_cons, hf t ht, ih, List.nil_append]

/-- Texts without ink can be left out where nothing is found in them. -/
theorem findSome?_filter_hasInk {α : Type} {f : Text → Option α}
    (hf : ∀ t, t.hasInk = false → f t = none) (texts : List Text) :
    (texts.filter Text.hasInk).findSome? f = texts.findSome? f := by
  induction texts with
  | nil => rfl
  | cons t texts ih =>
    cases ht : t.hasInk with
    | true => rw [List.filter_cons_of_pos ht, List.findSome?_cons, List.findSome?_cons, ih]
    | false => rw [List.filter_cons_of_neg (by simp [ht]), List.findSome?_cons, hf t ht, ih]

/-- What is checked of the white space characters one by one holds of white space. -/
theorem forall_isBlank {p : Char → Bool} (h : (blanks.all fun c => !p c) = true) :
    ∀ c, isBlank c = true → p c = false := by
  intro c hc
  have hblank := List.all_eq_true.mp h c (by simpa [isBlank] using hc)
  simpa using hblank

namespace Matcher

/-- A matcher leaves blanks: it reads from a text the same with white space behind it, which is left
over. -/
def LeavesBlanks (matcher : Matcher) : Prop :=
  ∀ t w, Text.AllBlank w → matcher (t ++ w) = (matcher t).map (· ++ w)

section

variable {p : Char → Bool} {first second : Matcher} {choices : List Matcher}

/-- Reading nothing leaves blanks. -/
theorem leavesBlanks_nothing : nothing.LeavesBlanks :=
  fun _ _ _ => rfl

/-- One character of a class without white space leaves blanks. -/
theorem leavesBlanks_one (h : ∀ c, isBlank c = true → p c = false) : (one p).LeavesBlanks := by
  intro t w hw
  cases t with
  | nil =>
    cases w with
    | nil => rfl
    | cons c w => simp [one, h c hw.head]
  | cons c t => by_cases hc : p c = true <;> simp [one, hc]

/-- A look at the next character leaves blanks, since white space is as good as the end of the
text. -/
theorem leavesBlanks_notBefore (h : ∀ c, isBlank c = true → p c = false) :
    (notBefore p).LeavesBlanks := by
  intro t w hw
  cases t with
  | nil =>
    cases w with
    | nil => rfl
    | cons c w => simp [notBefore, h c hw.head]
  | cons c t => by_cases hc : p c = true <;> simp [notBefore, hc]

/-- White space alone spells no word that ends with another character. -/
theorem spelled_eq_nil {same : Char → Char → Bool}
    (hsame : ∀ expected c, same expected c = true → isOpening expected = true → isOpening c = true)
    {word w : Text} (h : word.getLast?.any isOpening = true) (hw : Text.AllBlank w) :
    spelled same word w = [] := by
  induction word generalizing w with
  | nil => simp at h
  | cons expected word ih =>
    cases w with
    | nil => rfl
    | cons c w =>
      rw [spelled]
      split
      next hc =>
        cases word with
        | nil =>
          have hopening := hsame expected c hc (by simpa using h)
          have hdelimiter := hw.isDelimiter c List.mem_cons_self
          simp [isOpening, hdelimiter] at hopening
        | cons e word => exact ih (by simpa [List.getLast?_cons_cons] using h) hw.tail
      next => rfl

/-- A word that does not end with a delimiter is not spelled with white space from behind. -/
theorem leavesBlanks_spelled {same : Char → Char → Bool}
    (hsame : ∀ expected c, same expected c = true → isOpening expected = true → isOpening c = true)
    {word : Text} (h : word.getLast?.any isOpening = true) : (spelled same word).LeavesBlanks := by
  intro t w hw
  induction word generalizing t with
  | nil => simp at h
  | cons expected word ih =>
    cases t with
    | nil =>
      rw [List.nil_append, spelled_eq_nil hsame h hw]
      rfl
    | cons c t =>
      rw [List.cons_append, spelled, spelled]
      split
      next =>
        cases word with
        | nil => rfl
        | cons e word => exact ih (by simpa [List.getLast?_cons_cons] using h) t
      next => rfl

/-- A word that is compared exactly leaves blanks, unless it ends with a delimiter. -/
theorem leavesBlanks_spelled_beq {word : Text} (h : word.getLast?.any isOpening = true) :
    (spelled (· == ·) word).LeavesBlanks := by
  refine leavesBlanks_spelled (fun expected c hc hexpected => ?_) h
  rwa [← beq_iff_eq.mp hc]

/-- A word that is compared by case folding leaves blanks, unless it ends with a delimiter. -/
theorem leavesBlanks_spelled_foldsTo {word : Text} (h : word.getLast?.any isOpening = true) :
    (spelled foldsTo word).LeavesBlanks := by
  refine leavesBlanks_spelled (fun expected c hc hexpected => ?_) h
  rwa [isOpening, ← isDelimiter_foldCase, foldsTo_iff.mp hc, isDelimiter_foldCase]

/-- A run of other characters than white space has the same ends with white space behind it. -/
theorem runOnto_append (h : ∀ c, isBlank c = true → p c = false) {w : Text} (hw : Text.AllBlank w)
    (least : Nat) (most : Option Nat) (found : List Text) (t : Text) :
    runOnto p least most (found.map (· ++ w)) (t ++ w) =
      (runOnto p least most found t).map (· ++ w) := by
  induction t generalizing least most found with
  | nil =>
    cases w with
    | nil => simp
    | cons c w =>
      have hstop : ¬ (most ≠ some 0 ∧ p c = true) := by simp [h c hw.head]
      rw [List.nil_append, runOnto, runOnto, if_neg hstop]
      split <;> simp
  | cons c t ih =>
    have hfound : (if least = 0 then (c :: (t ++ w)) :: found.map (· ++ w)
          else found.map (· ++ w)) =
        (if least = 0 then (c :: t) :: found else found).map (· ++ w) := by
      split <;> simp
    rw [List.cons_append, runOnto, runOnto, hfound, ih]
    split <;> rfl

/-- A bounded run of a class without white space leaves blanks. -/
theorem leavesBlanks_run (h : ∀ c, isBlank c = true → p c = false) (least most : Nat) :
    (run p least most).LeavesBlanks :=
  fun t _ hw => runOnto_append h hw least (some most) [] t

/-- A run of a class without white space leaves blanks. -/
theorem leavesBlanks_runs (h : ∀ c, isBlank c = true → p c = false) (least : Nat) :
    (runs p least).LeavesBlanks :=
  fun t _ hw => runOnto_append h hw least none [] t

/-- Two matchers in a row leave blanks if both do. -/
theorem LeavesBlanks.andThen (hfirst : first.LeavesBlanks) (hsecond : second.LeavesBlanks) :
    (first.andThen second).LeavesBlanks := by
  intro t w hw
  have hlater (r : Text) : second (r ++ w) = (second r).map (· ++ w) := hsecond r w hw
  simp only [Matcher.andThen, hfirst t w hw, List.flatMap_map, hlater, List.map_flatMap]

/-- A choice leaves blanks if all of its matchers do. -/
theorem leavesBlanks_oneOf (h : ∀ choice ∈ choices, choice.LeavesBlanks) :
    (oneOf choices).LeavesBlanks := by
  intro t w hw
  rw [oneOf, oneOf, List.map_flatMap]
  exact List.flatMap_congr fun choice hchoice => h choice hchoice t w hw

/-- The words of a vocabulary, none of which ends with a delimiter. -/
theorem leavesBlanks_words {α : Type} {words : List (Text × α)}
    (h : (words.all fun entry => entry.1.getLast?.any isOpening) = true) :
    (oneOf (words.map fun entry => spelled foldsTo entry.1)).LeavesBlanks := by
  refine leavesBlanks_oneOf fun choice hchoice => ?_
  obtain ⟨entry, hentry, rfl⟩ := List.mem_map.mp hchoice
  exact leavesBlanks_spelled_foldsTo (List.all_eq_true.mp h entry hentry)

/-- A matcher may end in blanks: with white space behind a text it reads what it read before, and
otherwise only stops at places with nothing but white space behind them. -/
def MayEndInBlanks (matcher : Matcher) : Prop :=
  ∀ t w, Text.AllBlank w →
    (matcher (t ++ w)).filter Text.hasInk = ((matcher t).map (· ++ w)).filter Text.hasInk

/-- What leaves blanks may end in them. -/
theorem LeavesBlanks.mayEndInBlanks (h : first.LeavesBlanks) : first.MayEndInBlanks :=
  fun t w hw => congrArg (List.filter Text.hasInk) (h t w hw)

/-- A word may end in blanks, whatever letters it has. -/
theorem mayEndInBlanks_spelled (same : Char → Char → Bool) (word : Text) :
    (spelled same word).MayEndInBlanks := by
  intro t w hw
  induction word generalizing t with
  | nil => rfl
  | cons expected word ih =>
    cases t with
    | nil =>
      refine List.filter_eq_nil_iff.mpr fun r hr => ?_
      have hsuffix := leavesSuffix_spelled same _ w r hr
      simp [Text.hasInk_eq_false_iff.mpr (hw.of_subset hsuffix.subset)]
    | cons c t =>
      rw [List.cons_append, spelled, spelled]
      split
      · exact ih t
      · rfl

/-- A run into white space finds ends with nothing but white space behind them. -/
theorem filter_hasInk_runOnto {w : Text} (hw : w.AllBlank) (least : Nat) (most : Option Nat)
    (found : List Text) :
    (runOnto p least most found w).filter Text.hasInk = found.filter Text.hasInk := by
  induction w generalizing least most found with
  | nil =>
    rw [runOnto]
    split <;> simp [Text.hasInk]
  | cons c w ih =>
    have hhere : Text.hasInk (c :: w) = false := Text.hasInk_eq_false_iff.mpr hw
    have hfound : (if least = 0 then (c :: w) :: found else found).filter Text.hasInk =
        found.filter Text.hasInk := by
      split <;> simp [hhere]
    rw [runOnto]
    split
    · rw [ih hw.tail, hfound]
    · exact hfound

/-- Two runs, one of them with white space behind its text, have the same ends with ink behind them
if this holds of the ends that they begin with. -/
theorem filter_hasInk_runOnto_append {w : Text} (hw : w.AllBlank) (least : Nat) (most : Option Nat)
    {found longer : List Text}
    (h : longer.filter Text.hasInk = (found.map (· ++ w)).filter Text.hasInk) (t : Text) :
    (runOnto p least most longer (t ++ w)).filter Text.hasInk =
      ((runOnto p least most found t).map (· ++ w)).filter Text.hasInk := by
  induction t generalizing least most found longer with
  | nil =>
    have hblank : Text.hasInk w = false := Text.hasInk_eq_false_iff.mpr hw
    rw [List.nil_append, filter_hasInk_runOnto hw, h, runOnto]
    split <;> simp [hblank]
  | cons c t ih =>
    have hstep : (if least = 0 then (c :: (t ++ w)) :: longer else longer).filter Text.hasInk =
        ((if least = 0 then (c :: t) :: found else found).map (· ++ w)).filter Text.hasInk := by
      split
      · rw [List.map_cons, List.cons_append, List.filter_cons, List.filter_cons, h]
      · exact h
    rw [List.cons_append, runOnto, runOnto]
    split
    · exact ih _ _ hstep
    · exact hstep

/-- A run may end in blanks, whatever its class is. -/
theorem mayEndInBlanks_runs (p : Char → Bool) (least : Nat) : (runs p least).MayEndInBlanks := by
  intro t w hw
  have hnone : ([] : List Text).filter Text.hasInk =
      (([] : List Text).map (· ++ w)).filter Text.hasInk := rfl
  exact filter_hasInk_runOnto_append hw least none hnone t

/-- What finds nothing at the end of a text finds nothing in white space. -/
theorem LeavesBlanks.eq_nil (h : second.LeavesBlanks) (hnil : second [] = []) {r : Text}
    (hr : r.hasInk = false) : second r = [] := by
  have hblank := h [] r (Text.hasInk_eq_false_iff.mp hr)
  rwa [List.nil_append, hnil] at hblank

/-- A matcher may go on into white space if what has to follow it is not found there. -/
theorem MayEndInBlanks.andThen (hfirst : first.MayEndInBlanks) (hsecond : second.LeavesBlanks)
    (hnil : second [] = []) : (first.andThen second).LeavesBlanks := by
  intro t w hw
  have hlater (r : Text) : second (r ++ w) = (second r).map (· ++ w) := hsecond r w hw
  have hink (ends : List Text) :
      (ends.filter Text.hasInk).flatMap second = ends.flatMap second :=
    flatMap_filter_hasInk (fun _ => hsecond.eq_nil hnil) ends
  calc (first (t ++ w)).flatMap second
      = ((first (t ++ w)).filter Text.hasInk).flatMap second := (hink _).symm
    _ = (((first t).map (· ++ w)).filter Text.hasInk).flatMap second := by rw [hfirst t w hw]
    _ = ((first t).map (· ++ w)).flatMap second := hink _
    _ = ((first t).flatMap second).map (· ++ w) := by
      simp only [List.flatMap_map, hlater, List.map_flatMap]

end

end Matcher

/-- The same match in a text with more behind it. -/
def Match.followedBy (w : Text) (found : Match) : Match :=
  { found with rest := found.rest ++ w }

namespace Pattern

/-- The preferred match whose kept part begins a text. -/
def readKept (pattern : Pattern) (opened : Text) : Option Match :=
  (pattern.body opened).findSome? fun closed =>
    (pattern.follow closed).head?.map fun rest =>
      ⟨opened.take (opened.length - closed.length), rest⟩

/-- The preferred match at the start of a text comes from the first opening that it can be read
behind. -/
theorem matchAt_eq_findSome? (pattern : Pattern) (t : Text) :
    pattern.matchAt t = (pattern.lead t).findSome? pattern.readKept := rfl

/-- A pattern ignores blanks: its matches do not begin with white space, what is kept of them is not
found in white space, and what is read up to the end of a text is read in front of white space as
well. -/
structure IgnoresBlanks (pattern : Pattern) : Prop where
  opensWith : pattern.OpensWith isOpening
  lead : pattern.lead.MayEndInBlanks
  body : pattern.body.LeavesBlanks
  body_nil : pattern.body [] = []
  follow : pattern.follow.LeavesBlanks

namespace IgnoresBlanks

variable {pattern : Pattern} (h : pattern.IgnoresBlanks) {before after : Text}
  (hbefore : ∀ c ∈ before, isDelimiter c = true) (hafter : after.AllBlank)

include h

/-- What is kept is read the same with white space behind the text. -/
theorem readKept_append {w : Text} (hw : w.AllBlank) (opened : Text) :
    pattern.readKept (opened ++ w) = (pattern.readKept opened).map (Match.followedBy w) := by
  have htext (closed : Text) :
      (opened ++ w).take ((opened ++ w).length - (closed ++ w).length) =
        opened.take (opened.length - closed.length) := by
    rw [List.length_append, List.length_append, Nat.add_sub_add_right,
      List.take_append_of_le_length (Nat.sub_le _ _)]
  rw [readKept, readKept, h.body opened w hw, List.findSome?_map, List.map_findSome?]
  congr 1
  funext closed
  simp only [Function.comp_apply]
  rw [h.follow closed w hw, List.head?_map, Option.map_map, Option.map_map, htext]
  rfl

/-- Nothing is kept of white space. -/
theorem readKept_eq_none {opened : Text} (hopened : opened.hasInk = false) :
    pattern.readKept opened = none := by
  rw [readKept, h.body.eq_nil h.body_nil hopened, List.findSome?_nil]

/-- A match at the start of a text is there with white space behind the text as well. -/
theorem matchAt_append {w : Text} (hw : w.AllBlank) (t : Text) :
    pattern.matchAt (t ++ w) = (pattern.matchAt t).map (Match.followedBy w) := by
  have hink (ends : List Text) :
      (ends.filter Text.hasInk).findSome? pattern.readKept = ends.findSome? pattern.readKept :=
    findSome?_filter_hasInk (fun _ => h.readKept_eq_none) ends
  have hread : pattern.readKept ∘ (· ++ w) = Option.map (Match.followedBy w) ∘ pattern.readKept :=
    funext (h.readKept_append hw)
  calc pattern.matchAt (t ++ w)
      = ((pattern.lead (t ++ w)).filter Text.hasInk).findSome? pattern.readKept := (hink _).symm
    _ = (((pattern.lead t).map (· ++ w)).filter Text.hasInk).findSome? pattern.readKept := by
      rw [h.lead t w hw]
    _ = ((pattern.lead t).map (· ++ w)).findSome? pattern.readKept := hink _
    _ = (pattern.matchAt t).map (Match.followedBy w) := by
      rw [List.findSome?_map, hread, matchAt_eq_findSome?, List.map_findSome?]

/-- Nothing is matched in the empty text. -/
theorem matchAt_nil : pattern.matchAt [] = none := by
  rw [← Option.not_isSome_iff_eq_none]
  intro hsome
  obtain ⟨_, _, heq, _⟩ := h.opensWith _ hsome
  simp at heq

/-- A search passes over delimiters in front. -/
theorem find?_append_left (hbefore : ∀ c ∈ before, isDelimiter c = true) (t : Text) :
    pattern.find? (before ++ t) = pattern.find? t :=
  h.opensWith.find?_append (fun c hc => by simp [isOpening, hbefore c hc]) t

/-- A search leaves the white space behind a text over. -/
theorem find?_append_right {w : Text} (hw : w.AllBlank) (t : Text) :
    pattern.find? (t ++ w) = (pattern.find? t).map (Match.followedBy w) := by
  induction t with
  | nil =>
    have hblank := h.find?_append_left hw.isDelimiter []
    rw [List.append_nil, find?, h.matchAt_nil] at hblank
    rw [List.nil_append, hblank, find?, h.matchAt_nil, Option.map_none]
  | cons c t ih =>
    have hmatch := h.matchAt_append hw (c :: t)
    rw [List.cons_append] at hmatch
    rw [List.cons_append, find?, find?, hmatch, ih]
    cases pattern.matchAt (c :: t) <;> rfl

include hbefore hafter

/-- A search passes over delimiters in front of a text and leaves white space behind it over. -/
theorem find?_padded (t : Text) :
    pattern.find? (before ++ (t ++ after)) = (pattern.find? t).map (Match.followedBy after) := by
  rw [h.find?_append_left hbefore, h.find?_append_right hafter]

/-- Delimiters in front of a text and white space behind it do not change whether something is
found. -/
theorem occursIn_padded (t : Text) :
    pattern.occursIn (before ++ (t ++ after)) = pattern.occursIn t := by
  rw [occursIn, occursIn, h.find?_padded hbefore hafter, Option.isSome_map]

/-- Delimiters in front of a text and white space behind it do not change what is found first. -/
theorem map_text_find?_padded (t : Text) :
    (pattern.find? (before ++ (t ++ after))).map Match.text = (pattern.find? t).map Match.text := by
  rw [h.find?_padded hbefore hafter, Option.map_map]
  rfl

/-- Delimiters in front of a text and white space behind it do not change what is found in all of
it. -/
theorem findAll_padded
    (hreads : ∀ t found, pattern.matchAt t = some found → found.rest.length < t.length) (t : Text) :
    pattern.findAll (before ++ (t ++ after)) = pattern.findAll t := by
  induction t using findAll.induct pattern generalizing before with
  | case1 t hfind => rw [findAll, findAll, h.find?_padded hbefore hafter, hfind, Option.map_none]
  | case2 t found hfind hlt ih =>
    have hlonger : (found.rest ++ after).length < (before ++ (t ++ after)).length := by
      simp only [List.length_append]
      omega
    have hrest := ih (List.forall_mem_nil _)
    rw [List.nil_append] at hrest
    rw [findAll, findAll, h.find?_padded hbefore hafter, hfind, Option.map_some]
    simp only [Match.followedBy, if_pos hlonger, if_pos hlt, hrest]
  | case3 t found hfind hlt => exact absurd (length_rest_lt_of_find? hreads hfind) hlt

end IgnoresBlanks

end Pattern

namespace Prose

/-- A scheme leaves blanks. -/
theorem scheme_leavesBlanks : scheme.LeavesBlanks := by
  refine Matcher.leavesBlanks_oneOf fun choice hchoice => ?_
  simp only [List.mem_cons, List.not_mem_nil, or_false] at hchoice
  rcases hchoice with rfl | rfl
  all_goals exact Matcher.leavesBlanks_spelled_beq (by decide)

/-- The name at the end of a host leaves blanks. -/
theorem topLevel_leavesBlanks : topLevel.LeavesBlanks := by
  have hdot : (Matcher.one (· == '.')).LeavesBlanks :=
    Matcher.leavesBlanks_one (forall_isBlank (by decide))
  have hname : (Matcher.run Char.isLower 2 6).LeavesBlanks :=
    Matcher.leavesBlanks_run (forall_isBlank (by decide)) 2 6
  have hends : (Matcher.notBefore isWord).LeavesBlanks :=
    Matcher.leavesBlanks_notBefore fun _ => isWord_of_isBlank
  exact hdot.andThen (hname.andThen hends)

/-- No address has white space in it. -/
theorem addressPattern_ignoresBlanks : addressPattern.IgnoresBlanks where
  opensWith := addressPattern_opensWith
  lead := Matcher.leavesBlanks_nothing.mayEndInBlanks
  body := by
    have hhost : (Matcher.run isHostChar 1 256).LeavesBlanks :=
      Matcher.leavesBlanks_run (forall_isBlank (by decide)) 1 256
    have hpath : (Matcher.runs isPathChar 0).LeavesBlanks :=
      Matcher.leavesBlanks_runs (forall_isBlank (by decide)) 0
    exact scheme_leavesBlanks.andThen (hhost.andThen (topLevel_leavesBlanks.andThen hpath))
  body_nil := by decide
  follow := Matcher.leavesBlanks_nothing

/-- The text of a caption may go on into white space, where its last quote is not found. -/
theorem captionPattern_ignoresBlanks : captionPattern.IgnoresBlanks where
  opensWith := captionPattern_opensWith
  lead := Matcher.leavesBlanks_nothing.mayEndInBlanks
  body := by
    have hquote : (Matcher.one (· == '"')).LeavesBlanks :=
      Matcher.leavesBlanks_one (forall_isBlank (by decide))
    exact hquote.andThen ((Matcher.mayEndInBlanks_runs _ 0).andThen hquote rfl)
  body_nil := rfl
  follow := Matcher.leavesBlanks_nothing

/-- The code of a color leaves blanks. -/
theorem hexCode_leavesBlanks : hexCode.LeavesBlanks := by
  have hsign : (Matcher.one (· == '#')).LeavesBlanks :=
    Matcher.leavesBlanks_one (forall_isBlank (by decide))
  exact hsign.andThen (Matcher.leavesBlanks_run (forall_isBlank (by decide)) 3 6)

/-- The space behind "fondo" may be white space behind a text, where no color is found. -/
theorem fondoPattern_ignoresBlanks : fondoPattern.IgnoresBlanks where
  opensWith := fondoPattern_opensWith
  lead := Matcher.mayEndInBlanks_spelled _ _
  body := hexCode_leavesBlanks
  body_nil := rfl
  follow := Matcher.leavesBlanks_nothing

/-- A background color is read up to its word, which ends with a letter. -/
theorem backgroundPattern_ignoresBlanks : backgroundPattern.IgnoresBlanks where
  opensWith := backgroundPattern_opensWith
  lead := Matcher.leavesBlanks_nothing.mayEndInBlanks
  body := by
    refine Matcher.leavesBlanks_oneOf fun choice hchoice => ?_
    simp only [List.mem_cons, List.not_mem_nil, or_false] at hchoice
    rcases hchoice with rfl | rfl
    · exact hexCode_leavesBlanks
    · exact Matcher.leavesBlanks_runs (fun _ => isWord_of_isBlank) 1
  body_nil := by decide
  follow := Matcher.leavesBlanks_spelled_foldsTo (by decide)

/-- A unit of time leaves blanks. -/
theorem timeUnit_leavesBlanks : timeUnit.LeavesBlanks := by
  refine Matcher.leavesBlanks_oneOf fun choice hchoice => ?_
  obtain ⟨word, hword, rfl⟩ := List.mem_map.mp hchoice
  have hall : ∀ word ∈ ["⏲".toList, "seconds".toList, "second".toList, "segundos".toList],
      word.getLast?.any isOpening = true := by decide
  exact Matcher.leavesBlanks_spelled_foldsTo (hall word hword)

/-- The white space of a duration may go on into white space, where no unit of time is found. -/
theorem durationPattern_ignoresBlanks : durationPattern.IgnoresBlanks where
  opensWith t ht := by
    obtain ⟨c, rest, heq, hc⟩ := durationPattern_opensWith t ht
    exact ⟨c, rest, heq, isOpening_of_class (fun _ => isDigit_of_isDelimiter) hc⟩
  lead := Matcher.leavesBlanks_nothing.mayEndInBlanks
  body := Matcher.leavesBlanks_runs (forall_isBlank (by decide)) 1
  body_nil := rfl
  follow := (Matcher.mayEndInBlanks_runs isBlank 1).andThen timeUnit_leavesBlanks (by decide)

/-- No word for a location ends with white space. -/
theorem locationPattern_ignoresBlanks : locationPattern.IgnoresBlanks where
  opensWith := locationPattern_opensWith
  lead := Matcher.leavesBlanks_nothing.mayEndInBlanks
  body := Matcher.leavesBlanks_words (by decide)
  body_nil := by decide
  follow := Matcher.leavesBlanks_nothing

/-- No word for a size ends with white space. -/
theorem sizePattern_ignoresBlanks : sizePattern.IgnoresBlanks where
  opensWith := sizePattern_opensWith
  lead := Matcher.leavesBlanks_nothing.mayEndInBlanks
  body := Matcher.leavesBlanks_words (by decide)
  body_nil := by decide
  follow := Matcher.leavesBlanks_nothing

section

variable {before after : Text} (hbefore : ∀ c ∈ before, isDelimiter c = true)
  (hafter : after.AllBlank) (window : Text)

include hbefore hafter

/-- Delimiters in front of a window and white space behind it do not change its address. -/
theorem address?_padded : address? (before ++ (window ++ after)) = address? window :=
  addressPattern_ignoresBlanks.map_text_find?_padded hbefore hafter window

/-- Delimiters in front of a window and white space behind it do not change its address with an
ending. -/
theorem addressEndingIn?_padded (ending : Text) :
    addressEndingIn? ending (before ++ (window ++ after)) = addressEndingIn? ending window := by
  rw [addressEndingIn?, addressEndingIn?, addresses, addresses,
    addressPattern_ignoresBlanks.findAll_padded hbefore hafter fun _ _ =>
      length_rest_lt_of_addressPattern]

/-- Delimiters in front of a window and white space behind it do not change its caption. -/
theorem caption?_padded : caption? (before ++ (window ++ after)) = caption? window := by
  rw [caption?, caption?, captionPattern_ignoresBlanks.find?_padded hbefore hafter, Option.map_map]
  rfl

/-- Delimiters in front of a window and white space behind it do not change its background color. -/
theorem backgroundColor?_padded :
    backgroundColor? (before ++ (window ++ after)) = backgroundColor? window :=
  backgroundPattern_ignoresBlanks.map_text_find?_padded hbefore hafter window

/-- Delimiters in front of a window and white space behind it do not change the color behind
"fondo". -/
theorem fondoColor?_padded : fondoColor? (before ++ (window ++ after)) = fondoColor? window :=
  fondoPattern_ignoresBlanks.map_text_find?_padded hbefore hafter window

/-- Delimiters in front of a window and white space behind it do not change its duration. -/
theorem duration?_padded : duration? (before ++ (window ++ after)) = duration? window := by
  rw [duration?, duration?, durationPattern_ignoresBlanks.find?_padded hbefore hafter,
    Option.bind_map]
  rfl

/-- Delimiters in front of a line and white space behind it do not change whether it states a
duration. -/
theorem statesDuration_padded :
    statesDuration (before ++ (window ++ after)) = statesDuration window :=
  durationPattern_ignoresBlanks.occursIn_padded hbefore hafter window

/-- Delimiters in front of a window and white space behind it do not change its location. -/
theorem location_padded : location (before ++ (window ++ after)) = location window := by
  rw [location, location, locationPattern_ignoresBlanks.find?_padded hbefore hafter,
    Option.bind_map]
  rfl

/-- Delimiters in front of a window and white space behind it do not change its size. -/
theorem size_padded : size (before ++ (window ++ after)) = size window := by
  rw [size, size, sizePattern_ignoresBlanks.find?_padded hbefore hafter, Option.bind_map]
  rfl

/-- Delimiters in front of a window and white space behind it do not change the position it
gives. -/
theorem position_padded (width height : Float) :
    position (before ++ (window ++ after)) width height = position window width height := by
  rw [position, position, location_padded hbefore hafter]

/-- Delimiters in front of a window and white space behind it do not change the pose it gives. -/
theorem pose_padded (width height : Float) :
    pose (before ++ (window ++ after)) width height = pose window width height := by
  rw [pose, pose, position_padded hbefore hafter, rotation, rotation,
    location_padded hbefore hafter, scale, scale, size_padded hbefore hafter]

end

end Prose

namespace Assembly

open Prose

/-- Delimiters in front of a window and white space behind it change nothing about the object. -/
theorem ofWindow_padded {before after : Text} (hbefore : ∀ c ∈ before, isDelimiter c = true)
    (hafter : after.AllBlank) (kind : Kind) (window : Text) :
    ofWindow kind (before ++ (window ++ after)) = ofWindow kind window := by
  have haddress : address? (before ++ (window ++ after)) = address? window :=
    address?_padded hbefore hafter window
  have hcaption : caption? (before ++ (window ++ after)) = caption? window :=
    caption?_padded hbefore hafter window
  have hpose (width height : Float) :
      pose (before ++ (window ++ after)) width height = pose window width height :=
    pose_padded hbefore hafter window width height
  cases kind with
  | duration => rw [ofWindow, ofWindow, duration?_padded hbefore hafter]
  | background => rw [ofWindow, ofWindow, backgroundColor?_padded hbefore hafter]
  | fondo => rw [ofWindow, ofWindow, fondoColor?_padded hbefore hafter]
  | audio => rw [ofWindow, ofWindow, haddress, position_padded hbefore hafter]
  | voiceover => rw [ofWindow, ofWindow, hcaption]
  | chart | video => rw [ofWindow, ofWindow, haddress, hpose]
  | panorama => rw [ofWindow, ofWindow, content?, content?, haddress, hcaption]
  | videosphere => rw [ofWindow, ofWindow, haddress]
  | image => rw [ofWindow, ofWindow, content?, content?, haddress, hcaption, hpose]
  | text => rw [ofWindow, ofWindow, hcaption, panelPose, panelPose, hpose]
  | model =>
    rw [ofWindow, ofWindow, model, model, addressEndingIn?_padded hbefore hafter,
      addressEndingIn?_padded hbefore hafter, haddress, groundPose, groundPose, hpose]

end Assembly

end Storyboard
