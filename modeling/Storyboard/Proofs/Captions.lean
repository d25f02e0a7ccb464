import Storyboard.Prose.Caption
import Storyboard.Proofs.Leftmost
import Storyboard.Proofs.LineEndings

/-!
# What a caption is made of

A caption is read from one line of a window: the first that holds two double quotes. A quote
without a second one on its line begins nothing, so that the search goes on behind the line feed. On
the line of the caption the longest run behind the first quote is preferred that ends at a quote,
and this is the one that ends at the last.
-/

namespace Storyboard

namespace Text

/-- The stretch of a text from its first double quote to its last one. -/
def quotedStretch (t : Text) : Text :=
  List.rdropWhile (· != '"') (t.dropWhile (· != '"'))

/-- The characters of a text all differ from one exactly if it is not among them. -/
theorem forall_bne_iff {d : Char} {t : Text} : (∀ c ∈ t, (c != d) = true) ↔ d ∉ t := by
  simp only [bne_iff_ne, ne_eq]
  constructor
  · intro h hmem
    exact h d hmem rfl
  · intro h c hc heq
    exact h (heq ▸ hc)

/-- Nothing in front of the first quote and behind the last one belongs to the stretch. -/
theorem quotedStretch_eq {before inner after : Text} (hbefore : '"' ∉ before)
    (hafter : '"' ∉ after) :
    quotedStretch (before ++ '"' :: (inner ++ '"' :: after)) = '"' :: (inner ++ ['"']) := by
  have hdrop : (before ++ '"' :: (inner ++ '"' :: after)).dropWhile (· != '"') =
      '"' :: (inner ++ ['"']) ++ after := by
    rw [List.dropWhile_append_of_pos (forall_bne_iff.mpr hbefore)]
    simp
  rw [quotedStretch, hdrop]
  refine rdropWhile_append_of_stop (forall_bne_iff.mpr hafter) fun c hc => ?_
  rw [← List.cons_append, List.getLast?_concat] at hc
  obtain rfl := Option.some.inj hc
  rfl

/-- A stretch of a text is part of it. -/
theorem mem_of_mem_quotedStretch {t : Text} {c : Char} (h : c ∈ t.quotedStretch) : c ∈ t :=
  (List.dropWhile_sublist _).mem ((List.rdropWhile_prefix _ _).mem h)

/-- A text with two quotes has a first one and a last one. -/
theorem exists_quotes_of_two_le_count {t : Text} (h : 2 ≤ t.count '"') :
    ∃ before inner after, t = before ++ '"' :: (inner ++ '"' :: after) ∧ '"' ∉ before ∧
      '"' ∉ after := by
  obtain ⟨before, rest, rfl, hbefore⟩ :=
    List.eq_append_cons_of_mem (List.count_pos_iff.mp (by omega : 0 < t.count '"'))
  have hrest : 0 < rest.count '"' := by
    rw [List.count_append, List.count_eq_zero_of_not_mem hbefore, List.count_cons_self] at h
    omega
  obtain ⟨after, inner, hsplit, hafter⟩ :=
    List.eq_append_cons_of_mem (List.mem_reverse.mpr (List.count_pos_iff.mp hrest))
  refine ⟨before, inner.reverse, after.reverse, ?_, hbefore, by simpa using hafter⟩
  rw [← List.reverse_reverse rest, hsplit]
  simp

/-- The first line of a text is all of it, or a line feed and the other lines follow. -/
theorem exists_of_lines_eq_cons {t first : Text} {others : List Text}
    (h : t.lines = first :: others) :
    '\n' ∉ first ∧ ((others = [] ∧ t = first) ∨
      ∃ rest : Text, t = first ++ '\n' :: rest ∧ rest.lines = others) := by
  by_cases hfeed : '\n' ∈ t
  · obtain ⟨piece, rest, rfl, hpiece⟩ := List.eq_append_cons_of_mem hfeed
    rw [lines_append_lineFeed, lines_eq_singleton hpiece] at h
    obtain ⟨rfl, rfl⟩ := List.cons.inj h
    exact ⟨hpiece, Or.inr ⟨rest, rfl, rfl⟩⟩
  · rw [lines_eq_singleton hfeed] at h
    obtain ⟨rfl, rfl⟩ := List.cons.inj h
    exact ⟨hfeed, Or.inl ⟨rfl, rfl⟩⟩

/-- A line ends in front of this text: there is none, or it begins with a line feed. -/
def EndsLine (t : Text) : Prop :=
  ∀ c, t.head? = some c → c = '\n'

/-- A line ends at the end of the text. -/
theorem endsLine_nil : EndsLine [] := by
  simp [EndsLine]

/-- A line ends in front of a line feed. -/
theorem endsLine_lineFeed (t : Text) : EndsLine ('\n' :: t) := by
  simp [EndsLine, eq_comm]

/-- The line that a text begins with goes on without a double quote: each one in the text has a line
feed in front of it. -/
def GoesOnUnquoted (t : Text) : Prop :=
  ∀ a r, t = a ++ '"' :: r → '\n' ∈ a

/-- A line goes on without a quote where none is left on it. -/
theorem goesOnUnquoted_append {after rest : Text} (hafter : '"' ∉ after) (hrest : rest.EndsLine) :
    GoesOnUnquoted (after ++ rest) := by
  intro a r heq
  rcases List.append_eq_append_iff.mp heq with ⟨m, rfl, rfl⟩ | ⟨m, rfl, hm⟩
  · cases m with
    | nil => exact absurd (hrest '"' rfl) (by decide)
    | cons c m =>
      obtain rfl : c = '\n' := hrest c rfl
      simp
  · cases m with
    | nil =>
      obtain rfl : '"' :: r = rest := hm
      exact absurd (hrest '"' rfl) (by decide)
    | cons c m =>
      obtain ⟨rfl, _⟩ := List.cons.inj hm
      simp at hafter

end Text

namespace Matcher

variable {p q : Char → Bool}

/-- The ends found so far come last. -/
theorem runOnto_eq_append (p : Char → Bool) (least : Nat) (most : Option Nat) (found : List Text)
    (t : Text) : runOnto p least most found t = runOnto p least most [] t ++ found := by
  induction t generalizing least most found with
  | nil =>
    rw [runOnto, runOnto]
    split <;> rfl
  | cons c rest ih =>
    rw [runOnto, runOnto]
    by_cases hgo : most ≠ some 0 ∧ p c = true
    · rw [if_pos hgo, if_pos hgo, ih, ih _ _ (if least = 0 then [c :: rest] else [])]
      split <;> simp
    · rw [if_neg hgo, if_neg hgo]
      split <;> rfl

/-- A run that may be empty ends later on, or else in front of the first character. -/
theorem runs_cons {c : Char} (hc : p c = true) (t : Text) :
    runs p 0 (c :: t) = runs p 0 t ++ [c :: t] := by
  have hgo : (none : Option Nat) ≠ some 0 ∧ p c = true := ⟨by simp, hc⟩
  have hstep : runs p 0 (c :: t) = runOnto p 0 none [c :: t] t := by
    rw [runs, runOnto, if_pos hgo]
    rfl
  rw [hstep, runOnto_eq_append]
  rfl

/-- A run prefers the ends behind the characters that it can read for certain. -/
theorem exists_runs_append {a : Text} (ha : ∀ c ∈ a, p c = true) (b : Text) :
    ∃ earlier, runs p 0 (a ++ b) = runs p 0 b ++ earlier := by
  induction a with
  | nil => exact ⟨[], (List.append_nil _).symm⟩
  | cons c a ih =>
    obtain ⟨earlier, hearlier⟩ := ih fun d hd => ha d (List.mem_cons_of_mem c hd)
    refine ⟨earlier ++ [c :: (a ++ b)], ?_⟩
    rw [List.cons_append, runs_cons (ha c List.mem_cons_self), hearlier, List.append_assoc]

/-- A run with one more character behind it ends behind the last such character in its reach. -/
theorem head?_runs_andThen_one {inner rest : Text} {c : Char} (hinner : ∀ d ∈ inner, p d = true)
    (hc : p c = true) (hq : q c = true) (hrest : ∀ r ∈ runs p 0 rest, one q r = []) :
    ((runs p 0).andThen (one q) (inner ++ c :: rest)).head? = some rest := by
  obtain ⟨earlier, hearlier⟩ := exists_runs_append hinner (c :: rest)
  have hlater : (runs p 0 rest).flatMap (one q) = [] := List.flatMap_eq_nil_iff.mpr hrest
  rw [andThen, hearlier, runs_cons hc, List.flatMap_append, List.flatMap_append, hlater,
    List.flatMap_singleton, one, if_pos hq]
  rfl

end Matcher

namespace Prose

/-- A caption is read off the front: two quotes with no line feed between them. -/
theorem mem_caption_iff {t r : Text} :
    r ∈ captionPattern.body t ↔ ∃ inner, t = '"' :: (inner ++ '"' :: r) ∧ '\n' ∉ inner := by
  simp only [captionPattern, Matcher.mem_andThen, Matcher.mem_one_iff, Matcher.mem_runs_iff,
    beq_iff_eq, Text.forall_bne_iff]
  constructor
  · rintro ⟨_, ⟨_, rfl, rfl⟩, _, ⟨inner, rfl, hinner, _⟩, _, rfl, rfl⟩
    exact ⟨inner, rfl, hinner⟩
  · rintro ⟨inner, rfl, hinner⟩
    exact ⟨_, ⟨_, rfl, rfl⟩, _, ⟨inner, rfl, hinner, Nat.zero_le _⟩, _, rfl, rfl⟩

/-- Every caption begins with a quote. -/
theorem captionPattern_opensWith_quote : captionPattern.OpensWith (· == '"') :=
  Pattern.opensWith_of_body rfl (Matcher.OpensWith.andThen (Matcher.opensWith_one fun _ hc => hc))

/-- A search for captions passes over text without quotes. -/
theorem find?_captionPattern_append {w : Text} (hw : '"' ∉ w) (t : Text) :
    captionPattern.find? (w ++ t) = captionPattern.find? t := by
  refine captionPattern_opensWith_quote.find?_append (fun c hc => ?_) t
  exact beq_eq_false_iff_ne.mpr fun heq => hw (heq ▸ hc)

/-- A quote begins no caption if its line goes on without another one. -/
theorem matchAt_captionPattern_eq_none {t : Text} (h : t.GoesOnUnquoted) :
    captionPattern.matchAt ('"' :: t) = none := by
  rw [← Option.not_isSome_iff_eq_none, Pattern.isSome_matchAt_iff]
  rintro ⟨opened, hlead, closed, hbody, _⟩
  obtain rfl := List.mem_singleton.mp hlead
  obtain ⟨inner, heq, hinner⟩ := mem_caption_iff.mp hbody
  exact hinner (h inner closed (List.cons.inj heq).2)

/-- A quote begins a caption that reaches to the last quote of its line. -/
theorem matchAt_captionPattern_eq_some {inner rest : Text} (hinner : '\n' ∉ inner)
    (h : rest.GoesOnUnquoted) :
    captionPattern.matchAt ('"' :: (inner ++ '"' :: rest)) =
      some ⟨'"' :: (inner ++ ['"']), rest⟩ := by
  have hends : ∀ r ∈ Matcher.runs (· != '\n') 0 rest, Matcher.one (· == '"') r = [] := by
    intro r hr
    obtain ⟨a, rfl, ha, _⟩ := Matcher.mem_runs_iff.mp hr
    refine List.eq_nil_iff_forall_not_mem.mpr fun r' hr' => ?_
    obtain ⟨c, rfl, hc⟩ := Matcher.mem_one_iff.mp hr'
    obtain rfl := beq_iff_eq.mp hc
    exact absurd (ha _ (h a r' rfl)) (by decide)
  have hclosed : (captionPattern.body ('"' :: (inner ++ '"' :: rest))).head? = some rest := by
    have hbody : captionPattern.body ('"' :: (inner ++ '"' :: rest)) =
        (Matcher.runs (· != '\n') 0).andThen (Matcher.one (· == '"')) (inner ++ '"' :: rest) :=
      List.flatMap_singleton _ _
    rw [hbody]
    exact Matcher.head?_runs_andThen_one (Text.forall_bne_iff.mpr hinner) rfl rfl hends
  have hsplit : '"' :: (inner ++ '"' :: rest) = '"' :: (inner ++ ['"']) ++ rest := by simp
  rw [hsplit] at hclosed ⊢
  exact Pattern.matchAt_eq_some rfl hclosed rfl

/-- On a line with two quotes the caption is found that reaches from the first to the last. -/
theorem map_text_find?_captionPattern_of_two_le {piece rest : Text} (hpiece : '\n' ∉ piece)
    (hrest : rest.EndsLine) (h : 2 ≤ piece.count '"') :
    (captionPattern.find? (piece ++ rest)).map Match.text = some piece.quotedStretch := by
  obtain ⟨before, inner, after, rfl, hbefore, hafter⟩ := Text.exists_quotes_of_two_le_count h
  have hinner : '\n' ∉ inner := by
    intro hmem
    exact hpiece (by simp [hmem])
  have hmatch := matchAt_captionPattern_eq_some hinner (Text.goesOnUnquoted_append hafter hrest)
  have hsplit : before ++ '"' :: (inner ++ '"' :: after) ++ rest =
      before ++ '"' :: (inner ++ '"' :: (after ++ rest)) := by simp
  rw [hsplit, find?_captionPattern_append hbefore, Pattern.find?, hmatch,
    Text.quotedStretch_eq hbefore hafter]
  rfl

/-- A search for captions passes over a line with fewer than two quotes. -/
theorem find?_captionPattern_of_lt_two {piece rest : Text} (hrest : rest.EndsLine)
    (h : piece.count '"' < 2) :
    captionPattern.find? (piece ++ rest) = captionPattern.find? rest := by
  by_cases hquote : '"' ∈ piece
  · obtain ⟨before, after, rfl, hbefore⟩ := List.eq_append_cons_of_mem hquote
    have hafter : '"' ∉ after := by
      rw [← List.count_eq_zero]
      rw [List.count_append, List.count_cons_self] at h
      omega
    have hnone := matchAt_captionPattern_eq_none (Text.goesOnUnquoted_append hafter hrest)
    rw [List.append_assoc, find?_captionPattern_append hbefore, List.cons_append, Pattern.find?,
      hnone]
    exact find?_captionPattern_append hafter rest
  · exact find?_captionPattern_append hquote rest

/-- A caption is looked for line by line. -/
theorem map_text_find?_captionPattern (window : Text) :
    (captionPattern.find? window).map Match.text =
      (window.lines.find? fun piece => 2 ≤ piece.count '"').map Text.quotedStretch := by
  generalize hlines : window.lines = pieces
  induction pieces generalizing window with
  | nil =>
    obtain ⟨first, others, hcons⟩ := Text.exists_lines_eq_cons window
    exact absurd (hlines.symm.trans hcons) (List.cons_ne_nil first others).symm
  | cons first others ih =>
    obtain ⟨hfirst, hothers⟩ := Text.exists_of_lines_eq_cons hlines
    obtain ⟨rest, rfl, hrest, hlater⟩ : ∃ rest, window = first ++ rest ∧ rest.EndsLine ∧
        (captionPattern.find? rest).map Match.text =
          (others.find? fun piece => 2 ≤ piece.count '"').map Text.quotedStretch := by
      rcases hothers with ⟨rfl, rfl⟩ | ⟨later, rfl, rfl⟩
      · exact ⟨[], (List.append_nil _).symm, Text.endsLine_nil, rfl⟩
      · refine ⟨'\n' :: later, rfl, Text.endsLine_lineFeed later, ?_⟩
        rw [← ih later rfl, ← find?_captionPattern_append (w := ['\n']) (by decide) later]
        rfl
    by_cases htwo : 2 ≤ first.count '"'
    · rw [map_text_find?_captionPattern_of_two_le hfirst hrest htwo,
        List.find?_cons_of_pos (by simpa using htwo), Option.map_some]
    · rw [find?_captionPattern_of_lt_two hrest (by omega), hlater,
        List.find?_cons_of_neg (by simpa using htwo)]

/-- A caption is read from the first line that holds two quotes. -/
theorem caption?_eq_map_find? (window : Text) :
    caption? window =
      (window.lines.find? fun piece => 2 ≤ piece.count '"').map
        fun piece => piece.quotedStretch.filter (· != '"') := by
  have hcaption : caption? window =
      ((captionPattern.find? window).map Match.text).map (List.filter (· != '"')) := by
    rw [Option.map_map]
    rfl
  rw [hcaption, map_text_find?_captionPattern, Option.map_map]
  rfl

/-- A caption is the stretch from the first double quote to the last one on the first line of a
window that holds two of them, without any double quotes; where no line holds two there is none. So
no double quote and no line feed is part of a caption, and a window of one line has none exactly if
it holds fewer than two double quotes. -/
theorem caption_is_first_quoted_stretch (window : Text) :
    caption? window =
      (window.lines.find? fun piece => 2 ≤ piece.count '"').map
        (fun piece => piece.quotedStretch.filter (· != '"')) ∧
    (∀ caption, caption? window = some caption → '"' ∉ caption ∧ '\n' ∉ caption) ∧
    ('\n' ∉ window → (caption? window = none ↔ window.count '"' < 2)) := by
  rw [caption?_eq_map_find?]
  refine ⟨rfl, fun caption h => ?_, fun hfeed => ?_⟩
  · obtain ⟨piece, hpiece, rfl⟩ := Option.map_eq_some_iff.mp h
    have hline := Text.lineFeed_not_mem_of_mem_lines (List.mem_of_find?_eq_some hpiece)
    refine ⟨by simp, fun hmem => hline ?_⟩
    exact Text.mem_of_mem_quotedStretch (List.mem_filter.mp hmem).1
  · rw [Text.lines_eq_singleton hfeed, Option.map_eq_none_iff, List.find?_singleton]
    simp

/-- A quote without a second one on its line is passed over, and the quotes inside a caption are
left out. -/
example : caption? "an \" inch\nthe \"big\" \"red\" door \"\n\"no\"".toList =
    some "big red door ".toList := by
  decide +kernel

end Prose

end Storyboard
