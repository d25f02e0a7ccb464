import Storyboard.Proofs.Blanks
import Storyboard.Proofs.Splicing
import Storyboard.Report

/-!
# Entities on one line are independent

A line is cut at a delimiter in front of a keyword whose object is described behind it. The windows
of the tokens in the left part end before the cut, and those of the tokens in the right part begin
behind it, apart from the delimiter itself, which the first of them gains. Each part therefore
compiles to the same descriptors as it does within the whole line.
-/

namespace Storyboard

namespace Text

/-- A character of a text begins at an offset. -/
def BeginsAt (t : Text) (offset : Nat) : Prop :=
  ∃ p c q, t = p ++ c :: q ∧ offset = byteSize p

namespace BeginsAt

variable {a : Text} {offset : Nat}

/-- A text can be cut where one of its characters begins. -/
theorem isCut (h : a.BeginsAt offset) : a.isCut offset = true := by
  obtain ⟨p, c, q, rfl, rfl⟩ := h
  exact isCut_iff.mpr ⟨p, c :: q, rfl, rfl⟩

/-- Past a character of a leading part comes an offset within it, and the same in the whole text. -/
theorem pastChar_append (h : a.BeginsAt offset) (b : Text) :
    pastChar (a ++ b) offset = pastChar a offset ∧ pastChar a offset ≤ byteSize a := by
  obtain ⟨p, c, q, rfl, rfl⟩ := h
  rw [List.append_assoc, List.cons_append, pastChar_append_cons, pastChar_append_cons,
    byteSize_append, byteSize_cons]
  omega

end BeginsAt

end Text

namespace Token

/-- A token of a text that ends with a delimiter begins and is closed within the text. -/
theorem StandsIn.beginsAt {a : Text} {d : Char} (hd : isDelimiter d = true) {token : Token}
    (h : StandsIn (a ++ [d]) token) :
    (a ++ [d]).BeginsAt token.matchOffset ∧ (a ++ [d]).BeginsAt token.keywordEnd := by
  obtain ⟨before, after, hline, h⟩ := h
  constructor
  · obtain ⟨c, keyword, hkeyword⟩ := List.exists_cons_of_ne_nil h.keyword_ne_nil
    rcases h.opened with ⟨rfl, hzero⟩ | ⟨m, e, rfl, _, hmatch⟩
    · exact ⟨[], c, keyword ++ after, by rw [hline, hkeyword]; rfl, hzero⟩
    · exact ⟨m, e, token.keyword ++ after, by rw [hline]; simp, hmatch⟩
  · cases after with
    | nil =>
      -- The keyword would end with the delimiter.
      obtain ⟨m, e, hkeyword⟩ := Text.exists_append_singleton h.keyword_ne_nil
      rw [hkeyword, List.append_nil, ← List.append_assoc] at hline
      obtain ⟨_, he⟩ := List.append_inj' hline rfl
      obtain rfl : d = e := by simpa using he
      have hspells := h.spells.1
      rw [hkeyword] at hspells
      exact absurd hd (by simp [hspells.isDelimiter_last])
    | cons c after =>
      exact ⟨before ++ token.keyword, c, after, by rw [hline]; simp, h.keywordEnd_eq⟩

section

variable {a : Text} {d : Char}

/-- A line that ends with a delimiter can be cut where a backward window begins. -/
theorem backwardStart_isCut (hd : isDelimiter d = true) {previous : Option Token}
    (hprevious : ∀ token, previous = some token → StandsIn (a ++ [d]) token) :
    (a ++ [d]).isCut (backwardStart previous) = true := by
  cases previous with
  | none => exact Text.isCut_iff.mpr ⟨[], a ++ [d], rfl, rfl⟩
  | some token => exact ((hprevious token rfl).beginsAt hd).2.isCut

/-- What comes behind a text that ends with a delimiter does not change the window of a token in it,
if the forward window ends at the same place. -/
theorem window_append_of_standsIn (hd : isDelimiter d = true) (b : Text) {token : Token}
    (htoken : StandsIn (a ++ [d]) token) {previous next next' : Option Token}
    (hprevious : ∀ token, previous = some token → StandsIn (a ++ [d]) token)
    (hend : forwardEnd (a ++ [d] ++ b) next' = forwardEnd (a ++ [d]) next)
    (hle : forwardEnd (a ++ [d]) next ≤ Text.byteSize (a ++ [d])) :
    token.window (a ++ [d] ++ b) previous next' = token.window (a ++ [d]) previous next := by
  obtain ⟨hmatch, hclosed⟩ := htoken.beginsAt hd
  obtain ⟨hpast, hpast_le⟩ := hclosed.pastChar_append b
  rw [window, window, backward, backward, forward, forward, hpast, hend,
    Text.slice_append_of_le _ _ (backwardStart_isCut hd hprevious) hpast_le,
    Text.slice_append_of_le _ _ hmatch.isCut hle]

end

/-- An object that is described behind its keyword is read from the forward window. -/
theorem window_eq_forward {line : Text} {token : Token} (h : token.kind.readsBackward = false)
    (previous next : Option Token) : token.window line previous next = token.forward line next := by
  rw [window, h]
  rfl

section

variable (a b : Text)

/-- The end of a forward window moves to the right with the tokens of the line. -/
theorem forwardEnd_shift (next : Option Token) :
    forwardEnd (a ++ b) (next.map (shift (Text.byteSize a))) =
      Text.byteSize a + forwardEnd b next := by
  cases next with
  | none => exact Text.byteSize_append a b
  | some token => exact Text.pastChar_append_add a b token.matchOffset

/-- Behind a leading part the windows of the tokens are the same. -/
theorem window_shift {previous previous' : Option Token}
    (hprevious : backwardStart previous' = Text.byteSize a + backwardStart previous)
    (token : Token) (next : Option Token) :
    (token.shift (Text.byteSize a)).window (a ++ b) previous'
        (next.map (shift (Text.byteSize a))) =
      token.window b previous next := by
  rw [window, window, backward, backward, forward, forward, hprevious, keywordEnd_shift,
    Text.pastChar_append_add, Text.slice_append_add, forwardEnd_shift]
  have hmatch : (token.shift (Text.byteSize a)).matchOffset =
      Text.byteSize a + token.matchOffset := rfl
  rw [hmatch, Text.slice_append_add]
  rfl

end

end Token

namespace Assembly

open Token

/-- Behind a leading part the tokens have the same outcomes. -/
theorem map_snd_outcomesAfter_shift (a b : Text) {previous previous' : Option Token}
    (hprevious : backwardStart previous' = Text.byteSize a + backwardStart previous)
    (tokens : List Token) :
    (outcomesAfter (a ++ b) previous' (tokens.map (shift (Text.byteSize a)))).map Prod.snd =
      (outcomesAfter b previous tokens).map Prod.snd := by
  induction tokens generalizing previous previous' with
  | nil => rfl
  | cons token later ih =>
    have hlater : backwardStart (some (token.shift (Text.byteSize a))) =
        Text.byteSize a + backwardStart (some token) := keywordEnd_shift _ token
    rw [List.map_cons, outcomesAfter, outcomesAfter, List.map_cons, List.map_cons, ih hlater,
      List.head?_map, assemble, assemble, window_shift a b hprevious]
    rfl

/-- The tokens of a text that ends with a delimiter have the same outcomes in a longer line, if the
first token behind them begins at the delimiter. -/
theorem outcomesAfter_append {a : Text} {d : Char} (hd : isDelimiter d = true) (b : Text)
    {previous : Option Token} {tokens : List Token}
    (hstands : ∀ token ∈ tokens, StandsIn (a ++ [d]) token)
    (hprevious : ∀ token, previous = some token → StandsIn (a ++ [d]) token) {next : Token}
    (hnext : next.matchOffset = Text.byteSize a) (later : List Token) :
    ∃ last, outcomesAfter (a ++ [d] ++ b) previous (tokens ++ next :: later) =
      outcomesAfter (a ++ [d]) previous tokens ++
        outcomesAfter (a ++ [d] ++ b) last (next :: later) := by
  induction tokens generalizing previous with
  | nil => exact ⟨previous, rfl⟩
  | cons token rest ih =>
    obtain ⟨htoken, hrest⟩ := List.forall_mem_cons.mp hstands
    have hsome : ∀ other, some token = some other → StandsIn (a ++ [d]) other := by
      rintro other ⟨⟩
      exact htoken
    obtain ⟨last, hlast⟩ := ih hrest hsome
    refine ⟨last, ?_⟩
    have hend : forwardEnd (a ++ [d] ++ b) (rest ++ next :: later).head? =
          forwardEnd (a ++ [d]) rest.head? ∧
        forwardEnd (a ++ [d]) rest.head? ≤ Text.byteSize (a ++ [d]) := by
      cases rest with
      | nil =>
        refine ⟨?_, Nat.le_refl _⟩
        have hpast : Text.pastChar (a ++ [d] ++ b) next.matchOffset = Text.byteSize (a ++ [d]) := by
          rw [hnext, List.append_assoc, List.singleton_append, Text.pastChar_append_cons]
          simp
        exact hpast
      | cons other rest =>
        have hother := (hrest other List.mem_cons_self).beginsAt hd
        exact hother.1.pastChar_append b
    rw [List.cons_append, outcomesAfter, outcomesAfter, hlast, assemble, assemble,
      window_append_of_standsIn hd b htoken hprevious hend.1 hend.2]
    rfl

/-- A first token that is described behind its keyword has the same outcome behind a delimiter,
which its window gains in front. -/
theorem map_snd_outcomesAfter_cons {a : Text} {d : Char} (hd : isDelimiter d = true) (b : Text)
    {first : Token} (hmatch : first.matchOffset = 0) (hfirst : first.keywordOffset = 0)
    (hkind : first.kind.readsBackward = false) (last : Option Token) (later : List Token) :
    (outcomesAfter (a ++ [d] ++ b) last
        (⟨first.kind, first.keyword, Text.byteSize a, Text.byteSize (a ++ [d])⟩ ::
          later.map (shift (Text.byteSize (a ++ [d]))))).map Prod.snd =
      (outcomesAfter b none (first :: later)).map Prod.snd := by
  let opened : Token := ⟨first.kind, first.keyword, Text.byteSize a, Text.byteSize (a ++ [d])⟩
  have hstart : backwardStart (some opened) =
      Text.byteSize (a ++ [d]) + backwardStart (some first) := by
    simp [backwardStart, keywordEnd, opened, hfirst]
  have hwindow : opened.window (a ++ [d] ++ b) last
        (later.map (shift (Text.byteSize (a ++ [d])))).head? =
      d :: first.window b none later.head? := by
    have hslice := Text.slice_append_add (a ++ [d]) b 0 (forwardEnd b later.head?)
    rw [Nat.add_zero] at hslice
    have hopened : opened.kind.readsBackward = false := hkind
    rw [window_eq_forward hopened, window_eq_forward hkind, forward, forward, hmatch,
      List.head?_map, forwardEnd_shift,
      Text.slice_append_left _ _ _ (Nat.le_add_right _ _), hslice]
    rfl
  have hfirstOutcome : assemble (a ++ [d] ++ b) last opened
        (later.map (shift (Text.byteSize (a ++ [d])))).head? =
      assemble b none first later.head? := by
    have hpadded := ofWindow_padded (List.forall_mem_singleton.mpr hd) Text.AllBlank.nil first.kind
      (first.window b none later.head?)
    rw [List.append_nil, List.singleton_append] at hpadded
    rw [assemble, assemble, hwindow, hpadded]
  have hlater := map_snd_outcomesAfter_shift (a ++ [d]) b hstart later
  rw [outcomesAfter, outcomesAfter, List.map_cons, List.map_cons, hlater, hfirstOutcome]

end Assembly

/-- The descriptors of a line are made up from the outcomes of its tokens. -/
theorem compileLine_eq_filterMap (options : Options) (text : Text) :
    compileLine options text =
      ((Assembly.outcomes options.scanMode text).map Prod.snd).filterMap Outcome.descriptor? := by
  rw [List.filterMap_map]
  rfl

/-- Entities on one line are independent. Where delimiters are shared, a text that begins with a
keyword whose object is described behind it adds its own descriptors to those of any text in front
of it that ends with a delimiter. It changes none of those, whether or not attributes are missing
on either side. -/
theorem compileLine_append_delimiter (a b : Text) (d : Char) (hd : isDelimiter d = true)
    (first : Token) (hscan : (scan .boundaryPreserving b).head? = some first)
    (hfirst : first.keywordOffset = 0) (hduration : first.kind ≠ .duration)
    (hbackground : first.kind ≠ .background) :
    compileLine ⟨.boundaryPreserving⟩ (a ++ d :: b) =
      compileLine ⟨.boundaryPreserving⟩ (a ++ [d]) ++ compileLine ⟨.boundaryPreserving⟩ b := by
  obtain ⟨later, htokens⟩ := List.head?_eq_some_iff.mp hscan
  rw [scan_boundaryPreserving] at htokens
  obtain ⟨_, _, _, _, hmatch, _⟩ := Token.isolated_eq_cons htokens hfirst
  have hkind : first.kind.readsBackward = false := by
    cases hcase : first.kind <;> simp_all [Kind.readsBackward]
  have hstands : ∀ token ∈ Token.isolated (a ++ [d]), Token.StandsIn (a ++ [d]) token :=
    fun token htoken => Token.mem_isolated_iff.mp htoken
  have hnone : ∀ token, none = some token → Token.StandsIn (a ++ [d]) token := by simp
  let opened : Token :=
    ⟨first.kind, first.keyword, Text.byteSize a, Text.byteSize (a ++ [d])⟩
  have hopened : opened.matchOffset = Text.byteSize a := rfl
  obtain ⟨last, houtcomes⟩ := Assembly.outcomesAfter_append hd b hstands hnone hopened
    (later.map (Token.shift (Text.byteSize (a ++ [d]))))
  have hline : a ++ d :: b = a ++ [d] ++ b := by simp
  rw [compileLine_eq_filterMap, compileLine_eq_filterMap, compileLine_eq_filterMap,
    Assembly.outcomes, Assembly.outcomes, Assembly.outcomes, scan_boundaryPreserving,
    scan_boundaryPreserving, scan_boundaryPreserving,
    Token.isolated_append_delimiter hd htokens hfirst, hline, houtcomes, htokens, List.map_append,
    Assembly.map_snd_outcomesAfter_cons hd b hmatch hfirst hkind, List.filterMap_append]

/-- A background without a color stays missing in front of an image, whose address and place are
found behind the space. -/
theorem compileLine_append_delimiter_image :
    let a : Text := "5 seconds background".toList
    let b : Text := "image https://x.com/i.png left".toList
    isDelimiter ' ' = true ∧
    (∃ first, (scan .boundaryPreserving b).head? = some first ∧ first.keywordOffset = 0 ∧
      first.kind ≠ .duration ∧ first.kind ≠ .background) ∧
    compileLine ⟨.boundaryPreserving⟩ (a ++ ' ' :: b) =
      compileLine ⟨.boundaryPreserving⟩ (a ++ [' ']) ++ compileLine ⟨.boundaryPreserving⟩ b ∧
    (compileLine ⟨.boundaryPreserving⟩ (a ++ [' '])).map Descriptor.typeName =
      ["duration".toList] ∧
    (compileLine ⟨.boundaryPreserving⟩ b).map Descriptor.typeName = ["image".toList] := by
  intro a b
  let first : Token := ⟨.image, "image".toList, 0, 0⟩
  have hdelimiter : isDelimiter ' ' = true := by decide
  have hscan : (scan .boundaryPreserving b).head? = some first := by decide +kernel
  have hduration : first.kind ≠ .duration := by decide
  have hbackground : first.kind ≠ .background := by decide
  exact ⟨hdelimiter, ⟨first, hscan, rfl, hduration, hbackground⟩,
    compileLine_append_delimiter a b ' ' hdelimiter first hscan rfl hduration hbackground,
    by decide +kernel, by decide +kernel⟩

end Storyboard
