import Storyboard.Prose.Placement
import Storyboard.Proofs.Leftmost

/-!
# Words that are found and looked up

The words for locations and sizes are found by a pattern, which compares case foldings, and then
looked up in lower case. The two agree on every spelling without a long s, which only the pattern
takes for an s: no word begins another one, so that the leftmost match is the spelling of one entry,
and its lower-case form is that entry's word. A spelling with a long s is found and not looked up,
so that the default stands in for it.
-/

namespace Storyboard

/-- Without a long s, case folding is lower-casing. -/
theorem foldCase_of_ne {c : Char} (h : c ≠ 'ſ') : foldCase c = lowerCase c := by
  rw [foldCase, if_neg h]

/-- The long s is its own lower-case form, and that of nothing else. -/
theorem lowerCase_eq_longS_iff {c : Char} : lowerCase c = 'ſ' ↔ c = 'ſ' := by
  have h := lowerCase_rec (P := fun c d => (d == 'ſ') == (c == 'ſ'))
    (fun c => beq_self_eq_true (c == 'ſ')) (by decide) c
  rw [← beq_iff_eq, beq_iff_eq.mp h, beq_iff_eq]

/-- Without a long s the case folding of a text is its lower-case form. -/
theorem Text.map_foldCase_of_notMem {t : Text} (h : 'ſ' ∉ t) : t.map foldCase = t.lowerCase :=
  List.map_congr_left fun _ hc => foldCase_of_ne fun heq => h (heq ▸ hc)

/-- A table of words that can be told apart while reading: its words are in lower case without a
long s, and none of them begins another one. -/
structure IsVocabulary {α : Type} (words : List (Text × α)) : Prop where
  lowerCase_eq : ∀ entry ∈ words, entry.1.lowerCase = entry.1
  no_longS : ∀ entry ∈ words, 'ſ' ∉ entry.1
  prefixFree : ∀ a ∈ words, ∀ b ∈ words, a.1.map foldCase <+: b.1.map foldCase → a = b

/-- The words for locations are a vocabulary. -/
theorem Location.isVocabulary_words : IsVocabulary Location.words where
  lowerCase_eq := by decide
  no_longS := by decide
  prefixFree := by decide +kernel

/-- The words for sizes are a vocabulary. -/
theorem Size.isVocabulary_words : IsVocabulary Size.words where
  lowerCase_eq := by decide
  no_longS := by decide
  prefixFree := by decide +kernel

/-- Every word of a table is looked up as what it names. -/
theorem IsVocabulary.lookup_eq {α : Type} {words : List (Text × α)} (h : IsVocabulary words)
    {entry : Text × α} (hentry : entry ∈ words) : words.lookup entry.1 = some entry.2 := by
  cases hlookup : words.lookup entry.1 with
  | none =>
    have hne := List.lookup_eq_none_iff.mp hlookup entry hentry
    simp at hne
  | some value =>
    obtain ⟨front, back, hwords, _⟩ := List.lookup_eq_some_iff.mp hlookup
    have hsame := h.prefixFree entry hentry (entry.1, value) (by simp [hwords])
      (List.prefix_refl _)
    rw [hsame]

namespace Prose

variable {α : Type} {words : List (Text × α)}

/-- Any word of a table, in any spelling with the same case folding. -/
def wordPattern (words : List (Text × α)) : Pattern where
  body := Matcher.oneOf (words.map fun entry => Matcher.spelled foldsTo entry.1)

/-- What the first word of a window names, or else the default. -/
def firstNamed (words : List (Text × α)) (default : α) (window : Text) : α :=
  (((wordPattern words).find? window).bind fun found =>
    words.lookup found.text.lowerCase).getD default

/-- A word of a table at its place in a text. -/
structure WordMention (words : List (Text × α)) where
  before : Text
  spelled : Text
  after : Text
  entry : Text × α
  mem_words : entry ∈ words
  fold_eq : spelled.map foldCase = entry.1.map foldCase

/-- A word is read off the front of a text. -/
theorem mem_word_iff {t r : Text} :
    r ∈ (wordPattern words).body t ↔
      ∃ entry ∈ words, ∃ spelled, t = spelled ++ r ∧
        spelled.map foldCase = entry.1.map foldCase := by
  simp only [wordPattern, Matcher.mem_oneOf, List.mem_map, exists_exists_and_eq_and,
    Matcher.mem_spelled_foldsTo_iff]

/-- What is left behind a word is the end of the text. -/
theorem leavesSuffix_word : (wordPattern words).body.LeavesSuffix := by
  intro t r hr
  obtain ⟨_, _, spelled, rfl, _⟩ := mem_word_iff.mp hr
  exact List.suffix_append _ _

namespace WordMention

/-- The text that holds the mention. -/
def text (m : WordMention words) : Text :=
  m.before ++ (m.spelled ++ m.after)

/-- Where the word begins. -/
def offset (m : WordMention words) : Nat :=
  Text.byteSize m.before

/-- The word of a mention is matched where it stands. -/
theorem isSome_matchAt (m : WordMention words) :
    ((wordPattern words).matchAt (m.spelled ++ m.after)).isSome = true :=
  Pattern.isSome_matchAt_iff.mpr ⟨_, List.mem_singleton_self _, m.after,
    mem_word_iff.mpr ⟨m.entry, m.mem_words, m.spelled, rfl, m.fold_eq⟩, List.cons_ne_nil _ _⟩

/-- Of two words at one place, the one with the shorter spelling begins the other one. -/
theorem entry_eq_of_isPrefix (h : IsVocabulary words) {m other : WordMention words}
    (hbegins : m.spelled <+: other.spelled) : m.entry = other.entry := by
  refine h.prefixFree _ m.mem_words _ other.mem_words ?_
  rw [← m.fold_eq, ← other.fold_eq]
  exact hbegins.map foldCase

/-- One word begins at one place. -/
theorem spelled_eq (h : IsVocabulary words) {m other : WordMention words}
    (htext : m.text = other.text) (hbefore : m.before = other.before) :
    m.spelled = other.spelled := by
  rw [text, text, hbefore] at htext
  have hrest := List.append_cancel_left htext
  have hentry : m.entry = other.entry := by
    rcases List.prefix_or_prefix_of_prefix (List.prefix_append m.spelled m.after)
      (hrest ▸ List.prefix_append other.spelled other.after) with hbegins | hbegins
    · exact entry_eq_of_isPrefix h hbegins
    · exact (entry_eq_of_isPrefix h hbegins).symm
  have hlength : m.spelled.length = other.spelled.length := by
    rw [← List.length_map foldCase, m.fold_eq, hentry, ← other.fold_eq, List.length_map]
  exact (List.append_inj hrest hlength).1

/-- The word of a mention is looked up exactly if it is spelled without a long s. -/
theorem lookup_lowerCase (h : IsVocabulary words) (m : WordMention words) :
    words.lookup m.spelled.lowerCase = if 'ſ' ∈ m.spelled then none else some m.entry.2 := by
  split
  next hlong =>
    rw [List.lookup_eq_none_iff]
    intro entry hentry
    have hmem : 'ſ' ∈ m.spelled.lowerCase :=
      List.mem_map.mpr ⟨'ſ', hlong, lowerCase_eq_longS_iff.mpr rfl⟩
    rw [bne_iff_ne]
    rintro heq
    exact h.no_longS entry hentry (heq ▸ hmem)
  next hshort =>
    have hword : m.spelled.lowerCase = m.entry.1 := by
      rw [← Text.map_foldCase_of_notMem hshort, m.fold_eq,
        Text.map_foldCase_of_notMem (h.no_longS _ m.mem_words), h.lowerCase_eq _ m.mem_words]
    rw [hword, h.lookup_eq m.mem_words]

end WordMention

/-- A match is a mention. -/
theorem exists_wordMention_of_matchAt {front back : Text} {found : Match}
    (h : (wordPattern words).matchAt back = some found) :
    ∃ m : WordMention words, m.text = front ++ back ∧ m.before = front ∧
      m.spelled = found.text := by
  obtain ⟨closed, hlead, hbody, hfollow⟩ := Pattern.exists_closed_of_matchAt leavesSuffix_word h
  obtain rfl := List.mem_singleton.mp hlead
  obtain ⟨entry, hentry, spelled, hsplit, hfold⟩ := mem_word_iff.mp hbody
  obtain rfl := List.append_cancel_right hsplit
  exact ⟨⟨front, found.text, closed, entry, hentry, hfold⟩, rfl, rfl, rfl⟩

/-- A search for words finds the leftmost mention. -/
theorem map_text_find?_wordPattern (h : IsVocabulary words) {t spelled : Text} :
    ((wordPattern words).find? t).map Match.text = some spelled ↔
      ∃ m : WordMention words, IsLeftmost (fun m => m.text = t) WordMention.offset m ∧
        m.spelled = spelled :=
  Pattern.map_text_find?_eq_some_iff (fun _ _ _ hmatch _ => exists_wordMention_of_matchAt hmatch)
    (fun m => ⟨_, rfl, m.isSome_matchAt⟩) fun _ _ => WordMention.spelled_eq h

/-- The default is named where there is no word; what the first word names is looked up, unless it
is spelled with a long s. -/
theorem firstNamed_eq (h : IsVocabulary words) (default : α) (window : Text) :
    ((wordPattern words).find? window = none → firstNamed words default window = default) ∧
    ∀ found, (wordPattern words).find? window = some found →
      ∃ m : WordMention words, IsLeftmost (fun m => m.text = window) WordMention.offset m ∧
        m.spelled = found.text ∧
        words.lookup found.text.lowerCase = (if 'ſ' ∈ found.text then none else some m.entry.2) ∧
        firstNamed words default window = if 'ſ' ∈ found.text then default else m.entry.2 := by
  refine ⟨fun hnone => by rw [firstNamed, hnone]; rfl, fun found hfound => ?_⟩
  obtain ⟨m, hfirst, hspelled⟩ :=
    (map_text_find?_wordPattern h).mp (by rw [hfound, Option.map_some])
  have hlookup := m.lookup_lowerCase h
  rw [hspelled] at hlookup
  refine ⟨m, hfirst, hspelled, hlookup, ?_⟩
  rw [firstNamed, hfound, Option.bind_some, hlookup]
  split <;> rfl

/-- The location and the size of a window are those that its leftmost location word and its
leftmost size word name, and the defaults where no such word is found. A word that is spelled with
a long s is found as well, but names nothing, and the default stands in for it. -/
theorem placement_words_are_looked_up (window : Text) :
    ((locationPattern.find? window = none → location window = .front) ∧
      ∀ found, locationPattern.find? window = some found →
        ∃ m : WordMention Location.words,
          IsLeftmost (fun m => m.text = window) WordMention.offset m ∧ m.spelled = found.text ∧
          Location.ofWord? found.text = (if 'ſ' ∈ found.text then none else some m.entry.2) ∧
          location window = if 'ſ' ∈ found.text then .front else m.entry.2) ∧
    ((sizePattern.find? window = none → size window = .normal) ∧
      ∀ found, sizePattern.find? window = some found →
        ∃ m : WordMention Size.words,
          IsLeftmost (fun m => m.text = window) WordMention.offset m ∧ m.spelled = found.text ∧
          Size.ofWord? found.text = (if 'ſ' ∈ found.text then none else some m.entry.2) ∧
          size window = if 'ſ' ∈ found.text then .normal else m.entry.2) :=
  ⟨firstNamed_eq Location.isVocabulary_words .front window,
    firstNamed_eq Size.isVocabulary_words .normal window⟩

/-- A location word that is found is not always looked up. -/
theorem not_every_location_word_is_looked_up :
    ¬∀ (window : Text) (found : Match), locationPattern.find? window = some found →
      ∃ place, Location.ofWord? found.text = some place ∧ location window = place := by
  intro h
  have hfound : locationPattern.find? "atráſ left".toList =
      some ⟨"atráſ".toList, " left".toList⟩ := by rfl
  obtain ⟨place, hplace, _⟩ := h _ _ hfound
  have hnone : Location.ofWord? "atráſ".toList = none := by decide
  exact Option.some_ne_none place (hplace.symm.trans hnone)

end Prose

end Storyboard
