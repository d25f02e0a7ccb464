import Storyboard.Proofs.Leftmost

/-!
# Where a word occurs

A text can be cut in two at each of its places, and a word occurs where what comes behind the cut
begins with it. Reading something at every occurrence, from left to right, and keeping what is
found first gives what is read at the leftmost occurrence where anything is.
-/

namespace Storyboard

/-- All ways to cut a text in two, from left to right. -/
def Text.splits : Text → List (Text × Text)
  | [] => [([], [])]
  | c :: rest => ([], c :: rest) :: (splits rest).map fun cut => (c :: cut.1, cut.2)

/-- What stands in front of a word and behind it, wherever the word occurs in any spelling with the
same case folding, from left to right. -/
def occurrences (word t : Text) : List (Text × Text) :=
  t.splits.filterMap fun cut =>
    if (cut.2.take word.length).map foldCase = word.map foldCase then
      some (cut.1, cut.2.drop word.length)
    else none

/-- A word at its place in a text, in any spelling with the same case folding. -/
structure Occurrence (word : Text) where
  before : Text
  spelled : Text
  after : Text
  fold_eq : spelled.map foldCase = word.map foldCase

namespace Occurrence

variable {word : Text}

/-- The text that holds the word. -/
def text (o : Occurrence word) : Text :=
  o.before ++ (o.spelled ++ o.after)

/-- Where the word begins. -/
def offset (o : Occurrence word) : Nat :=
  Text.byteSize o.before

/-- A spelling is as long as the word. -/
theorem length_spelled (o : Occurrence word) : o.spelled.length = word.length := by
  rw [← List.length_map foldCase, o.fold_eq, List.length_map]

end Occurrence

variable {α : Type}

/-- Reading what a partial function finds is reading wherever it finds something. -/
theorem findSome?_filterMap {β γ : Type} (find : β → Option γ) (read : γ → Option α) (l : List β) :
    (l.filterMap find).findSome? read = l.findSome? fun b => (find b).bind read := by
  induction l with
  | nil => rfl
  | cons b l ih =>
    rw [List.filterMap_cons, List.findSome?_cons]
    cases find b with
    | none => simpa using ih
    | some c => rw [List.findSome?_cons, ih, Option.bind_some]

/-- What is found first among the cuts of a text is found at the leftmost cut where anything is. -/
theorem Text.findSome?_splits_eq_some_iff {t : Text} {read : Text × Text → Option α} {v : α} :
    t.splits.findSome? read = some v ↔
      ∃ cut, IsLeftmost (fun cut => cut.1 ++ cut.2 = t ∧ (read cut).isSome = true)
        (fun cut => byteSize cut.1) cut ∧ read cut = some v := by
  induction t generalizing read with
  | nil =>
    rw [splits, List.findSome?_singleton]
    constructor
    · intro h
      exact ⟨([], []), ⟨⟨rfl, by rw [h]; rfl⟩, fun _ _ => Nat.zero_le _⟩, h⟩
    · rintro ⟨⟨front, back⟩, ⟨⟨hsplit, _⟩, _⟩, h⟩
      obtain ⟨rfl, rfl⟩ := List.append_eq_nil_iff.mp hsplit
      exact h
  | cons c rest ih =>
    rw [splits, List.findSome?_cons]
    cases hfound : read ([], c :: rest) with
    | some found =>
      constructor
      · intro h
        exact ⟨([], c :: rest), ⟨⟨rfl, by rw [hfound]; rfl⟩, fun _ _ => Nat.zero_le _⟩,
          hfound.trans h⟩
      · rintro ⟨⟨front, back⟩, ⟨⟨hsplit, _⟩, hfirst⟩, h⟩
        have hle := hfirst ([], c :: rest) ⟨rfl, by rw [hfound]; rfl⟩
        obtain rfl : front = [] := byteSize_eq_zero_iff.mp (Nat.le_zero.mp hle)
        obtain rfl : back = c :: rest := hsplit
        rw [← hfound, h]
    | none =>
      -- Nothing is found here, so the cuts behind the first character keep their order.
      rw [List.findSome?_map, ih]
      refine exists_isLeftmost_iff c.utf8Size ?_ ?_ <;> rintro ⟨front, back⟩ ⟨hsplit, hsome⟩
      · refine ⟨(c :: front, back), ⟨?_, hsome⟩, rfl, rfl⟩
        exact congrArg (c :: ·) hsplit
      · cases front with
        | nil =>
          obtain rfl : back = c :: rest := hsplit
          simp [hfound] at hsome
        | cons d front =>
          obtain ⟨rfl, htail⟩ := List.cons.inj hsplit
          exact ⟨(front, back), ⟨htail, hsome⟩, rfl, rfl⟩

/-- What is found first among the occurrences of a word is found at the leftmost one where anything
is. -/
theorem findSome?_occurrences_eq_some_iff {word t : Text} {read : Text × Text → Option α} {v : α} :
    (occurrences word t).findSome? read = some v ↔
      ∃ o : Occurrence word,
        IsLeftmost (fun o => o.text = t ∧ (read (o.before, o.after)).isSome = true)
          Occurrence.offset o ∧ read (o.before, o.after) = some v := by
  rw [occurrences, findSome?_filterMap, Text.findSome?_splits_eq_some_iff]
  refine exists_isLeftmost_iff 0 ?_ ?_
  · rintro ⟨front, back⟩ ⟨hsplit, hsome⟩
    by_cases hword : (back.take word.length).map foldCase = word.map foldCase
    · rw [if_pos hword] at hsome ⊢
      refine ⟨⟨front, back.take word.length, back.drop word.length, hword⟩, ⟨?_, hsome⟩, ?_, rfl⟩
      · rw [Occurrence.text, List.take_append_drop, hsplit]
      · exact (Nat.zero_add _).symm
    · rw [if_neg hword, Option.bind_none] at hsome
      simp at hsome
  · rintro o ⟨htext, hsome⟩
    have htake : (o.spelled ++ o.after).take word.length = o.spelled := by
      rw [← o.length_spelled, List.take_left]
    have hdrop : (o.spelled ++ o.after).drop word.length = o.after := by
      rw [← o.length_spelled, List.drop_left]
    refine ⟨(o.before, o.spelled ++ o.after), ⟨htext, ?_⟩, (Nat.zero_add _).symm, ?_⟩ <;>
      simp [htake, hdrop, o.fold_eq, hsome]

/-- Things that stand at the occurrences of a word where something is read have a leftmost one, and
what is read first belongs to it. -/
theorem exists_isLeftmost_iff_occurrences {β : Type} {word t : Text} {Q : β → Prop}
    {offset : β → Nat} {value : β → α} {read : Text × Text → Option α} {v : α} (shift : Nat)
    (hto : ∀ (o : Occurrence word) (w : α), o.text = t → read (o.before, o.after) = some w →
      ∃ b, Q b ∧ offset b = shift + o.offset ∧ value b = w)
    (hback : ∀ b, Q b → ∃ o : Occurrence word, o.text = t ∧ offset b = shift + o.offset ∧
      read (o.before, o.after) = some (value b)) :
    (∃ b, IsLeftmost Q offset b ∧ value b = v) ↔
      (occurrences word t).findSome? read = some v := by
  rw [findSome?_occurrences_eq_some_iff]
  refine Iff.trans (exists_congr fun b => and_congr_right fun _ => Option.some_inj.symm)
    (exists_isLeftmost_iff shift ?_ ?_).symm
  · rintro o ⟨htext, hsome⟩
    obtain ⟨w, hread⟩ := Option.isSome_iff_exists.mp hsome
    obtain ⟨b, hb, hoffset, hvalue⟩ := hto o w htext hread
    exact ⟨b, hb, hoffset, by rw [hvalue, hread]⟩
  · rintro b hb
    obtain ⟨o, htext, hoffset, hread⟩ := hback b hb
    exact ⟨o, ⟨htext, by rw [hread]; rfl⟩, hoffset, hread⟩

end Storyboard
