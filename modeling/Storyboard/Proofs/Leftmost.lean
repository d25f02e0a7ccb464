import Mathlib.Data.List.DropRight
import Mathlib.Data.List.TakeWhile
import Mathlib.Order.WellFounded
import Storyboard.Proofs.Offsets
import Storyboard.Proofs.Openings

/-!
# The match that a search finds

A search finds the match at the leftmost place where its pattern matches. There a run that is as
long as possible reads as many characters of its class as its bound allows, and the kept part of
the match is followed by what the rest of the pattern reads. What a pattern means is told by the
places where something of a certain form is mentioned; the search finds the leftmost of them.
-/

namespace Storyboard

/-- One of the things with a property, none of which lies further left. -/
def IsLeftmost {α : Type} (P : α → Prop) (offset : α → Nat) (a : α) : Prop :=
  P a ∧ ∀ b, P b → offset a ≤ offset b

/-- Where something has a property, something is the leftmost. -/
theorem exists_isLeftmost {α : Type} {P : α → Prop} (offset : α → Nat) {a : α} (ha : P a) :
    ∃ first, IsLeftmost P offset first := by
  obtain ⟨first, hfirst, hleast⟩ := (measure offset).wf.has_min {a | P a} ⟨a, ha⟩
  exact ⟨first, hfirst, fun b hb => Nat.le_of_not_lt (hleast b hb)⟩

/-- Things that correspond up to a shift to the right have corresponding leftmost ones. -/
theorem exists_isLeftmost_iff {α β γ : Type} {P : α → Prop} {Q : β → Prop} {left : α → Nat}
    {right : β → Nat} {value : α → γ} {shifted : β → γ} (shift : Nat)
    (hto : ∀ a, P a → ∃ b, Q b ∧ right b = shift + left a ∧ shifted b = value a)
    (hback : ∀ b, Q b → ∃ a, P a ∧ right b = shift + left a ∧ value a = shifted b) {v : γ} :
    (∃ a, IsLeftmost P left a ∧ value a = v) ↔ ∃ b, IsLeftmost Q right b ∧ shifted b = v := by
  constructor
  · rintro ⟨a, ⟨ha, hfirst⟩, rfl⟩
    obtain ⟨b, hb, hoffset, hvalue⟩ := hto a ha
    refine ⟨b, ⟨hb, fun other hother => ?_⟩, hvalue⟩
    obtain ⟨x, hx, hother, _⟩ := hback other hother
    have hle := hfirst x hx
    omega
  · rintro ⟨b, ⟨hb, hfirst⟩, rfl⟩
    obtain ⟨a, ha, hoffset, hvalue⟩ := hback b hb
    refine ⟨a, ⟨ha, fun other hother => ?_⟩, hvalue⟩
    obtain ⟨y, hy, hother, _⟩ := hto other hother
    have hle := hfirst y hy
    omega

/-- Behind the characters of a class at the start of a text stands another one. -/
theorem Text.eq_false_of_head?_dropWhile {p : Char → Bool} {t : Text} {c : Char}
    (h : (t.dropWhile p).head? = some c) : p c = false := by
  have hstop := List.head?_dropWhile_not p t
  rw [h] at hstop
  simpa using hstop

/-- In front of the characters of a class at the end of a text stands another one. -/
theorem Text.eq_false_of_getLast?_rdropWhile {p : Char → Bool} {t : Text} {c : Char}
    (h : (t.rdropWhile p).getLast? = some c) : p c = false := by
  rw [List.rdropWhile, List.getLast?_reverse] at h
  exact eq_false_of_head?_dropWhile h

/-- Where a class begins anew behind other characters, what is left at the end is all of it. -/
theorem Text.rtakeWhile_append_of_stop {p : Char → Bool} {before run : Text}
    (hrun : ∀ c ∈ run, p c = true) (hstop : ∀ c, before.getLast? = some c → p c = false) :
    (before ++ run).rtakeWhile p = run := by
  rw [List.rtakeWhile, List.reverse_append, takeWhile_append_of_stop
    (fun c hc => hrun c (List.mem_reverse.mp hc)) (by simpa [List.head?_reverse] using hstop),
    List.reverse_reverse]

/-- Where a class begins anew behind other characters, these are what stands in front of it. -/
theorem Text.rdropWhile_append_of_stop {p : Char → Bool} {before run : Text}
    (hrun : ∀ c ∈ run, p c = true) (hstop : ∀ c, before.getLast? = some c → p c = false) :
    (before ++ run).rdropWhile p = before := by
  have hsplit : (before ++ run).rdropWhile p ++ (before ++ run).rtakeWhile p = before ++ run :=
    List.rdropWhile_append_rtakeWhile
  rw [rtakeWhile_append_of_stop hrun hstop] at hsplit
  exact List.append_cancel_right hsplit

namespace Matcher

/-- The preferred end of a run is as far on as the class and the bound allow. -/
theorem head?_runOnto {p : Char → Bool} {least : Nat} {most : Option Nat} {found : List Text}
    {a rest : Text} (ha : ∀ c ∈ a, p c = true) (hleast : least ≤ a.length)
    (hmost : ∀ m, most = some m → a.length ≤ m)
    (hstop : most = some a.length ∨ ∀ c, rest.head? = some c → p c = false) :
    (runOnto p least most found (a ++ rest)).head? = some rest := by
  induction a generalizing least most found with
  | nil =>
    obtain rfl : least = 0 := by simpa using hleast
    cases rest with
    | nil => simp [runOnto]
    | cons c rest =>
      have hend : ¬(most ≠ some 0 ∧ p c = true) := by
        rintro ⟨hm, hc⟩
        rcases hstop with h0 | hc'
        · exact hm h0
        · simp [hc' c rfl] at hc
      rw [List.nil_append, runOnto, if_neg hend]
      simp
  | cons c a ih =>
    have hgo : most ≠ some 0 ∧ p c = true := by
      refine ⟨?_, ha c List.mem_cons_self⟩
      rintro rfl
      simpa using hmost 0 rfl
    rw [List.cons_append, runOnto, if_pos hgo]
    refine ih (fun d hd => ha d (List.mem_cons_of_mem c hd)) ?_ ?_ ?_
    · simp only [List.length_cons] at hleast
      omega
    · intro m hm
      obtain ⟨n, rfl, rfl⟩ := Option.map_eq_some_iff.mp hm
      have hn := hmost n rfl
      simp only [List.length_cons] at hn
      omega
    · rcases hstop with rfl | hrest
      · exact Or.inl (by simp)
      · exact Or.inr hrest

end Matcher

namespace Pattern

variable {pattern : Pattern}

/-- A search finds a match exactly if the pattern matches so at some place and at none before. -/
theorem find?_eq_some_iff {t : Text} {found : Match} :
    pattern.find? t = some found ↔
      ∃ before rest, t = before ++ rest ∧ pattern.matchAt rest = some found ∧
        ∀ front back, t = front ++ back → Text.byteSize front < Text.byteSize before →
          pattern.matchAt back = none := by
  induction t with
  | nil =>
    constructor
    · intro h
      exact ⟨[], [], rfl, h, by simp⟩
    · rintro ⟨before, rest, hsplit, h, _⟩
      obtain ⟨rfl, rfl⟩ := List.append_eq_nil_iff.mp hsplit.symm
      exact h
  | cons c t ih =>
    rw [find?]
    cases hmatch : pattern.matchAt (c :: t) with
    | some other =>
      constructor
      · intro h
        exact ⟨[], c :: t, rfl, hmatch.trans h, by simp⟩
      · rintro ⟨before, rest, hsplit, h, hfirst⟩
        cases before with
        | nil =>
          rw [List.nil_append] at hsplit
          rw [← h, ← hsplit, hmatch]
        | cons d before =>
          have hnone := hfirst [] (c :: t) rfl (Text.byteSize_pos (List.cons_ne_nil d before))
          simp [hmatch] at hnone
    | none =>
      -- Nothing matches here, so the place found in the rest moves on by one character.
      rw [ih]
      constructor
      · rintro ⟨before, rest, rfl, h, hfirst⟩
        refine ⟨c :: before, rest, rfl, h, fun front back hsplit hlt => ?_⟩
        cases front with
        | nil =>
          rw [List.nil_append] at hsplit
          rw [← hsplit, hmatch]
        | cons d front =>
          obtain ⟨rfl, htail⟩ := List.cons.inj hsplit
          exact hfirst front back htail (by simpa using hlt)
      · rintro ⟨before, rest, hsplit, h, hfirst⟩
        cases before with
        | nil =>
          rw [List.nil_append] at hsplit
          simp [← hsplit, hmatch] at h
        | cons d before =>
          obtain ⟨rfl, rfl⟩ := List.cons.inj hsplit
          exact ⟨before, rest, rfl, h, fun front back hsplit hlt =>
            hfirst (c :: front) back (by rw [hsplit]; rfl) (by simpa using hlt)⟩

/-- A search keeps the value of the leftmost mention. For this the pattern has to match where
something is mentioned, its leftmost match has to be a mention, and a mention is told by its
place. -/
theorem map_text_find?_eq_some_iff {α : Type} {text before value : α → Text}
    (hmention : ∀ front back found, pattern.matchAt back = some found →
      (∀ p q, front ++ back = p ++ q → Text.byteSize p < Text.byteSize front →
        pattern.matchAt q = none) →
      ∃ m, text m = front ++ back ∧ before m = front ∧ value m = found.text)
    (hmatch : ∀ m, ∃ rest, text m = before m ++ rest ∧ (pattern.matchAt rest).isSome = true)
    (hvalue : ∀ m other, text m = text other → before m = before other → value m = value other)
    {t v : Text} :
    (pattern.find? t).map Match.text = some v ↔
      ∃ m, IsLeftmost (fun m => text m = t) (fun m => Text.byteSize (before m)) m ∧
        value m = v := by
  have hfirst : ∀ found, pattern.find? t = some found →
      ∃ m, IsLeftmost (fun m => text m = t) (fun m => Text.byteSize (before m)) m ∧
        value m = found.text := by
    intro found hfound
    obtain ⟨front, back, rfl, hback, hnone⟩ := find?_eq_some_iff.mp hfound
    obtain ⟨m, htext, rfl, hm⟩ := hmention front back found hback hnone
    refine ⟨m, ⟨htext, fun other hother => Nat.le_of_not_lt fun hlt => ?_⟩, hm⟩
    obtain ⟨rest, hrest, hsome⟩ := hmatch other
    simp [hnone _ rest (hother.symm.trans hrest) hlt] at hsome
  rw [Option.map_eq_some_iff]
  constructor
  · rintro ⟨found, hfound, rfl⟩
    exact hfirst found hfound
  · rintro ⟨m, ⟨rfl, hleast⟩, rfl⟩
    obtain ⟨rest, hrest, hsome⟩ := hmatch m
    obtain ⟨found, hfound⟩ := Option.isSome_iff_exists.mp
      (occursIn_iff.mpr ⟨before m, rest, hrest, hsome⟩ : pattern.occursIn (text m) = true)
    obtain ⟨other, ⟨htext, hother⟩, hkept⟩ := hfirst found hfound
    have hoffset := Nat.le_antisymm (hleast other htext) (hother m rfl)
    obtain ⟨rest', hrest', _⟩ := hmatch other
    obtain ⟨hbefore, _⟩ := Text.append_inj_of_byteSize_eq
      (hrest.symm.trans (htext.symm.trans hrest')) hoffset
    exact ⟨found, hfound, hkept.symm.trans (hvalue m other htext.symm hbefore).symm⟩

/-- The kept part of a match stands between what is read in front of it and what follows it. -/
theorem exists_closed_of_matchAt (hbody : pattern.body.LeavesSuffix) {t : Text} {found : Match}
    (h : pattern.matchAt t = some found) :
    ∃ closed, found.text ++ closed ∈ pattern.lead t ∧
      closed ∈ pattern.body (found.text ++ closed) ∧ found.rest ∈ pattern.follow closed := by
  obtain ⟨opened, hopened, h⟩ := List.exists_of_findSome?_eq_some h
  obtain ⟨closed, hclosed, h⟩ := List.exists_of_findSome?_eq_some h
  obtain ⟨rest, hrest, rfl⟩ := Option.map_eq_some_iff.mp h
  obtain ⟨kept, rfl⟩ := hbody opened closed hclosed
  have hkept : (kept ++ closed).take ((kept ++ closed).length - closed.length) = kept := by
    rw [List.length_append, Nat.add_sub_cancel, List.take_left]
  exact ⟨closed, by rwa [hkept], by rwa [hkept], List.mem_of_mem_head? hrest⟩

/-- Where a pattern begins in one way only, its preferred match is that of its parts. -/
theorem matchAt_eq_some {t kept closed rest : Text} (hlead : pattern.lead t = [kept ++ closed])
    (hbody : (pattern.body (kept ++ closed)).head? = some closed)
    (hfollow : (pattern.follow closed).head? = some rest) :
    pattern.matchAt t = some ⟨kept, rest⟩ := by
  obtain ⟨others, hothers⟩ := List.head?_eq_some_iff.mp hbody
  have hkept : (kept ++ closed).take ((kept ++ closed).length - closed.length) = kept := by
    rw [List.length_append, Nat.add_sub_cancel, List.take_left]
  rw [matchAt, hlead, List.findSome?_cons, hothers, List.findSome?_cons, hfollow, Option.map_some,
    hkept]

end Pattern

end Storyboard
