import Storyboard.Report
import Storyboard.Proofs.Durations

/-!
# What becomes of a unit of time

A token of a duration becomes a duration descriptor or is dropped as a missing duration, and no
other token becomes either. The seconds come from the backward window alone, so they do not depend
on the token that follows.
-/

namespace Storyboard

/-- The seconds of a duration. -/
def Descriptor.seconds? : Descriptor → Option Nat
  | duration seconds => some seconds
  | _ => none

namespace Outcome

/-- An object that is made in any case is there. -/
@[simp] theorem descriptor?_ofFound {α : Type} (found : Option α) (issue : Issue)
    (descriptor : Descriptor) : (ofFound found issue descriptor).descriptor? = some descriptor := by
  rw [ofFound]
  split <;> rfl

/-- An object that is made in any case has an issue exactly if nothing was found for it. -/
@[simp] theorem issue?_ofFound {α : Type} (found : Option α) (issue : Issue)
    (descriptor : Descriptor) :
    (ofFound found issue descriptor).issue? = if found.isSome then none else some issue := by
  rw [ofFound]
  split <;> rfl

end Outcome

namespace Assembly

open Prose

/-- The seconds that a token stands for between its neighbours. -/
def secondsOf (line : Text) (previous : Option Token) (token : Token) : Option Nat :=
  if token.kind = .duration then duration? (token.backward line previous) else none

/-- What becomes of a token of a duration. -/
theorem assemble_duration {line : Text} {previous next : Option Token} {token : Token}
    (h : token.kind = .duration) :
    assemble line previous token next =
      match duration? (token.backward line previous) with
      | some seconds => .complete (.duration seconds)
      | none => .dropped .missingDuration := by
  have hwindow : token.window line previous next = token.backward line previous := by
    rw [Token.window, h]
    rfl
  rw [assemble, hwindow, h]
  rfl

/-- Only units of time are told about in seconds, be it found or missing. -/
theorem ofWindow_of_ne_duration {kind : Kind} (h : kind ≠ .duration) (window : Text) :
    (ofWindow kind window).descriptor?.bind Descriptor.seconds? = none ∧
      (ofWindow kind window).issue? ≠ some .missingDuration := by
  have hbackground (color : Option Text) :
      (background color).descriptor?.bind Descriptor.seconds? = none ∧
        (background color).issue? ≠ some .missingDuration := by
    cases color <;> simp [background, Outcome.descriptor?, Outcome.issue?, Descriptor.seconds?]
  have hfound {α : Type} (found : Option α) {issue : Issue} {descriptor : Descriptor}
      (hissue : issue ≠ .missingDuration) (hseconds : descriptor.seconds? = none) :
      (Outcome.ofFound found issue descriptor).descriptor?.bind Descriptor.seconds? = none ∧
        (Outcome.ofFound found issue descriptor).issue? ≠ some .missingDuration := by
    rw [Outcome.descriptor?_ofFound, Outcome.issue?_ofFound]
    refine ⟨hseconds, ?_⟩
    split <;> simp [hissue]
  cases kind with
  | duration => exact absurd rfl h
  | background => exact hbackground _
  | fondo => exact hbackground _
  | model =>
    rw [ofWindow, model]
    split
    · simp [Outcome.descriptor?, Outcome.issue?, Descriptor.seconds?]
    · exact hfound _ (by decide) rfl
  | audio | voiceover | chart | panorama | video | videosphere | image | text =>
    exact hfound _ (by decide) rfl

/-- The seconds in the descriptor of a token. -/
theorem seconds?_assemble (line : Text) (previous : Option Token) (token : Token)
    (next : Option Token) :
    (assemble line previous token next).descriptor?.bind Descriptor.seconds? =
      secondsOf line previous token := by
  rw [secondsOf]
  split
  next h =>
    rw [assemble_duration h]
    cases duration? (token.backward line previous) <;> rfl
  next h => exact (ofWindow_of_ne_duration h _).1

/-- A unit of time is either measured or reported as missing its number, and nothing else is. -/
theorem kind_eq_duration_iff (line : Text) (previous : Option Token) (token : Token)
    (next : Option Token) :
    token.kind = .duration ↔
      (∃ seconds, (assemble line previous token next).descriptor? = some (.duration seconds)) ∨
        (assemble line previous token next).issue? = some .missingDuration := by
  constructor
  · intro h
    rw [assemble_duration h]
    cases duration? (token.backward line previous) with
    | some seconds => exact Or.inl ⟨seconds, rfl⟩
    | none => exact Or.inr rfl
  · intro h
    by_cases hkind : token.kind = .duration
    · exact hkind
    · obtain ⟨hseconds, hissue⟩ :=
        ofWindow_of_ne_duration hkind (token.window line previous next)
      rcases h with ⟨seconds, h⟩ | h
      · rw [assemble] at h
        simp [h, Descriptor.seconds?] at hseconds
      · exact absurd h hissue

/-- Every outcome in a line is that of its token between some neighbours. -/
theorem exists_assemble_of_mem {line : Text} {previous : Option Token} {tokens : List Token}
    {entry : Token × Outcome} (h : entry ∈ outcomesAfter line previous tokens) :
    ∃ before next, entry.2 = assemble line before entry.1 next := by
  induction tokens generalizing previous with
  | nil => simp [outcomesAfter] at h
  | cons token later ih =>
    rcases List.mem_cons.mp h with rfl | h
    · exact ⟨_, _, rfl⟩
    · exact ih h

/-- Every token of a line has an outcome. -/
theorem exists_mem_outcomes {mode : ScanMode} {line : Text} {token : Token}
    (h : token ∈ scan mode line) : ∃ outcome, (token, outcome) ∈ outcomes mode line := by
  rw [← map_fst_outcomesAfter line none (scan mode line)] at h
  obtain ⟨⟨_, outcome⟩, hmem, rfl⟩ := List.mem_map.mp h
  exact ⟨outcome, hmem⟩

end Assembly

end Storyboard
