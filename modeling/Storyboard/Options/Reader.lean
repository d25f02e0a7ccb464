import Storyboard.Json.Scalar
import Storyboard.Json.Skip
import Storyboard.Options

/-!
# Reading options

Options are a JSON object in which only the member `scanMode` counts; every other member is passed
over. An array of at most one element gives the scan mode by its place. A scan mode is its name,
or an object with the name as its one key and `null` as the value. The first fault that is met
while reading from left to right is reported.
-/

namespace Storyboard.Options

open Json

/-- The key of the scan mode. -/
def scanModeKey : Text := "scanMode".toList

/-- Reads the name of a scan mode. -/
def modeOfString (pieces : List Piece) (ending : Except Fault Unit) : Except Fault ScanMode :=
  match decode pieces ending with
  | .error fault => .error fault
  | .ok name =>
    match ScanMode.ofName? name with
    | some mode => .ok mode
    | none => .error .unsuitable

/-- Reads a colon. -/
def readColon : List Lexeme → Except Fault (List Lexeme)
  | [] => .error .unfinished
  | .colon :: rest => .ok rest
  | _ => .error .malformed

/-- Reads `null`. -/
def readNull : List Lexeme → Except Fault (List Lexeme)
  | [] => .error .unfinished
  | .word (.ok none) :: rest => .ok rest
  | lexeme :: _ => .error (refusal lexeme)

/-- Reads the bracket that closes an object. -/
def readCloseObject : List Lexeme → Except Fault (List Lexeme)
  | [] => .error .unfinished
  | .closeObject :: rest => .ok rest
  | _ => .error .malformed

/-- Reads the rest of an object whose one key is the name of a scan mode. -/
def readTagged : List Lexeme → Except Fault (ScanMode × List Lexeme)
  | [] => .error .unfinished
  | .string pieces ending :: rest => do
    let mode ← modeOfString pieces ending
    let rest ← readColon rest
    let rest ← readNull rest
    let rest ← readCloseObject rest
    return (mode, rest)
  | lexeme :: _ => .error (refusal lexeme)

/-- Reads a scan mode. -/
def readMode : List Lexeme → Except Fault (ScanMode × List Lexeme)
  | [] => .error .unfinished
  | .string pieces ending :: rest => (modeOfString pieces ending).map fun mode => (mode, rest)
  | .openObject :: rest => readTagged rest
  | _ => .error .malformed

/-- Reads one member of the options, given the scan mode that was found before. A second scan mode
is refused as soon as its key is read. -/
def readMember (found : Option ScanMode) :
    List Lexeme → Except Fault (Option ScanMode × List Lexeme)
  | [] => .error .unfinished
  | .string pieces ending :: rest => do
    let key ← decode pieces ending
    if key = scanModeKey then
      if found.isSome then .error .unsuitable
      else
        let rest ← readColon rest
        let (mode, rest) ← readMode rest
        return (some mode, rest)
    else
      let rest ← readColon rest
      let rest ← skipValue rest
      return (found, rest)
  | _ => .error .malformed

private theorem length_readColon {lexemes rest : List Lexeme}
    (h : readColon lexemes = .ok rest) : rest.length < lexemes.length := by
  unfold readColon at h
  split at h
  · simp at h
  · obtain rfl := Except.ok.inj h
    simp
  · simp at h

private theorem length_readNull {lexemes rest : List Lexeme} (h : readNull lexemes = .ok rest) :
    rest.length < lexemes.length := by
  unfold readNull at h
  split at h
  · simp at h
  · obtain rfl := Except.ok.inj h
    simp
  · simp at h

private theorem length_readCloseObject {lexemes rest : List Lexeme}
    (h : readCloseObject lexemes = .ok rest) : rest.length < lexemes.length := by
  unfold readCloseObject at h
  split at h
  · simp at h
  · obtain rfl := Except.ok.inj h
    simp
  · simp at h

/-- A step that succeeds goes on from a step that succeeded. -/
theorem eq_ok_of_bind {α β : Type} {x : Except Fault α} {f : α → Except Fault β} {b : β}
    (h : (x >>= f) = .ok b) : ∃ a, x = .ok a ∧ f a = .ok b := by
  cases x with
  | error fault => simp [bind, Except.bind] at h
  | ok a => exact ⟨a, rfl, h⟩

private theorem length_readTagged {lexemes rest : List Lexeme} {mode : ScanMode}
    (h : readTagged lexemes = .ok (mode, rest)) : rest.length < lexemes.length := by
  unfold readTagged at h
  split at h
  · simp at h
  · obtain ⟨_, _, h⟩ := eq_ok_of_bind h
    obtain ⟨_, h₁, h⟩ := eq_ok_of_bind h
    obtain ⟨_, h₂, h⟩ := eq_ok_of_bind h
    obtain ⟨_, h₃, h⟩ := eq_ok_of_bind h
    obtain ⟨_, rfl⟩ := Prod.mk.inj (Except.ok.inj h)
    have h₁ := length_readColon h₁
    have h₂ := length_readNull h₂
    have h₃ := length_readCloseObject h₃
    simp only [List.length_cons]
    omega
  · simp at h

private theorem length_readMode {lexemes rest : List Lexeme} {mode : ScanMode}
    (h : readMode lexemes = .ok (mode, rest)) : rest.length < lexemes.length := by
  unfold readMode at h
  split at h
  · simp at h
  · rename_i pieces ending later
    cases hm : modeOfString pieces ending with
    | error fault => simp [hm, Except.map] at h
    | ok m =>
      simp only [hm, Except.map, Except.ok.injEq, Prod.mk.injEq] at h
      obtain ⟨_, rfl⟩ := h
      simp
  · exact Nat.lt_succ_of_lt (length_readTagged h)
  · simp at h

/-- A member has at least one lexeme. -/
theorem length_readMember {found mode : Option ScanMode} {lexemes rest : List Lexeme}
    (h : readMember found lexemes = .ok (mode, rest)) : rest.length < lexemes.length := by
  unfold readMember at h
  split at h
  · simp at h
  · obtain ⟨key, _, h⟩ := eq_ok_of_bind h
    split at h
    · split at h
      · simp at h
      · obtain ⟨_, h₁, h⟩ := eq_ok_of_bind h
        obtain ⟨⟨_, _⟩, h₂, h⟩ := eq_ok_of_bind h
        obtain ⟨_, rfl⟩ := Prod.mk.inj (Except.ok.inj h)
        have h₁ := length_readColon h₁
        have h₂ := length_readMode h₂
        simp only [List.length_cons]
        omega
    · obtain ⟨_, h₁, h⟩ := eq_ok_of_bind h
      obtain ⟨_, h₂, h⟩ := eq_ok_of_bind h
      obtain ⟨_, rfl⟩ := Prod.mk.inj (Except.ok.inj h)
      have h₁ := length_readColon h₁
      have h₂ := length_skipValue h₂
      simp only [List.length_cons]
      omega
  · simp at h

/-- Reads one member or more, up to the closing bracket. -/
def readMembers (found : Option ScanMode) (lexemes : List Lexeme) :
    Except Fault (Option ScanMode × List Lexeme) :=
  match _h : readMember found lexemes with
  | .error fault => .error fault
  | .ok (_, []) => .error .unfinished
  | .ok (mode, .closeObject :: rest) => .ok (mode, rest)
  | .ok (mode, .comma :: rest) => readMembers mode rest
  | .ok _ => .error .malformed
termination_by lexemes.length
decreasing_by
  have hlen := length_readMember _h
  simp only [List.length_cons] at hlen
  omega

/-- Reads the rest of an object. -/
def readObject : List Lexeme → Except Fault (Option ScanMode × List Lexeme)
  | [] => .error .unfinished
  | .closeObject :: rest => .ok (none, rest)
  | lexemes => readMembers none lexemes

/-- Reads the rest of an array of at most one element. -/
def readArray : List Lexeme → Except Fault (Option ScanMode × List Lexeme)
  | [] => .error .unfinished
  | .closeArray :: rest => .ok (none, rest)
  | lexemes =>
    match readMode lexemes with
    | .error fault => .error fault
    | .ok (_, []) => .error .unfinished
    | .ok (mode, .closeArray :: rest) => .ok (some mode, rest)
    | .ok _ => .error .malformed

/-- Reads options, followed by nothing. -/
def readOptions : List Lexeme → Except Fault (Option ScanMode × List Lexeme)
  | [] => .error .unfinished
  | .openObject :: rest => readObject rest
  | .openArray :: rest => readArray rest
  | lexeme :: _ => .error (refusal lexeme)

/-- The options that a JSON text gives. -/
def ofJson (t : Text) : Except Fault Options :=
  match readOptions (lexemes t) with
  | .error fault => .error fault
  | .ok (found, []) => .ok ⟨found.getD .boundaryPreserving⟩
  | .ok (_, _ :: _) => .error .malformed

end Storyboard.Options
