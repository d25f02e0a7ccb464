import Storyboard.Token

/-!
# Windows

The attributes of an object stand in the prose around its keyword, so each token gets a stretch of
its line that its neighbours bound. The backward window reaches from the end of the token before
to just past the keyword; the forward window reaches from the token to just past the opening
delimiter of the next one. A duration and a background are described before their keyword, all
other objects after it.
-/

namespace Storyboard

/-- Whether the attributes of a kind are written before its keyword. -/
def Kind.readsBackward : Kind → Bool
  | .duration | .background => true
  | _ => false

namespace Token

/-- Where the backward window begins. -/
def backwardStart (previous : Option Token) : Nat :=
  (previous.map keywordEnd).getD 0

/-- The window with what is written before the keyword. -/
def backward (line : Text) (previous : Option Token) (token : Token) : Text :=
  line.slice (backwardStart previous) (line.pastChar token.keywordEnd)

/-- Where the forward window ends. -/
def forwardEnd (line : Text) (next : Option Token) : Nat :=
  (next.map fun token => line.pastChar token.matchOffset).getD line.byteSize

/-- The window with what is written after the keyword. -/
def forward (line : Text) (token : Token) (next : Option Token) : Text :=
  line.slice token.matchOffset (forwardEnd line next)

/-- The backward window, if all offsets that bound it can be cut at. -/
def backward? (line : Text) (previous : Option Token) (token : Token) : Option Text :=
  (line.pastChar? token.keywordEnd).bind fun stop =>
    line.slice? (backwardStart previous) stop

/-- The forward window, if all offsets that bound it can be cut at. -/
def forward? (line : Text) (token : Token) (next : Option Token) : Option Text :=
  match next with
  | none => line.slice? token.matchOffset line.byteSize
  | some following =>
    (line.pastChar? following.matchOffset).bind fun stop => line.slice? token.matchOffset stop

/-- The window that the attributes of a token are read from. -/
def window (line : Text) (previous : Option Token) (token : Token) (next : Option Token) : Text :=
  if token.kind.readsBackward then backward line previous token else forward line token next

/-- The window of a token, if all offsets that bound it can be cut at. -/
def window? (line : Text) (previous : Option Token) (token : Token) (next : Option Token) :
    Option Text :=
  if token.kind.readsBackward then backward? line previous token else forward? line token next

/-- A checked window is the window. -/
theorem window_eq_of_window?_eq_some {line w : Text} {previous next : Option Token} {token : Token}
    (h : window? line previous token next = some w) : window line previous token next = w := by
  have hslice {a b : Nat} {v : Text} (h : line.slice? a b = some v) : line.slice a b = v := by
    unfold Text.slice? at h
    split at h
    · split at h
      · exact Option.some.inj h
      · simp at h
    · rw [Text.slice, if_neg ‹_›]
      exact Option.some.inj h
  have hpast {a b : Nat} (h : line.pastChar? a = some b) : line.pastChar a = b := by
    unfold Text.pastChar? at h
    split at h
    · exact Option.some.inj h
    · simp at h
  unfold window? at h
  unfold window
  split at h
  · rw [if_pos ‹_›]
    obtain ⟨stop, hs, hw⟩ := Option.bind_eq_some_iff.mp h
    rw [backward, hpast hs, hslice hw]
  · rw [if_neg ‹_›]
    cases next with
    | none => exact hslice h
    | some following =>
      obtain ⟨stop, hs, hw⟩ := Option.bind_eq_some_iff.mp h
      simp only [forward, forwardEnd, Option.map_some, Option.getD_some, hpast hs, hslice hw]

end Token

end Storyboard
