import Storyboard.Text.Blank
import Storyboard.Text.Letter

/-!
# Keywords

The words and signs that name the objects of a scene, in English and Spanish. A keyword ends at
the end of the line or before a delimiter. Where several keywords begin at one place, the first
one in the order of the table that ends there counts, so that "video esfera" comes before "video".
-/

namespace Storyboard

/-- The kinds of scene objects that keywords name. -/
inductive Kind
  | audio
  | panorama
  | image
  | text
  | videosphere
  | video
  | duration
  | voiceover
  | chart
  | background
  /-- The Spanish background, which takes its color from after the keyword. -/
  | fondo
  | model
  deriving DecidableEq

/-- The name of a kind in lower case. -/
def Kind.name : Kind → Text
  | audio => "audio".toList
  | panorama => "panorama".toList
  | image => "image".toList
  | text => "text".toList
  | videosphere => "videosphere".toList
  | video => "video".toList
  | duration => "duration".toList
  | voiceover => "voiceover".toList
  | chart => "chart".toList
  | background => "background".toList
  | fondo => "fondo".toList
  | model => "model".toList

/-- All keywords, in the order in which they are tried. -/
def keywords : List (Text × Kind) :=
  [("audio".toList, .audio), ("sound".toList, .audio), ("🔊".toList, .audio),
    ("panorama".toList, .panorama), ("🌅".toList, .panorama), ("image".toList, .image),
    ("foto".toList, .image), ("picture".toList, .image), ("text".toList, .text),
    ("texto".toList, .text), ("📝".toList, .text), ("videosphere".toList, .videosphere),
    ("video esfera".toList, .videosphere), ("🎥".toList, .videosphere), ("video".toList, .video),
    ("seconds".toList, .duration), ("second".toList, .duration), ("segundos".toList, .duration),
    ("⏲".toList, .duration), ("voiceover".toList, .voiceover), ("voz en off".toList, .voiceover),
    ("📢".toList, .voiceover), ("chart".toList, .chart), ("gráfico".toList, .chart),
    ("📊".toList, .chart), ("background".toList, .background), ("fondo".toList, .fondo),
    ("model".toList, .model), ("modelo".toList, .model)]

/-- The beginning of a text that spells a word in either case, and what follows it. -/
def spelling? : Text → Text → Option (Text × Text)
  | [], t => some ([], t)
  | _ :: _, [] => none
  | expected :: word, c :: rest =>
    if sameLetter expected c then
      (spelling? word rest).map fun (spelled, after) => (c :: spelled, after)
    else none

/-- Whether a keyword may end before this text. -/
def endsKeyword : Text → Bool
  | [] => true
  | c :: _ => isDelimiter c

/-- The keyword that a text begins with, as it is written there. -/
def keywordAt? (t : Text) : Option (Kind × Text) :=
  keywords.findSome? fun (word, kind) =>
    match spelling? word t with
    | some (spelled, after) => if endsKeyword after then some (kind, spelled) else none
    | none => none

/-- A spelling is the beginning of the text, and as long as the word. -/
theorem spelling?_eq_some {word t spelled after : Text}
    (h : spelling? word t = some (spelled, after)) :
    t = spelled ++ after ∧ spelled.length = word.length := by
  induction word generalizing t spelled after with
  | nil =>
    obtain ⟨rfl, rfl⟩ : [] = spelled ∧ t = after := by simpa [spelling?] using h
    simp
  | cons expected word ih =>
    cases t with
    | nil => simp [spelling?] at h
    | cons c rest =>
      rw [spelling?] at h
      split at h
      · obtain ⟨⟨s, a⟩, hs, he⟩ := Option.map_eq_some_iff.mp h
        obtain ⟨rfl, rfl⟩ : c :: s = spelled ∧ a = after := by simpa using he
        obtain ⟨rfl, hlen⟩ := ih hs
        simp [hlen]
      · simp at h

end Storyboard
