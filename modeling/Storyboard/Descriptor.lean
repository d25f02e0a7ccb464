import Storyboard.Placement

/-!
# Descriptors

A descriptor is a scene object with the attributes found for it. An attribute that was not found
is absent.
-/

namespace Storyboard

/-- What a panorama or image shows: the media at an address, or a caption in their place. -/
inductive Content
  | source (address : Text)
  | caption (text : Text)

namespace Content

/-- An address if there is one, otherwise a caption. -/
def ofParts (address caption : Option Text) : Option Content :=
  match address with
  | some address => some (source address)
  | none => caption.map Content.caption

/-- The address of the media. -/
def source? : Content → Option Text
  | source address => some address
  | caption _ => none

/-- The caption shown in place of media. -/
def caption? : Content → Option Text
  | source _ => none
  | caption text => some text

end Content

/-- A scene object. -/
inductive Descriptor
  /-- How long the beat lasts, in seconds. -/
  | duration (seconds : Nat)
  | background (color : Text)
  | audio (source : Option Text) (position : Vector3)
  | voiceover (caption : Option Text)
  | chart (source : Option Text) (pose : Pose)
  | panorama (content : Option Content)
  | video (source : Option Text) (pose : Pose)
  | videosphere (source : Option Text)
  | image (content : Option Content) (pose : Pose)
  | text (caption : Option Text) (pose : Pose)
  /-- A model, its library of materials and the extension of its file name. -/
  | model (source material extension : Option Text) (pose : Pose)

namespace Descriptor

/-- The type name that a descriptor is written with. -/
def typeName : Descriptor → Text
  | duration .. => "duration".toList
  | background .. => "background".toList
  | audio .. => "audio".toList
  | voiceover .. => "voiceover".toList
  | chart .. => "chart".toList
  | panorama .. => "panorama".toList
  | video .. => "video".toList
  | videosphere .. => "videosphere".toList
  | image .. => "image".toList
  | text .. => "text".toList
  | model .. => "model".toList

/-- Where the object stands, for the types that are placed in the scene. -/
def position? : Descriptor → Option Vector3
  | audio _ position => some position
  | chart _ pose | video _ pose | image _ pose | text _ pose | model _ _ _ pose =>
    some pose.position
  | duration _ | background _ | voiceover _ | panorama _ | videosphere _ => none

/-- What a panorama or image shows. -/
def content? : Descriptor → Option Content
  | panorama content | image content _ => content
  | _ => none

/-- The address of the media that the object shows or plays. -/
def source? : Descriptor → Option Text
  | audio source _ | chart source _ | video source _ | videosphere source => source
  | model source _ _ _ => source
  | panorama content | image content _ => content.bind Content.source?
  | duration _ | background _ | voiceover _ | text _ _ => none

end Descriptor

end Storyboard
