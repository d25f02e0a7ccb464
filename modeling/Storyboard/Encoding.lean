import Storyboard.Json
import Storyboard.Report

/-!
# Scene objects as JSON

A descriptor is written as an object with its type name first. Attributes that were not found have
no member, except that a model always has one for its library of materials. A panorama or image
has a member for its address or one for its caption, never both.
-/

namespace Storyboard

/-- A vector as the array of its components. -/
def Vector3.toJson (v : Vector3) : Json :=
  .array [.number v.x, .number v.y, .number v.z]

/-- A member for a text that may be absent. -/
def optionalMember (key : Text) (value : Option Text) : List (Text × Json) :=
  (value.map fun t => (key, Json.string t)).toList

/-- The member for what a panorama or image shows. -/
def Content.members : Option Content → List (Text × Json)
  | none => []
  | some (source address) => [("src".toList, .string address)]
  | some (caption text) => [("text".toList, .string text)]

namespace Pose

/-- The member for the position. -/
def positionMember (position : Vector3) : Text × Json :=
  ("position".toList, position.toJson)

/-- The member for the rotation. -/
def rotationMember (pose : Pose) : Text × Json :=
  ("rotation".toList, pose.rotation.toJson)

/-- The member for the scale. -/
def scaleMember (pose : Pose) : Text × Json :=
  ("scale".toList, pose.scale.toJson)

/-- The members of a pose as media have them. -/
def members (pose : Pose) : List (Text × Json) :=
  [positionMember pose.position, pose.scaleMember, pose.rotationMember]

end Pose

namespace Descriptor

/-- The members of a descriptor after its type name. -/
def members : Descriptor → List (Text × Json)
  | duration seconds => [("value".toList, .integer seconds)]
  | background color => [("color".toList, .string color)]
  | audio source position =>
    optionalMember "src".toList source ++ [Pose.positionMember position]
  | voiceover caption => optionalMember "text".toList caption
  | chart source pose =>
    optionalMember "src".toList source ++
      [Pose.positionMember pose.position, pose.rotationMember, pose.scaleMember]
  | panorama content => Content.members content
  | video source pose => optionalMember "src".toList source ++ pose.members
  | videosphere source => optionalMember "src".toList source
  | image content pose => Content.members content ++ pose.members
  | text caption pose => optionalMember "text".toList caption ++ pose.members
  | model source material extension pose =>
    optionalMember "src".toList source ++ [("mtl".toList, Json.stringOrNull material)] ++
      optionalMember "extension".toList extension ++ pose.members

/-- A descriptor as an object. -/
def toJson (descriptor : Descriptor) : Json :=
  .object (("type".toList, .string descriptor.typeName) :: descriptor.members)

end Descriptor

/-- The descriptors of all beats as an array of arrays. -/
def linesToJson (lines : List (List Descriptor)) : Json :=
  .array (lines.map fun line => .array (line.map Descriptor.toJson))

/-- A diagnostic as an object. -/
def Diagnostic.toJson (diagnostic : Diagnostic) : Json :=
  .object
    [("kind".toList, .string diagnostic.issue.name),
      ("location".toList,
        .object
          [("line".toList, .integer diagnostic.line.toNat),
            ("column".toList, .integer diagnostic.column.toNat)]),
      ("keyword".toList, .string diagnostic.keyword),
      ("message".toList, .string diagnostic.message)]

/-- A report as an object. -/
def Report.toJson (report : Report) : Json :=
  .object
    [("lines".toList, linesToJson report.lines),
      ("diagnostics".toList, .array (report.diagnostics.map Diagnostic.toJson))]

/-- A token as an object. -/
def Token.toJson (token : Token) : Json :=
  .object
    [("kind".toList, .string token.kind.name), ("keyword".toList, .string token.keyword),
      ("match_offset".toList, .integer token.matchOffset),
      ("keyword_offset".toList, .integer token.keywordOffset)]

/-- The tokens of the beats of a script, with the numbers of their lines. -/
def tokensToJson (mode : ScanMode) (script : Text) : Json :=
  .array <| (beats script).map fun line =>
    .object
      [("line".toList, .integer line.number),
        ("tokens".toList, .array ((scan mode line.text).map Token.toJson))]

end Storyboard
