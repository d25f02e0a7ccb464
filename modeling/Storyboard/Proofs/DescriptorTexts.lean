import Storyboard.Encoding
import Storyboard.Proofs.JsonTexts

/-!
# Descriptors are told apart by their texts

The object of a descriptor begins with its type name. The other members are for the attributes of
its type, always in the same order, and an attribute without a value has none. No two descriptors
have the same object, so that lists of descriptors with finite vectors can be told from what is
written for them.
-/

namespace Storyboard

/-! ## Attributes that may have no value -/

/-- The members for the attributes that have a value. -/
def present (attributes : List (Text × Option Json)) : List (Text × Json) :=
  attributes.filterMap fun a => a.2.map fun value => (a.1, value)

/-- The keys of the members are those of some attributes, in their order. -/
theorem keys_present_sublist (attributes : List (Text × Option Json)) :
    ((present attributes).map Prod.fst).Sublist (attributes.map Prod.fst) := by
  induction attributes with
  | nil => exact .slnil
  | cons a later ih =>
    obtain ⟨key, value⟩ := a
    cases value with
    | none => exact ih.cons key
    | some v => exact ih.cons_cons key

/-- A key finds the value of its attribute. -/
theorem lookup_present {attributes : List (Text × Option Json)}
    (hnodup : (attributes.map Prod.fst).Nodup) (key : Text) :
    (present attributes).lookup key = (attributes.lookup key).join := by
  induction attributes with
  | nil => rfl
  | cons a later ih =>
    obtain ⟨first, value⟩ := a
    obtain ⟨hfirst, hlater⟩ := List.nodup_cons.mp hnodup
    by_cases heq : key = first
    · subst heq
      cases value with
      | none =>
        have hmissing : ∀ m ∈ present later, key ≠ m.1 := by
          rintro m hm rfl
          have hkey : m.1 ∈ (present later).map Prod.fst := List.mem_map_of_mem hm
          exact hfirst ((keys_present_sublist later).mem hkey)
        have hnone : (present later).lookup key = none :=
          List.lookup_eq_none_iff.mpr fun m hm => by simpa using hmissing m hm
        simpa [present] using hnone
      | some v => simp [present]
    · rw [List.lookup_cons, beq_false_of_ne heq, ← ih hlater]
      cases value with
      | none => rfl
      | some v => simp [present, List.lookup_cons, beq_false_of_ne heq]

/-! ## The attributes of a descriptor -/

/-- A vector is told by its array. -/
theorem Vector3.toJson_inj {v w : Vector3} (h : v.toJson = w.toJson) : v = w := by
  cases v
  cases w
  simpa [toJson] using h

/-- A text that may be absent is told by its string or `null`. -/
theorem Json.stringOrNull_inj {t u : Option Text} (h : stringOrNull t = stringOrNull u) :
    t = u := by
  match t, u with
  | none, none => rfl
  | none, some u | some t, none => simp [stringOrNull] at h
  | some t, some u => simpa [stringOrNull] using h

/-- A text that may be absent is told by its string, if there is one. -/
theorem map_string_inj {t u : Option Text} (h : t.map Json.string = u.map Json.string) : t = u :=
  Option.map_injective (fun _ _ => Json.string.inj) h

/-- Addresses and captions tell apart what is shown. -/
theorem Content.eq_of_parts {content other : Option Content}
    (hsource : content.bind Content.source? = other.bind Content.source?)
    (hcaption : content.bind Content.caption? = other.bind Content.caption?) : content = other := by
  match content, other with
  | none, none => rfl
  | none, some (.source _) | some (.source _), none | some (.source _), some (.caption _) =>
    simp [Content.source?] at hsource
  | none, some (.caption _) | some (.caption _), none | some (.caption _), some (.source _) =>
    simp [Content.caption?] at hcaption
  | some (.source _), some (.source _) => simpa [Content.source?] using hsource
  | some (.caption _), some (.caption _) => simpa [Content.caption?] using hcaption

namespace Pose

/-- Poses with the same vectors in JSON are the same. -/
theorem eq_of_toJson_eq {pose other : Pose}
    (hposition : some pose.position.toJson = some other.position.toJson)
    (hrotation : some pose.rotation.toJson = some other.rotation.toJson)
    (hscale : some pose.scale.toJson = some other.scale.toJson) : pose = other := by
  have hposition := Vector3.toJson_inj (Option.some.inj hposition)
  have hrotation := Vector3.toJson_inj (Option.some.inj hrotation)
  have hscale := Vector3.toJson_inj (Option.some.inj hscale)
  cases pose
  cases other
  simp_all

/-- The attributes of a pose as media have them. -/
def attributes (pose : Pose) : List (Text × Option Json) :=
  [("position".toList, some pose.position.toJson), ("scale".toList, some pose.scale.toJson),
    ("rotation".toList, some pose.rotation.toJson)]

end Pose

namespace Descriptor

/-- The caption of a voice-over or a text, or the one that is shown in place of media. -/
def caption? : Descriptor → Option Text
  | voiceover caption | text caption _ => caption
  | panorama content | image content _ => content.bind Content.caption?
  | _ => none

/-- The extension of the file name of a model. -/
def extension? : Descriptor → Option Text
  | model _ _ extension _ => extension
  | _ => none

/-- Whether there is a library of materials for a model, and which. -/
def library? : Descriptor → Option (Option Text)
  | model _ material _ _ => some material
  | _ => none

/-- The attributes of a descriptor, with their values. -/
def attributes : Descriptor → List (Text × Option Json)
  | duration seconds => [("value".toList, some (.integer seconds))]
  | background color => [("color".toList, some (.string color))]
  | audio source position =>
    [("src".toList, source.map .string), ("position".toList, some position.toJson)]
  | voiceover caption => [("text".toList, caption.map .string)]
  | chart source pose =>
    [("src".toList, source.map .string), ("position".toList, some pose.position.toJson),
      ("rotation".toList, some pose.rotation.toJson), ("scale".toList, some pose.scale.toJson)]
  | panorama content =>
    [("src".toList, (content.bind Content.source?).map .string),
      ("text".toList, (content.bind Content.caption?).map .string)]
  | video source pose => ("src".toList, source.map .string) :: pose.attributes
  | videosphere source => [("src".toList, source.map .string)]
  | image content pose =>
    ("src".toList, (content.bind Content.source?).map .string) ::
      ("text".toList, (content.bind Content.caption?).map .string) :: pose.attributes
  | text caption pose => ("text".toList, caption.map .string) :: pose.attributes
  | model source material extension pose =>
    ("src".toList, source.map .string) :: ("mtl".toList, some (Json.stringOrNull material)) ::
      ("extension".toList, extension.map .string) :: pose.attributes

/-- No two attributes of a descriptor have the same key, and none has that of the type. -/
theorem nodup_keys (d : Descriptor) : ("type".toList :: d.attributes.map Prod.fst).Nodup := by
  cases d <;> exact of_decide_eq_true rfl

/-- The members after the type name are for the attributes that have a value. -/
theorem members_eq_present (d : Descriptor) : d.members = present d.attributes := by
  cases d with
  | duration seconds | background color => rfl
  | audio source _ | chart source _ | video source _ | videosphere source => cases source <;> rfl
  | voiceover caption | text caption _ => cases caption <;> rfl
  | panorama content | image content _ =>
    match content with
    | none | some (.source _) | some (.caption _) => rfl
  | model source material extension _ => cases source <;> cases extension <;> rfl

/-- A key finds the value of its attribute in the members after the type name. -/
theorem lookup_members (d : Descriptor) (key : Text) :
    d.members.lookup key = (d.attributes.lookup key).join := by
  rw [members_eq_present]
  exact lookup_present (List.nodup_cons.mp d.nodup_keys).2 key

/-- Descriptors with the same object are the same. -/
theorem toJson_inj {d e : Descriptor} (h : d.toJson = e.toJson) : d = e := by
  obtain ⟨htype, hmembers⟩ := List.cons.inj (Json.object.inj h)
  have hname : d.typeName = e.typeName := Json.string.inj (Prod.mk.inj htype).2
  have hlookup : ∀ key, (d.attributes.lookup key).join = (e.attributes.lookup key).join := by
    intro key
    rw [← lookup_members, ← lookup_members, hmembers]
  cases d <;> cases e
  case duration.duration =>
    exact congrArg duration (Json.integer.inj (Option.some.inj (hlookup "value".toList)))
  case background.background =>
    exact congrArg background (Json.string.inj (Option.some.inj (hlookup "color".toList)))
  case voiceover.voiceover =>
    exact congrArg voiceover (map_string_inj (hlookup "text".toList))
  case videosphere.videosphere =>
    exact congrArg videosphere (map_string_inj (hlookup "src".toList))
  case panorama.panorama =>
    exact congrArg panorama (Content.eq_of_parts (map_string_inj (hlookup "src".toList))
      (map_string_inj (hlookup "text".toList)))
  case audio.audio =>
    exact congrArg₂ audio (map_string_inj (hlookup "src".toList))
      (Vector3.toJson_inj (Option.some.inj (hlookup "position".toList)))
  case' chart.chart | video.video | text.text | image.image | model.model =>
    have hpose := Pose.eq_of_toJson_eq (hlookup "position".toList) (hlookup "rotation".toList)
      (hlookup "scale".toList)
  case chart.chart => exact congrArg₂ chart (map_string_inj (hlookup "src".toList)) hpose
  case video.video => exact congrArg₂ video (map_string_inj (hlookup "src".toList)) hpose
  case text.text => exact congrArg₂ text (map_string_inj (hlookup "text".toList)) hpose
  case image.image =>
    exact congrArg₂ image (Content.eq_of_parts (map_string_inj (hlookup "src".toList))
      (map_string_inj (hlookup "text".toList))) hpose
  case model.model =>
    have hmaterial := Json.stringOrNull_inj (Option.some.inj (hlookup "mtl".toList))
    have hsource := map_string_inj (hlookup "src".toList)
    have hextension := map_string_inj (hlookup "extension".toList)
    rw [hsource, hmaterial, hextension, hpose]
  -- What is left are the pairs of different types, whose type names differ.
  all_goals
    unfold typeName at hname
    simp at hname

/-- What the object of a descriptor holds: every key once, first the type name, and members for the
attributes that were found. A model has a library of materials in any case. -/
structure Describes (d : Descriptor) (members : List (Text × Json)) : Prop where
  nodup : (members.map Prod.fst).Nodup
  type : members.head? = some ("type".toList, .string d.typeName)
  source : members.lookup "src".toList = d.source?.map .string
  caption : members.lookup "text".toList = d.caption?.map .string
  extension : members.lookup "extension".toList = d.extension?.map .string
  library : members.lookup "mtl".toList = d.library?.map Json.stringOrNull
  exclusive : members.lookup "src".toList = none ∨ members.lookup "text".toList = none

/-- The object of a descriptor describes it. -/
theorem describes (d : Descriptor) :
    ∃ members, d.toJson = .object members ∧ d.Describes members := by
  refine ⟨("type".toList, .string d.typeName) :: d.members, rfl, ?_⟩
  have hlookup : ∀ key, "type".toList ≠ key →
      (("type".toList, Json.string d.typeName) :: d.members).lookup key =
        (d.attributes.lookup key).join := by
    intro key hkey
    rw [List.lookup_cons, beq_false_of_ne hkey.symm]
    exact d.lookup_members key
  have hsource := hlookup "src".toList (by decide)
  have hcaption := hlookup "text".toList (by decide)
  have hkeys : (("type".toList, Json.string d.typeName) :: d.members).map Prod.fst =
      "type".toList :: (present d.attributes).map Prod.fst := by
    rw [List.map_cons, members_eq_present]
  constructor
  case nodup =>
    rw [hkeys]
    exact d.nodup_keys.sublist ((keys_present_sublist d.attributes).cons_cons _)
  case type => rfl
  case source =>
    rw [hsource]
    cases d <;> rfl
  case caption =>
    rw [hcaption]
    cases d <;> rfl
  case extension =>
    rw [hlookup "extension".toList (by decide)]
    cases d <;> rfl
  case library =>
    rw [hlookup "mtl".toList (by decide)]
    cases d <;> rfl
  case exclusive =>
    rw [hsource, hcaption]
    cases d with
    | duration _ | background _ | voiceover _ | text _ _ => exact Or.inl rfl
    | audio _ _ | chart _ _ | video _ _ | videosphere _ | model _ _ _ _ => exact Or.inr rfl
    | panorama content | image content _ =>
      match content with
      | none | some (.caption _) => exact Or.inl rfl
      | some (.source _) => exact Or.inr rfl

end Descriptor

/-! ## Finite vectors -/

/-- All values of attributes are finite. -/
def FiniteValues (attributes : List (Text × Option Json)) : Prop :=
  ∀ a ∈ attributes, ∀ value ∈ a.2, value.Finite

namespace FiniteValues

variable {key : Text} {attributes : List (Text × Option Json)}

/-- Where there are no attributes, all values are finite. -/
theorem nil : FiniteValues [] := by
  simp [FiniteValues]

/-- An attribute with a finite value can be added. -/
theorem value {v : Json} (hv : v.Finite) (h : FiniteValues attributes) :
    FiniteValues ((key, some v) :: attributes) := by
  refine List.forall_mem_cons.mpr ⟨?_, h⟩
  rintro value ⟨rfl⟩
  exact hv

/-- An attribute that is a text can be added, whether or not it is there. -/
theorem text {t : Option Text} (h : FiniteValues attributes) :
    FiniteValues ((key, t.map .string) :: attributes) := by
  cases t with
  | none => exact List.forall_mem_cons.mpr ⟨by simp, h⟩
  | some t => exact .value (.string t) h

/-- The members for finite values are finite. -/
theorem present (h : FiniteValues attributes) : ∀ m ∈ present attributes, m.2.Finite := by
  intro m hm
  obtain ⟨a, ha, hmember⟩ := List.mem_filterMap.mp hm
  obtain ⟨value, hvalue, rfl⟩ := Option.map_eq_some_iff.mp hmember
  exact h a ha value hvalue

end FiniteValues

/-- A vector with finite components is written with finite numbers. -/
theorem Vector3.finite_toJson {v : Vector3} (h : v.isFinite = true) : v.toJson.Finite := by
  simp only [isFinite, Bool.and_eq_true] at h
  obtain ⟨⟨hx, hy⟩, hz⟩ := h
  refine .array ?_
  simp only [List.forall_mem_cons]
  exact ⟨.number hx, .number hy, .number hz, by simp⟩

/-- A text that may be absent is written without numbers. -/
theorem Json.finite_stringOrNull (t : Option Text) : (stringOrNull t).Finite := by
  cases t with
  | none => exact .null
  | some t => exact .string t

namespace Descriptor

/-- The vectors of a descriptor. -/
def vectors : Descriptor → List Vector3
  | audio _ position => [position]
  | chart _ pose | video _ pose | image _ pose | text _ pose | model _ _ _ pose =>
    [pose.position, pose.rotation, pose.scale]
  | duration _ | background _ | voiceover _ | panorama _ | videosphere _ => []

/-- Finite vectors are written as finite values. -/
theorem finite_attributes {d : Descriptor} (h : ∀ v ∈ d.vectors, v.isFinite = true) :
    FiniteValues d.attributes := by
  have hvector : ∀ v ∈ d.vectors, v.toJson.Finite := fun v hv => Vector3.finite_toJson (h v hv)
  have hpose : ∀ pose : Pose, d.vectors = [pose.position, pose.rotation, pose.scale] →
      pose.position.toJson.Finite ∧ pose.rotation.toJson.Finite ∧ pose.scale.toJson.Finite := by
    intro pose hpose
    simpa [hpose] using hvector
  cases d with
  | duration seconds => exact .value (.integer seconds) .nil
  | background color => exact .value (.string color) .nil
  | voiceover _ | videosphere _ => exact .text .nil
  | panorama _ => exact .text (.text .nil)
  | audio _ position => exact .text (.value (hvector position (by simp [vectors])) .nil)
  | chart _ pose =>
    obtain ⟨hposition, hrotation, hscale⟩ := hpose pose rfl
    exact .text (.value hposition (.value hrotation (.value hscale .nil)))
  | video _ pose | text _ pose =>
    obtain ⟨hposition, hrotation, hscale⟩ := hpose pose rfl
    exact .text (.value hposition (.value hscale (.value hrotation .nil)))
  | image _ pose =>
    obtain ⟨hposition, hrotation, hscale⟩ := hpose pose rfl
    exact .text (.text (.value hposition (.value hscale (.value hrotation .nil))))
  | model _ material _ pose =>
    obtain ⟨hposition, hrotation, hscale⟩ := hpose pose rfl
    exact .text (.value (Json.finite_stringOrNull material)
      (.text (.value hposition (.value hscale (.value hrotation .nil)))))

/-- The object of a descriptor with finite vectors has finite numbers only. -/
theorem finite_toJson {d : Descriptor} (h : ∀ v ∈ d.vectors, v.isFinite = true) :
    d.toJson.Finite := by
  refine .object (List.forall_mem_cons.mpr ⟨.string d.typeName, ?_⟩)
  rw [members_eq_present]
  exact (finite_attributes h).present

end Descriptor

/-! ## Lists of descriptors -/

/-- All descriptors have finite vectors. -/
def FiniteLines (lines : List (List Descriptor)) : Prop :=
  ∀ line ∈ lines, ∀ d ∈ line, ∀ v ∈ d.vectors, v.isFinite = true

/-- Descriptors with finite vectors are written with finite numbers. -/
theorem finite_linesToJson {lines : List (List Descriptor)} (h : FiniteLines lines) :
    (linesToJson lines).Finite := by
  refine .array (List.forall_mem_map.mpr fun line hline => ?_)
  exact .array (List.forall_mem_map.mpr fun d hd => Descriptor.finite_toJson (h line hline d hd))

/-- The descriptors of all beats are told by their arrays. -/
theorem linesToJson_inj {lines others : List (List Descriptor)}
    (h : linesToJson lines = linesToJson others) : lines = others := by
  have hline : Function.Injective fun line : List Descriptor =>
      Json.array (line.map Descriptor.toJson) := by
    intro line other heq
    exact List.map_injective_iff.mpr (fun _ _ => Descriptor.toJson_inj) (Json.array.inj heq)
  exact List.map_injective_iff.mpr hline (Json.array.inj h)

/-- The text of descriptors tells what they are, compact or over lines, and the object of each of
them describes it. -/
theorem texts_identify_descriptors {lines others : List (List Descriptor)}
    (hlines : FiniteLines lines) (hothers : FiniteLines others) :
    ((linesToJson lines).compact = (linesToJson others).compact ∨
      (linesToJson lines).pretty = (linesToJson others).pretty → lines = others) ∧
    ∀ d : Descriptor, ∃ members, d.toJson = .object members ∧ d.Describes members := by
  refine ⟨?_, Descriptor.describes⟩
  rintro (hcompact | hpretty)
  · exact linesToJson_inj
      (Json.eq_of_compact_eq (finite_linesToJson hlines) (finite_linesToJson hothers) hcompact)
  · exact linesToJson_inj
      (Json.eq_of_pretty_eq (finite_linesToJson hlines) (finite_linesToJson hothers) hpretty)

/-- An image with an address and one with the same text as its caption are written differently. -/
theorem texts_identify_descriptors_image :
    FiniteLines [[.image (some (.source ['a'])) ⟨.zero, .zero, .splat 0.5⟩]] ∧
      FiniteLines [[.image (some (.caption ['a'])) ⟨.zero, .zero, .splat 0.5⟩]] ∧
      (linesToJson [[.image (some (.source ['a'])) ⟨.zero, .zero, .splat 0.5⟩]]).compact ≠
        (linesToJson [[.image (some (.caption ['a'])) ⟨.zero, .zero, .splat 0.5⟩]]).compact ∧
      (linesToJson [[.image (some (.source ['a'])) ⟨.zero, .zero, .splat 0.5⟩]]).pretty ≠
        (linesToJson [[.image (some (.caption ['a'])) ⟨.zero, .zero, .splat 0.5⟩]]).pretty := by
  have hzero : Vector3.zero.isFinite = true := by decide +kernel
  have hhalf : (Vector3.splat 0.5).isFinite = true := by decide +kernel
  have hfinite : ∀ content, FiniteLines [[.image content ⟨.zero, .zero, .splat 0.5⟩]] := by
    intro content
    simp [FiniteLines, Descriptor.vectors, hzero, hhalf]
  have hdistinct := (texts_identify_descriptors (hfinite (some (.source ['a'])))
    (hfinite (some (.caption ['a'])))).1
  refine ⟨hfinite _, hfinite _, fun hcompact => ?_, fun hpretty => ?_⟩
  · simpa using hdistinct (Or.inl hcompact)
  · simpa using hdistinct (Or.inr hpretty)

end Storyboard
