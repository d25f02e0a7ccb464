import Mathlib.Data.List.DropRight
import Storyboard.Proofs.Addresses
import Storyboard.Proofs.Entities

/-!
# The files of a model

A model is told by up to three attributes: its source, the library of materials that comes with an
object file, and the extension of its source. They are looked for one by one in the same window,
and the extension is sometimes known and sometimes read off the source. This file shows that they
always agree: every address has a dot, so that it has an extension, and an address whose extension
is that of object files is found as one.
-/

namespace Storyboard

namespace Prose

/-- What a model is made of agrees with the addresses of its window. -/
structure ModelAgrees (row : List Text) (source materials extension : Option Text) : Prop where
  isSome_source_iff : source.isSome = true ↔ extension.isSome = true
  /-- The extension stands behind the last dot of the source. -/
  source_eq : ∀ name, extension = some name →
    '.' ∉ name ∧ ∃ stem, source = some (stem ++ '.' :: name)
  object_iff : extension = some "obj".toList ↔ ∃ address ∈ row, ".obj".toList <:+ address
  /-- The source of an object is the first object file. -/
  object_source : extension = some "obj".toList →
    ∃ address, source = some address ∧ IsFirstEnding ".obj".toList row address
  /-- Only an object has materials, which are the first library. -/
  library_eq : ∀ library, materials = some library →
    extension = some "obj".toList ∧ IsFirstEnding ".mtl".toList row library
  library_present : (∃ address ∈ row, ".obj".toList <:+ address) →
    (∃ address ∈ row, ".mtl".toList <:+ address) → materials.isSome = true
  other_source : (∀ address ∈ row, ¬".obj".toList <:+ address) → source = row.head?

/-- What opens an address holds a dot. -/
theorem OpensFirst.dot_mem {window before scheme tail : Text}
    (h : OpensFirst window before scheme tail) : '.' ∈ tail.takeWhile isPathChar := by
  obtain ⟨other, host, name, after, hsplit, hopening⟩ := h.opens
  obtain rfl := scheme_eq_of_append_eq h.scheme_mem hopening.scheme_mem hsplit
  have htail : tail = (host ++ '.' :: name) ++ after := by
    simpa using List.append_cancel_left hsplit
  rw [htail, List.takeWhile_append_of_pos hopening.isPathChar]
  simp

/-- Every address has a dot. -/
theorem dot_mem_of_mem_addresses {window address : Text} (h : address ∈ addresses window) :
    '.' ∈ address := by
  have hrow : AddressRow window (addresses window) := addressRow_iff.mpr rfl
  generalize addresses window = row at hrow h
  induction hrow with
  | done => simp at h
  | found hopens _ ih =>
    rcases List.mem_cons.mp h with rfl | h
    · exact List.mem_append_right _ hopens.dot_mem
    · exact ih h

/-- There is no dot in an extension. -/
theorem dot_notMem_extensionOf (address : Text) : '.' ∉ extensionOf address := by
  intro h
  have hne : ('.' != '.') = true :=
    List.mem_rtakeWhile_imp (p := (· != '.')) (l := address) h
  simp at hne

/-- The extension of an address stands behind its last dot. -/
theorem exists_stem_of_dot_mem {address : Text} (h : '.' ∈ address) :
    ∃ stem, address = stem ++ '.' :: extensionOf address := by
  have hsplit : address.rdropWhile (· != '.') ++ extensionOf address = address :=
    List.rdropWhile_append_rtakeWhile
  have hne : address.rdropWhile (· != '.') ≠ [] := by
    intro hnil
    have hall := List.rdropWhile_eq_nil_iff.mp hnil '.' h
    simp at hall
  obtain ⟨stem, c, hstem⟩ := Text.exists_append_singleton hne
  have hlast := List.rdropWhile_last_not (· != '.') address hne
  have hc : c = '.' := by simpa [hstem] using hlast
  refine ⟨stem, ?_⟩
  rw [← hc]
  conv_lhs => rw [← hsplit, hstem]
  simp

/-- What stands behind the last dot is the extension. -/
theorem extensionOf_append {stem name : Text} (h : '.' ∉ name) :
    extensionOf (stem ++ '.' :: name) = name := by
  have hname : ∀ c ∈ name.reverse, (c != '.') = true := by
    intro c hc
    rw [bne_iff_ne]
    rintro rfl
    exact h (List.mem_reverse.mp hc)
  rw [extensionOf, List.reverse_append, List.reverse_cons, List.append_assoc,
    List.takeWhile_append_of_pos hname]
  simp

/-- An address ends like an object file exactly if it has the extension of one. -/
theorem extensionOf_eq_obj_iff {address : Text} (h : '.' ∈ address) :
    extensionOf address = "obj".toList ↔ ".obj".toList <:+ address := by
  constructor
  · intro hobj
    obtain ⟨stem, hstem⟩ := exists_stem_of_dot_mem h
    exact ⟨stem, by rw [hobj] at hstem; exact hstem.symm⟩
  · rintro ⟨stem, rfl⟩
    exact extensionOf_append (by decide)

/-- The materials of an object file are the first library of the window. -/
theorem modelAgrees_object {window source : Text}
    (h : addressEndingIn? ".obj".toList window = some source) :
    ModelAgrees (addresses window) (some source) (addressEndingIn? ".mtl".toList window)
      (some "obj".toList) := by
  have hfirst := addressEndingIn?_eq_some_iff.mp h
  obtain ⟨front, back, hrow, hends, _⟩ := hfirst
  have hmem : ∃ address ∈ addresses window, ".obj".toList <:+ address :=
    ⟨source, by simp [hrow], hends⟩
  constructor
  case isSome_source_iff => simp
  case source_eq =>
    rintro name hname
    obtain rfl := Option.some.inj hname
    obtain ⟨stem, rfl⟩ := hends
    exact ⟨by decide, stem, rfl⟩
  case object_iff => exact ⟨fun _ => hmem, fun _ => rfl⟩
  case object_source => exact fun _ => ⟨source, rfl, addressEndingIn?_eq_some_iff.mp h⟩
  case library_eq => exact fun library hlibrary => ⟨rfl, addressEndingIn?_eq_some_iff.mp hlibrary⟩
  case library_present =>
    rintro _ ⟨address, haddress, hmtl⟩
    rw [← Option.ne_none_iff_isSome]
    exact fun hnone => addressEndingIn?_eq_none_iff.mp hnone address haddress hmtl
  case other_source =>
    obtain ⟨address, haddress, hobj⟩ := hmem
    exact fun hnone => absurd hobj (hnone address haddress)

/-- Without an object file there are no materials, and no extension that would ask for them. -/
theorem modelAgrees_address {window : Text}
    (h : addressEndingIn? ".obj".toList window = none) :
    ModelAgrees (addresses window) (address? window) none ((address? window).map extensionOf) := by
  have hnone := addressEndingIn?_eq_none_iff.mp h
  have hmem : ∀ address, address? window = some address → address ∈ addresses window := by
    intro address haddress
    rw [address?_eq_head?] at haddress
    exact List.mem_of_mem_head? haddress
  have hextension : (address? window).map extensionOf ≠ some "obj".toList := by
    intro hobj
    obtain ⟨address, haddress, hobj⟩ := Option.map_eq_some_iff.mp hobj
    have haddress := hmem address haddress
    exact hnone address haddress
      ((extensionOf_eq_obj_iff (dot_mem_of_mem_addresses haddress)).mp hobj)
  constructor
  case isSome_source_iff => simp
  case source_eq =>
    rintro name hname
    obtain ⟨address, haddress, rfl⟩ := Option.map_eq_some_iff.mp hname
    obtain ⟨stem, hstem⟩ :=
      exists_stem_of_dot_mem (dot_mem_of_mem_addresses (hmem address haddress))
    exact ⟨dot_notMem_extensionOf address, stem, by rw [haddress, ← hstem]⟩
  case object_iff =>
    refine ⟨fun hobj => absurd hobj hextension, ?_⟩
    rintro ⟨address, haddress, hobj⟩
    exact absurd hobj (hnone address haddress)
  case object_source => exact fun hobj => absurd hobj hextension
  case library_eq => simp
  case library_present =>
    rintro ⟨address, haddress, hobj⟩
    exact absurd hobj (hnone address haddress)
  case other_source => exact fun _ => address?_eq_head? window

end Prose

open Prose

namespace Assembly

/-- What a model is made of agrees with its window. -/
theorem modelAgrees_of_ofWindow {kind : Kind} {window : Text}
    {source materials extension : Option Text} {pose : Pose}
    (h : (ofWindow kind window).descriptor? = some (.model source materials extension pose)) :
    kind = .model ∧ ModelAgrees (addresses window) source materials extension := by
  have hname := (suits_ofWindow kind window).typeName_eq h
  have hkind : kind = .model := by
    have hall : ∀ kind : Kind, "model".toList = kind.typeName → kind = .model := by
      intro kind
      cases kind <;> decide
    exact hall kind hname
  subst hkind
  refine ⟨rfl, ?_⟩
  rw [ofWindow, model] at h
  split at h
  next object hobject =>
    obtain ⟨rfl, rfl, rfl, _⟩ := Descriptor.model.inj (Option.some.inj h)
    exact modelAgrees_object hobject
  next hnone =>
    rw [Outcome.descriptor?_ofFound] at h
    obtain ⟨rfl, rfl, rfl, _⟩ := Descriptor.model.inj (Option.some.inj h)
    exact modelAgrees_address hnone

/-- The outcome of a token comes from its window between the tokens around it. -/
theorem eq_assemble_of_outcomesAfter_eq {line : Text} {previous : Option Token}
    {tokens : List Token} {front back : List (Token × Outcome)} {token : Token} {outcome : Outcome}
    (h : outcomesAfter line previous tokens = front ++ (token, outcome) :: back) :
    ∃ before, outcome = assemble line before token (back.map Prod.fst).head? := by
  induction front generalizing previous tokens with
  | nil =>
    cases tokens with
    | nil => simp [outcomesAfter] at h
    | cons first later =>
      rw [outcomesAfter, List.nil_append, List.cons.injEq, Prod.mk.injEq] at h
      obtain ⟨⟨rfl, rfl⟩, rfl⟩ := h
      exact ⟨previous, by rw [map_fst_outcomesAfter]⟩
  | cons entry front ih =>
    cases tokens with
    | nil => simp [outcomesAfter] at h
    | cons first later =>
      rw [outcomesAfter, List.cons_append, List.cons.injEq] at h
      exact ih h.2

end Assembly

section

variable {mode : ScanMode} {line : Text} {front back : List (Token × Outcome)} {token : Token}
  {outcome : Outcome} {source materials extension : Option Text} {pose : Pose}

/-- The source, the materials and the extension of every model agree with each other and with the
addresses of its forward window. -/
theorem attributes_of_model_agree
    (houtcomes : Assembly.outcomes mode line = front ++ (token, outcome) :: back)
    (hmodel : outcome.descriptor? = some (.model source materials extension pose)) :
    ModelAgrees (addresses (token.forward line (back.map Prod.fst).head?)) source materials
      extension := by
  obtain ⟨before, rfl⟩ := Assembly.eq_assemble_of_outcomesAfter_eq houtcomes
  obtain ⟨hkind, hagrees⟩ := Assembly.modelAgrees_of_ofWindow hmodel
  rw [Token.window, hkind] at hagrees
  exact hagrees

/-- The object file counts as the source although an address and its library come first. -/
theorem attributes_of_model_agree_library :
    ModelAgrees
      (addresses "model https://x.com/i.png https://x.com/t.mtl https://x.com/m.obj".toList)
      (some "https://x.com/m.obj".toList) (some "https://x.com/t.mtl".toList)
      (some "obj".toList) := by
  let line : Text := "model https://x.com/i.png https://x.com/t.mtl https://x.com/m.obj".toList
  let token : Token := ⟨.model, "model".toList, 0, 0⟩
  have hscan : scan .boundaryPreserving line = [token] := by decide +kernel
  have houtcomes : Assembly.outcomes .boundaryPreserving line =
      [] ++ (token, Assembly.assemble line none token none) :: [] := by
    rw [Assembly.outcomes, hscan]
    rfl
  have hforward : token.forward line none = line := by decide +kernel
  have hobject : addressEndingIn? ".obj".toList line = some "https://x.com/m.obj".toList := by
    decide +kernel
  have hlibrary : addressEndingIn? ".mtl".toList line = some "https://x.com/t.mtl".toList := by
    decide +kernel
  have hmodel : (Assembly.assemble line none token none).descriptor? =
      some (.model (some "https://x.com/m.obj".toList) (some "https://x.com/t.mtl".toList)
        (some "obj".toList) (Assembly.groundPose line)) := by
    have hassemble : Assembly.assemble line none token none =
        Assembly.model (token.forward line none) := rfl
    rw [hassemble, hforward, Assembly.model, hobject, hlibrary]
    rfl
  have hagrees := attributes_of_model_agree houtcomes hmodel
  rw [List.map_nil, List.head?_nil, hforward] at hagrees
  exact hagrees

end

end Storyboard
