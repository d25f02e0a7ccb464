import Storyboard.Proofs.Leftmost

/-!
# Which text is an address

An address is opened by a scheme, a host and a top-level name that ends a word; from the scheme on
it goes as far as its characters do. The host and the top-level name may be chosen in several ways,
with any of the dots between them, but all that they can be made of may stand in the path as well.
So each choice leads to the same end, and a search needs no more than the leftmost place where an
address is opened. The addresses of a window are found by searching again behind each of them.
-/

namespace Storyboard

namespace Matcher

/-- A run that may be empty ends where its class does. -/
theorem head?_runs_zero (p : Char → Bool) (t : Text) :
    (runs p 0 t).head? = some (t.dropWhile p) := by
  have hread : (runs p 0 (t.takeWhile p ++ t.dropWhile p)).head? = some (t.dropWhile p) :=
    head?_runOnto (fun _ => List.mem_takeWhile_imp) (Nat.zero_le _) (by simp)
      (Or.inr fun _ => Text.eq_false_of_head?_dropWhile)
  rwa [List.takeWhile_append_dropWhile] at hread

/-- Where every way to begin leads to the same preferred end, that is the preferred end of all. -/
theorem head?_andThen {first second : Matcher} {t rest : Text} (hne : first t ≠ [])
    (h : ∀ s ∈ first t, (second s).head? = some rest) :
    (first.andThen second t).head? = some rest := by
  obtain ⟨s, others, hfirst⟩ := List.exists_cons_of_ne_nil hne
  rw [andThen, hfirst, List.flatMap_cons, List.head?_append, h s (by simp [hfirst]), Option.some_or]

/-- Three matchers in a row read the same however they are grouped. -/
theorem andThen_assoc (first second third : Matcher) :
    first.andThen (second.andThen third) = (first.andThen second).andThen third := by
  funext t
  exact List.flatMap_assoc.symm

end Matcher

/-- A search finds nothing exactly if the pattern matches nowhere. -/
theorem Pattern.find?_eq_none_iff {pattern : Pattern} {t : Text} :
    pattern.find? t = none ↔ ∀ front back, t = front ++ back → pattern.matchAt back = none := by
  rw [← Option.not_isSome_iff_eq_none, ← Pattern.occursIn, occursIn_iff]
  simp only [not_exists, not_and, Option.not_isSome_iff_eq_none]

namespace Prose

/-- The schemes of web addresses. -/
def schemes : List Text := ["https://".toList, "http://".toList]

/-- The parts that open an address, with the text behind them: a scheme, a host of at most 256
characters, and behind a dot a top-level name that ends a word. -/
structure AddressOpening (scheme host name after : Text) : Prop where
  scheme_mem : scheme ∈ schemes
  host_isHostChar : ∀ c ∈ host, isHostChar c = true
  one_le_host : 1 ≤ host.length
  host_le : host.length ≤ 256
  name_isLower : ∀ c ∈ name, c.isLower = true
  two_le_name : 2 ≤ name.length
  name_le_six : name.length ≤ 6
  name_ends : ∀ c, after.head? = some c → isWord c = false

/-- A text begins with what opens an address. -/
def OpensAddress (t : Text) : Prop :=
  ∃ scheme host name after, t = scheme ++ (host ++ ('.' :: (name ++ after))) ∧
    AddressOpening scheme host name after

/-- A scheme and what follows it, at the leftmost place of a window that opens an address. -/
structure OpensFirst (window before scheme tail : Text) : Prop where
  window_eq : window = before ++ (scheme ++ tail)
  scheme_mem : scheme ∈ schemes
  opens : OpensAddress (scheme ++ tail)
  first : ∀ front back, window = front ++ back →
    Text.byteSize front < Text.byteSize before → ¬OpensAddress back

/-- The addresses of a window, each looked for behind the end of the one before it. An address goes
on from its scheme as far as its characters do. -/
inductive AddressRow : Text → List Text → Prop
  | done {window : Text} (h : ∀ front back, window = front ++ back → ¬OpensAddress back) :
      AddressRow window []
  | found {window before scheme tail : Text} {row : List Text}
      (h : OpensFirst window before scheme tail)
      (hrest : AddressRow (tail.dropWhile isPathChar) row) :
      AddressRow window ((scheme ++ tail.takeWhile isPathChar) :: row)

/-- The first text of a row that ends so. -/
def IsFirstEnding (ending : Text) (row : List Text) (text : Text) : Prop :=
  ∃ front back, row = front ++ text :: back ∧ ending <:+ text ∧ ∀ other ∈ front, ¬ending <:+ other

/-- What may stand in the name of a host may stand in a path. -/
theorem isPathChar_of_isHostChar {c : Char} (h : isHostChar c = true) : isPathChar c = true := by
  rw [isPathChar, h, Bool.true_or]

/-- A small letter may stand in a path. -/
theorem isPathChar_of_isLower {c : Char} (h : c.isLower = true) : isPathChar c = true := by
  have halpha : c.isAlpha = true := Bool.or_eq_true_iff.mpr (Or.inr h)
  have halphanum : c.isAlphanum = true := Bool.or_eq_true_iff.mpr (Or.inl halpha)
  exact isPathChar_of_isHostChar (by rw [isHostChar, halphanum, Bool.true_or])

/-- A scheme is read off the front. -/
theorem mem_scheme_iff {t r : Text} : r ∈ scheme t ↔ ∃ s ∈ schemes, t = s ++ r := by
  simp only [scheme, schemes, Matcher.mem_oneOf, List.mem_cons, List.not_mem_nil, or_false,
    exists_eq_or_imp, exists_eq_left, Matcher.mem_spelled_beq_iff]

/-- A text begins with one scheme only. -/
theorem scheme_eq_of_append_eq {s s' t t' : Text} (hs : s ∈ schemes) (hs' : s' ∈ schemes)
    (h : s ++ t = s' ++ t') : s = s' := by
  have hall : ∀ a ∈ schemes, ∀ b ∈ schemes, a <+: b → a = b := by decide
  rcases List.prefix_or_prefix_of_prefix (List.prefix_append s t)
      (h ▸ List.prefix_append s' t') with
    hbegins | hbegins
  · exact hall s hs s' hs' hbegins
  · exact (hall s' hs' s hs hbegins).symm

/-- The part of an address that has to be there. -/
def opening : Matcher :=
  scheme.andThen ((Matcher.run isHostChar 1 256).andThen topLevel)

/-- An address consists of its opening and a path, which may be empty. -/
theorem body_addressPattern :
    addressPattern.body = opening.andThen (Matcher.runs isPathChar 0) := by
  rw [opening, ← Matcher.andThen_assoc, ← Matcher.andThen_assoc]
  rfl

/-- What opens an address is read off the front, in any way to choose its parts. -/
theorem mem_opening_iff {t r : Text} :
    r ∈ opening t ↔ ∃ scheme host name, t = scheme ++ (host ++ ('.' :: (name ++ r))) ∧
      AddressOpening scheme host name r := by
  simp only [opening, topLevel, Matcher.mem_andThen, mem_scheme_iff, Matcher.mem_run_iff,
    Matcher.mem_one_iff, Matcher.mem_notBefore_iff, beq_iff_eq]
  constructor
  · rintro ⟨_, ⟨scheme, hscheme, rfl⟩, _, ⟨host, rfl, hhost, hone, hmost⟩, _, ⟨_, rfl, rfl⟩, _,
      ⟨name, rfl, hname, htwo, hsix⟩, rfl, hends⟩
    exact ⟨scheme, host, name, rfl, hscheme, hhost, hone, hmost, hname, htwo, hsix, hends⟩
  · rintro ⟨scheme, host, name, rfl, h⟩
    exact ⟨_, ⟨scheme, h.scheme_mem, rfl⟩,
      _, ⟨host, rfl, h.host_isHostChar, h.one_le_host, h.host_le⟩,
      _, ⟨'.', rfl, rfl⟩, _, ⟨name, rfl, h.name_isLower, h.two_le_name, h.name_le_six⟩, rfl,
      h.name_ends⟩

/-- An opening is read exactly where an address opens. -/
theorem opening_ne_nil_iff {t : Text} : opening t ≠ [] ↔ OpensAddress t := by
  constructor
  · intro h
    obtain ⟨after, hafter⟩ := List.exists_mem_of_ne_nil _ h
    obtain ⟨scheme, host, name, ht, hopening⟩ := mem_opening_iff.mp hafter
    exact ⟨scheme, host, name, after, ht, hopening⟩
  · rintro ⟨scheme, host, name, after, ht, hopening⟩
    exact List.ne_nil_of_mem (mem_opening_iff.mpr ⟨scheme, host, name, ht, hopening⟩)

/-- Host, dot and top-level name may all stand in a path. -/
theorem AddressOpening.isPathChar {scheme host name after : Text}
    (h : AddressOpening scheme host name after) :
    ∀ c ∈ host ++ '.' :: name, isPathChar c = true := by
  intro c hc
  rcases List.mem_append.mp hc with hc | hc
  · exact isPathChar_of_isHostChar (h.host_isHostChar c hc)
  · rcases List.mem_cons.mp hc with rfl | hc
    · decide
    · exact isPathChar_of_isLower (h.name_isLower c hc)

/-- However the host and the top-level name are chosen, the characters of the path end where they
do behind the scheme. -/
theorem dropWhile_eq_of_mem_opening {scheme tail after : Text} (hscheme : scheme ∈ schemes)
    (h : after ∈ opening (scheme ++ tail)) :
    after.dropWhile isPathChar = tail.dropWhile isPathChar := by
  obtain ⟨other, host, name, hsplit, hopening⟩ := mem_opening_iff.mp h
  obtain rfl := scheme_eq_of_append_eq hscheme hopening.scheme_mem hsplit
  have htail : tail = (host ++ '.' :: name) ++ after := by
    simpa using List.append_cancel_left hsplit
  rw [htail, List.dropWhile_append_of_pos hopening.isPathChar]

/-- Where an address is opened, the preferred match goes as far as its characters do. -/
theorem matchAt_addressPattern {scheme tail : Text} (hscheme : scheme ∈ schemes)
    (h : OpensAddress (scheme ++ tail)) :
    addressPattern.matchAt (scheme ++ tail) =
      some ⟨scheme ++ tail.takeWhile isPathChar, tail.dropWhile isPathChar⟩ := by
  have hsplit : scheme ++ tail =
      (scheme ++ tail.takeWhile isPathChar) ++ tail.dropWhile isPathChar := by
    rw [List.append_assoc, List.takeWhile_append_dropWhile]
  have hbody : (addressPattern.body (scheme ++ tail)).head? = some (tail.dropWhile isPathChar) := by
    rw [body_addressPattern]
    refine Matcher.head?_andThen (opening_ne_nil_iff.mpr h) fun after hafter => ?_
    rw [Matcher.head?_runs_zero, dropWhile_eq_of_mem_opening hscheme hafter]
  exact Pattern.matchAt_eq_some (congrArg List.singleton hsplit) (hsplit ▸ hbody) rfl

/-- The pattern matches nowhere but where an address is opened. -/
theorem opensAddress_of_isSome_matchAt {t : Text} (h : (addressPattern.matchAt t).isSome = true) :
    OpensAddress t := by
  obtain ⟨opened, hopened, closed, hclosed, _⟩ := Pattern.isSome_matchAt_iff.mp h
  obtain rfl := List.mem_singleton.mp hopened
  rw [body_addressPattern] at hclosed
  obtain ⟨after, hafter, _⟩ := Matcher.mem_andThen.mp hclosed
  exact opening_ne_nil_iff.mp (List.ne_nil_of_mem hafter)

/-- An address is opened by a scheme. -/
theorem OpensAddress.exists_scheme {t : Text} (h : OpensAddress t) :
    ∃ scheme ∈ schemes, ∃ tail, t = scheme ++ tail := by
  obtain ⟨scheme, host, name, after, rfl, hopening⟩ := h
  exact ⟨scheme, hopening.scheme_mem, _, rfl⟩

/-- No address is matched exactly where none opens. -/
theorem matchAt_addressPattern_eq_none_iff {t : Text} :
    addressPattern.matchAt t = none ↔ ¬OpensAddress t := by
  rw [← Option.not_isSome_iff_eq_none, not_iff_not]
  refine ⟨opensAddress_of_isSome_matchAt, fun h => ?_⟩
  obtain ⟨scheme, hscheme, tail, rfl⟩ := h.exists_scheme
  rw [matchAt_addressPattern hscheme h]
  rfl

/-- A search finds the leftmost place that opens an address, and from its scheme on all that may
stand in one. -/
theorem find?_addressPattern_eq_some_iff {window : Text} {found : Match} :
    addressPattern.find? window = some found ↔
      ∃ before scheme tail, OpensFirst window before scheme tail ∧
        found = ⟨scheme ++ tail.takeWhile isPathChar, tail.dropWhile isPathChar⟩ := by
  rw [Pattern.find?_eq_some_iff]
  constructor
  · rintro ⟨before, rest, hsplit, hmatch, hfirst⟩
    have hopens := opensAddress_of_isSome_matchAt (by rw [hmatch]; rfl)
    obtain ⟨scheme, hscheme, tail, rfl⟩ := hopens.exists_scheme
    rw [matchAt_addressPattern hscheme hopens, Option.some.injEq] at hmatch
    exact ⟨before, scheme, tail, ⟨hsplit, hscheme, hopens, fun front back hcut hlt =>
      matchAt_addressPattern_eq_none_iff.mp (hfirst front back hcut hlt)⟩, hmatch.symm⟩
  · rintro ⟨before, scheme, tail, h, rfl⟩
    exact ⟨before, scheme ++ tail, h.window_eq, matchAt_addressPattern h.scheme_mem h.opens,
      fun front back hcut hlt =>
        matchAt_addressPattern_eq_none_iff.mpr (h.first front back hcut hlt)⟩

/-- No address is found exactly if none opens anywhere in the window. -/
theorem find?_addressPattern_eq_none_iff {window : Text} :
    addressPattern.find? window = none ↔
      ∀ front back, window = front ++ back → ¬OpensAddress back := by
  simp only [Pattern.find?_eq_none_iff, matchAt_addressPattern_eq_none_iff]

/-- What comes behind an address is shorter than the window. -/
theorem OpensFirst.length_dropWhile_lt {window before scheme tail : Text}
    (h : OpensFirst window before scheme tail) :
    (tail.dropWhile isPathChar).length < window.length := by
  have hall : ∀ s ∈ schemes, 0 < s.length := by decide
  have hscheme := hall scheme h.scheme_mem
  have htail := (List.dropWhile_suffix isPathChar (l := tail)).length_le
  rw [h.window_eq, List.length_append, List.length_append]
  omega

/-- The first address reaches from the first opening to the end of its path, and the search for the
others goes on behind it. -/
theorem addresses_of_opensFirst {window before scheme tail : Text}
    (h : OpensFirst window before scheme tail) :
    addresses window =
      (scheme ++ tail.takeWhile isPathChar) :: addresses (tail.dropWhile isPathChar) := by
  rw [addresses, Pattern.findAll,
    find?_addressPattern_eq_some_iff.mpr ⟨before, scheme, tail, h, rfl⟩]
  exact if_pos h.length_dropWhile_lt

/-- A window in which no address opens has no addresses. -/
theorem addresses_eq_nil {window : Text}
    (h : ∀ front back, window = front ++ back → ¬OpensAddress back) : addresses window = [] := by
  rw [addresses, Pattern.findAll, find?_addressPattern_eq_none_iff.mpr h]

/-- A window has one row of addresses, those that are found. -/
theorem addressRow_iff {window : Text} {row : List Text} :
    AddressRow window row ↔ row = addresses window := by
  constructor
  · intro h
    induction h with
    | done h => rw [addresses_eq_nil h]
    | found h _ ih => rw [addresses_of_opensFirst h, ih]
  · rintro rfl
    induction hlength : window.length using Nat.strongRecOn generalizing window with
    | ind n ih =>
      cases hfound : addressPattern.find? window with
      | none =>
        have hnone := find?_addressPattern_eq_none_iff.mp hfound
        rw [addresses_eq_nil hnone]
        exact .done hnone
      | some found =>
        obtain ⟨before, scheme, tail, h, _⟩ := find?_addressPattern_eq_some_iff.mp hfound
        rw [addresses_of_opensFirst h]
        exact .found h (ih _ (hlength ▸ h.length_dropWhile_lt) rfl)

/-- The first address of a window is the first of all its addresses. -/
theorem address?_eq_head? (window : Text) : address? window = (addresses window).head? := by
  rw [address?, addresses, Pattern.findAll]
  cases addressPattern.find? window with
  | none => rfl
  | some found =>
    dsimp only
    split <;> rfl

/-- There is no address exactly if none opens anywhere in the window. -/
theorem address?_eq_none_iff {window : Text} :
    address? window = none ↔ ∀ front back, window = front ++ back → ¬OpensAddress back := by
  rw [address?, Option.map_eq_none_iff, find?_addressPattern_eq_none_iff]

/-- The address of a window reaches from the first opening to the end of its path. -/
theorem address?_eq_some_iff {window address : Text} :
    address? window = some address ↔ ∃ before scheme tail, OpensFirst window before scheme tail ∧
      address = scheme ++ tail.takeWhile isPathChar := by
  rw [address?, Option.map_eq_some_iff]
  constructor
  · rintro ⟨found, hfound, rfl⟩
    obtain ⟨before, scheme, tail, h, rfl⟩ := find?_addressPattern_eq_some_iff.mp hfound
    exact ⟨before, scheme, tail, h, rfl⟩
  · rintro ⟨before, scheme, tail, h, rfl⟩
    exact ⟨_, find?_addressPattern_eq_some_iff.mpr ⟨before, scheme, tail, h, rfl⟩, rfl⟩

/-- The address with an ending is the first of all addresses that has it. -/
theorem addressEndingIn?_eq_some_iff {ending window address : Text} :
    addressEndingIn? ending window = some address ↔
      IsFirstEnding ending (addresses window) address := by
  rw [addressEndingIn?, List.find?_eq_some_iff_append, IsFirstEnding]
  simp only [List.isSuffixOf_iff_suffix, Bool.not_eq_true', ← Bool.not_eq_true]
  constructor
  · rintro ⟨hends, front, back, hrow, hfront⟩
    exact ⟨front, back, hrow, hends, hfront⟩
  · rintro ⟨front, back, hrow, hends, hfront⟩
    exact ⟨hends, front, back, hrow, hfront⟩

/-- There is no address with an ending exactly if none of all addresses has it. -/
theorem addressEndingIn?_eq_none_iff {ending window : Text} :
    addressEndingIn? ending window = none ↔ ∀ address ∈ addresses window, ¬ending <:+ address := by
  simp only [addressEndingIn?, List.find?_eq_none, List.isSuffixOf_iff_suffix]

/-- A window has an address exactly if one is opened somewhere in it, and then the first one reaches
from the leftmost such place as far as its characters do. The addresses that are searched for one
behind the other are a row of their own, and an address with a certain ending is the first of that
row, if there is any. -/
theorem address_reaches_from_leftmost_opening (window : Text) :
    (address? window = none ↔ ∀ front back, window = front ++ back → ¬OpensAddress back) ∧
    (∀ address, address? window = some address ↔
      ∃ before scheme tail, OpensFirst window before scheme tail ∧
        address = scheme ++ tail.takeWhile isPathChar) ∧
    ∃ row, (∀ other, AddressRow window other ↔ other = row) ∧ ∀ ending,
      (∀ address, addressEndingIn? ending window = some address ↔
        IsFirstEnding ending row address) ∧
      (addressEndingIn? ending window = none ↔ ∀ address ∈ row, ¬ending <:+ address) := by
  refine ⟨address?_eq_none_iff, fun _ => address?_eq_some_iff, addresses window,
    fun _ => addressRow_iff, fun ending => ⟨fun _ => ?_, ?_⟩⟩
  · exact addressEndingIn?_eq_some_iff
  · exact addressEndingIn?_eq_none_iff

/-- The address goes on behind every label that could be its top-level name. -/
example : address? "see https://a.bc.de.f/g.hi?k, left".toList =
    some "https://a.bc.de.f/g.hi?k".toList := by decide +kernel

end Prose

end Storyboard
