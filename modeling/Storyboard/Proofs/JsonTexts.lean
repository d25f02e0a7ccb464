import Storyboard.Proofs.NumberTexts

/-!
# Values are told apart by their texts

A value with finite numbers can be told from its text, also where more follows: its first character
tells what kind of value it is, strings are read back from their escapes, and numbers from their
digits. What is said about a layout holds of the compact text and of the one spread over lines.
-/

namespace Storyboard.Json

/-! ## Strings -/

/-- A numeric escape of a control character is read as that character. -/
theorem decode_unit_cons {u : Nat} (h : u < 0x20) (later : List Piece)
    (ending : Except Fault Unit) :
    decode (.unit u :: later) ending = (decode later ending).map (Char.ofNat u :: ·) := by
  have hleading : isLeading u = false := by
    simp [isLeading]
    omega
  have htrailing : isTrailing u = false := by
    simp [isTrailing]
    omega
  match later with
  | [] => simp [decode, hleading, htrailing]
  | .plain c :: later => simp [decode, hleading, htrailing]
  | .unit v :: later => simp [decode, hleading, htrailing]

/-- A hexadecimal digit is read as the number that it is written for. -/
theorem hexValue?_digitChar : ∀ n < 16, hexValue? n.digitChar = some n := by
  decide

/-- A short escape is read as the character that it stands for. -/
theorem exists_written_of_shortEscape {c d : Char} (h : shortEscape? d = some c) :
    ∃ written : Written, written.text = ['\\', d] ∧ ∀ later ending,
      decode (written.piece :: later) ending = (decode later ending).map (c :: ·) :=
  ⟨.short d c h, rfl, fun _ _ => rfl⟩

/-- A character is written as a short escape, as a numeric one, or as itself. -/
theorem escape_cases (c : Char) :
    (∃ d, shortEscape? d = some c ∧ escape c = ['\\', d]) ∨
      (c.toNat < 0x20 ∧ escape c =
        ['\\', 'u', '0', '0', Nat.digitChar (c.toNat / 16), Nat.digitChar (c.toNat % 16)]) ∨
      (c ≠ '"' ∧ c ≠ '\\' ∧ 0x20 ≤ c.toNat ∧ escape c = [c]) := by
  by_cases hshort : c ∈ ['"', '\\', '\x08', '\x0c', '\n', '\r', '\t']
  · simp only [List.mem_cons, List.not_mem_nil, or_false] at hshort
    rcases hshort with rfl | rfl | rfl | rfl | rfl | rfl | rfl <;> exact Or.inl ⟨_, rfl, rfl⟩
  · simp only [List.mem_cons, List.not_mem_nil, or_false, not_or] at hshort
    obtain ⟨hquote, hslash, hbackspace, hfeed, hline, hreturn, htab⟩ := hshort
    unfold escape
    rw [if_neg hquote, if_neg hslash, if_neg hbackspace, if_neg hfeed, if_neg hline,
      if_neg hreturn, if_neg htab]
    by_cases hcontrol : c.toNat < 0x20
    · exact Or.inr (Or.inl ⟨hcontrol, if_pos hcontrol⟩)
    · exact Or.inr (Or.inr ⟨hquote, hslash, Nat.not_lt.mp hcontrol, if_neg hcontrol⟩)

/-- A character is read back from how it is written within a string. -/
theorem exists_written (c : Char) :
    ∃ written : Written, written.text = escape c ∧ ∀ later ending,
      decode (written.piece :: later) ending = (decode later ending).map (c :: ·) := by
  obtain ⟨d, hd, hescape⟩ | ⟨hcontrol, hescape⟩ | ⟨hquote, hslash, hcontrol, hescape⟩ :=
    escape_cases c
  · rw [hescape]
    exact exists_written_of_shortEscape hd
  · have hhigh := hexValue?_digitChar (c.toNat / 16) (by omega)
    have hlow := hexValue?_digitChar (c.toNat % 16) (by omega)
    refine ⟨.numeric '0' '0' _ _ 0 0 _ _ rfl rfl hhigh hlow, hescape.symm, fun later ending => ?_⟩
    have hunit : ((0 * 16 + 0) * 16 + c.toNat / 16) * 16 + c.toNat % 16 = c.toNat := by omega
    change decode (.unit (((0 * 16 + 0) * 16 + c.toNat / 16) * 16 + c.toNat % 16) :: later) _ = _
    rw [hunit, decode_unit_cons hcontrol, Char.ofNat_toNat]
  · rw [hescape]
    exact ⟨.plain c hquote hslash hcontrol, rfl, fun _ _ => rfl⟩

/-- A text is read back from its string. -/
theorem exists_literal_eq_quote (t : Text) :
    ∃ content, quote t = literal content ∧ literalText? content = some t := by
  have hescaped : ∃ content : List Written, t.flatMap escape = content.flatMap Written.text ∧
      decode (content.map Written.piece) (.ok ()) = .ok t := by
    induction t with
    | nil => exact ⟨[], rfl, rfl⟩
    | cons c later ih =>
      obtain ⟨content, htext, hdecode⟩ := ih
      obtain ⟨written, hwritten, hread⟩ := exists_written c
      refine ⟨written :: content, ?_, ?_⟩
      · rw [List.flatMap_cons, List.flatMap_cons, hwritten, htext]
      · rw [List.map_cons, hread, hdecode]
        rfl
  obtain ⟨content, htext, hdecode⟩ := hescaped
  refine ⟨content, by rw [quote, htext]; rfl, ?_⟩
  rw [literalText?, hdecode]
  rfl

/-- A text can be told from its string, also where more follows. -/
theorem quote_append_inj {t u r s : Text} (h : quote t ++ r = quote u ++ s) : t = u ∧ r = s := by
  obtain ⟨content, hquote, hread⟩ := exists_literal_eq_quote t
  obtain ⟨other, hquoteOther, hreadOther⟩ := exists_literal_eq_quote u
  have hstring : ∀ (content : List Written) (rest : Text),
      readString (literal content ++ rest).tail = (content.map Written.piece, .ok (), rest) := by
    intro content rest
    have htail : (literal content ++ rest).tail = content.flatMap Written.text ++ '"' :: rest := by
      simp [literal]
    rw [htail, readString_flatMap_text]
  have hsame := hstring content r
  rw [← hquote, h, hquoteOther, hstring other s] at hsame
  obtain ⟨hpieces, hrest⟩ := Prod.mk.inj hsame
  rw [literalText?] at hread hreadOther
  rw [hpieces, hread] at hreadOther
  exact ⟨Option.some.inj hreadOther, (Prod.mk.inj hrest).2.symm⟩

/-! ## Entries between commas -/

/-- What can follow the last entry of a list: no comma, and nothing that goes on with a number. -/
structure Ends (rest : Text) : Prop where
  stops : Stops rest
  head?_ne : rest.head? ≠ some ','

/-- Entries that can be told from their texts can be told from their texts with commas between. -/
theorem intercalate_append_inj {α : Type} {entry : α → Text} {items others : List α}
    (hentry : ∀ x ∈ items, ∀ y ∈ others, ∀ r s, Stops r → Stops s →
      entry x ++ r = entry y ++ s → x = y ∧ r = s)
    (hitems : items ≠ []) (hothers : others ≠ []) {r s : Text} (hr : Ends r) (hs : Ends s)
    (h : [','].intercalate (items.map entry) ++ r = [','].intercalate (others.map entry) ++ s) :
    items = others ∧ r = s := by
  have hcons : ∀ (x z : α) (later : List α) (rest : Text),
      [','].intercalate ((x :: z :: later).map entry) ++ rest =
        entry x ++ ',' :: ([','].intercalate ((z :: later).map entry) ++ rest) := by
    intro x z later rest
    have hjoin : [','].intercalate ((x :: z :: later).map entry) =
        entry x ++ ',' :: [','].intercalate ((z :: later).map entry) := rfl
    rw [hjoin, List.append_assoc, List.cons_append]
  have hone : ∀ (x : α) (rest : Text),
      [','].intercalate ([x].map entry) ++ rest = entry x ++ rest := by
    simp
  induction items generalizing others with
  | nil => exact absurd rfl hitems
  | cons x items ih =>
    cases others with
    | nil => exact absurd rfl hothers
    | cons y others =>
      have hfirst := hentry x List.mem_cons_self y List.mem_cons_self
      match items, others with
      | [], [] =>
        rw [hone, hone] at h
        obtain ⟨rfl, hrest⟩ := hfirst r s hr.stops hs.stops h
        exact ⟨rfl, hrest⟩
      | [], z :: later =>
        rw [hone, hcons] at h
        obtain ⟨-, hrest⟩ := hfirst _ _ hr.stops (stops_comma _) h
        exact absurd (by rw [hrest]; rfl) hr.head?_ne
      | z :: later, [] =>
        rw [hcons, hone] at h
        obtain ⟨-, hrest⟩ := hfirst _ _ (stops_comma _) hs.stops h
        exact absurd (by rw [← hrest]; rfl) hs.head?_ne
      | z :: later, w :: following =>
        rw [hcons, hcons] at h
        obtain ⟨rfl, hrest⟩ := hfirst _ _ (stops_comma _) (stops_comma _) h
        obtain ⟨hsame, hend⟩ := ih
          (fun x hx y hy => hentry x (List.mem_cons_of_mem _ hx) y (List.mem_cons_of_mem _ hy))
          (List.cons_ne_nil z later) (List.cons_ne_nil w following) (List.cons.inj hrest).2
        exact ⟨by rw [hsame], hend⟩

/-! ## Layouts -/

/-- A value without infinite numbers and such that are none. -/
inductive Finite : Json → Prop
  | null : Finite .null
  | bool (b : Bool) : Finite (.bool b)
  | integer (n : Nat) : Finite (.integer n)
  | number {x : Float} (h : x.isFinite = true) : Finite (.number x)
  | string (t : Text) : Finite (.string t)
  | array {items : List Json} (h : ∀ item ∈ items, Finite item) : Finite (.array items)
  | object {members : List (Text × Json)} (h : ∀ m ∈ members, Finite m.2) :
      Finite (.object members)

/-- How values are laid out: the white space before an entry at some depth, what stands between a
key and its value, and the text of a value that is made up with them. -/
structure Layout where
  gap : Nat → Text
  colon : Text
  text : Nat → Json → Text
  isSpace_gap : ∀ depth, IsSpace (gap depth)
  null : ∀ depth, text depth .null = wordText none
  bool : ∀ depth b, text depth (.bool b) = wordText (some b)
  integer : ∀ depth n, text depth (.integer n) = decimal n
  number : ∀ depth x, text depth (.number x) = numberText x
  string : ∀ depth t, text depth (.string t) = quote t
  emptyArray : ∀ depth, text depth (.array []) = ['[', ']']
  array : ∀ depth items, items ≠ [] → text depth (.array items) =
    '[' :: ([','].intercalate (items.map fun item => gap (depth + 1) ++ text (depth + 1) item) ++
      (gap depth ++ [']']))
  emptyObject : ∀ depth, text depth (.object []) = ['{', '}']
  object : ∀ depth members, members ≠ [] → text depth (.object members) =
    '{' :: ([','].intercalate (members.map fun m =>
      gap (depth + 1) ++ (quote m.1 ++ (colon ++ text (depth + 1) m.2))) ++ (gap depth ++ ['}']))

namespace Layout

/-- A value can be told from its text, also where more follows. -/
def Determines (layout : Layout) (v : Json) : Prop :=
  ∀ depth w r s, w.Finite → Stops r → Stops s →
    layout.text depth v ++ r = layout.text depth w ++ s → v = w ∧ r = s

end Layout

/-- The kinds of values that begin with different characters. -/
inductive Opening
  | null
  | bool (b : Bool)
  | number
  | string
  | array
  | object

/-- The kind of a value. -/
def opening : Json → Opening
  | null => .null
  | bool b => .bool b
  | integer _ | number _ => .number
  | string _ => .string
  | array _ => .array
  | object _ => .object

/-- The kind of value that a character begins. -/
def openingOf? (c : Char) : Option Opening :=
  match c with
  | 'n' => some .null
  | 't' => some (.bool true)
  | 'f' => some (.bool false)
  | '"' => some .string
  | '[' => some .array
  | '{' => some .object
  | c => if c = '-' ∨ c.isDigit = true then some .number else none

/-- A digit opens a number. -/
theorem openingOf?_digit {c : Char} (hc : c.isDigit = true) : openingOf? c = some .number := by
  unfold openingOf?
  split
  case h_7 => rw [if_pos (Or.inr hc)]
  all_goals exact absurd hc (by decide)

/-- The first character of a value tells what kind of value it is. -/
theorem Layout.exists_text_eq_cons (layout : Layout) (depth : Nat) {v : Json} (h : v.Finite) :
    ∃ c later, layout.text depth v = c :: later ∧ openingOf? c = some v.opening := by
  cases h with
  | null => exact ⟨_, _, layout.null depth, rfl⟩
  | bool b => cases b <;> exact ⟨_, _, layout.bool depth _, rfl⟩
  | integer n =>
    obtain ⟨c, later, hcons, hc, -⟩ := (isDigits_decimal n).exists_cons
    exact ⟨c, later, by rw [layout.integer, hcons], openingOf?_digit hc⟩
  | @number x h =>
    obtain ⟨_, _, t, -, hspells, -, -, htext⟩ := exists_spells_numberText h
    obtain ⟨c, later, rfl, hc, -⟩ := hspells.exists_cons
    rw [layout.number, htext]
    split
    · exact ⟨c, later, rfl, openingOf?_digit hc⟩
    · exact ⟨'-', c :: later, rfl, rfl⟩
  | string t => exact ⟨_, _, layout.string depth t, rfl⟩
  | @array items _ =>
    cases items with
    | nil => exact ⟨_, _, layout.emptyArray depth, rfl⟩
    | cons item later => exact ⟨_, _, layout.array depth _ (List.cons_ne_nil item later), rfl⟩
  | @object members _ =>
    cases members with
    | nil => exact ⟨_, _, layout.emptyObject depth, rfl⟩
    | cons m later => exact ⟨_, _, layout.object depth _ (List.cons_ne_nil m later), rfl⟩

namespace Layout

variable {layout : Layout} {depth : Nat}

/-- Equal texts begin values of the same kind. -/
theorem opening_eq {v w : Json} {r s : Text} (hv : v.Finite) (hw : w.Finite)
    (h : layout.text depth v ++ r = layout.text depth w ++ s) : v.opening = w.opening := by
  obtain ⟨c, later, hcons, hc⟩ := layout.exists_text_eq_cons depth hv
  obtain ⟨d, following, hconsOther, hd⟩ := layout.exists_text_eq_cons depth hw
  rw [hcons, hconsOther, List.cons_append, List.cons_append] at h
  obtain ⟨rfl, -⟩ := List.cons.inj h
  exact Option.some.inj (hc.symm.trans hd)

/-- What begins with white space or a value does not begin with a closing bracket. -/
theorem head?_gap_append {t : Text} {c : Char} {later : Text} (hcons : t = c :: later)
    (hc : openingOf? c ≠ none) (depth : Nat) :
    (layout.gap depth ++ t).head? ≠ some ']' ∧ (layout.gap depth ++ t).head? ≠ some '}' := by
  have hspace := layout.isSpace_gap depth
  cases hgap : layout.gap depth with
  | nil =>
    rw [hcons]
    constructor <;> rintro ⟨rfl⟩ <;> exact hc rfl
  | cons d rest =>
    have hd : isSpace d = true := hspace d (by rw [hgap]; exact List.mem_cons_self)
    constructor <;> rintro ⟨rfl⟩ <;> exact absurd hd (by decide)

/-- What can follow the last entry: white space and a closing bracket. -/
theorem ends_gap_append {bracket : Char} (h : bracket = ']' ∨ bracket = '}') (rest : Text) :
    Ends (layout.gap depth ++ bracket :: rest) := by
  have hspace := layout.isSpace_gap depth
  constructor
  · refine Stops.append hspace ?_
    rcases h with rfl | rfl
    · exact stops_closeArray rest
    · exact stops_closeObject rest
  · cases hgap : layout.gap depth with
    | nil => rcases h with rfl | rfl <;> simp
    | cons d later =>
      have hd : isSpace d = true := hspace d (by rw [hgap]; exact List.mem_cons_self)
      rintro ⟨rfl⟩
      exact absurd hd (by decide)

/-- The first entry of a list begins it. -/
theorem exists_intercalate_eq {α : Type} (entry : α → Text) (x : α) (later : List α) :
    ∃ rest, [','].intercalate ((x :: later).map entry) = entry x ++ rest := by
  cases later with
  | nil => exact ⟨[], by simp⟩
  | cons y later => exact ⟨_, rfl⟩

/-- Lists of entries between brackets, which may be empty. -/
theorem bracketed_inj (layout : Layout) (depth : Nat) {α : Type} (enclosed : List α → Text)
    (entry : α → Text)
    {opening closing : Char} (hclosing : closing = ']' ∨ closing = '}')
    (hnil : enclosed [] = [opening, closing])
    (hcons : ∀ items, items ≠ [] → enclosed items =
      opening :: ([','].intercalate (items.map entry) ++ (layout.gap depth ++ [closing])))
    {items others : List α} (hhead : ∀ x ∈ items ++ others, ∀ rest,
      (entry x ++ rest).head? ≠ some closing)
    (hentry : ∀ x ∈ items, ∀ y ∈ others, ∀ r s, Stops r → Stops s →
      entry x ++ r = entry y ++ s → x = y ∧ r = s)
    {r s : Text} (h : enclosed items ++ r = enclosed others ++ s) : items = others ∧ r = s := by
  have hmore : ∀ items, items ≠ [] → ∀ rest,
      enclosed items ++ rest = opening ::
        ([','].intercalate (items.map entry) ++ (layout.gap depth ++ closing :: rest)) := by
    intro items hitems rest
    rw [hcons items hitems]
    simp
  have hempty : ∀ x later, (∀ rest, (entry x ++ rest).head? ≠ some closing) →
      ∀ r s, enclosed [] ++ r ≠ enclosed (x :: later) ++ s := by
    intro x later hx r s h
    obtain ⟨rest, hfirst⟩ := exists_intercalate_eq entry x later
    rw [hnil, hmore _ (List.cons_ne_nil x later), hfirst, List.append_assoc] at h
    refine hx (rest ++ (layout.gap depth ++ closing :: s)) ?_
    rw [← (List.cons.inj h).2]
    rfl
  match items, others with
  | [], [] =>
    rw [hnil] at h
    exact ⟨rfl, List.append_cancel_left h⟩
  | [], y :: others => exact absurd h (hempty y others (hhead y (by simp)) r s)
  | x :: items, [] => exact absurd h.symm (hempty x items (hhead x (by simp)) s r)
  | x :: items, y :: others =>
    rw [hmore _ (List.cons_ne_nil x items), hmore _ (List.cons_ne_nil y others)] at h
    obtain ⟨hsame, hrest⟩ := intercalate_append_inj hentry (List.cons_ne_nil x items)
      (List.cons_ne_nil y others) (ends_gap_append hclosing r) (ends_gap_append hclosing s)
      (List.cons.inj h).2
    exact ⟨hsame, (List.cons.inj (List.append_cancel_left hrest)).2⟩

/-- An array can be told from its text if its items can. -/
theorem determines_array {items : List Json} (hitems : ∀ item ∈ items, item.Finite)
    (h : ∀ item ∈ items, layout.Determines item) : layout.Determines (.array items) := by
  intro depth w r s hw _ _ htext
  have hopening := opening_eq (.array hitems) hw htext
  cases w <;> simp [opening] at hopening
  obtain _ | _ | _ | _ | _ | hothers := hw
  have hlist := bracketed_inj layout depth
    (fun items => layout.text depth (.array items))
    (fun item => layout.gap (depth + 1) ++ layout.text (depth + 1) item) (Or.inl rfl)
    (layout.emptyArray depth) (layout.array depth) ?_ ?_ htext
  · obtain ⟨rfl, hrest⟩ := hlist
    exact ⟨rfl, hrest⟩
  · intro item hitem rest
    have hfinite : item.Finite := (List.mem_append.mp hitem).elim (hitems item) (hothers item)
    obtain ⟨c, later, hcons, hc⟩ := layout.exists_text_eq_cons (depth + 1) hfinite
    rw [List.append_assoc]
    exact (head?_gap_append (by rw [hcons]; rfl) (by simp [hc]) _).1
  · intro x hx y hy r s hr hs hentry
    rw [List.append_assoc, List.append_assoc] at hentry
    exact h x hx (depth + 1) y r s (hothers y hy) hr hs (List.append_cancel_left hentry)

/-- An object can be told from its text if the values of its members can. -/
theorem determines_object {members : List (Text × Json)} (hmembers : ∀ m ∈ members, m.2.Finite)
    (h : ∀ m ∈ members, layout.Determines m.2) : layout.Determines (.object members) := by
  intro depth w r s hw _ _ htext
  have hopening := opening_eq (.object hmembers) hw htext
  cases w <;> simp [opening] at hopening
  obtain _ | _ | _ | _ | _ | _ | hothers := hw
  have hlist := bracketed_inj layout depth
    (fun members => layout.text depth (.object members))
    (fun m => layout.gap (depth + 1) ++
      (quote m.1 ++ (layout.colon ++ layout.text (depth + 1) m.2))) (Or.inr rfl)
    (layout.emptyObject depth) (layout.object depth) ?_ ?_ htext
  · obtain ⟨rfl, hrest⟩ := hlist
    exact ⟨rfl, hrest⟩
  · intro m _ rest
    rw [List.append_assoc]
    exact (head?_gap_append (c := '"') rfl (by simp [openingOf?]) _).2
  · rintro ⟨key, x⟩ hx ⟨other, y⟩ hy r s hr hs hentry
    simp only [List.append_assoc] at hentry
    obtain ⟨rfl, hvalue⟩ := quote_append_inj (List.append_cancel_left hentry)
    obtain ⟨rfl, hrest⟩ := h (key, x) hx (depth + 1) y r s (hothers _ hy) hr hs
      (List.append_cancel_left hvalue)
    exact ⟨rfl, hrest⟩

/-- A value with finite numbers can be told from its text, also where more follows. -/
theorem determines (layout : Layout) {v : Json} (hv : v.Finite) : layout.Determines v := by
  -- The first character tells two values apart, but for whole and fractional numbers: these differ
  -- where the digits end.
  induction hv with
  | null =>
    intro depth w r s hw _ _ h
    have hopening := opening_eq .null hw h
    cases w <;> simp [opening] at hopening
    exact ⟨rfl, List.append_cancel_left h⟩
  | bool b =>
    intro depth w r s hw _ _ h
    have hopening := opening_eq (.bool b) hw h
    cases w <;> simp [opening] at hopening
    subst hopening
    exact ⟨rfl, List.append_cancel_left h⟩
  | integer n =>
    intro depth w r s hw hr hs h
    have hopening := opening_eq (.integer n) hw h
    cases w <;> simp [opening] at hopening
    · rw [layout.integer, layout.integer] at h
      obtain ⟨rfl, hrest⟩ := decimal_append_inj hr hs h
      exact ⟨rfl, hrest⟩
    · rw [layout.integer, layout.number] at h
      obtain _ | _ | _ | hy := hw
      exact absurd h (decimal_append_ne_numberText hy hr hs)
  | @number x hx =>
    intro depth w r s hw hr hs h
    have hopening := opening_eq (.number hx) hw h
    cases w <;> simp [opening] at hopening
    · rw [layout.integer, layout.number] at h
      exact absurd h.symm (decimal_append_ne_numberText hx hs hr)
    · rw [layout.number, layout.number] at h
      obtain _ | _ | _ | hy := hw
      obtain ⟨rfl, hrest⟩ := numberText_append_inj hx hy hr hs h
      exact ⟨rfl, hrest⟩
  | string t =>
    intro depth w r s hw _ _ h
    have hopening := opening_eq (.string t) hw h
    cases w <;> simp [opening] at hopening
    rw [layout.string, layout.string] at h
    obtain ⟨rfl, hrest⟩ := quote_append_inj h
    exact ⟨rfl, hrest⟩
  | array hitems ih => exact determines_array hitems ih
  | object hmembers ih => exact determines_object hmembers ih

end Layout

/-! ## The two layouts -/

/-- The items of an array are joined by commas. -/
theorem compactItems_eq (items : List Json) :
    compactItems items = [','].intercalate (items.map compact) := by
  induction items with
  | nil => rfl
  | cons item later ih =>
    cases later with
    | nil => simp [compactItems]
    | cons second others =>
      rw [compactItems, ih]
      · rfl
      · simp

/-- The members of an object are joined by commas. -/
theorem compactMembers_eq (members : List (Text × Json)) :
    compactMembers members =
      [','].intercalate (members.map fun m => quote m.1 ++ (':' :: compact m.2)) := by
  induction members with
  | nil => rfl
  | cons m later ih =>
    cases later with
    | nil => simp [compactMembers]
    | cons second others =>
      rw [compactMembers, ih]
      · simp
      · simp

/-- The items of an array on lines of their own are joined by commas. -/
theorem prettyItems_eq (depth : Nat) (items : List Json) :
    prettyItems depth items =
      [','].intercalate (items.map fun item => newline depth ++ prettyAt depth item) := by
  induction items with
  | nil => rfl
  | cons item later ih =>
    cases later with
    | nil => simp [prettyItems]
    | cons second others =>
      rw [prettyItems, ih]
      · rfl
      · simp

/-- The members of an object on lines of their own are joined by commas. -/
theorem prettyMembers_eq (depth : Nat) (members : List (Text × Json)) :
    prettyMembers depth members =
      [','].intercalate (members.map fun m =>
        newline depth ++ (quote m.1 ++ (": ".toList ++ prettyAt depth m.2))) := by
  induction members with
  | nil => rfl
  | cons m later ih =>
    cases later with
    | nil => simp [prettyMembers]
    | cons second others =>
      rw [prettyMembers, ih]
      · simp
      · simp

/-- The layout without white space. -/
def compactLayout : Layout where
  gap _ := []
  colon := [':']
  text _ := compact
  isSpace_gap _ := by simp [IsSpace]
  null _ := rfl
  bool _ b := by cases b <;> rfl
  integer _ _ := rfl
  number _ _ := rfl
  string _ _ := rfl
  emptyArray _ := rfl
  array _ items _ := by
    change '[' :: (compactItems items ++ [']']) = _
    rw [compactItems_eq]
    rfl
  emptyObject _ := rfl
  object _ members _ := by
    change '{' :: (compactMembers members ++ ['}']) = _
    rw [compactMembers_eq]
    rfl

/-- The layout over lines. -/
def prettyLayout : Layout where
  gap := newline
  colon := ": ".toList
  text := prettyAt
  isSpace_gap depth c hc := by
    rcases List.mem_cons.mp hc with rfl | hblank
    · rfl
    · rw [List.eq_of_mem_replicate hblank]
      rfl
  null _ := rfl
  bool _ b := by cases b <;> rfl
  integer _ _ := rfl
  number _ _ := rfl
  string _ _ := rfl
  emptyArray _ := rfl
  array depth items hitems := by
    obtain ⟨item, later, rfl⟩ := List.exists_cons_of_ne_nil hitems
    change '[' :: (prettyItems (depth + 1) (item :: later) ++ newline depth ++ [']']) = _
    rw [prettyItems_eq, List.append_assoc]
  emptyObject _ := rfl
  object depth members hmembers := by
    obtain ⟨m, later, rfl⟩ := List.exists_cons_of_ne_nil hmembers
    change '{' :: (prettyMembers (depth + 1) (m :: later) ++ newline depth ++ ['}']) = _
    rw [prettyMembers_eq, List.append_assoc]

/-- Values with finite numbers are the same if their texts are. -/
theorem Layout.eq_of_text_eq (layout : Layout) (depth : Nat) {v w : Json} (hv : v.Finite)
    (hw : w.Finite) (h : layout.text depth v = layout.text depth w) : v = w := by
  have hsame : layout.text depth v ++ [] = layout.text depth w ++ [] := by rw [h]
  exact (layout.determines hv depth w [] [] hw stops_nil stops_nil hsame).1

/-- A finite value is told by its compact text. -/
theorem eq_of_compact_eq {v w : Json} (hv : v.Finite) (hw : w.Finite) (h : v.compact = w.compact) :
    v = w :=
  compactLayout.eq_of_text_eq 0 hv hw h

/-- A finite value is told by its text over several lines. -/
theorem eq_of_pretty_eq {v w : Json} (hv : v.Finite) (hw : w.Finite) (h : v.pretty = w.pretty) :
    v = w :=
  prettyLayout.eq_of_text_eq 0 hv hw h

end Storyboard.Json
