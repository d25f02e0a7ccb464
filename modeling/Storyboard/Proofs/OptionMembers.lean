import Storyboard.Options.Reader
import Storyboard.Proofs.JsonValues

/-!
# Only one member decides the options

An object is a list of members with white space around all of its parts. Options are read from it
exactly if every key stands for a text and at most one of the members is a scan mode, which then
names a mode. All other members are passed over, whatever their values are.
-/

namespace Storyboard.Options

open Json

/-- A member of an object as it is written. -/
structure Member where
  before : Text
  key : List Written
  after : Text
  element : Text
  isSpace_before : IsSpace before
  isSpace_after : IsSpace after
  derives : Derives .element element

namespace Member

/-- How a member is written. -/
def text (m : Member) : Text :=
  m.before ++ (literal m.key ++ (m.after ++ ':' :: m.element))

/-- The text that the key of a member stands for. -/
def key? (m : Member) : Option Text :=
  literalText? m.key

/-- A member whose key is that of the scan mode, however it is written. -/
def isScanMode (m : Member) : Bool :=
  m.key? == some scanModeKey

/-- The text of a member is that of a member in the grammar of JSON. -/
theorem derives_text (m : Member) : Derives .member m.text :=
  .member m.key m.isSpace_before m.isSpace_after m.derives

/-- The texts of members with commas between them. -/
def join (members : List Member) : Text :=
  [','].intercalate (members.map text)

/-- The first of several members stands in front of a comma and the others. -/
theorem join_cons_cons (first second : Member) (later : List Member) :
    join (first :: second :: later) = first.text ++ ',' :: join (second :: later) :=
  rfl

/-- A single member stands without commas. -/
theorem join_singleton (m : Member) : join [m] = m.text := by
  simp [join]

end Member

/-- What an object has around its members: white space. -/
structure Frame where
  before : Text
  inner : Text
  after : Text
  isSpace_before : IsSpace before
  isSpace_inner : IsSpace inner
  isSpace_after : IsSpace after

/-- The text of an object with the given members. -/
def Frame.text (frame : Frame) (members : List Member) : Text :=
  frame.before ++ '{' :: (frame.inner ++ (Member.join members ++ '}' :: frame.after))

/-- Every member in the sense of the grammar has such parts. -/
theorem exists_text_eq_of_derives {t : Text} (h : Derives .member t) :
    ∃ m : Member, t = m.text := by
  cases h with
  | @member before after element key hbefore hafter helement =>
    exact ⟨⟨before, key, after, element, hbefore, hafter, helement⟩, rfl⟩

/-- The members of every object are such a list. -/
theorem exists_join_eq_of_derives {t : Text} (h : Derives .members t) :
    ∃ m later, t = Member.join (m :: later) := by
  generalize hpart : Part.members = part at h
  induction h with
  | lastMember h _ =>
    obtain ⟨m, rfl⟩ := exists_text_eq_of_derives h
    exact ⟨m, [], m.join_singleton.symm⟩
  | members h _ _ ih =>
    obtain ⟨m, rfl⟩ := exists_text_eq_of_derives h
    obtain ⟨second, later, rfl⟩ := ih rfl
    exact ⟨m, second :: later, rfl⟩
  | _ => cases hpart

/-- A list of members is what the grammar describes, also after white space. -/
theorem derives_join {space : Text} (hspace : IsSpace space) (m : Member) (later : List Member) :
    Derives .members (space ++ Member.join (m :: later)) := by
  have hfirst : ∀ (space : Text) (m : Member), IsSpace space → Derives .member (space ++ m.text) :=
    fun space m hspace => by
      have h := Derives.member m.key (hspace.append m.isSpace_before) m.isSpace_after m.derives
      rwa [List.append_assoc] at h
  induction later generalizing space m with
  | nil =>
    rw [Member.join_singleton]
    exact .lastMember (hfirst space m hspace)
  | cons second later ih =>
    have hnone : IsSpace [] := by simp [IsSpace]
    have hlater : Derives .members ([] ++ Member.join (second :: later)) := ih hnone second
    rw [Member.join_cons_cons, ← List.append_assoc]
    exact .members (hfirst space m hspace) hlater

/-- The text of an object is a value with white space around it. -/
theorem Frame.derives_text (frame : Frame) (members : List Member) :
    Derives .element (frame.text members) := by
  have hvalue : Derives .value ('{' :: (frame.inner ++ Member.join members ++ ['}'])) := by
    cases members with
    | nil =>
      have hempty : frame.inner ++ Member.join [] = frame.inner := List.append_nil frame.inner
      rw [hempty]
      exact .emptyObject frame.isSpace_inner
    | cons m later => exact .object (derives_join frame.isSpace_inner m later)
  have h := Derives.element frame.isSpace_before hvalue frame.isSpace_after
  simpa [Frame.text] using h

/-- A value that names a scan mode: a string, or an object with that string as its one key and
`null` as the value. -/
inductive NamesMode (mode : ScanMode) : Text → Prop
  | string {before after : Text} {name : List Written} (hbefore : IsSpace before)
      (hname : literalText? name = some mode.name) (hafter : IsSpace after) :
      NamesMode mode (before ++ (literal name ++ after))
  | tagged {before inner nameAfter nullBefore nullAfter after : Text} {name : List Written}
      (hbefore : IsSpace before) (hinner : IsSpace inner)
      (hname : literalText? name = some mode.name) (hnameAfter : IsSpace nameAfter)
      (hnullBefore : IsSpace nullBefore) (hnullAfter : IsSpace nullAfter) (hafter : IsSpace after) :
      NamesMode mode (before ++ '{' :: (inner ++ (literal name ++ (nameAfter ++
        ':' :: (nullBefore ++ (wordText none ++ (nullAfter ++ '}' :: after)))))))

/-! ## Reading a scan mode -/

/-- A string is a scan mode exactly if it stands for the name of one. -/
theorem modeOfString_eq_ok_iff {content : List Written} {mode : ScanMode} :
    modeOfString (content.map Written.piece) (.ok ()) = .ok mode ↔
      literalText? content = some mode.name := by
  rw [modeOfString, literalText?]
  cases decode (content.map Written.piece) (.ok ()) with
  | error fault => simp [Except.toOption]
  | ok name =>
    simp only [Except.toOption, Option.some_inj, ← ScanMode.ofName?_eq_some_iff]
    cases ScanMode.ofName? name <;> simp

/-- A value that names a scan mode is read. -/
theorem readMode_of_namesMode {mode : ScanMode} {t rest : Text} (h : NamesMode mode t) :
    readMode (lexemes (t ++ rest)) = .ok (mode, lexemes rest) := by
  cases h with
  | @string before after name hbefore hname hafter =>
    rw [List.append_assoc, List.append_assoc, lexemes_space hbefore, lexemes_literal,
      lexemes_space hafter, readMode, modeOfString_eq_ok_iff.mpr hname]
    rfl
  | @tagged before inner nameAfter nullBefore nullAfter after name hbefore hinner hname hnameAfter
      hnullBefore hnullAfter hafter =>
    have hlexemes : lexemes (before ++ '{' :: (inner ++ (literal name ++ (nameAfter ++
        ':' :: (nullBefore ++ (wordText none ++ (nullAfter ++ '}' :: after)))))) ++ rest) =
          [.openObject, .string (name.map Written.piece) (.ok ()), .colon, .word (.ok none),
            .closeObject] ++ lexemes rest := by
      simp only [List.append_assoc, List.cons_append]
      rw [lexemes_space hbefore, lexemes_openObject, lexemes_space hinner, lexemes_literal,
        lexemes_space hnameAfter, lexemes_colon, lexemes_space hnullBefore, lexemes_word,
        lexemes_space hnullAfter, lexemes_closeObject, lexemes_space hafter]
      rfl
    rw [hlexemes]
    simp only [List.cons_append, List.nil_append, readMode, readTagged, readColon, readNull,
      readCloseObject, modeOfString_eq_ok_iff.mpr hname, bind, Except.bind]
    rfl

/-- Only `null` is read as such. -/
theorem eq_null_of_readNull {t rest : Text} {left : List Lexeme} (h : Derives .element t)
    (hrest : Stops rest) (hread : readNull (lexemes (t ++ rest)) = .ok left) :
    ∃ before after, IsSpace before ∧ IsSpace after ∧ t = before ++ (wordText none ++ after) ∧
      left = lexemes rest := by
  cases h with
  | @element before value after hbefore hvalue hafter =>
    rw [List.append_assoc, List.append_assoc, lexemes_space hbefore] at hread
    cases hvalue with
    | word value =>
      rw [lexemes_word, lexemes_space hafter] at hread
      cases value with
      | none => exact ⟨before, after, hbefore, hafter, rfl, (Except.ok.inj hread).symm⟩
      | some b => simp [readNull] at hread
    | number h => simp [lexemes_number h (hrest.append hafter), readNull] at hread
    | negative h =>
      rw [lexemes_negative h (hrest.append hafter)] at hread
      simp [readNull] at hread
    | string content => simp [lexemes_literal, readNull] at hread
    | emptyArray | array => simp [lexemes_openArray, readNull] at hread
    | emptyObject | object => simp [lexemes_openObject, readNull] at hread

/-- The one member of an object that is read as a scan mode. -/
theorem namesMode_of_readTagged {mode : ScanMode} {before members after rest : Text}
    {left : List Lexeme} (hbefore : IsSpace before) (h : Derives .members members)
    (hafter : IsSpace after)
    (hread : readTagged (lexemes (members ++ '}' :: (after ++ rest))) = .ok (mode, left)) :
    NamesMode mode (before ++ ('{' :: (members ++ ['}']) ++ after)) ∧ left = lexemes rest := by
  -- Whatever follows the first member, it has to be the closing bracket.
  have hmember : ∀ member following, Derives .member member → Stops following →
      readTagged (lexemes (member ++ following)) = .ok (mode, left) →
      ∃ inner name nameAfter nullBefore nullAfter, IsSpace inner ∧
        literalText? name = some mode.name ∧ IsSpace nameAfter ∧ IsSpace nullBefore ∧
        IsSpace nullAfter ∧ member = inner ++ (literal name ++ (nameAfter ++
          ':' :: (nullBefore ++ (wordText none ++ nullAfter)))) ∧
        readCloseObject (lexemes following) = .ok left := by
    intro member following hmember hfollowing hread
    cases hmember with
    | @member inner nameAfter element name hinner hnameAfter helement =>
      simp only [List.append_assoc, List.cons_append] at hread
      rw [lexemes_space hinner, lexemes_literal, lexemes_space hnameAfter, lexemes_colon,
        readTagged] at hread
      obtain ⟨found, hfound, hread⟩ := eq_ok_of_bind hread
      obtain ⟨_, ⟨rfl⟩, hread⟩ := eq_ok_of_bind hread
      obtain ⟨later, hnull, hread⟩ := eq_ok_of_bind hread
      obtain ⟨last, hclose, hread⟩ := eq_ok_of_bind hread
      obtain ⟨rfl, rfl⟩ := Prod.mk.inj (Except.ok.inj hread)
      obtain ⟨nullBefore, nullAfter, hnullBefore, hnullAfter, rfl, rfl⟩ :=
        eq_null_of_readNull helement hfollowing hnull
      exact ⟨inner, name, nameAfter, nullBefore, nullAfter, hinner,
        modeOfString_eq_ok_iff.mp hfound, hnameAfter, hnullBefore, hnullAfter, rfl, hclose⟩
  cases h with
  | lastMember h =>
    obtain ⟨inner, name, nameAfter, nullBefore, nullAfter, hinner, hname, hnameAfter, hnullBefore,
      hnullAfter, rfl, hclose⟩ := hmember _ _ h (stops_closeObject _) hread
    rw [lexemes_closeObject, lexemes_space hafter] at hclose
    refine ⟨?_, (Except.ok.inj hclose).symm⟩
    simpa using NamesMode.tagged hbefore hinner hname hnameAfter hnullBefore hnullAfter hafter
  | @members first later h hlater =>
    -- A comma stands behind the first member, where the bracket should be.
    rw [List.append_assoc, List.cons_append] at hread
    obtain ⟨_, _, _, _, _, _, _, _, _, _, _, hclose⟩ := hmember _ _ h (stops_comma _) hread
    simp [lexemes_comma, readCloseObject] at hclose

/-- Only a value that names a scan mode is read as one, up to its end. -/
theorem namesMode_of_readMode {mode : ScanMode} {t rest : Text} {left : List Lexeme}
    (h : Derives .element t) (hrest : Stops rest)
    (hread : readMode (lexemes (t ++ rest)) = .ok (mode, left)) :
    NamesMode mode t ∧ left = lexemes rest := by
  cases h with
  | @element before value after hbefore hvalue hafter =>
    rw [List.append_assoc, List.append_assoc, lexemes_space hbefore] at hread
    cases hvalue with
    | word value => simp [lexemes_word, readMode] at hread
    | number h => simp [lexemes_number h (hrest.append hafter), readMode] at hread
    | negative h =>
      rw [lexemes_negative h (hrest.append hafter)] at hread
      simp [readMode] at hread
    | string content =>
      rw [lexemes_literal, lexemes_space hafter, readMode] at hread
      cases hmode : modeOfString (content.map Written.piece) (.ok ()) with
      | error fault => simp [hmode, Except.map] at hread
      | ok found =>
        rw [hmode] at hread
        obtain ⟨rfl, rfl⟩ := Prod.mk.inj (Except.ok.inj hread)
        exact ⟨.string hbefore (modeOfString_eq_ok_iff.mp hmode) hafter, rfl⟩
    | emptyArray | array => simp [lexemes_openArray, readMode] at hread
    | emptyObject hspace =>
      simp [lexemes_openObject, lexemes_space hspace, lexemes_closeObject, readMode, readTagged]
        at hread
    | object h =>
      rw [List.cons_append, List.append_assoc, lexemes_openObject, readMode,
        List.singleton_append] at hread
      exact namesMode_of_readTagged hbefore h hafter hread

/-! ## Reading the members -/

/-- What has been found before and after a member is read. -/
inductive Member.Gives (m : Member) : Option ScanMode → Option ScanMode → Prop
  | other {key : Text} {found : Option ScanMode} (h : m.key? = some key)
      (hne : key ≠ scanModeKey) : m.Gives found found
  | scanMode {mode : ScanMode} (h : m.key? = some scanModeKey)
      (hmode : NamesMode mode m.element) : m.Gives none (some mode)

/-- A member consists of its key, a colon and the lexemes of its element. -/
theorem lexemes_member (m : Member) (rest : Text) :
    lexemes (m.text ++ rest) =
      .string (m.key.map Written.piece) (.ok ()) :: .colon :: lexemes (m.element ++ rest) := by
  rw [Member.text, List.append_assoc, List.append_assoc, List.append_assoc,
    lexemes_space m.isSpace_before, lexemes_literal, lexemes_space m.isSpace_after,
    List.cons_append, lexemes_colon]

/-- The key of a member is decoded to the text that it stands for. -/
theorem Member.decode_of_key?_eq_some {m : Member} {key : Text} (h : m.key? = some key) :
    decode (m.key.map Written.piece) (.ok ()) = .ok key := by
  rw [key?, literalText?] at h
  cases hdecode : decode (m.key.map Written.piece) (.ok ()) with
  | error fault => simp [hdecode, Except.toOption] at h
  | ok found =>
    rw [hdecode] at h
    rw [Option.some.inj h]

/-- A member with any other key is passed over. -/
theorem readMember_other {m : Member} {key : Text} (h : m.key? = some key) (hne : key ≠ scanModeKey)
    (found : Option ScanMode) {rest : Text} (hrest : Stops rest) :
    readMember found (lexemes (m.text ++ rest)) = .ok (found, lexemes rest) := by
  rw [lexemes_member, readMember, Member.decode_of_key?_eq_some h]
  simp only [bind, Except.bind, if_neg hne, readColon, skipValue_append m.derives hrest]
  rfl

/-- A second scan mode is refused as soon as its key is read. -/
theorem readMember_scanMode_some {m : Member} (h : m.key? = some scanModeKey) (found : ScanMode)
    (rest : Text) : readMember (some found) (lexemes (m.text ++ rest)) = .error .unsuitable := by
  rw [lexemes_member, readMember, Member.decode_of_key?_eq_some h]
  rfl

/-- The first scan mode is what its member names. -/
theorem readMember_scanMode_none {m : Member} (h : m.key? = some scanModeKey) (rest : Text) :
    readMember none (lexemes (m.text ++ rest)) =
      (readMode (lexemes (m.element ++ rest))).map fun (mode, left) => (some mode, left) := by
  rw [lexemes_member, readMember, Member.decode_of_key?_eq_some h]
  simp only [bind, Except.bind, readColon]
  cases readMode (lexemes (m.element ++ rest)) <;> rfl

/-- A member whose key stands for no text is refused. -/
theorem readMember_of_key?_eq_none {m : Member} (h : m.key? = none) (found : Option ScanMode)
    (rest : Text) : ∃ fault, readMember found (lexemes (m.text ++ rest)) = .error fault := by
  rw [lexemes_member, readMember]
  cases hdecode : decode (m.key.map Written.piece) (.ok ()) with
  | error fault => exact ⟨fault, rfl⟩
  | ok key => simp [Member.key?, literalText?, hdecode, Except.toOption] at h

/-- A member is read up to its end. -/
theorem readMember_eq_ok_iff (m : Member) {found result : Option ScanMode} {rest : Text}
    {left : List Lexeme} (hrest : Stops rest) :
    readMember found (lexemes (m.text ++ rest)) = .ok (result, left) ↔
      m.Gives found result ∧ left = lexemes rest := by
  constructor
  · intro hread
    cases hkey : m.key? with
    | none =>
      obtain ⟨fault, herror⟩ := readMember_of_key?_eq_none hkey found rest
      simp [herror] at hread
    | some key =>
      by_cases hscan : key = scanModeKey
      · subst hscan
        cases found with
        | some mode => simp [readMember_scanMode_some hkey] at hread
        | none =>
          rw [readMember_scanMode_none hkey] at hread
          cases hmode : readMode (lexemes (m.element ++ rest)) with
          | error fault => simp [hmode, Except.map] at hread
          | ok reading =>
            obtain ⟨hnames, hleft⟩ := namesMode_of_readMode m.derives hrest hmode
            rw [hmode] at hread
            obtain ⟨rfl, rfl⟩ := Prod.mk.inj (Except.ok.inj hread)
            exact ⟨.scanMode hkey hnames, hleft⟩
      · rw [readMember_other hkey hscan found hrest] at hread
        obtain ⟨rfl, rfl⟩ := Prod.mk.inj (Except.ok.inj hread)
        exact ⟨.other hkey hscan, rfl⟩
  · rintro ⟨hgives, rfl⟩
    cases hgives with
    | other h hne => exact readMember_other h hne found hrest
    | scanMode h hmode =>
      rw [readMember_scanMode_none h, readMode_of_namesMode hmode]
      rfl

/-- What has been found before and after some members are read. -/
inductive GivesAll : Option ScanMode → List Member → Option ScanMode → Prop
  | nil (found) : GivesAll found [] found
  | cons {found next result : Option ScanMode} {m : Member} {later : List Member}
      (h : m.Gives found next) (hlater : GivesAll next later result) :
      GivesAll found (m :: later) result

/-- Members are refused as soon as the first of them is. -/
theorem readMembers_error {found : Option ScanMode} {ls : List Lexeme} {fault : Fault}
    (h : readMember found ls = .error fault) : readMembers found ls = .error fault := by
  rw [readMembers]
  split <;> simp_all

/-- Behind the last member the object ends. -/
theorem readMembers_closeObject {found next : Option ScanMode} {ls rest : List Lexeme}
    (h : readMember found ls = .ok (next, .closeObject :: rest)) :
    readMembers found ls = .ok (next, rest) := by
  rw [readMembers]
  split <;> simp_all

/-- Behind a comma the other members are read. -/
theorem readMembers_comma {found next : Option ScanMode} {ls rest : List Lexeme}
    (h : readMember found ls = .ok (next, .comma :: rest)) :
    readMembers found ls = readMembers next rest := by
  rw [readMembers]
  split <;> simp_all

/-- All members are read in turn, up to the closing bracket. -/
theorem readMembers_of_givesAll {m : Member} {later : List Member} {found result : Option ScanMode}
    (h : GivesAll found (m :: later) result) (rest : Text) :
    readMembers found (lexemes (Member.join (m :: later) ++ '}' :: rest)) =
      .ok (result, lexemes rest) := by
  induction later generalizing m found with
  | nil =>
    obtain _ | ⟨hgives, _ | _⟩ := h
    have hread := (readMember_eq_ok_iff m (stops_closeObject rest)).mpr ⟨hgives, rfl⟩
    rw [lexemes_closeObject] at hread
    rw [Member.join_singleton]
    exact readMembers_closeObject hread
  | cons second later ih =>
    obtain _ | ⟨hgives, hlater⟩ := h
    let others := Member.join (second :: later) ++ '}' :: rest
    have hread := (readMember_eq_ok_iff m (stops_comma others)).mpr ⟨hgives, rfl⟩
    rw [lexemes_comma] at hread
    rw [Member.join_cons_cons, List.append_assoc, List.cons_append]
    exact (readMembers_comma hread).trans (ih hlater)

/-- Members that are read without a fault give what was found. -/
theorem givesAll_of_readMembers {m : Member} {later : List Member} {found result : Option ScanMode}
    {rest : Text} {left : List Lexeme}
    (h : readMembers found (lexemes (Member.join (m :: later) ++ '}' :: rest)) =
      .ok (result, left)) :
    GivesAll found (m :: later) result ∧ left = lexemes rest := by
  induction later generalizing m found with
  | nil =>
    rw [Member.join_singleton] at h
    cases hread : readMember found (lexemes (m.text ++ '}' :: rest)) with
    | error fault => simp [readMembers_error hread] at h
    | ok reading =>
      obtain ⟨next, following⟩ := reading
      obtain ⟨hgives, rfl⟩ := (readMember_eq_ok_iff m (stops_closeObject rest)).mp hread
      rw [lexemes_closeObject] at hread
      rw [readMembers_closeObject hread] at h
      obtain ⟨rfl, rfl⟩ := Prod.mk.inj (Except.ok.inj h)
      exact ⟨.cons hgives (.nil _), rfl⟩
  | cons second later ih =>
    rw [Member.join_cons_cons, List.append_assoc, List.cons_append] at h
    let others := Member.join (second :: later) ++ '}' :: rest
    cases hread : readMember found (lexemes (m.text ++ ',' :: others)) with
    | error fault => simp [others, readMembers_error hread] at h
    | ok reading =>
      obtain ⟨next, following⟩ := reading
      obtain ⟨hgives, rfl⟩ := (readMember_eq_ok_iff m (stops_comma others)).mp hread
      rw [lexemes_comma] at hread
      rw [readMembers_comma hread] at h
      obtain ⟨hlater, hleft⟩ := ih h
      exact ⟨.cons hgives hlater, hleft⟩

/-- An object that begins with a string is read member by member. -/
theorem readObject_of_string (pieces : List Piece) (ending : Except Fault Unit)
    (rest : List Lexeme) :
    readObject (.string pieces ending :: rest) = readMembers none (.string pieces ending :: rest) :=
  rfl

/-- An object is read exactly if its members give a scan mode or none. -/
theorem readObject_eq_ok_iff {members : List Member} {result : Option ScanMode} {rest : Text}
    {left : List Lexeme} :
    readObject (lexemes (Member.join members ++ '}' :: rest)) = .ok (result, left) ↔
      GivesAll none members result ∧ left = lexemes rest := by
  cases members with
  | nil =>
    have hread : readObject (lexemes (Member.join [] ++ '}' :: rest)) =
        .ok (none, lexemes rest) := by
      change readObject (lexemes ('}' :: rest)) = _
      rw [lexemes_closeObject, readObject]
    rw [hread]
    constructor
    · intro h
      obtain ⟨rfl, rfl⟩ := Prod.mk.inj (Except.ok.inj h)
      exact ⟨.nil none, rfl⟩
    · rintro ⟨_ | _, rfl⟩
      rfl
  | cons m later =>
    have hread : readObject (lexemes (Member.join (m :: later) ++ '}' :: rest)) =
        readMembers none (lexemes (Member.join (m :: later) ++ '}' :: rest)) := by
      cases later with
      | nil => rw [Member.join_singleton, lexemes_member, readObject_of_string]
      | cons second others =>
        rw [Member.join_cons_cons, List.append_assoc, lexemes_member, readObject_of_string]
    rw [hread]
    constructor
    · exact givesAll_of_readMembers
    · rintro ⟨h, rfl⟩
      exact readMembers_of_givesAll h rest

/-- Options are read from an object exactly if its members give a scan mode or none. -/
theorem ofJson_text_eq_ok_iff (frame : Frame) (members : List Member) (options : Options) :
    ofJson (frame.text members) = .ok options ↔
      ∃ found, GivesAll none members found ∧ options = ⟨found.getD .boundaryPreserving⟩ := by
  have hafter : lexemes frame.after = [] := by
    rw [← List.append_nil frame.after, lexemes_space frame.isSpace_after, lexemes]
  have hlexemes : lexemes (frame.text members) =
      .openObject :: lexemes (Member.join members ++ '}' :: frame.after) := by
    rw [Frame.text, lexemes_space frame.isSpace_before, lexemes_openObject,
      lexemes_space frame.isSpace_inner]
  rw [ofJson, hlexemes, readOptions]
  constructor
  · intro h
    split at h
    next => simp at h
    next found hread =>
      obtain ⟨hgives, -⟩ := readObject_eq_ok_iff.mp hread
      exact ⟨found, hgives, (Except.ok.inj h).symm⟩
    next => simp at h
  · rintro ⟨found, hgives, rfl⟩
    rw [readObject_eq_ok_iff.mpr ⟨hgives, rfl⟩, hafter]

/-! ## The scan mode among the members -/

/-- A member is a scan mode exactly if its key stands for that of the scan mode. -/
theorem Member.isScanMode_eq_true_iff {m : Member} :
    m.isScanMode = true ↔ m.key? = some scanModeKey := by
  rw [isScanMode, beq_iff_eq]

/-- A member with any other key is no scan mode. -/
theorem Member.isScanMode_eq_false {m : Member} {key : Text} (h : m.key? = some key)
    (hne : key ≠ scanModeKey) : m.isScanMode = false := by
  simpa [isScanMode, h] using hne

/-- What has been found after reading, given what was found before and the members that are a scan
mode. There is no place for a second one. -/
def Settles : Option ScanMode → List Member → Option ScanMode → Prop
  | found, [], result => result = found
  | none, [m], result => ∃ mode, result = some mode ∧ NamesMode mode m.element
  | _, _, _ => False

/-- A first scan mode settles what is found if nothing was found before and no other one comes. -/
theorem settles_cons_iff {found result : Option ScanMode} {m : Member} {others : List Member} :
    Settles found (m :: others) result ↔ found = none ∧ others = [] ∧
      ∃ mode, result = some mode ∧ NamesMode mode m.element := by
  cases found <;> cases others <;> simp [Settles]

/-- Once a scan mode has been found, none may come. -/
theorem settles_some_iff {mode : ScanMode} {result : Option ScanMode} {others : List Member} :
    Settles (some mode) others result ↔ others = [] ∧ result = some mode := by
  cases others <;> simp [Settles]

/-- A member with any other key gives what was found before. -/
theorem Member.gives_other_iff {m : Member} {key : Text} (h : m.key? = some key)
    (hne : key ≠ scanModeKey) {found result : Option ScanMode} :
    m.Gives found result ↔ result = found := by
  constructor
  · intro hgives
    cases hgives with
    | other => rfl
    | scanMode hscan => exact absurd (Option.some.inj (h.symm.trans hscan)) hne
  · rintro rfl
    exact .other h hne

/-- A scan mode is given only where none was found before. -/
theorem Member.gives_scanMode_iff {m : Member} (h : m.key? = some scanModeKey)
    {found result : Option ScanMode} :
    m.Gives found result ↔
      found = none ∧ ∃ mode, result = some mode ∧ NamesMode mode m.element := by
  constructor
  · intro hgives
    cases hgives with
    | other hother hne => exact absurd (Option.some.inj (hother.symm.trans h)) hne
    | scanMode _ hmode => exact ⟨rfl, _, rfl, hmode⟩
  · rintro ⟨rfl, mode, rfl, hmode⟩
    exact .scanMode h hmode

/-- Members are read from the first one on. -/
theorem givesAll_cons_iff {found result : Option ScanMode} {m : Member} {later : List Member} :
    GivesAll found (m :: later) result ↔
      ∃ next, m.Gives found next ∧ GivesAll next later result := by
  constructor
  · rintro (_ | ⟨hgives, hlater⟩)
    exact ⟨_, hgives, hlater⟩
  · rintro ⟨next, hgives, hlater⟩
    exact .cons hgives hlater

/-- Only the members that are a scan mode count, if all keys stand for a text. -/
theorem givesAll_iff {members : List Member} {found result : Option ScanMode} :
    GivesAll found members result ↔
      (∀ m ∈ members, m.key?.isSome = true) ∧
        Settles found (members.filter Member.isScanMode) result := by
  induction members generalizing found with
  | nil =>
    constructor
    · rintro ⟨⟩
      exact ⟨by simp, by cases result <;> rfl⟩
    · rintro ⟨-, h⟩
      have hsame : result = found := by cases found <;> exact h
      exact hsame ▸ .nil found
  | cons m later ih =>
    rw [givesAll_cons_iff, List.forall_mem_cons]
    cases hkey : m.key? with
    | none =>
      constructor
      · rintro ⟨_, hgives, -⟩
        cases hgives <;> simp_all
      · rintro ⟨⟨h, -⟩, -⟩
        simp at h
    | some key =>
      by_cases hscan : key = scanModeKey
      · subst hscan
        have hfilter : (m :: later).filter Member.isScanMode =
            m :: later.filter Member.isScanMode :=
          List.filter_cons_of_pos (Member.isScanMode_eq_true_iff.mpr hkey)
        simp only [Member.gives_scanMode_iff hkey, hfilter, ih, settles_cons_iff]
        constructor
        · rintro ⟨_, ⟨rfl, mode, rfl, hmode⟩, hkeys, hsettles⟩
          obtain ⟨hnone, rfl⟩ := settles_some_iff.mp hsettles
          exact ⟨⟨rfl, hkeys⟩, rfl, hnone, mode, rfl, hmode⟩
        · rintro ⟨⟨-, hkeys⟩, rfl, hnone, mode, rfl, hmode⟩
          exact ⟨some mode, ⟨rfl, mode, rfl, hmode⟩, hkeys, settles_some_iff.mpr ⟨hnone, rfl⟩⟩
      · have hfilter : (m :: later).filter Member.isScanMode = later.filter Member.isScanMode :=
          List.filter_cons_of_neg (by simp [Member.isScanMode_eq_false hkey hscan])
        simp [Member.gives_other_iff hkey hscan, hfilter, ih]

/-- Members choose a scan mode: every key stands for a text, and the mode is the one that is named
by the only member that is a scan mode, or the default without any. -/
def Chooses (members : List Member) (mode : ScanMode) : Prop :=
  (∀ m ∈ members, m.key?.isSome = true) ∧
    match members.filter Member.isScanMode with
    | [] => mode = .boundaryPreserving
    | [m] => NamesMode mode m.element
    | _ => False

/-- Options are read from an object exactly if its members choose their scan mode. -/
theorem ofJson_eq_ok_iff_chooses (frame : Frame) (members : List Member) (options : Options) :
    ofJson (frame.text members) = .ok options ↔ Chooses members options.scanMode := by
  rw [ofJson_text_eq_ok_iff, Chooses]
  simp only [givesAll_iff, and_assoc, exists_and_left]
  refine and_congr_right fun _ => ?_
  obtain ⟨mode⟩ := options
  match members.filter Member.isScanMode with
  | [] => simp [Settles]
  | [m] =>
    simp only [Settles, Options.mk.injEq]
    constructor
    · rintro ⟨_, ⟨named, rfl, hnames⟩, rfl⟩
      exact hnames
    · exact fun hnames => ⟨some mode, ⟨mode, rfl, hnames⟩, rfl⟩
  | _ :: _ :: _ => simp [Settles]

/-- There is no choice between two scan modes. -/
theorem Chooses.length_filter_le {members : List Member} {mode : ScanMode}
    (h : Chooses members mode) : (members.filter Member.isScanMode).length ≤ 1 := by
  obtain ⟨-, hmode⟩ := h
  match hfilter : members.filter Member.isScanMode with
  | [] => simp
  | [m] => simp
  | _ :: _ :: _ => simp [hfilter] at hmode

/-- Only one member decides the options. An object is read exactly if its members choose a scan
mode. A member with another key can be put in anywhere or taken out, and two scan modes are always
refused. -/
theorem only_scanMode_decides (frame other : Frame) :
    (∀ members options,
      ofJson (frame.text members) = .ok options ↔ Chooses members options.scanMode) ∧
    (∀ front back (m : Member) key, m.key? = some key → key ≠ scanModeKey → ∀ options,
      ofJson (frame.text (front ++ m :: back)) = .ok options ↔
        ofJson (other.text (front ++ back)) = .ok options) ∧
    (∀ front middle back (first second : Member), first.key? = some scanModeKey →
      second.key? = some scanModeKey →
        ∃ fault,
          ofJson (frame.text (front ++ first :: (middle ++ second :: back))) = .error fault) := by
  refine ⟨ofJson_eq_ok_iff_chooses frame, ?_, ?_⟩
  · intro front back m key hkey hne options
    have hscan : ¬m.isScanMode = true := by simp [Member.isScanMode_eq_false hkey hne]
    have hfilter : (front ++ m :: back).filter Member.isScanMode =
        (front ++ back).filter Member.isScanMode := by
      rw [List.filter_append, List.filter_append, List.filter_cons_of_neg hscan]
    rw [ofJson_eq_ok_iff_chooses, ofJson_eq_ok_iff_chooses, Chooses, Chooses, hfilter]
    refine and_congr_left fun _ => ?_
    simp [or_imp, forall_and, hkey]
  · intro front middle back first second hfirst hsecond
    have hrefused : ∀ options,
        ofJson (frame.text (front ++ first :: (middle ++ second :: back))) ≠ .ok options := by
      intro options hok
      have hlength := ((ofJson_eq_ok_iff_chooses frame _ _).mp hok).length_filter_le
      simp only [List.filter_append, List.length_append,
        List.filter_cons_of_pos (Member.isScanMode_eq_true_iff.mpr hfirst),
        List.filter_cons_of_pos (Member.isScanMode_eq_true_iff.mpr hsecond), List.length_cons]
        at hlength
      omega
    cases hread : ofJson (frame.text (front ++ first :: (middle ++ second :: back))) with
    | error fault => exact ⟨fault, rfl⟩
    | ok options => exact absurd hread (hrefused options)

/-- A member with a list as its value is put in before a scan mode, and a second scan mode is
refused although its key is written with an escape and its value names no mode. -/
theorem only_scanMode_decides_escaped :
    ∃ (frame : Frame) (listed named escaped : Member),
      frame.text [listed, named] = "\x7b\"x\": [1],\"scanMode\":\"legacy\" \x7d".toList ∧
      frame.text [named] = "\x7b\"scanMode\":\"legacy\" \x7d".toList ∧
      frame.text [named, listed, escaped] =
        "\x7b\"scanMode\":\"legacy\" ,\"x\": [1],\"scan\\u004dode\":null\x7d".toList ∧
      ofJson (frame.text [listed, named]) = .ok ⟨.legacy⟩ ∧
      ofJson (frame.text [named]) = .ok ⟨.legacy⟩ ∧
      ∃ fault, ofJson (frame.text [named, listed, escaped]) = .error fault := by
  have hnone : IsSpace [] := by simp [IsSpace]
  have hblank : IsSpace [' '] := by simp [IsSpace, isSpace]
  have hwhole : IsWhole ['1'] := .digits (isDigits_singleton rfl) (by decide)
  have hone : Numeral.Spells ⟨['1'], [], false, []⟩ (['1'] ++ ([] ++ [])) :=
    .parts hwhole .missing .missing
  let x := plainly "x".toList (forall_plain_of_all rfl)
  let scanMode := plainly "scanMode".toList (forall_plain_of_all rfl)
  let legacy := plainly "legacy".toList (forall_plain_of_all rfl)
  let frame : Frame := ⟨[], [], [], hnone, hnone, hnone⟩
  let listed : Member := ⟨[], x, [], " [1]".toList, hnone, hnone,
    .element hblank (.array (.lastElement (.element hnone (.number hone) hnone))) hnone⟩
  let named : Member := ⟨[], scanMode, [], "\"legacy\" ".toList, hnone, hnone,
    .element hnone (.string legacy) hblank⟩
  let escaped : Member := ⟨[], plainly "scan".toList (forall_plain_of_all rfl) ++
    .numeric '0' '0' '4' 'd' 0 0 4 13 (by decide) (by decide) (by decide) (by decide) ::
      plainly "ode".toList (forall_plain_of_all rfl), [], "null".toList, hnone, hnone,
    .element hnone (.word none) hnone⟩
  have hlisted : listed.key? = some "x".toList := literalText?_plainly _ (forall_plain_of_all rfl)
  have hnamed : named.key? = some scanModeKey := literalText?_plainly _ (forall_plain_of_all rfl)
  have hescaped : escaped.key? = some scanModeKey := rfl
  obtain ⟨hread, hinserted, hrefused⟩ := only_scanMode_decides frame frame
  have hlegacy : ofJson (frame.text [named]) = .ok ⟨.legacy⟩ := by
    refine (hread [named] ⟨.legacy⟩).mpr ⟨by simp [hnamed], ?_⟩
    have hmode : literalText? legacy = some ScanMode.legacy.name :=
      literalText?_plainly _ (forall_plain_of_all rfl)
    exact NamesMode.string hnone hmode hblank
  refine ⟨frame, listed, named, escaped, rfl, rfl, rfl, ?_, hlegacy, ?_⟩
  · exact (hinserted [] [named] listed "x".toList hlisted (by decide) _).mpr hlegacy
  · exact hrefused [] [listed] [] named escaped hnamed hescaped

end Storyboard.Options
