import Storyboard.Proofs.Cuts

/-!
# Compiling with checked cuts

Offsets into a line are sums and differences of the sizes of characters, keywords and delimiters.
Here a script is compiled in such a way that the line is cut at these offsets and that every cut,
every difference and every look at a neighbouring token is checked. A checked compilation that hits
an offset inside a character, or behind the end of the line, has no result. It always has one, and
the result is the report of the script.
-/

namespace Storyboard

namespace Text

/-- What is left of a text behind an offset, if it can be cut there. -/
def dropBytes? (t : Text) (n : Nat) : Option Text :=
  if t.isCut n then some (t.dropBytes n) else none

/-- The text between two offsets that are in order, if it can be cut at both of them. -/
def between? (t : Text) (start stop : Nat) : Option Text :=
  if start ≤ stop && t.isCut start && t.isCut stop then some (t.slice start stop) else none

end Text

/-- In how many bytes the beginning of a text spells a word in either case. -/
def spelledSize? : Text → Text → Option Nat
  | [], _ => some 0
  | _ :: _, [] => none
  | expected :: word, c :: rest =>
    if sameLetter expected c then (spelledSize? word rest).map (c.utf8Size + ·) else none

/-- The first entry of a table that is spelled at the beginning of a text and closed there, and in
how many bytes. The text is cut behind each spelling. -/
def firstClosed? (t : Text) : List (Text × Kind) → Option (Option (Kind × Nat))
  | [] => some none
  | (word, kind) :: others =>
    match spelledSize? word t with
    | none => firstClosed? t others
    | some size => do
      let after ← t.dropBytes? size
      if endsKeyword after then return some (kind, size) else firstClosed? t others

/-- The kind of the keyword at an offset, if there is one, and the bytes that it takes. -/
def keywordSizeAt? (line : Text) (offset : Nat) : Option (Option (Kind × Nat)) := do
  let rest ← line.dropBytes? offset
  firstClosed? rest keywords

namespace Token

/-- The offset at which a keyword is opened, if it is. The character before it has to fit in front
of it. -/
def openingWithin? (before : Option Char) (offset : Nat) : Option (Option Nat) :=
  match before with
  | none => some (some offset)
  | some c =>
    if isDelimiter c then
      if c.utf8Size ≤ offset then some (some (offset - c.utf8Size)) else none
    else some none

/-- Up to where a token uses the line up, if the line can be cut behind its keyword. -/
def reservedEnd? (mode : ScanMode) (line : Text) (token : Token) : Option Nat :=
  match mode with
  | .boundaryPreserving => some token.keywordEnd
  | .legacy => line.pastChar? token.keywordEnd

/-- One pass over the rest of a line, in which the line is cut at the offsets that come up. -/
def scanFrom? (mode : ScanMode) (line : Text) (used : Nat) (before : Option Char)
    (offset : Nat) : Text → Option (List Token)
  | [] => some []
  | c :: rest => do
    let next used := scanFrom? mode line used (some c) (offset + c.utf8Size) rest
    let opening ← openingWithin? before offset
    match opening.filter fun start => used ≤ start with
    | none => next used
    | some start =>
      match ← keywordSizeAt? line offset with
      | none => next used
      | some (kind, size) =>
        let keyword ← line.between? offset (offset + size)
        let token : Token := ⟨kind, keyword, start, offset⟩
        let used ← reservedEnd? mode line token
        let later ← next used
        return token :: later

/-- The token in front of the one at an index, if the index is not the first one. -/
def previousAt? (tokens : List Token) : Nat → Option (Option Token)
  | 0 => some none
  | index + 1 => tokens[index]?.map some

/-- The backward window of the token at an index. -/
def backwardAt? (line : Text) (tokens : List Token) (index : Nat) : Option Text := do
  let previous ← previousAt? tokens index
  let token ← tokens[index]?
  backward? line previous token

/-- The forward window of the token at an index. -/
def forwardAt? (line : Text) (tokens : List Token) (index : Nat) : Option Text := do
  let token ← tokens[index]?
  forward? line token tokens[index + 1]?

end Token

/-- The tokens of a line, from left to right. -/
def scan? (mode : ScanMode) (line : Text) : Option (List Token) :=
  Token.scanFrom? mode line 0 none 0 line

/-- What becomes of the token at an index. -/
def Assembly.outcomeAt? (line : Text) (tokens : List Token) (index : Nat) : Option Outcome := do
  let token ← tokens[index]?
  let window ←
    if token.kind.readsBackward then Token.backwardAt? line tokens index
    else Token.forwardAt? line tokens index
  return ofWindow token.kind window

namespace ScriptLine

/-- The descriptor of the token at an index and its diagnostic, as far as there are any. -/
def entryAt? (line : ScriptLine) (tokens : List Token) (token : Token) (index : Nat) :
    Option (Option Descriptor × Option Diagnostic) := do
  let outcome ← Assembly.outcomeAt? line.text tokens index
  match outcome.issue? with
  | none => return (outcome.descriptor?, none)
  | some issue =>
    let diagnostic ← Diagnostic.ofToken? issue line.number line.text token
    return (outcome.descriptor?, some diagnostic)

/-- The descriptors and the diagnostics of a line. -/
def compile? (options : Options) (line : ScriptLine) :
    Option (List Descriptor × List Diagnostic) := do
  let tokens ← scan? options.scanMode line.text
  let entries ← tokens.zipIdx.mapM fun (token, index) => line.entryAt? tokens token index
  return (entries.filterMap Prod.fst, entries.filterMap Prod.snd)

end ScriptLine

/-- The report of a script. -/
def compile? (options : Options) (script : Text) : Option Report := do
  let entries ← (beats script).mapM (ScriptLine.compile? options)
  return ⟨entries.map Prod.fst, (entries.map Prod.snd).flatten⟩

namespace Text

variable {t : Text} {n : Nat}

/-- Bytes can be skipped up to where the text can be cut. -/
theorem dropBytes?_eq_some (h : t.isCut n = true) : t.dropBytes? n = some (t.dropBytes n) :=
  if_pos h

/-- There is a next character, or the end of the text, wherever the text can be cut. -/
theorem pastChar?_eq_some (h : t.isCut n = true) : t.pastChar? n = some (t.pastChar n) :=
  if_pos h

/-- A stretch between two offsets that the text can be cut at is there. -/
theorem slice?_eq_some {start stop : Nat} (hstart : t.isCut start = true)
    (hstop : t.isCut stop = true) : t.slice? start stop = some (t.slice start stop) := by
  rw [slice?, hstart, hstop]
  split
  next => rfl
  next h => rw [slice, if_neg h]

/-- A middle part of a text is found between the offsets of its ends. -/
theorem between?_append (a m b : Text) :
    between? (a ++ m ++ b) (byteSize a) (byteSize a + byteSize m) = some m := by
  have hstart : (a ++ m ++ b).isCut (byteSize a) = true := isCut_iff.mpr ⟨a, m ++ b, by simp, rfl⟩
  have hstop : (a ++ m ++ b).isCut (byteSize (a ++ m)) = true := isCut_iff.mpr ⟨a ++ m, b, rfl, rfl⟩
  rw [between?, ← byteSize_append, hstart, hstop, slice_append, byteSize_append]
  simp

end Text

/-- The size of a spelling is the size of the beginning of the text that spells the word. -/
theorem spelledSize?_eq (word t : Text) :
    spelledSize? word t = (spelling? word t).map fun found => Text.byteSize found.1 := by
  induction word generalizing t with
  | nil => rfl
  | cons expected word ih =>
    cases t with
    | nil => rfl
    | cons c rest =>
      rw [spelledSize?, spelling?]
      split
      next =>
        rw [ih]
        cases spelling? word rest <;> rfl
      next => rfl

/-- A text can be cut behind each spelling, so the search through a table has a result. -/
theorem firstClosed?_eq_some (t : Text) (entries : List (Text × Kind)) :
    firstClosed? t entries =
      some ((entries.findSome? fun (word, kind) =>
        match spelling? word t with
        | some (spelled, after) => if endsKeyword after then some (kind, spelled) else none
        | none => none).map fun found => (found.1, Text.byteSize found.2)) := by
  induction entries with
  | nil => rfl
  | cons entry others ih =>
    obtain ⟨word, kind⟩ := entry
    rw [firstClosed?, spelledSize?_eq, List.findSome?_cons]
    cases hspell : spelling? word t with
    | none => simpa only [hspell, Option.map_none] using ih
    | some found =>
      obtain ⟨spelled, after⟩ := found
      obtain ⟨rfl, _⟩ := spelling?_eq_some hspell
      have hcut : (spelled ++ after).isCut (Text.byteSize spelled) = true :=
        Text.isCut_iff.mpr ⟨spelled, after, rfl, rfl⟩
      simp only [Option.map_some, Text.dropBytes?_eq_some hcut, Text.dropBytes_append,
        Option.bind_eq_bind, Option.bind_some]
      cases hends : endsKeyword after with
      | true => simp only [hspell, hends, if_true, Option.map_some, Option.pure_def]
      | false => simpa only [hspell, hends, Bool.false_eq_true, if_false] using ih

/-- The keyword at an offset is looked for in what is left of the line. -/
theorem keywordSizeAt?_append (p t : Text) :
    keywordSizeAt? (p ++ t) (Text.byteSize p) =
      some ((keywordAt? t).map fun found => (found.1, Text.byteSize found.2)) := by
  have hcut : (p ++ t).isCut (Text.byteSize p) = true := Text.isCut_iff.mpr ⟨p, t, rfl, rfl⟩
  rw [keywordSizeAt?, Text.dropBytes?_eq_some hcut, Text.dropBytes_append]
  exact firstClosed?_eq_some t keywords

namespace Token

/-- The character before an offset fits in front of it. -/
theorem openingWithin?_eq_some (p : Text) :
    openingWithin? p.getLast? (Text.byteSize p) =
      some (opening? p.getLast? (Text.byteSize p)) := by
  rcases List.eq_nil_or_concat p with rfl | ⟨m, d, rfl⟩
  · rfl
  · have hfits : d.utf8Size ≤ Text.byteSize (m ++ [d]) := by simp
    rw [List.concat_eq_append, List.getLast?_concat, openingWithin?, opening?, if_pos hfits]
    split <;> rfl

/-- What a token reserves can be told if the line can be cut behind its keyword. -/
theorem reservedEnd?_eq_some (mode : ScanMode) {line : Text} {token : Token}
    (h : line.isCut token.keywordEnd = true) :
    reservedEnd? mode line token = some (reservedEnd mode line token) := by
  cases mode with
  | boundaryPreserving => rfl
  | legacy => exact Text.pastChar?_eq_some h

/-- A pass over the rest of a line cuts the line only between characters. The induction is on the
rest; the text in front of it says where the pass has got to. -/
theorem scanFrom?_eq_some (mode : ScanMode) (used : Nat) (p t : Text) :
    scanFrom? mode (p ++ t) used p.getLast? (Text.byteSize p) t =
      some (scanFrom mode (p ++ t) used p.getLast? (Text.byteSize p) t) := by
  induction t generalizing used p with
  | nil => rfl
  | cons c rest ih =>
    have hlater (used : Nat) :
        scanFrom? mode (p ++ c :: rest) used (some c) (Text.byteSize p + c.utf8Size) rest =
          some (scanFrom mode (p ++ c :: rest) used (some c) (Text.byteSize p + c.utf8Size)
            rest) := by
      have hstep := ih used (p ++ [c])
      simpa using hstep
    rw [scanFrom?, scanFrom, openingWithin?_eq_some]
    simp only [Option.bind_eq_bind, Option.bind_some, hlater, keywordSizeAt?_append]
    cases hopening : (opening? p.getLast? (Text.byteSize p)).filter fun start => used ≤ start with
    | none => rfl
    | some start =>
      cases hkeyword : keywordAt? (c :: rest) with
      | none => rfl
      | some found =>
        -- The keyword is a leading part of the rest, so it ends between two characters.
        obtain ⟨kind, keyword⟩ := found
        obtain ⟨after, heq, _⟩ := exists_after_of_keywordAt? hkeyword
        have hcut : (p ++ c :: rest).isCut (Text.byteSize p + Text.byteSize keyword) = true :=
          Text.isCut_iff.mpr ⟨p ++ keyword, after, by rw [heq]; simp, by simp⟩
        have hbetween : Text.between? (p ++ c :: rest) (Text.byteSize p)
            (Text.byteSize p + Text.byteSize keyword) = some keyword := by
          rw [heq, ← List.append_assoc]
          exact Text.between?_append p keyword after
        have hend : (p ++ c :: rest).isCut
            (keywordEnd ⟨kind, keyword, start, Text.byteSize p⟩) = true := hcut
        have hreserved := reservedEnd?_eq_some mode hend
        simp only [Option.map_some, hbetween, hreserved, Option.bind_some, Option.pure_def]

end Token

/-- A checked scan finds the tokens of the line. -/
theorem scan?_eq_some (mode : ScanMode) (line : Text) :
    scan? mode line = some (scan mode line) := by
  have hpass := Token.scanFrom?_eq_some mode 0 [] line
  rw [scan_eq_scanFrom]
  exact hpass

namespace Token

section

variable {line : Text} {previous next : Option Token} {token : Token}

/-- The backward window of any token that the line can be cut at is there, also between neighbours
that are not in order. -/
theorem backward?_eq_some (hprevious : ∀ other, previous = some other → CutsIn line other)
    (h : CutsIn line token) :
    backward? line previous token = some (backward line previous token) := by
  have hstart : line.isCut (backwardStart previous) = true := by
    cases previous with
    | none => exact Text.isCut_zero line
    | some other => exact (hprevious other rfl).keywordEnd
  rw [backward?, Text.pastChar?_eq_some h.keywordEnd, Option.bind_some,
    Text.slice?_eq_some hstart (Text.isCut_pastChar h.keywordEnd).1]
  rfl

/-- The forward window of any token that the line can be cut at is there, also between neighbours
that are not in order. -/
theorem forward?_eq_some (hnext : ∀ other, next = some other → CutsIn line other)
    (h : CutsIn line token) : forward? line token next = some (forward line token next) := by
  cases next with
  | none => exact Text.slice?_eq_some h.matchOffset (Text.isCut_byteSize line)
  | some other =>
    have hother := (hnext other rfl).matchOffset
    rw [forward?, Text.pastChar?_eq_some hother, Option.bind_some,
      Text.slice?_eq_some h.matchOffset (Text.isCut_pastChar hother).1]
    rfl

end

section

variable {line : Text} {front back : List Token} {token : Token}

/-- A token is found in its list behind those in front of it. -/
theorem getElem?_append_cons (front : List Token) (token : Token) (back : List Token) :
    (front ++ token :: back)[front.length]? = some token := by
  simp

/-- In front of the token behind a list of tokens stands the last of them. -/
theorem previousAt?_append (front back : List Token) :
    previousAt? (front ++ back) front.length = some front.getLast? := by
  rcases List.eq_nil_or_concat front with rfl | ⟨before, previous, rfl⟩
  · rfl
  · have hlength : (before ++ [previous]).length = before.length + 1 := by simp
    rw [List.concat_eq_append, hlength, previousAt?, List.append_assoc, List.singleton_append,
      getElem?_append_cons, List.getLast?_concat]
    rfl

/-- Behind the token stands the first of the others. -/
theorem getElem?_append_cons_succ (front : List Token) (token : Token) (back : List Token) :
    (front ++ token :: back)[front.length + 1]? = back.head? := by
  have hlength : front.length + 1 - front.length = 0 + 1 := by omega
  rw [List.getElem?_append_right (Nat.le_add_right _ 1), hlength, List.getElem?_cons_succ,
    List.head?_eq_getElem?]

/-- Where a line can be cut at all tokens of a list, each of them has its windows. -/
theorem windowsAt?_eq_some (h : ∀ other ∈ front ++ token :: back, CutsIn line other) :
    backwardAt? line (front ++ token :: back) front.length =
        some (backward line front.getLast? token) ∧
      forwardAt? line (front ++ token :: back) front.length =
        some (forward line token back.head?) := by
  have htoken : CutsIn line token := h token (by simp)
  have hprevious : ∀ other, front.getLast? = some other → CutsIn line other :=
    fun other hother => h other (List.mem_append_left _ (List.mem_of_getLast? hother))
  have hnext : ∀ other, back.head? = some other → CutsIn line other := fun other hother =>
    h other (List.mem_append_right _ (List.mem_cons_of_mem token (List.mem_of_mem_head? hother)))
  constructor
  · rw [backwardAt?, previousAt?_append, getElem?_append_cons]
    exact backward?_eq_some hprevious htoken
  · rw [forwardAt?, getElem?_append_cons, getElem?_append_cons_succ]
    exact forward?_eq_some hnext htoken

end

end Token

/-- What is computed without a refusal for each entry of a list is computed for all of them. -/
theorem mapM_eq_some_map {α β : Type} {f : α → Option β} {g : α → β} {entries : List α}
    (h : ∀ entry ∈ entries, f entry = some (g entry)) : entries.mapM f = some (entries.map g) := by
  induction entries with
  | nil => rfl
  | cons entry later ih =>
    obtain ⟨hfirst, hlater⟩ := List.forall_mem_cons.mp h
    rw [List.mapM_cons, hfirst, ih hlater]
    rfl

namespace Assembly

/-- Where a line can be cut at all tokens of a list, each of them has its outcome. -/
theorem outcomeAt?_eq_some {line : Text} {front back : List Token} {token : Token}
    (h : ∀ other ∈ front ++ token :: back, Token.CutsIn line other) :
    outcomeAt? line (front ++ token :: back) front.length =
      some (assemble line front.getLast? token back.head?) := by
  obtain ⟨hbackward, hforward⟩ := Token.windowsAt?_eq_some h
  rw [outcomeAt?, Token.getElem?_append_cons, hbackward, hforward, assemble, Token.window]
  cases hkind : token.kind.readsBackward
  all_goals simp [hkind]

end Assembly

namespace ScriptLine

/-- A token with its outcome becomes a descriptor, a diagnostic or both. -/
def entry (line : ScriptLine) (entry : Token × Outcome) : Option Descriptor × Option Diagnostic :=
  (entry.2.descriptor?, entry.2.issue?.map fun issue =>
    Diagnostic.ofToken issue line.number line.text entry.1)

/-- The entry of a token can be made if the line can be cut at the offsets of all of its tokens. -/
theorem entryAt?_eq_some {line : ScriptLine} {front back : List Token} {token : Token}
    (h : ∀ other ∈ front ++ token :: back, Token.CutsIn line.text other) :
    line.entryAt? (front ++ token :: back) token front.length =
      some (line.entry (token, Assembly.assemble line.text front.getLast? token back.head?)) := by
  have hcut := (h token (by simp)).keywordOffset
  rw [entryAt?, Assembly.outcomeAt?_eq_some h, entry]
  cases hissue : (Assembly.assemble line.text front.getLast? token back.head?).issue? with
  | none => simp [hissue]
  | some issue => simp [hissue, Diagnostic.ofToken?, hcut]

/-- The tokens of a line are looked at one after the other. The induction is on those that are left,
while the list of those in front grows. -/
theorem mapM_entryAt?_eq_some {line : ScriptLine} {front back : List Token}
    (h : ∀ other ∈ front ++ back, Token.CutsIn line.text other) :
    ((back.zipIdx front.length).mapM fun (token, index) =>
        line.entryAt? (front ++ back) token index) =
      some ((Assembly.outcomesAfter line.text front.getLast? back).map line.entry) := by
  induction back generalizing front with
  | nil => rfl
  | cons token later ih =>
    have hshift : front ++ token :: later = front ++ [token] ++ later := by simp
    have hlength : front.length + 1 = (front ++ [token]).length := by simp
    have hcuts : ∀ other ∈ front ++ [token] ++ later, Token.CutsIn line.text other := hshift ▸ h
    have hlater := ih hcuts
    rw [← hshift, ← hlength, List.getLast?_concat] at hlater
    simp only [List.zipIdx_cons, List.mapM_cons, entryAt?_eq_some h, hlater,
      Assembly.outcomesAfter, List.map_cons]
    rfl

/-- A checked line has the descriptors and the diagnostics of the line. -/
theorem compile?_eq_some (options : Options) (line : ScriptLine) :
    line.compile? options = some (line.descriptors options, line.diagnostics options) := by
  have hcuts : ∀ token ∈ [] ++ scan options.scanMode line.text, Token.CutsIn line.text token :=
    fun token htoken => ((follow_scan _ _).standsIn token htoken).cutsIn
  have hentries := mapM_entryAt?_eq_some hcuts
  rw [List.length_nil, List.nil_append] at hentries
  rw [ScriptLine.compile?, scan?_eq_some]
  simp only [Option.bind_eq_bind, Option.bind_some, hentries, Option.pure_def]
  rw [List.filterMap_map, List.filterMap_map]
  rfl

end ScriptLine

/-- A checked compilation has the report of the script as its result. -/
theorem compile?_eq_some (options : Options) (script : Text) :
    compile? options script = some (compile options script) := by
  have hentries := mapM_eq_some_map fun beat (_ : beat ∈ beats script) =>
    ScriptLine.compile?_eq_some options beat
  rw [compile?, hentries]
  simp only [Option.bind_eq_bind, Option.bind_some, Option.pure_def, ← List.flatMap_def,
    List.flatMap_map, List.map_map]
  rfl

/-- No cut is refused. A script can be compiled with every offset checked at which a line is cut,
every difference of offsets and every look at a neighbouring token, and its report comes out. The
windows of any list of tokens are there as well if the line can be cut at their offsets, whatever
the order of the tokens; a window whose ends are not in order is empty. -/
theorem no_cut_is_refused (options : Options) (script : Text) :
    compile? options script = some (compile options script) ∧
    ∀ line tokens, (∀ token ∈ tokens, Token.CutsIn line token) →
      ∀ front token back, tokens = front ++ token :: back →
        Token.backwardAt? line tokens front.length =
          some (Token.backward line front.getLast? token) ∧
        Token.forwardAt? line tokens front.length =
          some (Token.forward line token back.head?) ∧
        (line.pastChar token.keywordEnd ≤ Token.backwardStart front.getLast? →
          Token.backward line front.getLast? token = []) ∧
        (Token.forwardEnd line back.head? ≤ token.matchOffset →
          Token.forward line token back.head? = []) := by
  refine ⟨compile?_eq_some options script, ?_⟩
  rintro line _ hcuts front token back rfl
  obtain ⟨hbackward, hforward⟩ := Token.windowsAt?_eq_some hcuts
  refine ⟨hbackward, hforward, fun hle => ?_, fun hle => ?_⟩
  · rw [Token.backward, Text.slice, if_neg (Nat.not_lt.mpr hle)]
  · rw [Token.forward, Text.slice, if_neg (Nat.not_lt.mpr hle)]

/-- Two tokens in the wrong order have empty windows towards each other. -/
theorem no_cut_is_refused_reversed :
    let line : Text := "⏲ audio".toList
    let audio : Token := ⟨.audio, "audio".toList, 3, 4⟩
    let clock : Token := ⟨.duration, "⏲".toList, 0, 0⟩
    (∀ token ∈ [audio, clock], Token.CutsIn line token) ∧
      Token.forwardAt? line [audio, clock] 0 = some [] ∧
      Token.backwardAt? line [audio, clock] 1 = some [] := by
  intro line audio clock
  have hcuts : ∀ token ∈ [audio, clock], Token.CutsIn line token := by
    intro token htoken
    simp only [List.mem_cons, List.not_mem_nil, or_false] at htoken
    rcases htoken with rfl | rfl
    all_goals exact ⟨by decide, by decide, by decide⟩
  obtain ⟨_, hforward, _, hnil⟩ := (no_cut_is_refused {} []).2 line _ hcuts [] audio [clock] rfl
  obtain ⟨hbackward, _, hnil', _⟩ := (no_cut_is_refused {} []).2 line _ hcuts [audio] clock [] rfl
  refine ⟨hcuts, ?_, ?_⟩
  · rw [← hnil (by decide)]
    exact hforward
  · rw [← hnil' (by decide)]
    exact hbackward

/-- An offset inside the three bytes of the clock is refused. -/
example : Token.forwardAt? "⏲ audio".toList [⟨.audio, "audio".toList, 2, 4⟩] 0 = none := by
  decide

end Storyboard
