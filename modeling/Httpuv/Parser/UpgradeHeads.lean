import Httpuv.Framing.HeaderBlock
import Httpuv.Parser.HeaderNames
import Httpuv.Parser.HeadReads
import Httpuv.Parser.RequestLine

/-! The head of an upgrade that declares no body. Whatever else its fields are, the parser
goes through it and stops at its end, with the upgrade noted. -/
namespace Httpuv.RequestParser

/-! ## Flags and values -/

/-- What fields of such a head do to the flags. Those of a body are left alone, and the two
halves of an upgrade are set for good. -/
structure Flags.Grows (before after : Flags) : Prop where
  chunked : after.chunked = before.chunked
  contentLength : after.contentLength = before.contentLength
  trailing : after.trailing = before.trailing
  upgrade : before.upgrade = true → after.upgrade = true
  connectionUpgrade : before.connectionUpgrade = true → after.connectionUpgrade = true

theorem Flags.Grows.refl (flags : Flags) : flags.Grows flags := ⟨rfl, rfl, rfl, id, id⟩

theorem Flags.Grows.trans {first second third : Flags} (hFirst : first.Grows second)
    (hSecond : second.Grows third) : first.Grows third where
  chunked := hSecond.chunked.trans hFirst.chunked
  contentLength := hSecond.contentLength.trans hFirst.contentLength
  trailing := hSecond.trailing.trans hFirst.trailing
  upgrade := hSecond.upgrade ∘ hFirst.upgrade
  connectionUpgrade := hSecond.connectionUpgrade ∘ hFirst.connectionUpgrade

/-- The header states of a value in which nothing is looked for, or the words of a
`Connection` header. No character of such a value is refused for what it is. -/
def HeaderState.quiet : HeaderState → Bool
  | .general | .matchingConnectionTokenStart | .matchingConnectionKeepAlive
  | .matchingConnectionClose | .matchingConnectionUpgrade | .matchingConnectionToken
  | .connectionKeepAlive | .connectionClose | .connectionUpgrade => true
  | _ => false

section Values

variable {parser : RequestParser} {headerState : HeaderState} {flags : Flags} {ch : UInt8}
  {scanner : Scanner}

theorem tokenFlags_grows (flags : Flags) (headerState : HeaderState) :
    flags.Grows (tokenFlags flags headerState) := by
  cases headerState <;> first
    | exact .refl flags
    | exact ⟨rfl, rfl, rfl, id, id⟩
    | exact ⟨rfl, rfl, rfl, id, fun _ => rfl⟩

theorem valueFlags_grows (hQuiet : parser.headerState.quiet = true) :
    parser.flags.Grows parser.valueFlags := by
  unfold valueFlags
  cases hState : parser.headerState <;> rw [hState] at hQuiet <;> cases hQuiet <;> first
    | exact .refl parser.flags
    | exact ⟨rfl, rfl, rfl, id, id⟩
    | exact ⟨rfl, rfl, rfl, id, fun _ => rfl⟩

/-- One character leads from a quiet state to a quiet one. Only the index and the flags
change with it, and the flags in one direction. -/
theorem headerValueChar_quiet (hQuiet : headerState.quiet = true) (parser : RequestParser)
    (ch : UInt8) : ∃ index flags next,
      headerValueChar ⟨parser, headerState⟩ ch = some ⟨{ parser with index, flags }, next⟩ ∧
        next.quiet = true ∧ parser.flags.Grows flags := by
  have hWord : ∀ {word : Bytes} {matching found : HeaderState} {index : Nat} {c : UInt8},
      matching.quiet = true → found.quiet = true →
        (matchWord word matching found .matchingConnectionToken index c).quiet = true := by
    intro word matching found index c hMatching hFound
    rcases matchWord_cases word matching found .matchingConnectionToken index c with h | h | h
    · rw [h, hMatching]
    · rw [h, hFound]
    · rw [h]
      rfl
  unfold headerValueChar
  cases headerState <;> cases hQuiet <;> dsimp only
  case general => exact ⟨_, _, _, rfl, rfl, .refl _⟩
  case matchingConnectionKeepAlive | matchingConnectionClose | matchingConnectionUpgrade =>
    exact ⟨_, _, _, rfl, hWord rfl rfl, .refl _⟩
  case matchingConnectionTokenStart | matchingConnectionToken =>
    split_ifs <;> exact ⟨_, _, _, rfl, rfl, .refl _⟩
  case connectionKeepAlive | connectionClose | connectionUpgrade =>
    split_ifs
    · exact ⟨_, _, _, rfl, rfl, tokenFlags_grows _ _⟩
    all_goals exact ⟨_, _, _, rfl, rfl, .refl _⟩

theorem not_end_of_value (hChar : Framing.isValueByte ch = true) :
    ¬(ch = CR ∨ ch = LF) ∧ isHeaderChar ch = true := by
  have hAll : ∀ ch : UInt8, Framing.isValueByte ch = true →
      ¬(ch = CR ∨ ch = LF) ∧ isHeaderChar ch = true := by decide +kernel
  exact hAll ch hChar

/-- One character of a value, as the loop over it has it. That also holds behind `memchr`,
where the character is not looked at. -/
theorem Scanner.scan_valueChar (hState : scanner.parser.state = .headerValue)
    (hChar : Framing.isValueByte ch = true) {value : ValueState}
    (hNext : headerValueChar ⟨scanner.parser, scanner.parser.headerState⟩ ch = some value) :
    scanner.scan [ch] = some (value.scanner (scanner.parser.nread + 1) scanner.parser.isRunning
      (scanner.pending.advance [ch]), []) := by
  obtain ⟨hEnd, hHeader⟩ := not_end_of_value hChar
  refine @Scanner.scan_go _ scanner ch [] ?_
  rw [Scanner.effect_value hState]
  by_cases hGeneral : scanner.parser.headerState = .general
  · rw [hGeneral] at hNext
    cases hNext
    rw [scanValue_general hEnd hGeneral, ValueState.settled, ← hGeneral]
    rfl
  · rw [scanValue_char hEnd hHeader hGeneral hNext]
    rfl

/-- The bytes of a quiet value. They are consumed whatever they are, and may set flags of
the connection on the way. -/
theorem scan_value {bytes : Bytes} (hChars : ∀ ch ∈ bytes, Framing.isValueByte ch = true)
    (hIn : InHead scanner.parser .headerValue flags)
    (hQuiet : scanner.parser.headerState.quiet = true) : ∃ parser flags',
      InHead parser .headerValue flags' ∧ parser.headerState.quiet = true ∧ flags.Grows flags' ∧
        scanner.scan bytes = some (⟨parser, scanner.pending.advance bytes⟩, []) := by
  induction bytes generalizing scanner flags with
  | nil =>
      refine ⟨scanner.parser, flags, hIn, hQuiet, .refl flags, ?_⟩
      rw [Pending.advance_nil]
      rfl
  | cons ch bytes ih =>
      obtain ⟨index, middle, next, hChar, hNext, hGrows⟩ :=
        headerValueChar_quiet hQuiet scanner.parser ch
      have hFirst := Scanner.scan_valueChar hIn.state (hChars ch List.mem_cons_self) hChar
      rw [hIn.flags] at hGrows
      let after := ValueState.scanner ⟨{ scanner.parser with index, flags := middle }, next⟩
        (scanner.parser.nread + 1) scanner.parser.isRunning (scanner.pending.advance [ch])
      have hAfter : InHead after.parser .headerValue middle :=
        ⟨hIn.state, rfl, hIn.contentLength, hIn.errno⟩
      obtain ⟨parser, last, hLast, hQuiet', hGrows', hRest⟩ :=
        ih (fun other hMem => hChars other (List.mem_cons_of_mem _ hMem)) hAfter hNext
      refine ⟨parser, last, hLast, hQuiet', hGrows.trans hGrows', ?_⟩
      rw [← List.singleton_append, ← Pending.advance_append]
      exact Context.scan_append hFirst hRest

/-- What is left of the word `upgrade`, in either case, behind a part of it. The flag is not
set with the last letter but where the value ends. -/
theorem scan_upgrade {read rest : Bytes} (hRest : rest ≠ [])
    (hWord : read ++ rest.map Framing.lower = ascii "upgrade")
    (hIn : InHead scanner.parser .headerValue flags)
    (hMatching : scanner.parser.headerState = .matchingConnectionUpgrade)
    (hIndex : scanner.parser.index + 1 = read.length) : ∃ parser,
      InHead parser .headerValue flags ∧ parser.headerState = .connectionUpgrade ∧
        scanner.scan rest = some (⟨parser, scanner.pending.advance rest⟩, []) := by
  induction rest generalizing scanner read with
  | nil => exact absurd rfl hRest
  | cons ch rest ih =>
      have hSeven : (ascii "upgrade").length = 7 := by decide
      have hLength := congrArg List.length hWord
      rw [List.length_append, List.length_map, List.length_cons, hSeven] at hLength
      have hLetter : (ascii "upgrade").getD read.length 0 = Framing.lower ch := by
        rw [← hWord, List.map_cons]
        simp
      have hLower : ∀ ch : UInt8, Framing.lower ch ∈ ascii "upgrade" →
          lower ch = Framing.lower ch ∧ Framing.isValueByte ch = true := by decide +kernel
      obtain ⟨hSame, hChar⟩ := hLower ch (by rw [← hWord, List.map_cons]; simp)
      have hNext : scanner.parser.nextIndex = read.length := by
        rw [nextIndex, hIndex]
        exact Nat.mod_eq_of_lt (by omega)
      let found : HeaderState := if rest = [] then .connectionUpgrade else .matchingConnectionUpgrade
      have hState : matchWord (ascii "upgrade") .matchingConnectionUpgrade .connectionUpgrade
          .matchingConnectionToken read.length (lower ch) = found := by
        have hLast : read.length = 7 - 1 ↔ rest = [] := by
          rw [← List.length_eq_zero_iff]
          omega
        unfold matchWord
        rw [hLetter, hSame, hSeven, if_neg (by simp; omega)]
        simp only [hLast, found]
      have hStep : headerValueChar ⟨scanner.parser, scanner.parser.headerState⟩ ch =
          some ⟨{ scanner.parser with index := read.length }, found⟩ := by
        rw [hMatching, ← hState, ← hNext]
        rfl
      have hFirst := Scanner.scan_valueChar hIn.state hChar hStep
      let after := ValueState.scanner ⟨{ scanner.parser with index := read.length }, found⟩
        (scanner.parser.nread + 1) scanner.parser.isRunning (scanner.pending.advance [ch])
      have hAfter : InHead after.parser .headerValue flags :=
        ⟨hIn.state, hIn.flags, hIn.contentLength, hIn.errno⟩
      by_cases hEmpty : rest = []
      · subst hEmpty
        exact ⟨after.parser, hAfter, rfl, hFirst⟩
      · obtain ⟨parser, hLast, hFound, hScan⟩ := @ih after (read ++ [Framing.lower ch]) hEmpty
          (by rw [← hWord]; simp) hAfter (if_neg hEmpty) (by rw [List.length_append]; rfl)
        refine ⟨parser, hLast, hFound, ?_⟩
        rw [← List.singleton_append, ← Pending.advance_append]
        exact Context.scan_append hFirst hScan

end Values

/-! ## Lines -/

/-- A field of a head without a body. Its value has no blank in front, since those are not
reported, and it is not empty. -/
structure PlainField (field : Bytes × Bytes) : Prop where
  nonempty : field.1 ≠ []
  name : ∀ ch ∈ field.1, isToken ch = true
  value : field.2.head?.any (fun first => !Framing.isBlank first) = true
  chars : Framing.isValue field.2 = true
  bodiless : ∀ word ∈ [ascii "content-length", ascii "transfer-encoding"],
    Framing.sameName field.1 word = false

instance (field : Bytes × Bytes) : Decidable (PlainField field) :=
  decidable_of_iff (field.1 ≠ [] ∧ (∀ ch ∈ field.1, isToken ch = true) ∧
      field.2.head?.any (fun first => !Framing.isBlank first) = true ∧
      Framing.isValue field.2 = true ∧
      ∀ word ∈ [ascii "content-length", ascii "transfer-encoding"],
        Framing.sameName field.1 word = false)
    ⟨fun ⟨nonempty, name, value, chars, bodiless⟩ => ⟨nonempty, name, value, chars, bodiless⟩,
      fun plain => ⟨plain.nonempty, plain.name, plain.value, plain.chars, plain.bodiless⟩⟩

/-- What a field sets when its value has ended. The value of a `Connection` header is
compared with the whole word here, though the parser also finds it in a list. -/
structure Flags.Sets (flags : Flags) (field : Bytes × Bytes) : Prop where
  upgrade : Framing.sameName field.1 (ascii "upgrade") = true → flags.upgrade = true
  connection : Framing.sameName field.1 (ascii "connection") = true →
    Framing.sameName field.2 (ascii "upgrade") = true → flags.connectionUpgrade = true

theorem Flags.Sets.mono {before after : Flags} {field : Bytes × Bytes} (hSets : before.Sets field)
    (hGrows : before.Grows after) : after.Sets field where
  upgrade hName := hGrows.upgrade (hSets.upgrade hName)
  connection hName hValue := hGrows.connectionUpgrade (hSets.connection hName hValue)

/-- Behind a line the flag of its value is still to be set. That is done when the first byte
of the next line is no blank, which would continue the value. -/
structure LineStart (scanner : Scanner) (flags : Flags) : Prop where
  pending : scanner.pending = none
  parser : InHead scanner.parser .headerFieldStart flags ∨ ∃ before,
    InHead scanner.parser .headerValueLws before ∧ scanner.parser.valueFlags = flags

section Lines

variable {parser : RequestParser} {flags : Flags} {ch : UInt8} {scanner : Scanner}
  {field : Bytes × Bytes} {name : Bytes} {fields : List (Bytes × Bytes)}

theorem LineStart.effect (hLine : LineStart scanner flags)
    (hBlank : ¬(ch = chr ' ' ∨ ch = chr '\t')) : ∃ parser,
      InHead parser .headerFieldStart flags ∧ scanner.effect ch = parser.headerFieldStart ch := by
  rcases hLine.parser with hIn | ⟨before, hIn, hFlags⟩
  · refine ⟨scanner.parser.counted, hIn.counted, Scanner.effect_switch ?_⟩
    rw [byteSwitch, hIn.counted.state]
  · refine ⟨{ scanner.parser.counted with
      flags := scanner.parser.counted.valueFlags
      state := .headerFieldStart }, ⟨rfl, ?_, hIn.counted.contentLength, hIn.counted.errno⟩,
      Scanner.effect_switch ?_⟩
    · obtain ⟨nread, hCounted⟩ := counted_eq scanner.parser
      rw [hCounted, ← hFlags]
      rfl
    · rw [byteSwitch, hIn.counted.state]
      exact congrArg some (if_neg hBlank)

/-- The name of a field, with the colon and the blank behind it. It is compared with the
words on the way, and reported at the colon. -/
theorem scan_name (hLine : LineStart scanner flags) (hNonempty : name ≠ [])
    (hTokens : ∀ ch ∈ name, isToken ch = true) : ∃ parser,
      InHead parser .headerValueDiscardWs flags ∧ Named parser (name.map tokens) ∧
        scanner.scan (name ++ ascii ": ") = some (⟨parser, none⟩, [.onHeaderField name]) := by
  cases name with
  | nil => exact absurd rfl hNonempty
  | cons first rest =>
      have hFirst := hTokens first List.mem_cons_self
      have hRest : ∀ ch ∈ rest, isToken ch = true :=
        fun ch hMem => hTokens ch (List.mem_cons_of_mem _ hMem)
      have hBlank : ∀ ch : UInt8, isToken ch = true → ¬(ch = chr ' ' ∨ ch = chr '\t') := by
        decide +kernel
      obtain ⟨parser, hIn, hEffect⟩ := hLine.effect (hBlank first hFirst)
      obtain ⟨headerState, hStart, hNamed⟩ := @named_of_start parser first hFirst
      obtain ⟨index, finish, hFold, hAll⟩ := hNamed.append hRest
      let named : RequestParser := { parser with index := 0, state := .headerField, headerState }
      have hBegun := Scanner.scan_go (hEffect.trans hStart)
      rw [hLine.pending] at hBegun
      have hNames := @Scanner.scan_field rest hRest ⟨named, some (.headerField, [first])⟩ rfl
      rw [show rest.foldl headerFieldChar named = { named with index, headerState := finish } from hFold]
        at hNames
      let behind : RequestParser := ({ named with index, headerState := finish } :
        RequestParser).recount (named.nread + rest.length) named.isRunning
      let colon : RequestParser := { behind with
        state := .headerValueDiscardWs
        nread := behind.nread + 1 }
      let blank : RequestParser := { colon with nread := colon.nread + 1 }
      have hColon := @Scanner.scan_go colon ⟨behind, some (.headerField, first :: rest)⟩ (chr ':')
        [.data .headerField] (by
          rw [Scanner.effect_field rfl, scanField, if_neg (by decide), if_pos rfl]
          rfl)
      have hBlank := @Scanner.scan_go blank ⟨colon, none⟩ (chr ' ') [] rfl
      refine ⟨blank, ⟨rfl, hIn.flags, hIn.contentLength, hIn.errno⟩, ⟨hAll.state, hAll.index⟩, ?_⟩
      exact Context.scan_append (Context.scan_append hBegun hNames)
        (Context.scan_append hColon hBlank)

/-- What the first byte of a value makes of the header state that the name has left. It is
counted as the first letter of a word, so that the index is zero. -/
theorem headerValueStart_quiet (hField : parser.headerState.ofField = true)
    (hLength : parser.headerState ≠ .contentLength)
    (hEncoding : parser.headerState ≠ .transferEncoding) (ch : UInt8) : ∃ headerState flags,
      parser.headerValueStart ch = ({ parser with
        state := .headerValue
        index := 0
        flags
        headerState } : RequestParser).go [.mark .headerValue] ∧ headerState.quiet = true ∧
      parser.flags.Grows flags ∧ (parser.headerState = .upgrade → flags.upgrade = true) ∧
      (parser.headerState = .connection → lower ch = chr 'u' →
        headerState = .matchingConnectionUpgrade) := by
  unfold headerValueStart
  cases hState : parser.headerState <;> rw [hState] at hField hLength hEncoding <;> cases hField
  case contentLength => exact absurd rfl hLength
  case transferEncoding => exact absurd rfl hEncoding
  case upgrade =>
    exact ⟨_, _, rfl, rfl, ⟨rfl, rfl, rfl, fun _ => rfl, id⟩, fun _ => rfl, nofun⟩
  case connection =>
    refine ⟨_, _, rfl, ?_, .refl _, nofun, fun _ hLetter => ?_⟩
    · split_ifs <;> rfl
    · rw [hLetter]
      rfl
  all_goals exact ⟨_, _, rfl, rfl, .refl _, nofun, nofun⟩

theorem map_tokens (hTokens : ∀ ch ∈ name, isToken ch = true) :
    name.map tokens = name.map Framing.lower := by
  have hLower : ∀ ch : UInt8, isToken ch = true → tokens ch = Framing.lower ch := by decide +kernel
  exact List.map_congr_left fun ch hMem => hLower ch (hTokens ch hMem)

/-- The header state behind the name of a field that declares no body. Names that are
compared without their case lead to the states of their words. -/
theorem PlainField.headerState (hField : PlainField field)
    (hNamed : Named parser (field.1.map tokens)) :
    parser.headerState ≠ .contentLength ∧ parser.headerState ≠ .transferEncoding ∧
      ∀ word ∈ words, Framing.sameName field.1 word = true →
        parser.headerState = wordState word := by
  have hLower : ∀ word ∈ words, word.map Framing.lower = word := by decide
  have hWords : ∀ word ∈ [ascii "content-length", ascii "transfer-encoding"], word ∈ words := by
    decide
  have hName := hNamed.state
  rw [map_tokens hField.name] at hName
  have hOther : ∀ word ∈ [ascii "content-length", ascii "transfer-encoding"],
      field.1.map Framing.lower ≠ word := by
    intro word hWord hSame
    have hNot := hField.bodiless word hWord
    rw [Framing.sameName, hSame, hLower word (hWords word hWord), beq_self_eq_true] at hNot
    cases hNot
  refine ⟨?_, ?_, fun word hWord hSame => ?_⟩
  · intro hCase
    rw [hCase] at hName
    exact hOther _ (by simp) hName
  · intro hCase
    rw [hCase] at hName
    exact hOther _ (by simp) hName
  · exact nameAt_word hName hWord ((beq_iff_eq.1 hSame).trans (hLower word hWord))

/-- The first byte of a value, behind the blank. It begins the piece that is reported, and
sets the flag of an `Upgrade` header at once. -/
theorem scan_valueStart (hIn : InHead parser .headerValueDiscardWs flags)
    (hField : parser.headerState.ofField = true) (hLength : parser.headerState ≠ .contentLength)
    (hEncoding : parser.headerState ≠ .transferEncoding) (hChar : Framing.isValueByte ch = true)
    (hBlank : Framing.isBlank ch = false) : ∃ begun middle,
      InHead begun .headerValue middle ∧ begun.index = 0 ∧ begun.headerState.quiet = true ∧
        flags.Grows middle ∧ (parser.headerState = .upgrade → middle.upgrade = true) ∧
        (parser.headerState = .connection → lower ch = chr 'u' →
          begun.headerState = .matchingConnectionUpgrade) ∧
        Scanner.scan ⟨parser, none⟩ [ch] = some (⟨begun, some (.headerValue, [ch])⟩, []) := by
  have hPlain : ∀ ch : UInt8, Framing.isBlank ch = false → ¬(ch = chr ' ' ∨ ch = chr '\t') := by
    decide +kernel
  obtain ⟨hCR, hLF⟩ := not_or.1 (not_end_of_value hChar).1
  obtain ⟨nread, hCounted⟩ := counted_eq parser
  obtain ⟨headerState, middle, hStart, hQuiet, hGrows, hUpgrade, hConnection⟩ :=
    @headerValueStart_quiet { parser with nread } hField hLength hEncoding ch
  rw [hIn.flags] at hGrows
  let begun : RequestParser := { parser with
    nread
    state := .headerValue
    index := 0
    flags := middle
    headerState }
  refine ⟨begun, middle, ⟨rfl, rfl, hIn.contentLength, hIn.errno⟩, rfl, hQuiet, hGrows, hUpgrade,
    hConnection, ?_⟩
  refine @Scanner.scan_go begun ⟨parser, none⟩ ch [.mark .headerValue] (Scanner.effect_switch ?_)
  rw [byteSwitch, hIn.counted.state]
  change some (headerValueDiscardWs parser.counted ch) = _
  rw [headerValueDiscardWs, if_neg (hPlain ch hBlank), if_neg hCR, if_neg hLF, hCounted, hStart]

/-- The value of a field, up to the end of its line. What the field sets may be left to
the flag that the next line sets first. -/
theorem scan_fieldValue (hField : PlainField field) (hIn : InHead parser .headerValueDiscardWs flags)
    (hNamed : Named parser (field.1.map tokens)) : ∃ after flags',
      InHead after .headerValue flags' ∧ flags.Grows after.valueFlags ∧
        after.valueFlags.Sets field ∧ Scanner.scan ⟨parser, none⟩ field.2 =
          some (⟨after, some (.headerValue, field.2)⟩, []) := by
  obtain ⟨first, rest, hValue, hBlank⟩ : ∃ first rest, field.2 = first :: rest ∧
      Framing.isBlank first = false := by
    have hFirst := hField.value
    cases hCase : field.2 with
    | nil => simp [hCase] at hFirst
    | cons first rest => exact ⟨first, rest, rfl, by simpa [hCase] using hFirst⟩
  have hChars := List.all_eq_true.1 hField.chars
  rw [hValue] at hChars ⊢
  obtain ⟨hLength, hEncoding, hState⟩ := hField.headerState hNamed
  obtain ⟨begun, middle, hBegun, hIndex, hQuiet, hGrows, hUpgrade, hConnection, hScan⟩ :=
    scan_valueStart hIn (ofField_of_named hNamed) hLength hEncoding
      (hChars first List.mem_cons_self) hBlank
  by_cases hWord : Framing.sameName field.1 (ascii "connection") = true ∧
      Framing.sameName field.2 (ascii "upgrade") = true
  · obtain ⟨hName, hSame⟩ := hWord
    have hLetters : [Framing.lower first] ++ rest.map Framing.lower = ascii "upgrade" := by
      rw [hValue] at hSame
      exact (beq_iff_eq.1 hSame).trans (by decide)
    have hU : lower first = chr 'u' := by
      have hLower : ∀ ch : UInt8, Framing.lower ch = chr 'u' → lower ch = chr 'u' := by
        decide +kernel
      exact hLower first (List.cons.inj hLetters).1
    have hMore : rest ≠ [] := by
      rintro rfl
      have hSeven : 1 = (ascii "upgrade").length := congrArg List.length hLetters
      exact absurd hSeven (by decide)
    have hNameState := hState _ (by decide) hName
    obtain ⟨after, hAfter, hFound, hScan'⟩ := @scan_upgrade middle
      ⟨begun, some (.headerValue, [first])⟩ [Framing.lower first] rest hMore hLetters hBegun
      (hConnection hNameState hU) (congrArg (· + 1) hIndex)
    have hFlags : after.valueFlags = { after.flags with connectionUpgrade := true } := by
      rw [valueFlags, hFound]
    have hLast : after.flags.Grows after.valueFlags := valueFlags_grows (by rw [hFound]; rfl)
    rw [hAfter.flags] at hLast
    refine ⟨after, middle, hAfter, hGrows.trans hLast, ⟨fun hOther => ?_, fun _ _ => ?_⟩,
      Context.scan_append hScan hScan'⟩
    · -- A name is one of the two words only.
      rw [hState _ (by decide) hOther] at hNameState
      cases hNameState
    · rw [hFlags]
  · obtain ⟨after, last, hAfter, hQuiet', hGrows', hScan'⟩ := @scan_value middle
      ⟨begun, some (.headerValue, [first])⟩ rest
      (fun ch hMem => hChars ch (List.mem_cons_of_mem _ hMem)) hBegun hQuiet
    have hLast := valueFlags_grows hQuiet'
    rw [hAfter.flags] at hLast
    refine ⟨after, last, hAfter, hGrows.trans (hGrows'.trans hLast),
      ⟨fun hName => ?_, fun hName hSame => absurd ⟨hName, hSame⟩ hWord⟩,
      Context.scan_append hScan hScan'⟩
    exact hLast.upgrade (hGrows'.upgrade (hUpgrade (hState _ (by decide) hName)))

/-- One line of a head, which is reported as a name and a value. The flags behind it are
those that the next line finds. -/
theorem scan_line (hLine : LineStart scanner flags) (hField : PlainField field) :
    ∃ after flags', LineStart after flags' ∧ flags.Grows flags' ∧ flags'.Sets field ∧
      scanner.scan (Framing.formatField field) =
        some (after, [.onHeaderField field.1, .onHeaderValue field.2]) := by
  obtain ⟨parser, hIn, hNamed, hName⟩ := scan_name hLine hField.nonempty hField.name
  obtain ⟨behind, middle, hBehind, hGrows, hSets, hValue⟩ := scan_fieldValue hField hIn hNamed
  let ended : RequestParser := { behind with state := .headerAlmostDone, nread := behind.nread + 1 }
  let line : RequestParser := { ended with state := .headerValueLws, nread := ended.nread + 1 }
  have hCR := Scanner.scan_go (@Scanner.effect_of_end ⟨behind, some (.headerValue, field.2)⟩ CR
    hBehind.state (Or.inl rfl))
  have hLF := @Scanner.scan_go line ⟨ended, none⟩ LF [] rfl
  have hAfter : InHead line .headerValueLws middle :=
    ⟨rfl, hBehind.flags, hBehind.contentLength, hBehind.errno⟩
  have hFormat : Framing.formatField field =
      (field.1 ++ ascii ": ") ++ (field.2 ++ ([CR] ++ [LF])) := by
    rw [Framing.formatField, show ascii ": " = [58, 32] from by decide, List.append_assoc]
    rfl
  refine ⟨⟨line, none⟩, behind.valueFlags, ⟨rfl, Or.inr ⟨middle, hAfter, rfl⟩⟩, hGrows, hSets, ?_⟩
  rw [hFormat]
  exact Context.scan_append hName (Context.scan_append hValue (Context.scan_append hCR hLF))

/-- The lines of a head, by induction on their number. What one field has set, the fields
behind it leave in place. -/
theorem scan_fields (hLine : LineStart scanner flags) (hFields : ∀ field ∈ fields, PlainField field) :
    ∃ after flags', LineStart after flags' ∧ flags.Grows flags' ∧
      (∀ field ∈ fields, flags'.Sets field) ∧
      scanner.scan (fields.flatMap Framing.formatField) =
        some (after, fields.flatMap fun field => [.onHeaderField field.1, .onHeaderValue field.2]) := by
  induction fields generalizing scanner flags with
  | nil => exact ⟨scanner, flags, hLine, .refl flags, by simp, rfl⟩
  | cons field fields ih =>
      obtain ⟨middle, flags', hMiddle, hGrows, hSets, hScan⟩ :=
        scan_line hLine (hFields field List.mem_cons_self)
      obtain ⟨after, last, hAfter, hGrows', hAll, hRest⟩ :=
        ih hMiddle fun other hMem => hFields other (List.mem_cons_of_mem _ hMem)
      refine ⟨after, last, hAfter, hGrows.trans hGrows', ?_, Context.scan_append hScan hRest⟩
      intro other hMem
      rcases List.mem_cons.1 hMem with rfl | hMem
      · exact hSets.mono hGrows'
      · exact hAll other hMem

end Lines

/-! ## Heads -/

/-- A head up to the line feed that ends it, as a client writes it: the method, a path, the
version, and the fields. -/
def upgradeHead (path : Bytes) (fields : List (Bytes × Bytes)) : Bytes :=
  ascii "GET /" ++ (path ++ ascii " HTTP/1.1\r\n") ++ (fields.flatMap Framing.formatField ++ [CR])

section Heads

variable {parser : RequestParser} {flags : Flags} {scanner : Scanner} {path : Bytes}
  {fields : List (Bytes × Bytes)}

theorem upgradeHead_chars (hPath : ∀ ch ∈ path, isVisible ch = true)
    (hFields : ∀ field ∈ fields, PlainField field) :
    ∀ ch ∈ upgradeHead path fields, isHeaderChar ch = true := by
  have hVisible : ∀ ch : UInt8, isVisible ch = true → isHeaderChar ch = true := by decide +kernel
  have hToken : ∀ ch : UInt8, isToken ch = true → isHeaderChar ch = true := by decide +kernel
  have hFixed : ∀ bytes ∈ [ascii "GET /", ascii " HTTP/1.1\r\n", [58, 32], Framing.crlf, [CR]],
      ∀ ch ∈ bytes, isHeaderChar ch = true := by decide +kernel
  have hField : ∀ field ∈ fields, ∀ ch ∈ Framing.formatField field, isHeaderChar ch = true := by
    intro field hMem ch hChar
    simp only [Framing.formatField, List.mem_append] at hChar
    rcases hChar with ((hName | hColon) | hValue) | hEnd
    · exact hToken ch ((hFields field hMem).name ch hName)
    · exact hFixed [58, 32] (by simp) ch hColon
    · exact (not_end_of_value (List.all_eq_true.1 (hFields field hMem).chars ch hValue)).2
    · exact hFixed Framing.crlf (by simp) ch hEnd
  intro ch hChar
  simp only [upgradeHead, List.mem_append, List.mem_flatMap] at hChar
  rcases hChar with (hMethod | hTarget | hVersion) | ⟨field, hMem, hLine⟩ | hEnd
  · exact hFixed (ascii "GET /") (by simp) ch hMethod
  · exact hVisible ch (hPath ch hTarget)
  · exact hFixed (ascii " HTTP/1.1\r\n") (by simp) ch hVersion
  · exact hField field hMem ch hLine
  · exact hFixed [CR] (by simp) ch hEnd

/-- An upgrade that two headers ask for is told from other requests at the end of its head,
where the parser stops in front of the line feed. -/
theorem headersAlmostDone_upgrade (hIn : InHead parser .headersAlmostDone flags)
    (hGrows : Flags.none.Grows flags) (hBoth : (flags.upgrade && flags.connectionUpgrade) = true) :
    parser.headersAlmostDone LF = ⟨{ parser with
      upgrade := true
      state := .waitForOnHeadersCompleted }, [.notify (.onHeadersComplete true)], .stop false⟩ := by
  obtain ⟨hState, rfl, -, -⟩ := hIn
  have hTrailing : ¬parser.flags.trailing = true := by simp [hGrows.trailing, Flags.none]
  have hChunked : ¬(parser.flags.chunked = true ∧ parser.flags.contentLength = true) := by
    simp [hGrows.chunked, Flags.none]
  rw [headersAlmostDone, strictCheck, if_neg (by simp), if_neg hTrailing, if_neg hChunked, hBoth]
  rfl

/-- **The head of an upgrade** is gone through smoothly, up to the line feed at which the
parser waits for the decision. It has noted the upgrade by then, and no body. -/
theorem upgradeHead_stops (hState : scanner.parser.state = .startReq)
    (hErrno : scanner.parser.httpErrno = .ok) (hPending : scanner.pending = none)
    (hPath : ∀ ch ∈ path, isVisible ch = true) (hFields : ∀ field ∈ fields, PlainField field)
    (hUpgrade : ∃ field ∈ fields, Framing.sameName field.1 (ascii "upgrade") = true)
    (hConnection : ∃ field ∈ fields, Framing.sameName field.1 (ascii "connection") = true ∧
      Framing.sameName field.2 (ascii "upgrade") = true)
    (hShort : 2 * (scanner.parser.nread + (upgradeHead path fields).length) <
      HTTP_MAX_HEADER_SIZE) :
    ∃ place, scanner.Stops (upgradeHead path fields) place
        ([.onMessageBegin, .onUrl (ascii "/" ++ path)] ++
          fields.flatMap fun field => [.onHeaderField field.1, .onHeaderValue field.2]) ∧
      place.told LF = [.onHeadersComplete true] ∧ (place.effect LF).parser.upgrade = true ∧
      (place.effect LF).parser.flags.chunked = false ∧
      (place.effect LF).parser.contentLength = ULLONG_MAX := by
  obtain ⟨parser, hIn, hLine⟩ := scan_requestLine hState hErrno hPending hPath
  obtain ⟨after, flags, hAfter, hGrows, hSets, hScan⟩ :=
    @scan_fields _ ⟨parser, none⟩ fields ⟨rfl, Or.inl hIn⟩ hFields
  obtain ⟨last, hLast, hEffect⟩ := @LineStart.effect _ CR _ hAfter (by decide)
  let place : Scanner := ⟨{ last with state := .headersAlmostDone }, none⟩
  have hCR : after.scan [CR] = some (place, []) := by
    refine (Scanner.scan_go (hEffect.trans (if_pos rfl))).trans ?_
    rw [hAfter.pending]
    rfl
  obtain ⟨field, hMem, hName⟩ := hUpgrade
  obtain ⟨other, hOther, hOtherName, hWord⟩ := hConnection
  have hBoth : (flags.upgrade && flags.connectionUpgrade) = true := by
    rw [(hSets field hMem).upgrade hName, (hSets other hOther).connection hOtherName hWord]
    rfl
  have hPlace : InHead place.parser.counted .headersAlmostDone flags :=
    InHead.counted ⟨rfl, hLast.flags, hLast.contentLength, hLast.errno⟩
  have hDone := (Scanner.effect_switch (by rw [byteSwitch, hPlace.state])).trans
    (headersAlmostDone_upgrade hPlace hGrows hBoth)
  refine ⟨place, ⟨?_, by rw [hDone], by rw [hDone], ?_⟩, ?_, by rw [hDone], ?_, ?_⟩
  · refine Scanner.smooth_of_scan ?_ (upgradeHead_chars hPath hFields) hShort
    rw [← List.append_nil (List.flatMap _ fields)]
    exact Context.scan_append hLine (Context.scan_append hScan hCR)
  · rw [hDone]
    exact hPlace.errno
  · rw [Scanner.told, hDone]
    rfl
  · rw [hDone]
    change place.parser.counted.flags.chunked = false
    rw [hPlace.flags, hGrows.chunked]
    rfl
  · rw [hDone]
    exact hPlace.contentLength

end Heads

end Httpuv.RequestParser
