import Httpuv.Http.HeaderFields
import Httpuv.Parser.Executions

/-! The names of headers that the parser looks at, without regard to case. -/
namespace Httpuv.RequestParser

/-- The words that the name of a header is compared with. -/
def words : List Bytes :=
  [ascii "connection", ascii "proxy-connection", ascii "content-length",
    ascii "transfer-encoding", ascii "upgrade"]

/-- A name that is a part of a word, and of no other one. -/
structure PartOf (word : Bytes) (least : Nat) (name : Bytes) : Prop where
  starts : name <+: word
  least : least ≤ name.length
  less : name.length < word.length

/-- What a header state says of the part of a name that has been read. -/
def NameAt (name : Bytes) : HeaderState → Prop
  | .general => ∀ word ∈ words, ¬name <+: word
  | .C => name = ascii "c"
  | .CO => name = ascii "co"
  | .CON => name = ascii "con"
  | .matchingConnection => PartOf (ascii "connection") 4 name
  | .matchingProxyConnection => PartOf (ascii "proxy-connection") 1 name
  | .matchingContentLength => PartOf (ascii "content-length") 4 name
  | .matchingTransferEncoding => PartOf (ascii "transfer-encoding") 1 name
  | .matchingUpgrade => PartOf (ascii "upgrade") 1 name
  | .connection => name = ascii "connection" ∨ name = ascii "proxy-connection"
  | .contentLength => name = ascii "content-length"
  | .transferEncoding => name = ascii "transfer-encoding"
  | .upgrade => name = ascii "upgrade"
  | _ => False

instance (word : Bytes) (least : Nat) (name : Bytes) : Decidable (PartOf word least name) :=
  decidable_of_iff (name <+: word ∧ least ≤ name.length ∧ name.length < word.length)
    ⟨fun ⟨starts, least, less⟩ => ⟨starts, least, less⟩,
      fun part => ⟨part.starts, part.least, part.less⟩⟩

instance (name : Bytes) (state : HeaderState) : Decidable (NameAt name state) :=
  match state with
  | .general => inferInstanceAs (Decidable (∀ word ∈ words, ¬name <+: word))
  | .C | .CO | .CON | .contentLength | .transferEncoding | .upgrade =>
      inferInstanceAs (Decidable (name = _))
  | .matchingConnection | .matchingProxyConnection | .matchingContentLength
  | .matchingTransferEncoding | .matchingUpgrade => inferInstanceAs (Decidable (PartOf _ _ name))
  | .connection => inferInstanceAs (Decidable (name = _ ∨ name = _))
  | .matchingTransferEncodingChunked | .matchingConnectionTokenStart
  | .matchingConnectionKeepAlive | .matchingConnectionClose | .matchingConnectionUpgrade
  | .matchingConnectionToken | .transferEncodingChunked | .connectionKeepAlive | .connectionClose
  | .connectionUpgrade => inferInstanceAs (Decidable False)

/-- The state that a name leads to which is one of the words. -/
def wordState (word : Bytes) : HeaderState :=
  if word = ascii "content-length" then .contentLength
  else if word = ascii "transfer-encoding" then .transferEncoding
  else if word = ascii "upgrade" then .upgrade
  else .connection

/-- A parser in a name, of which a part has been read. -/
structure Named (parser : RequestParser) (name : Bytes) : Prop where
  state : NameAt name parser.headerState
  index : parser.headerState ≠ .general → parser.index + 1 = name.length

section Words

variable {word other name : Bytes} {least : Nat} {c : UInt8}

/-- No word goes on behind another one. -/
theorem not_prefix_behind (hWord : word ∈ words) : ∀ other ∈ words, ¬(word ++ [c]) <+: other := by
  intro other hOther hPrefix
  have hSame : ∀ word ∈ words, ∀ other ∈ words, word <+: other → word = other := by decide
  obtain rfl := hSame word hWord other hOther ((List.prefix_append word [c]).trans hPrefix)
  have hLength := hPrefix.length_le
  rw [List.length_append, List.length_singleton] at hLength
  omega

/-- The next character of a word. -/
theorem prefix_snoc (hStarts : name <+: word) (hLess : name.length < word.length) :
    name ++ [c] <+: word ↔ word.getD name.length 0 = c := by
  obtain ⟨tail, rfl⟩ := hStarts
  cases tail with
  | nil => simp at hLess
  | cons next tail =>
      simp [List.prefix_append_right_inj, eq_comm]

theorem take_of_starts (hPrefix : name <+: word) (hLeast : least ≤ name.length) :
    word.take least = name.take least := by
  obtain ⟨tail, rfl⟩ := hPrefix
  exact List.take_append_of_le_length hLeast

/-- One character behind a part of a word. -/
theorem PartOf.snoc (hPart : PartOf word least name)
    (hApart : ∀ other ∈ words, word.take least = other.take least → word = other)
    {matching found : HeaderState} (hFound : NameAt word found)
    (hMatching : ∀ name, PartOf word least name → NameAt name matching) :
    NameAt (name ++ [c]) (matchWord word matching found .general name.length c) := by
  have hLess := hPart.less
  unfold matchWord
  by_cases hDiffers : c = word.getD name.length 0
  · have hOther : ¬(word.length < name.length ∨ c ≠ word.getD name.length 0) := by
      rintro (hLong | hNot)
      · omega
      · exact hNot hDiffers
    have hPrefix := (prefix_snoc hPart.starts hLess).2 hDiffers.symm
    rw [if_neg hOther]
    split_ifs with hEnd
    · have hWhole : name ++ [c] = word := hPrefix.eq_of_length (by simp; omega)
      rwa [hWhole]
    · have hLeast := hPart.least
      exact hMatching _ ⟨hPrefix, by simp; omega, by simp; omega⟩
  · rw [if_pos (Or.inr hDiffers)]
    intro other hMem hPrefix
    have hTake : word.take least = other.take least :=
      (take_of_starts hPart.starts hPart.least).trans
        (take_of_starts ((List.prefix_append name [c]).trans hPrefix) hPart.least).symm
    obtain rfl := hApart other hMem hTake
    exact hDiffers ((prefix_snoc hPart.starts hLess).1 hPrefix).symm

/-- No word goes on with a character. -/
theorem none_goes_on (hNext : ∀ word ∈ words, name <+: word → word.getD name.length 0 ≠ c) :
    ∀ word ∈ words, ¬(name ++ [c]) <+: word := by
  intro word hWord hPrefix
  have hStarts := (List.prefix_append name [c]).trans hPrefix
  have hLess := hPrefix.length_le
  rw [List.length_append, List.length_singleton] at hLess
  exact hNext word hWord hStarts ((prefix_snoc hStarts hLess).1 hPrefix)

end Words

variable {parser : RequestParser} {name : Bytes} {ch : UInt8}

/-- A name that is none of the words is none of them with more characters. -/
theorem general_snoc (hName : ∀ word ∈ words, ¬name <+: word) (c : UInt8) :
    ∀ word ∈ words, ¬name ++ [c] <+: word :=
  fun word hWord hPrefix => hName word hWord ((List.prefix_append name [c]).trans hPrefix)

theorem token_ne_space (hToken : isToken ch = true) : ch ≠ chr ' ' := by
  rintro rfl
  exact absurd hToken (by decide)

/-- One character of a name. -/
theorem Named.snoc (hNamed : Named parser name) (hToken : isToken ch = true) :
    Named (parser.headerFieldChar ch) (name ++ [tokens ch]) := by
  have hState := hNamed.state
  have hIndex := hNamed.index
  have hSpace := token_ne_space hToken
  have hMatch : ∀ {word : Bytes} {least : Nat} {matching found : HeaderState},
      parser.headerState ≠ .general → PartOf word least name → word ∈ words →
      (∀ other ∈ words, word.take least = other.take least → word = other) →
      NameAt word found → (∀ name, PartOf word least name → NameAt name matching) →
      Named { parser with
        index := parser.nextIndex
        headerState := matchWord word matching found .general parser.nextIndex (tokens ch) }
        (name ++ [tokens ch]) := by
    intro word least matching found hNot hPart hWord hApart hFound hMatching
    have hShort : ∀ word ∈ words, word.length < 18 := by decide
    have hNext : parser.nextIndex = name.length := by
      have hLess := hPart.less
      have hFew := hShort word hWord
      rw [nextIndex, hIndex hNot]
      exact Nat.mod_eq_of_lt (by omega)
    rw [hNext]
    exact ⟨hPart.snoc hApart hFound hMatching, fun _ => by simp⟩
  have hFirst : ∀ {first : Bytes} {after : HeaderState} {letter : UInt8}, parser.headerState ≠ .general →
      name = first → first.length < 4 → NameAt (first ++ [letter]) after → tokens ch = letter →
      Named { parser with index := parser.nextIndex, headerState := after } (name ++ [tokens ch]) := by
    rintro first after letter hNot rfl hFew hAfter rfl
    refine ⟨hAfter, fun _ => ?_⟩
    have hNext : parser.nextIndex = name.length := by
      rw [nextIndex, hIndex hNot]
      exact Nat.mod_eq_of_lt (by omega)
    simp [hNext]
  have hDead : ∀ {index : Nat}, (∀ word ∈ words, ¬(name ++ [tokens ch]) <+: word) →
      Named { parser with index, headerState := .general } (name ++ [tokens ch]) :=
    fun hNone => ⟨hNone, fun hNot => absurd rfl hNot⟩
  have hBehind : ∀ {word : Bytes}, name = word → word ∈ words →
      Named { parser with headerState := .general } (name ++ [tokens ch]) := by
    rintro word rfl hWord
    exact hDead (not_prefix_behind hWord)
  unfold headerFieldChar
  dsimp only
  cases hCase : parser.headerState <;> rw [hCase] at hState
  case general => exact ⟨by rw [hCase]; exact general_snoc hState _, fun hNot => absurd hCase hNot⟩
  case C =>
    dsimp only
    split_ifs with hO
    · exact hFirst (by simp [hCase]) hState (by decide) rfl hO
    · refine hDead (none_goes_on ?_)
      have hNext : ∀ word ∈ words, ascii "c" <+: word → word.getD 1 0 = chr 'o' := by decide
      rw [show name = ascii "c" from hState]
      exact fun word hWord hStarts hSame => hO (hSame.symm.trans (hNext word hWord hStarts))
  case CO =>
    dsimp only
    split_ifs with hN
    · exact hFirst (by simp [hCase]) hState (by decide) rfl hN
    · refine hDead (none_goes_on ?_)
      have hNext : ∀ word ∈ words, ascii "co" <+: word → word.getD 2 0 = chr 'n' := by decide
      rw [show name = ascii "co" from hState]
      exact fun word hWord hStarts hSame => hN (hSame.symm.trans (hNext word hWord hStarts))
  case CON =>
    dsimp only
    split_ifs with hN hT
    · refine hFirst (by simp [hCase]) hState (by decide) ⟨?_, ?_, ?_⟩ hN <;> decide
    · refine hFirst (by simp [hCase]) hState (by decide) ⟨?_, ?_, ?_⟩ hT <;> decide
    · refine hDead (none_goes_on ?_)
      have hNext : ∀ word ∈ words, ascii "con" <+: word →
          word.getD 3 0 = chr 'n' ∨ word.getD 3 0 = chr 't' := by decide
      rw [show name = ascii "con" from hState]
      intro word hWord hStarts hSame
      rcases hNext word hWord hStarts with hLetter | hLetter
      · exact hN (hSame.symm.trans hLetter)
      · exact hT (hSame.symm.trans hLetter)
  case matchingConnection =>
    exact hMatch (by simp [hCase]) hState (by decide) (by decide) (Or.inl rfl) (fun _ h => h)
  case matchingProxyConnection =>
    exact hMatch (by simp [hCase]) hState (by decide) (by decide) (Or.inr rfl) (fun _ h => h)
  case matchingContentLength =>
    exact hMatch (by simp [hCase]) hState (by decide) (by decide) rfl (fun _ h => h)
  case matchingTransferEncoding =>
    exact hMatch (by simp [hCase]) hState (by decide) (by decide) rfl (fun _ h => h)
  case matchingUpgrade =>
    exact hMatch (by simp [hCase]) hState (by decide) (by decide) rfl (fun _ h => h)
  case connection =>
    rw [if_pos hSpace]
    rcases hState with hName | hName
    · exact hBehind hName (by decide)
    · exact hBehind hName (by decide)
  case contentLength | transferEncoding | upgrade =>
    rw [if_pos hSpace]
    exact hBehind hState (by decide)
  all_goals exact hState.elim

/-- The first character of a name. -/
theorem named_of_start (hToken : isToken ch = true) : ∃ headerState,
    parser.headerFieldStart ch = ({ parser with
      index := 0
      state := .headerField
      headerState } : RequestParser).go [.mark .headerField] ∧
    Named { parser with index := 0, state := .headerField, headerState } [tokens ch] := by
  have hCR : ch ≠ CR := by
    rintro rfl
    exact absurd hToken (by decide)
  have hLF : ch ≠ LF := by
    rintro rfl
    exact absurd hToken (by decide)
  have hZero : ¬tokens ch = 0 := of_decide_eq_true hToken
  unfold headerFieldStart
  rw [if_neg hCR, if_neg hLF]
  dsimp only
  rw [if_neg hZero]
  refine ⟨_, rfl, ?_, fun _ => rfl⟩
  dsimp only
  split_ifs with hC hP hT hU
  · rw [hC]
    rfl
  · rw [hP]
    exact ⟨by decide, by decide, by decide⟩
  · rw [hT]
    exact ⟨by decide, by decide, by decide⟩
  · rw [hU]
    exact ⟨by decide, by decide, by decide⟩
  · intro word hWord hPrefix
    have hFirst : ∀ word ∈ words, word.getD 0 0 = chr 'c' ∨ word.getD 0 0 = chr 'p' ∨
        word.getD 0 0 = chr 't' ∨ word.getD 0 0 = chr 'u' := by decide
    have hSame : word.getD 0 0 = tokens ch := (prefix_snoc word.nil_prefix hPrefix.length_le).1 hPrefix
    rcases hFirst word hWord with hLetter | hLetter | hLetter | hLetter
    · exact hC (hSame.symm.trans hLetter)
    · exact hP (hSame.symm.trans hLetter)
    · exact hT (hSame.symm.trans hLetter)
    · exact hU (hSame.symm.trans hLetter)

theorem ofField_of_named (hNamed : Named parser name) : parser.headerState.ofField = true := by
  have hState := hNamed.state
  cases hCase : parser.headerState <;> rw [hCase] at hState
  case general | C | CO | CON | matchingConnection | matchingProxyConnection | matchingContentLength |
      matchingTransferEncoding | matchingUpgrade | connection | contentLength | transferEncoding |
      upgrade => rfl
  all_goals exact hState.elim

/-- The characters of a name, behind a part of it. -/
theorem Named.append (hNamed : Named parser name) {field : Bytes}
    (hTokens : ∀ ch ∈ field, isToken ch = true) : ∃ index headerState,
      field.foldl headerFieldChar parser = { parser with index, headerState } ∧
        Named { parser with index, headerState } (name ++ field.map tokens) := by
  induction field generalizing parser name with
  | nil => exact ⟨parser.index, parser.headerState, rfl, by simpa using hNamed⟩
  | cons ch field ih =>
      obtain ⟨index, headerState, hChar, -⟩ := @headerFieldChar_eq parser ch (ofField_of_named hNamed)
      have hFirst := hNamed.snoc (hTokens ch (by simp))
      rw [hChar] at hFirst
      obtain ⟨index', headerState', hRest, hAll⟩ :=
        ih hFirst (fun other hOther => hTokens other (by simp [hOther]))
      refine ⟨index', headerState', ?_, ?_⟩
      · rw [List.foldl_cons, hChar, hRest]
      · rw [List.map_cons, List.append_cons]
        exact hAll

/-- The header state behind a name says whether it is one of the words, and which. -/
theorem nameAt_word {headerState : HeaderState} (hName : NameAt name headerState) {word : Bytes}
    (hWord : word ∈ words) : name = word → headerState = wordState word := by
  rintro rfl
  have hOnly : ∀ word ∈ words, NameAt word headerState → headerState = wordState word := by
    cases headerState <;> decide
  exact hOnly name hWord hName

theorem word_of_nameAt {word : Bytes} (hWord : word ∈ words) (hName : NameAt name (wordState word)) :
    name ∈ words ∧ wordState name = wordState word := by
  have hStates : ∀ word ∈ words, wordState word = .connection ∨ wordState word = .contentLength ∨
      wordState word = .transferEncoding ∨ wordState word = .upgrade := by decide
  rcases hStates word hWord with hCase | hCase | hCase | hCase
  all_goals rw [hCase] at hName ⊢
  · rcases hName with rfl | rfl <;> decide
  all_goals
    rw [show name = _ from hName]
    decide

/-- **Which headers are looked at.** Behind a name the parser is in the state of a word if and
only if the name is that word, or another one with the same state, in any case. -/
theorem name_recognized (parser : RequestParser) {first : UInt8} {rest : Bytes}
    (hFirst : isToken first = true) (hRest : ∀ ch ∈ rest, isToken ch = true) :
    ∀ word ∈ words,
      (rest.foldl headerFieldChar (parser.headerFieldStart first).parser).headerState =
          wordState word ↔
        (first :: rest).map tokens ∈ words ∧
          wordState ((first :: rest).map tokens) = wordState word := by
  intro word hWord
  obtain ⟨headerState, hStart, hNamed⟩ := @named_of_start parser first hFirst
  obtain ⟨index, finish, hFold, hAll⟩ := hNamed.append hRest
  have hEnd : (rest.foldl headerFieldChar (parser.headerFieldStart first).parser).headerState =
      finish := by
    rw [hStart, go, hFold]
  rw [hEnd]
  have hName : NameAt ((first :: rest).map tokens) finish := hAll.state
  constructor
  · intro hState
    rw [hState] at hName
    exact word_of_nameAt hWord hName
  · rintro ⟨hMem, hSame⟩
    rw [← hSame]
    exact nameAt_word hName hMem rfl

theorem name_recognized_length : ((ascii "ontent-LENGTH").foldl headerFieldChar
    (init.headerFieldStart (chr 'C')).parser).headerState = wordState (ascii "content-length") :=
  (name_recognized init (by decide) (List.all_eq_true.1 (by decide)) (ascii "content-length")
    (by decide)).2 (by decide)

end Httpuv.RequestParser
