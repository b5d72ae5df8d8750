import Httpuv.Framing.Message
import Httpuv.Paths.Segments

/-! Lists of codings with weights, by which a client says what it accepts. -/
namespace Framing

/-- The elements of a list with commas. Empty elements are read over. -/
def listElements (value : Octets) : List Octets :=
  ((value.splitOn 44).map trim).filter (fun element => element != [])

def isDigit (byte : UInt8) : Bool := 48 ≤ byte && byte ≤ 57

/-- A weight from 0 to 1 with up to three decimals, in thousandths. -/
def parseWeight : Octets → Option Nat
  | [48] => some 0
  | [49] => some 1000
  | 48 :: 46 :: decimals =>
      if decimals.length ≤ 3 ∧ decimals.all isDigit then
        Numeral.accumulate 10 0 (decimals ++ List.replicate (3 - decimals.length) 48)
      else none
  | 49 :: 46 :: decimals =>
      if decimals.length ≤ 3 ∧ decimals.all (fun byte => byte == 48) then some 1000 else none
  | _ => none

/-- A weight behind its separator and its name, which has either case. -/
def parseParameter (parameter : Octets) : Option Nat :=
  match parameter.dropWhile isBlank with
  | 59 :: after =>
      match after.dropWhile isBlank with
      | 113 :: 61 :: weight => parseWeight weight
      | 81 :: 61 :: weight => parseWeight weight
      | _ => none
  | _ => none

/-- A coding with its weight, which is 1 where none is given. -/
def parseCoding (element : Octets) : Option (Octets × Nat) :=
  let name := element.takeWhile isTokenByte
  let parameter := element.dropWhile isTokenByte
  if name = [] then none
  else if parameter = [] then some (name, 1000)
  else (parseParameter parameter).map (fun weight => (name, weight))

def parseCodings (value : Octets) : Option (List (Octets × Nat)) :=
  (listElements value).mapM parseCoding

/-- Stands for every coding that is not listed. -/
def wildcard : Octets := [42]

/-- A coding is accepted if it is not listed with the weight 0, and it or else the wildcard is
listed with another one. -/
def Accepts (codings : List (Octets × Nat)) (isName : Octets → Bool) : Prop :=
  (∀ coding ∈ codings, isName coding.1 = true → 0 < coding.2) ∧
    ∃ coding ∈ codings, (isName coding.1 = true ∨ coding.1 = wildcard) ∧ 0 < coding.2

instance (codings : List (Octets × Nat)) (isName : Octets → Bool) :
    Decidable (Accepts codings isName) := by
  unfold Accepts
  infer_instance

theorem not_accepts_iff {codings : List (Octets × Nat)} {isName : Octets → Bool} :
    ¬ Accepts codings isName ↔
      (∃ coding ∈ codings, isName coding.1 = true ∧ coding.2 = 0) ∨
        (∀ coding ∈ codings, isName coding.1 = false) ∧
          ∀ coding ∈ codings, coding.1 = wildcard → coding.2 = 0 := by
  constructor
  · intro h
    by_cases hRefused : ∃ coding ∈ codings, isName coding.1 = true ∧ coding.2 = 0
    · exact Or.inl hRefused
    · right
      have hWeight : ∀ coding ∈ codings, isName coding.1 = true → 0 < coding.2 :=
        fun coding hMem hName =>
          Nat.pos_of_ne_zero fun hZero => hRefused ⟨coding, hMem, hName, hZero⟩
      have hNone : ∀ coding ∈ codings, (isName coding.1 = true ∨ coding.1 = wildcard) →
          coding.2 = 0 := fun coding hMem hListed =>
        Nat.eq_zero_of_not_pos fun hSome => h ⟨hWeight, coding, hMem, hListed, hSome⟩
      constructor
      · intro coding hMem
        by_contra hName
        rw [Bool.not_eq_false] at hName
        have hZero := hNone coding hMem (Or.inl hName)
        have hSome := hWeight coding hMem hName
        omega
      · exact fun coding hMem hWildcard => hNone coding hMem (Or.inr hWildcard)
  · rintro (⟨coding, hMem, hName, hZero⟩ | ⟨hOther, hWildcard⟩) ⟨hWeight, listed, hListed, hEither, hSome⟩
    · have hSome := hWeight coding hMem hName
      omega
    · rcases hEither with hName | hAll
      · rw [hOther listed hListed] at hName
        contradiction
      · rw [hWildcard listed hListed hAll] at hSome
        contradiction

section Infixes

variable {Symbol : Type} {needle before after text : List Symbol} {p : Symbol → Bool}

/-- What has no symbol of the needle behind it has the needle in front. -/
theorem infix_of_append (hSome : needle ≠ []) (hAfter : ∀ symbol ∈ after, symbol ∉ needle)
    (h : needle <:+: before ++ after) : needle <:+: before := by
  cases after with
  | nil => exact List.append_nil before ▸ h
  | cons symbol rest =>
      rcases (Paths.infix_append_cons (hAfter symbol List.mem_cons_self)).1 h with hFront | hRest
      · exact hFront
      · obtain ⟨first, hFirst⟩ := List.exists_mem_of_ne_nil needle hSome
        exact absurd hFirst (hAfter first (List.mem_cons_of_mem symbol (hRest.subset hFirst)))

theorem infix_dropWhile (hSome : needle ≠ []) (hOther : ∀ symbol ∈ needle, p symbol = false) :
    needle <:+: text.dropWhile p ↔ needle <:+: text := by
  induction text with
  | nil => exact Iff.rfl
  | cons symbol rest ih =>
      rw [List.dropWhile_cons]
      split_ifs with hSymbol
      · have hPlain : symbol ∉ needle := by
          intro hMem
          rw [hOther symbol hMem] at hSymbol
          contradiction
        have hCons : needle <:+: [] ++ symbol :: rest ↔ needle <:+: [] ∨ needle <:+: rest :=
          Paths.infix_append_cons hPlain
        rw [ih, ← List.nil_append (symbol :: rest), hCons, List.infix_nil]
        exact ⟨Or.inr, fun h => h.resolve_left hSome⟩
      · exact Iff.rfl

end Infixes

section Elements

variable {needle value : Octets}

theorem infix_trim (hSome : needle ≠ []) (hPlain : ∀ byte ∈ needle, isBlank byte = false) :
    needle <:+: trim value ↔ needle <:+: value := by
  have hSome' : needle.reverse ≠ [] := by simpa using hSome
  have hPlain' : ∀ byte ∈ needle.reverse, isBlank byte = false :=
    fun byte hMem => hPlain byte (List.mem_reverse.1 hMem)
  rw [trim, ← List.reverse_infix, List.reverse_reverse, infix_dropWhile hSome' hPlain',
    List.reverse_infix, infix_dropWhile hSome hPlain]

/-- A part without commas and blanks is a part of one of the elements. -/
theorem infix_listElements (hSome : needle ≠ []) (hComma : 44 ∉ needle)
    (hPlain : ∀ byte ∈ needle, isBlank byte = false) :
    needle <:+: value ↔ ∃ element ∈ listElements value, needle <:+: element := by
  rw [Paths.infix_splitOn hComma]
  constructor
  · rintro ⟨segment, hMem, hSegment⟩
    have hTrim : needle <:+: trim segment := (infix_trim hSome hPlain).2 hSegment
    refine ⟨trim segment, List.mem_filter.2 ⟨List.mem_map_of_mem hMem, ?_⟩, hTrim⟩
    rw [bne_iff_ne]
    intro hNil
    rw [hNil, List.infix_nil] at hTrim
    exact hSome hTrim
  · rintro ⟨element, hMem, hElement⟩
    obtain ⟨segment, hSegment, rfl⟩ := List.mem_map.1 (List.mem_filter.1 hMem).1
    exact ⟨segment, hSegment, (infix_trim hSome hPlain).1 hElement⟩

end Elements

section Codings

variable {needle value element parameter weight : Octets} {coding : Octets × Nat}
  {codings : List (Octets × Nat)} {thousandths : Nat}

/-- The bytes with which a weight is put behind a coding. -/
def isWeightByte (byte : UInt8) : Bool :=
  isBlank byte || isDigit byte || [59, 113, 81, 61, 46].contains byte

theorem parseWeight_bytes (h : parseWeight weight = some thousandths) :
    ∀ byte ∈ weight, isWeightByte byte = true := by
  unfold parseWeight at h
  split at h
  · simp [isWeightByte, isDigit]
  · simp [isWeightByte, isDigit]
  · rename_i decimals
    split_ifs at h with hDecimals
    have hDigits := List.all_eq_true.1 hDecimals.2
    simp_all [isWeightByte, isDigit]
  · rename_i decimals
    split_ifs at h with hDecimals
    have hZeros : ∀ byte ∈ decimals, isWeightByte byte = true := by
      intro byte hMem
      rw [beq_iff_eq.1 (List.all_eq_true.1 hDecimals.2 byte hMem)]
      rfl
    simpa [isWeightByte, isDigit] using hZeros
  · contradiction

theorem isWeightByte_of_dropWhile
    (h : ∀ byte ∈ parameter.dropWhile isBlank, isWeightByte byte = true) :
    ∀ byte ∈ parameter, isWeightByte byte = true := by
  intro byte hMem
  rw [← List.takeWhile_append_dropWhile (p := isBlank) (l := parameter), List.mem_append] at hMem
  rcases hMem with hBlank | hRest
  · simp [isWeightByte, List.mem_takeWhile_imp hBlank]
  · exact h byte hRest

theorem parseParameter_bytes (h : parseParameter parameter = some thousandths) :
    ∀ byte ∈ parameter, isWeightByte byte = true := by
  apply isWeightByte_of_dropWhile
  unfold parseParameter at h
  split at h
  · rename_i after hAfter
    have hBehind : ∀ byte ∈ after, isWeightByte byte = true := by
      apply isWeightByte_of_dropWhile
      split at h
      · rename_i weight hWeight
        have hBytes := parseWeight_bytes h
        rw [hWeight]
        simp_all [isWeightByte]
      · rename_i weight hWeight
        have hBytes := parseWeight_bytes h
        rw [hWeight]
        simp_all [isWeightByte]
      · contradiction
    rw [hAfter]
    simp_all [isWeightByte]
  · contradiction

/-- Behind the name of a coding stands nothing but its weight. -/
theorem parseCoding_bytes (h : parseCoding element = some coding) :
    ∃ rest, element = coding.1 ++ rest ∧ ∀ byte ∈ rest, isWeightByte byte = true := by
  refine ⟨element.dropWhile isTokenByte, ?_⟩
  have hElement := List.takeWhile_append_dropWhile (p := isTokenByte) (l := element)
  unfold parseCoding at h
  dsimp only at h
  split_ifs at h with hName hNone
  · cases h
    rw [hElement, hNone]
    exact ⟨rfl, List.forall_mem_nil _⟩
  · obtain ⟨weight, hWeight, rfl⟩ := Option.map_eq_some_iff.1 h
    exact ⟨hElement.symm, parseParameter_bytes hWeight⟩

theorem infix_parseCoding (hSome : needle ≠ [])
    (hPlain : ∀ byte ∈ needle, isWeightByte byte = false)
    (h : parseCoding element = some coding) : needle <:+: element ↔ needle <:+: coding.1 := by
  obtain ⟨rest, rfl, hRest⟩ := parseCoding_bytes h
  constructor
  · apply infix_of_append hSome
    intro byte hMem hNeedle
    have hWeight := hRest byte hMem
    rw [hPlain byte hNeedle] at hWeight
    contradiction
  · exact List.infix_append_of_infix_left

/-- Every element of a list that is read has its coding. -/
theorem map_of_mapM {elements : List Octets} (h : elements.mapM parseCoding = some codings) :
    elements.map parseCoding = codings.map some := by
  induction elements generalizing codings with
  | nil =>
      cases h
      rfl
  | cons element elements ih =>
      rw [List.mapM_cons] at h
      obtain ⟨first, hFirst, h⟩ := Option.bind_eq_some_iff.1 h
      obtain ⟨rest, hRest, h⟩ := Option.bind_eq_some_iff.1 h
      cases h
      rw [List.map_cons, List.map_cons, ih hRest, hFirst]

/-- What a weight cannot have in it is a part of a list of codings if and only if it is a
part of the name of one. -/
theorem infix_parseCodings (hSome : needle ≠ []) (hComma : 44 ∉ needle)
    (hPlain : ∀ byte ∈ needle, isWeightByte byte = false)
    (h : parseCodings value = some codings) :
    needle <:+: value ↔ ∃ coding ∈ codings, needle <:+: coding.1 := by
  have hBlank : ∀ byte ∈ needle, isBlank byte = false := by
    intro byte hMem
    have hByte := hPlain byte hMem
    simp only [isWeightByte, Bool.or_eq_false_iff] at hByte
    exact hByte.1.1
  have hCodings := map_of_mapM h
  rw [infix_listElements hSome hComma hBlank]
  constructor
  · rintro ⟨element, hMem, hElement⟩
    have hCoding : parseCoding element ∈ codings.map some :=
      hCodings ▸ List.mem_map_of_mem hMem
    obtain ⟨coding, hListed, hRead⟩ := List.mem_map.1 hCoding
    exact ⟨coding, hListed, (infix_parseCoding hSome hPlain hRead.symm).1 hElement⟩
  · rintro ⟨coding, hListed, hName⟩
    have hCoding : some coding ∈ (listElements value).map parseCoding :=
      hCodings ▸ List.mem_map_of_mem hListed
    obtain ⟨element, hMem, hRead⟩ := List.mem_map.1 hCoding
    exact ⟨element, hMem, (infix_parseCoding hSome hPlain hRead).2 hName⟩

end Codings

end Framing
