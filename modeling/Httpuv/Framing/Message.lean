import Httpuv.Framing.Numeral
import Mathlib.Data.List.TakeWhile

/-! HTTP/1.1 message framing: lines, header fields, the chunked coding, and the
body of a message that tells where it ends. -/
namespace Framing

abbrev Octets := List UInt8

/-- The octets up to the first CRLF, and those behind it. -/
def readLine : Octets → Option (Octets × Octets)
  | [] => none
  | byte :: rest =>
      match byte, rest with
      | 13, 10 :: after => some ([], after)
      | _, _ => (readLine rest).map (fun result => (byte :: result.1, result.2))

def isTokenByte (byte : UInt8) : Bool :=
  (48 ≤ byte && byte ≤ 57) || (65 ≤ byte && byte ≤ 90) || (97 ≤ byte && byte ≤ 122) ||
    [33, 35, 36, 37, 38, 39, 42, 43, 45, 46, 94, 95, 96, 124, 126].contains byte

/-- A field name: at least one token octet. -/
def isToken (name : Octets) : Bool := name != [] && name.all isTokenByte

def isBlank (byte : UInt8) : Bool := byte == 32 || byte == 9

/-- Leading and trailing blanks do not belong to a field value. -/
def trim (value : Octets) : Octets := ((value.dropWhile isBlank).reverse.dropWhile isBlank).reverse

def parseField (line : Octets) : Option (Octets × Octets) :=
  let name := line.takeWhile (· != 58)
  match line.dropWhile (· != 58) with
  | [] => none
  | _ :: value => if isToken name then some (name, trim value) else none

/-- Field lines up to the empty line, with a bound on their number. -/
def readFields : Nat → Octets → Option (List (Octets × Octets) × Octets)
  | 0, _ => none
  | fuel + 1, bytes => do
      let (line, rest) ← readLine bytes
      if line = [] then return ([], rest)
      else
        let field ← parseField line
        let (fields, rest) ← readFields fuel rest
        return (field :: fields, rest)

/-- The chunked coding, with a bound on the number of chunks. Extensions behind
a chunk size and trailer fields are read over. -/
def readChunks : Nat → Octets → Option (Octets × Octets)
  | 0, _ => none
  | fuel + 1, bytes => do
      let (line, rest) ← readLine bytes
      let size ← Numeral.parse 16 (line.takeWhile (· != 59))
      if size = 0 then
        let (_, rest) ← readFields (rest.length + 1) rest
        return ([], rest)
      else if size ≤ rest.length then
        let (separator, after) ← readLine (rest.drop size)
        if separator = [] then
          let (body, after) ← readChunks fuel after
          return (rest.take size ++ body, after)
        else none
      else none

def lower (byte : UInt8) : UInt8 := if 65 ≤ byte ∧ byte ≤ 90 then byte + 32 else byte

/-- Field names are compared without their case. -/
def sameName (name other : Octets) : Bool := name.map lower == other.map lower

def fieldValue (fields : List (Octets × Octets)) (name : Octets) : Option Octets :=
  (fields.find? (fun field => sameName field.1 name)).map Prod.snd

structure Message where
  startLine : Octets
  fields : List (Octets × Octets)
  body : Octets
  deriving DecidableEq, Repr

/-- `transfer-encoding`, `content-length` and `chunked`. -/
def transferEncoding : Octets :=
  [116, 114, 97, 110, 115, 102, 101, 114, 45, 101, 110, 99, 111, 100, 105, 110, 103]

def contentLength : Octets :=
  [99, 111, 110, 116, 101, 110, 116, 45, 108, 101, 110, 103, 116, 104]

def chunked : Octets := [99, 104, 117, 110, 107, 101, 100]

/-- A message and what follows it. The transfer coding goes before the length,
and without either the end of the body is unknown. -/
def readMessage (bytes : Octets) : Option (Message × Octets) := do
  let (startLine, rest) ← readLine bytes
  let (fields, rest) ← readFields (rest.length + 1) rest
  match fieldValue fields transferEncoding with
  | some coding =>
      if sameName coding chunked then
        let (body, rest) ← readChunks (rest.length + 1) rest
        return ({ startLine, fields, body }, rest)
      else none
  | none =>
      match fieldValue fields contentLength with
      | some value => do
          let length ← Numeral.parse 10 value
          if length ≤ rest.length then
            return ({ startLine, fields, body := rest.take length }, rest.drop length)
          else none
      | none => none

def crlf : Octets := [13, 10]

/-- The usual way to write a field. -/
def formatField (field : Octets × Octets) : Octets := field.1 ++ [58, 32] ++ field.2 ++ crlf

def formatChunk (data : Octets) : Octets := Numeral.format 16 data.length ++ crlf ++ data ++ crlf

def lastChunk : Octets := [48] ++ crlf ++ crlf

theorem readLine_append {line : Octets} (hLine : 13 ∉ line) (rest : Octets) :
    readLine (line ++ crlf ++ rest) = some (line, rest) := by
  induction line with
  | nil => rfl
  | cons byte line ih =>
      have hByte : byte ≠ 13 := fun h => hLine (by simp [h])
      rw [List.cons_append, List.cons_append, readLine]
      · rw [ih fun h => hLine (List.mem_cons_of_mem _ h)]
        rfl
      · intro after hFirst
        exact absurd hFirst hByte

theorem token_takeWhile {name : Octets} (hName : isToken name = true) (rest : Octets) :
    (name ++ 58 :: rest).takeWhile (· != 58) = name ∧
      (name ++ 58 :: rest).dropWhile (· != 58) = 58 :: rest := by
  have hNoColon : ∀ byte ∈ name, (byte != 58) = true := by
    intro byte hMem
    have hByte := (Bool.and_eq_true_iff.1 hName).2
    have hToken := List.all_eq_true.1 hByte byte hMem
    rw [bne_iff_ne]
    rintro rfl
    exact absurd hToken (by decide)
  rw [List.takeWhile_append_of_pos hNoColon, List.dropWhile_append_of_pos hNoColon]
  exact ⟨by simp, by simp⟩

theorem token_noCR {name : Octets} (hName : isToken name = true) : 13 ∉ name := by
  intro hMem
  have hByte := (Bool.and_eq_true_iff.1 hName).2
  exact absurd (List.all_eq_true.1 hByte 13 hMem) (by decide)

theorem trim_cons_blank (value : Octets) : trim (32 :: value) = trim value := by
  simp [trim, isBlank]

/-- A field that is written the usual way is read back, without blanks around
its value. -/
theorem parseField_formatField {name value : Octets} (hName : isToken name = true) :
    parseField (name ++ [58, 32] ++ value) = some (name, trim value) := by
  obtain ⟨hTake, hDrop⟩ := token_takeWhile hName (32 :: value)
  have hAppend : name ++ [58, 32] ++ value = name ++ 58 :: 32 :: value := by simp
  rw [hAppend, parseField, hTake, hDrop]
  simp [hName, trim_cons_blank]

/-- A header block of proper fields. -/
theorem readFields_formatField (fields : List (Octets × Octets))
    (hFields : ∀ field ∈ fields, isToken field.1 = true ∧ 13 ∉ field.2) (rest : Octets)
    (fuel : Nat) (hFuel : fields.length < fuel) :
    readFields fuel (fields.flatMap formatField ++ crlf ++ rest) =
      some (fields.map (fun field => (field.1, trim field.2)), rest) := by
  induction fields generalizing fuel with
  | nil =>
      obtain ⟨fuel, rfl⟩ := Nat.exists_eq_succ_of_ne_zero (show fuel ≠ 0 by omega)
      have hLine := readLine_append (show (13 : UInt8) ∉ ([] : Octets) by simp) rest
      simp only [List.nil_append] at hLine
      simp [readFields, hLine]
  | cons field fields ih =>
      obtain ⟨fuel, rfl⟩ := Nat.exists_eq_succ_of_ne_zero (show fuel ≠ 0 by omega)
      obtain ⟨hName, hValue⟩ := hFields field (by simp)
      have hLine : (13 : UInt8) ∉ field.1 ++ [58, 32] ++ field.2 := by
        simp [token_noCR hName, hValue]
      have hSplit : (field :: fields).flatMap formatField ++ crlf ++ rest =
          (field.1 ++ [58, 32] ++ field.2) ++ crlf ++
            (fields.flatMap formatField ++ crlf ++ rest) := by
        simp [formatField]
      have hRest := ih (fun other hMem => hFields other (List.mem_cons_of_mem _ hMem)) fuel
        (by simp only [List.length_cons] at hFuel; omega)
      rw [hSplit, readFields, readLine_append hLine]
      simp only [Option.bind_eq_bind, Option.bind_some, parseField_formatField hName, hRest]
      rw [if_neg (by simp)]
      rfl

theorem noCR_format (base n : Nat) (hLow : 0 < base) (hHigh : base ≤ 16) :
    13 ∉ Numeral.format base n := by
  intro hMem
  exact absurd (Numeral.byteDigit_of_mem_format hLow hHigh hMem) (by decide)

theorem takeWhile_format (base n : Nat) (hLow : 0 < base) (hHigh : base ≤ 16) :
    (Numeral.format base n).takeWhile (· != 59) = Numeral.format base n := by
  rw [List.takeWhile_eq_self_iff]
  intro byte hMem
  rw [bne_iff_ne]
  rintro rfl
  exact absurd (Numeral.byteDigit_of_mem_format hLow hHigh hMem) (by decide)

/-- Chunks of non-empty data are read back as their concatenation, and the last
chunk ends the body. -/
theorem readChunks_formatChunk (buffers : List Octets) (hBuffers : ∀ data ∈ buffers, data ≠ [])
    (rest : Octets) (fuel : Nat) (hFuel : buffers.length < fuel) :
    readChunks fuel (buffers.flatMap formatChunk ++ lastChunk ++ rest) =
      some (buffers.flatten, rest) := by
  induction buffers generalizing fuel with
  | nil =>
      obtain ⟨fuel, rfl⟩ := Nat.exists_eq_succ_of_ne_zero (show fuel ≠ 0 by omega)
      have hLine : readLine (lastChunk ++ rest) = some ([48], crlf ++ rest) := rfl
      have hTrailer : readFields ((crlf ++ rest).length + 1) (crlf ++ rest) = some ([], rest) := by
        have hEmpty := readFields_formatField [] (by simp) rest ((crlf ++ rest).length + 1)
          (by simp)
        simpa using hEmpty
      have hSize : Numeral.parse 16 (([48] : Octets).takeWhile (· != 59)) = some 0 := by decide
      simp only [List.flatMap_nil, List.nil_append, readChunks, hLine, Option.bind_eq_bind,
        Option.bind_some, hSize, if_true, hTrailer]
      rfl
  | cons data buffers ih =>
      obtain ⟨fuel, rfl⟩ := Nat.exists_eq_succ_of_ne_zero (show fuel ≠ 0 by omega)
      have hData := hBuffers data (by simp)
      have hPositive : data.length ≠ 0 := fun h => hData (List.length_eq_zero_iff.1 h)
      have hRest := ih (fun other hMem => hBuffers other (List.mem_cons_of_mem _ hMem)) fuel
        (by simp only [List.length_cons] at hFuel; omega)
      generalize hTail : buffers.flatMap formatChunk ++ lastChunk ++ rest = tail at hRest
      have hSplit : (data :: buffers).flatMap formatChunk ++ lastChunk ++ rest =
          Numeral.format 16 data.length ++ crlf ++ (data ++ (crlf ++ tail)) := by
        rw [← hTail]
        simp [formatChunk]
      have hSeparator : readLine (crlf ++ tail) = some ([], tail) := rfl
      rw [hSplit, readChunks, readLine_append (noCR_format 16 _ (by omega) (by omega))]
      simp only [Option.bind_eq_bind, Option.bind_some,
        takeWhile_format 16 _ (show 0 < 16 by omega) (show 16 ≤ 16 by omega),
        Numeral.parse_format (show 2 ≤ 16 by omega) (show 16 ≤ 16 by omega)]
      rw [if_neg hPositive, if_pos (by simp)]
      simp only [List.drop_left, List.take_left, hSeparator, Option.bind_some, if_true, hRest]
      rfl

/-- Every piece has at least one octet, so their number is bounded by the input. -/
theorem length_le_flatMap {Piece : Type*} (pieces : List Piece) (encode : Piece → Octets)
    (hSome : ∀ piece ∈ pieces, 0 < (encode piece).length) :
    pieces.length ≤ (pieces.flatMap encode).length := by
  induction pieces with
  | nil => simp
  | cons piece pieces ih =>
      have hPiece := hSome piece (by simp)
      have hRest := ih fun other hMem => hSome other (List.mem_cons_of_mem _ hMem)
      rw [List.flatMap_cons, List.length_append, List.length_cons]
      omega

section Message

variable {startLine : Octets} {fields : List (Octets × Octets)}

/-- The field list of a message as it is read. -/
def readBack (fields : List (Octets × Octets)) : List (Octets × Octets) :=
  fields.map (fun field => (field.1, trim field.2))

theorem readBack_append (fields added : List (Octets × Octets)) :
    readBack (fields ++ added) = readBack fields ++ readBack added :=
  List.map_append

/-- Fields of other names do not hide the ones behind them. -/
theorem fieldValue_append {name : Octets} {added : List (Octets × Octets)}
    (hOther : ∀ field ∈ fields, sameName field.1 name = false) :
    fieldValue (readBack (fields ++ added)) name = fieldValue (readBack added) name := by
  induction fields with
  | nil => rfl
  | cons field fields ih =>
      have hRest := ih fun other hMem => hOther other (List.mem_cons_of_mem _ hMem)
      rw [← hRest]
      simp [fieldValue, readBack, hOther field (by simp)]

theorem trim_format (base n : Nat) (hLow : 0 < base) (hHigh : base ≤ 16) :
    trim (Numeral.format base n) = Numeral.format base n := by
  have hNoBlank : ∀ byte ∈ Numeral.format base n, isBlank byte = false := by
    intro byte hMem
    have hDigit := Numeral.byteDigit_of_mem_format hLow hHigh hMem
    rw [isBlank, Bool.or_eq_false_iff, beq_eq_false_iff_ne, beq_eq_false_iff_ne]
    constructor <;> rintro rfl <;> exact absurd hDigit (by decide)
  have hDrop : ∀ value : Octets, (∀ byte ∈ value, isBlank byte = false) →
      value.dropWhile isBlank = value := by
    intro value hValue
    cases value with
    | nil => rfl
    | cons byte rest => rw [List.dropWhile_cons_of_neg (by simp [hValue byte (by simp)])]
  rw [trim, hDrop _ hNoBlank, hDrop _ fun byte hMem => hNoBlank byte (List.mem_reverse.1 hMem),
    List.reverse_reverse]

/-- Start line and header block of a message. -/
def formatHead (startLine : Octets) (fields : List (Octets × Octets)) : Octets :=
  startLine ++ crlf ++ fields.flatMap formatField ++ crlf

theorem readHead (hStart : 13 ∉ startLine)
    (hFields : ∀ field ∈ fields, isToken field.1 = true ∧ 13 ∉ field.2) (rest : Octets) :
    ∃ block, readLine (formatHead startLine fields ++ rest) = some (startLine, block) ∧
      readFields (block.length + 1) block = some (readBack fields, rest) := by
  refine ⟨fields.flatMap formatField ++ crlf ++ rest, ?_, ?_⟩
  · rw [← readLine_append hStart]
    simp [formatHead]
  · apply readFields_formatField fields hFields rest
    have hCount := length_le_flatMap fields formatField
      (fun field _ => by simp [formatField, crlf])
    simp only [List.length_append]
    omega

/-- A message in the chunked coding. -/
theorem readMessage_chunked (hStart : 13 ∉ startLine)
    (hFields : ∀ field ∈ fields, isToken field.1 = true ∧ 13 ∉ field.2) {coding : Octets}
    (hCoding : fieldValue (readBack fields) transferEncoding = some coding)
    (hChunked : sameName coding chunked = true) (buffers : List Octets)
    (hBuffers : ∀ data ∈ buffers, data ≠ []) :
    readMessage (formatHead startLine fields ++ (buffers.flatMap formatChunk ++ lastChunk)) =
      some ({ startLine, fields := readBack fields, body := buffers.flatten }, []) := by
  obtain ⟨block, hLine, hBlock⟩ :=
    readHead hStart hFields (buffers.flatMap formatChunk ++ lastChunk)
  have hChunks := readChunks_formatChunk buffers hBuffers []
    ((buffers.flatMap formatChunk ++ lastChunk).length + 1) (by
      have hCount := length_le_flatMap buffers formatChunk
        (fun data _ => by simp [formatChunk, crlf])
      simp only [List.length_append]
      omega)
  rw [List.append_nil] at hChunks
  simp only [readMessage, hLine, hBlock, Option.bind_eq_bind, Option.bind_some, hCoding, hChunked,
    if_true, hChunks]
  rfl

/-- A message with a length. -/
theorem readMessage_length (hStart : 13 ∉ startLine)
    (hFields : ∀ field ∈ fields, isToken field.1 = true ∧ 13 ∉ field.2) {value : Octets}
    (hCoding : fieldValue (readBack fields) transferEncoding = none)
    (hLength : fieldValue (readBack fields) contentLength = some value) (body : Octets)
    (hValue : Numeral.parse 10 value = some body.length) :
    readMessage (formatHead startLine fields ++ body) =
      some ({ startLine, fields := readBack fields, body }, []) := by
  obtain ⟨block, hLine, hBlock⟩ := readHead hStart hFields body
  simp only [readMessage, hLine, hBlock, Option.bind_eq_bind, Option.bind_some, hCoding, hLength,
    hValue]
  rw [if_pos le_rfl]
  simp

end Message

end Framing
