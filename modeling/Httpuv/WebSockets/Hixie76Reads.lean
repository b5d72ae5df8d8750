import Httpuv.Semantics.Reader
import Httpuv.WebSockets.Connection
import Httpuv.WebSockets.FrameLayout

/-! `WSHixie76Parser` byte by byte. How a stream is cut into reads cannot be
observed, and the frames of a client come out as they were sent, as long as their
lengths fit in 64 bits. What the server sends is read back for texts only. -/
namespace Httpuv

open Semantics WSParserEvent

namespace WSParserEvent

/-- A payload, one byte at a time. -/
def bytewise (payload : Bytes) : List WSParserEvent := payload.map fun b => .onPayload [b]

/-- A payload in one piece. Nothing is reported for an empty one. -/
def whole (payload : Bytes) : List WSParserEvent :=
  if payload = [] then [] else [.onPayload payload]

theorem coalesce_bytewise (payload : Bytes) (tail : List WSParserEvent) :
    coalesce (bytewise payload ++ tail) = coalesce (whole payload ++ tail) := by
  induction payload with
  | nil => rfl
  | cons b payload ih =>
      change merge (.onPayload [b]) (coalesce (bytewise payload ++ tail)) =
        merge (.onPayload (b :: payload)) (coalesce tail)
      rw [ih]
      by_cases hNil : payload = []
      · simp only [whole, hNil, if_pos, List.nil_append]
      · rw [whole, if_neg hNil]
        exact (merge_foldr (.onPayload [b]) [.onPayload payload] (coalesce tail)).symm

theorem coalesce_frame (info : WSFrameHeaderInfo) (payload : Bytes) (tail : List WSParserEvent) :
    coalesce (.onHeaderComplete info :: bytewise payload ++ .onFrameComplete :: tail) =
      .onHeaderComplete info :: whole payload ++ .onFrameComplete :: coalesce tail := by
  change WSParserEvent.onHeaderComplete info ::
    coalesce (bytewise payload ++ .onFrameComplete :: tail) = _
  rw [coalesce_bytewise, List.cons_append]
  by_cases hNil : payload = []
  · simp only [whole, hNil, if_true, List.nil_append]
    rfl
  · simp only [whole, hNil, if_false, List.singleton_append]
    rfl

end WSParserEvent

namespace WSHixie76Parser

/-- A length byte. -/
def advanceLength (bytesLeft : Nat) (b : UInt8) : WSHixie76Parser × List WSParserEvent :=
  let bytesLeft := (bytesLeft * 128 % 2 ^ 64 + (b.toNat &&& 0x7F)) % 2 ^ 64
  if b.toNat &&& 0x80 = 0 then
    if bytesLeft = 0 then
      ({ state := .start, bytesLeft }, [.onHeaderComplete (binaryInfo bytesLeft), .onFrameComplete])
    else
      ({ state := .inBinaryFrame, bytesLeft }, [.onHeaderComplete (binaryInfo bytesLeft)])
  else ({ state := .inBinaryFrameLength, bytesLeft }, [])

/-- One byte. The second look at a byte belongs to the same step. -/
def advance (parser : WSHixie76Parser) (b : UInt8) : WSHixie76Parser × List WSParserEvent :=
  match parser.state with
  | .start =>
      if b = 0xFF then ({ state := .inBinaryOrCloseFrameLength, bytesLeft := 0 }, [])
      else if b.toNat &&& 0x80 = 0 then
        ({ state := .inTextFrame, bytesLeft := 0 }, [.onHeaderComplete textInfo])
      else ({ state := .inBinaryFrameLength, bytesLeft := 0 }, [])
  | .inTextFrame =>
      if b = 0xFF then ({ parser with state := .start }, [.onFrameComplete])
      else (parser, [.onPayload [b]])
  | .inBinaryOrCloseFrameLength =>
      if b = 0 then (parser, [.onHeaderComplete closeInfo, .onFrameComplete])
      else advanceLength parser.bytesLeft b
  | .inBinaryFrameLength => advanceLength parser.bytesLeft b
  | .inBinaryFrame =>
      if parser.bytesLeft - 1 = 0 then
        ({ state := .start, bytesLeft := 0 }, [.onPayload [b], .onFrameComplete])
      else ({ parser with bytesLeft := parser.bytesLeft - 1 }, [.onPayload [b]])

/-- A stream, byte by byte. -/
def scan (parser : WSHixie76Parser) : Bytes → WSHixie76Parser × List WSParserEvent
  | [] => (parser, [])
  | b :: rest =>
      ((scan (advance parser b).1 rest).1, (advance parser b).2 ++ (scan (advance parser b).1 rest).2)

theorem scan_append (parser : WSHixie76Parser) (data more : Bytes) :
    scan parser (data ++ more) =
      ((scan (scan parser data).1 more).1,
        (scan parser data).2 ++ (scan (scan parser data).1 more).2) := by
  induction data generalizing parser with
  | nil => rfl
  | cons b rest ih =>
      simp only [List.cons_append, scan, ih, List.append_assoc]

theorem resting_of_start {parser : WSHixie76Parser} (hStart : parser.state = .start) :
    parser.Resting := by
  intro hBinary
  rw [hStart] at hBinary
  cases hBinary

theorem resting_advance {parser : WSHixie76Parser} (hResting : parser.Resting) (b : UInt8) :
    (advance parser b).1.Resting := by
  obtain ⟨state, bytesLeft⟩ := parser
  have hLength : ∀ left, (advanceLength left b).1.Resting := by
    intro left
    unfold advanceLength
    simp only
    split_ifs with hLast hZero
    · exact nofun
    · exact fun _ => Nat.pos_of_ne_zero hZero
    · exact nofun
  cases state with
  | start =>
      simp only [advance]
      split_ifs <;> exact nofun
  | inTextFrame =>
      simp only [advance]
      split_ifs <;> exact nofun
  | inBinaryOrCloseFrameLength =>
      simp only [advance]
      split_ifs
      · exact nofun
      · exact hLength bytesLeft
  | inBinaryFrameLength => exact hLength bytesLeft
  | inBinaryFrame =>
      simp only [advance]
      split_ifs with hDone
      · exact nofun
      · exact fun _ => Nat.pos_of_ne_zero hDone

theorem resting_scan {parser : WSHixie76Parser} (hResting : parser.Resting) (data : Bytes) :
    (scan parser data).1.Resting := by
  induction data generalizing parser with
  | nil => exact hResting
  | cons b rest ih => exact ih (resting_advance hResting b)

/-- Bytes of a text. -/
theorem scan_text (bytesLeft : Nat) {piece : Bytes} (hPiece : 0xFF ∉ piece) :
    scan { state := .inTextFrame, bytesLeft } piece =
      ({ state := .inTextFrame, bytesLeft }, bytewise piece) := by
  induction piece with
  | nil => rfl
  | cons b piece ih =>
      have hByte : b ≠ 0xFF := fun h => hPiece (h ▸ List.mem_cons_self)
      have hRest := ih fun h => hPiece (List.mem_cons_of_mem b h)
      have hAdvance : advance { state := .inTextFrame, bytesLeft } b =
          ({ state := .inTextFrame, bytesLeft }, [.onPayload [b]]) := by
        simp only [advance, hByte, if_false]
      rw [scan, hAdvance, hRest]
      rfl

/-- Some of the bytes of a binary payload. -/
theorem scan_binary_part {bytesLeft : Nat} {piece : Bytes} (hPiece : piece.length < bytesLeft) :
    scan { state := .inBinaryFrame, bytesLeft } piece =
      ({ state := .inBinaryFrame, bytesLeft := bytesLeft - piece.length }, bytewise piece) := by
  induction piece generalizing bytesLeft with
  | nil => rfl
  | cons b piece ih =>
      rw [List.length_cons] at hPiece
      have hAdvance : advance { state := .inBinaryFrame, bytesLeft } b =
          ({ state := .inBinaryFrame, bytesLeft := bytesLeft - 1 }, [.onPayload [b]]) := by
        simp only [advance, if_neg (show ¬ bytesLeft - 1 = 0 by omega)]
      rw [scan, hAdvance, ih (by omega), List.length_cons, Nat.sub_sub, Nat.add_comm 1]
      rfl

/-- All of them. -/
theorem scan_binary {payload : Bytes} (hPayload : payload ≠ []) :
    scan { state := .inBinaryFrame, bytesLeft := payload.length } payload =
      ({ state := .start, bytesLeft := 0 }, bytewise payload ++ [.onFrameComplete]) := by
  obtain ⟨piece, last, rfl⟩ : ∃ piece last, payload = piece ++ [last] :=
    ⟨_, _, (List.dropLast_append_getLast hPayload).symm⟩
  have hLength : (piece ++ [last]).length = piece.length + 1 := List.length_append
  rw [hLength, scan_append, scan_binary_part (Nat.lt_add_one piece.length),
    Nat.add_sub_cancel_left]
  simp only [scan, advance, Nat.sub_self, if_true, bytewise, List.map_append, List.map_cons,
    List.map_nil, List.append_assoc, List.singleton_append, List.append_nil]

/-- A text up to its end marker. -/
theorem marker_takeWhile (data : Bytes) : 0xFF ∉ data.takeWhile (· != 0xFF) := by
  intro hMarker
  simpa using List.all_eq_true.1 List.all_takeWhile _ hMarker

theorem marker_dropWhile {data after : Bytes} {marker : UInt8}
    (hDrop : data.dropWhile (· != 0xFF) = marker :: after) : marker = 0xFF := by
  have hHead := List.head_dropWhile_not (· != (0xFF : UInt8)) (l := data) (by simp [hDrop])
  simpa [hDrop] using hHead

/-- An iteration takes a piece off the data, and reports what the scan of the piece does. -/
def Iterates (fuel : Nat) (parser : WSHixie76Parser) (data : Bytes) : Prop :=
  ∃ piece more reported, data = piece ++ more ∧
    coalesce reported = coalesce (scan parser piece).2 ∧
    readLoop (fuel + 1) parser data = (readLoop fuel (scan parser piece).1 more).bind
      (fun last => some (last.1, reported ++ last.2))

section Iterations

variable {fuel bytesLeft : Nat} {parser : WSHixie76Parser} {b : UInt8} {rest : Bytes}

/-- A byte that is taken by itself. -/
theorem iterates_byte (hLoop : readLoop (fuel + 1) parser (b :: rest) =
      (readLoop fuel (advance parser b).1 rest).bind
        (fun last => some (last.1, (advance parser b).2 ++ last.2))) :
    Iterates fuel parser (b :: rest) := by
  have hScan : scan parser [b] = advance parser b := Prod.ext rfl (List.append_nil _)
  refine ⟨[b], rest, (advance parser b).2, rfl, ?_, ?_⟩
  · rw [hScan]
  · rw [hScan]
    exact hLoop

theorem iterates_start : Iterates fuel { state := .start, bytesLeft } (b :: rest) := by
  apply iterates_byte
  simp only [readLoop, advance]
  split_ifs
  · exact (bind_pure _).symm
  · rfl
  · exact (bind_pure _).symm

theorem iterates_length :
    Iterates fuel { state := .inBinaryFrameLength, bytesLeft } (b :: rest) := by
  apply iterates_byte
  simp only [readLoop, advance, advanceLength]
  split_ifs
  · rfl
  · rfl
  · exact (bind_pure _).symm

/-- A text is taken with its end marker, or as far as it has come. -/
theorem iterates_text : Iterates fuel { state := .inTextFrame, bytesLeft } (b :: rest) := by
  have hSplit := List.takeWhile_append_dropWhile (p := (· != 0xFF)) (l := b :: rest)
  have hPiece := scan_text bytesLeft (marker_takeWhile (b :: rest))
  cases hDrop : (b :: rest).dropWhile (· != 0xFF) with
  | nil =>
      rw [hDrop, List.append_nil] at hSplit
      rw [hSplit] at hPiece
      refine ⟨b :: rest, [], whole (b :: rest), (List.append_nil _).symm, ?_, ?_⟩
      · have hJoin := coalesce_bytewise (b :: rest) []
        rw [List.append_nil, List.append_nil] at hJoin
        rw [hPiece, hJoin]
      · simp only [readLoop, hDrop, hSplit, hPiece, whole]
        cases fuel <;> simp
  | cons marker more =>
      rw [marker_dropWhile hDrop] at hDrop
      rw [hDrop] at hSplit
      have hScan : scan { state := .inTextFrame, bytesLeft }
          ((b :: rest).takeWhile (· != 0xFF) ++ [0xFF]) =
            ({ state := .start, bytesLeft },
              bytewise ((b :: rest).takeWhile (· != 0xFF)) ++ [.onFrameComplete]) := by
        rw [scan_append, hPiece]
        rfl
      refine ⟨(b :: rest).takeWhile (· != 0xFF) ++ [0xFF], more,
        whole ((b :: rest).takeWhile (· != 0xFF)) ++ [.onFrameComplete], ?_, ?_, ?_⟩
      · rw [List.append_assoc, List.singleton_append, hSplit]
      · rw [hScan, coalesce_bytewise]
      · rw [hScan]
        simp only [readLoop, hDrop, whole, List.append_assoc, List.singleton_append,
          Option.bind_eq_bind, Option.pure_def]

/-- What has come of a binary payload is taken at once. -/
theorem iterates_binary (hLeft : 0 < bytesLeft) :
    Iterates fuel { state := .inBinaryFrame, bytesLeft } (b :: rest) := by
  have hSplit := List.take_append_drop (min (b :: rest).length bytesLeft) (b :: rest)
  have hTaken : ((b :: rest).take (min (b :: rest).length bytesLeft)).length =
      min (b :: rest).length bytesLeft := by
    rw [List.length_take]
    omega
  have hSome : (b :: rest).take (min (b :: rest).length bytesLeft) ≠ [] := by
    intro hNil
    rw [hNil, List.length_nil, List.length_cons] at hTaken
    omega
  have hWhole : ∀ tail, coalesce
      (bytewise ((b :: rest).take (min (b :: rest).length bytesLeft)) ++ tail) =
        coalesce (.onPayload ((b :: rest).take (min (b :: rest).length bytesLeft)) :: tail) := by
    intro tail
    rw [coalesce_bytewise, whole, if_neg hSome]
    rfl
  by_cases hDone : bytesLeft - min (b :: rest).length bytesLeft = 0
  · have hAll : ((b :: rest).take (min (b :: rest).length bytesLeft)).length = bytesLeft := by
      omega
    have hScan := scan_binary hSome
    rw [hAll] at hScan
    refine ⟨_, _, [.onPayload ((b :: rest).take (min (b :: rest).length bytesLeft)),
      .onFrameComplete], hSplit.symm, ?_, ?_⟩
    · rw [hScan, hWhole]
    · rw [hScan]
      simp only [readLoop, hDone, if_true]
      rfl
  · have hScan := @scan_binary_part bytesLeft
      ((b :: rest).take (min (b :: rest).length bytesLeft)) (by omega)
    rw [hTaken] at hScan
    refine ⟨_, _, [.onPayload ((b :: rest).take (min (b :: rest).length bytesLeft))],
      hSplit.symm, ?_, ?_⟩
    · rw [hScan, ← hWhole, List.append_nil]
    · rw [hScan]
      simp only [readLoop, hDone, if_false]
      rfl

/-- Each iteration takes a piece, or looks at its byte for a second time. -/
theorem readLoop_cases (hResting : parser.Resting) :
    Iterates fuel parser (b :: rest) ∨
      readLoop (fuel + 1) parser (b :: rest) =
          readLoop fuel { parser with state := .inBinaryFrameLength } (b :: rest) ∧
        scan parser (b :: rest) =
          scan { parser with state := .inBinaryFrameLength } (b :: rest) := by
  obtain ⟨state, bytesLeft⟩ := parser
  cases state with
  | start => exact Or.inl iterates_start
  | inTextFrame => exact Or.inl iterates_text
  | inBinaryOrCloseFrameLength =>
      by_cases hClose : b = 0
      · left
        apply iterates_byte
        simp only [readLoop, advance, hClose, if_true]
        rfl
      · right
        constructor
        · simp only [readLoop, hClose, if_false]
        · simp only [scan, advance, hClose, if_false]
  | inBinaryFrameLength => exact Or.inl iterates_length
  | inBinaryFrame => exact Or.inl (iterates_binary (hResting rfl))

end Iterations

/-- A call of `read` is a scan, with the pieces of a payload joined. -/
theorem readLoop_scan (fuel : Nat) {parser after : WSHixie76Parser} {data : Bytes}
    {events : List WSParserEvent} (hResting : parser.Resting)
    (hRead : readLoop fuel parser data = some (after, events)) :
    after = (scan parser data).1 ∧ coalesce events = coalesce (scan parser data).2 := by
  induction fuel generalizing parser data after events with
  | zero =>
      cases data with
      | nil =>
          simp only [readLoop, Option.some.injEq, Prod.mk.injEq] at hRead
          obtain ⟨rfl, rfl⟩ := hRead
          exact ⟨rfl, rfl⟩
      | cons b rest => simp [readLoop] at hRead
  | succ fuel ih =>
      cases data with
      | nil =>
          simp only [readLoop, Option.some.injEq, Prod.mk.injEq] at hRead
          obtain ⟨rfl, rfl⟩ := hRead
          exact ⟨rfl, rfl⟩
      | cons b rest =>
          rcases readLoop_cases hResting with ⟨piece, more, reported, hData, hReported, hLoop⟩ |
            ⟨hLoop, hScan⟩
          · -- what the iteration reports comes first, and the rest of the data is scanned
            rw [hLoop] at hRead
            simp only [Option.bind_eq_some_iff, Option.some.injEq, Prod.exists, Prod.mk.injEq]
              at hRead
            obtain ⟨last, later, hLater, rfl, rfl⟩ := hRead
            obtain ⟨hState, hEvents⟩ := ih (resting_scan hResting piece) hLater
            rw [hData, scan_append, coalesce_append, coalesce_append, hReported, hEvents]
            exact ⟨hState, rfl⟩
          · rw [hLoop] at hRead
            rw [hScan]
            exact ih (fun hBinary => absurd hBinary (by simp)) hRead

/-- `read`, from a parser between two reads. -/
theorem read_scan {parser : WSHixie76Parser} (hResting : parser.Resting) (data : Bytes) :
    ∃ events, read parser data = some ((scan parser data).1, events) ∧
      coalesce events = coalesce (scan parser data).2 := by
  obtain ⟨after, events, hRead, -⟩ := read_total hResting data
  obtain ⟨rfl, hEvents⟩ := readLoop_scan _ hResting hRead
  exact ⟨events, hRead, hEvents⟩

/-- Reading follows the scan, with payload pieces joined. -/
theorem follows {parser : WSHixie76Parser} (hResting : parser.Resting) :
    Reader.Follows read (scan parser) coalesce where
  view_append _ _ after h := coalesce_congr after h
  chunk past next := by
    obtain ⟨events, hRead, hEvents⟩ := read_scan (resting_scan hResting past) next
    rw [scan_append]
    refine ⟨events, hRead, ?_⟩
    rw [coalesce_append, coalesce_append, hEvents]

/-- A stream in any pieces. -/
theorem exec_read {parser : WSHixie76Parser} (hResting : parser.Resting) (chunks : List Bytes) :
    ∃ events, System.exec read parser chunks = some ((scan parser chunks.flatten).1, events) ∧
      coalesce events = coalesce (scan parser chunks.flatten).2 := by
  obtain ⟨events, hRun, hEvents⟩ := (follows hResting).exec_eq [] chunks
  exact ⟨events, hRun, hEvents⟩

/-- The number that bytes denote in base 128, behind the digits read so far. -/
def base128 (value : Nat) (bytes : Bytes) : Nat :=
  bytes.foldl (fun value b => value * 128 + b.toNat % 128) value

/-- The length bytes of a binary frame: the last one has its high bit clear. -/
structure LengthBytes where
  more : Bytes
  last : UInt8
  continues : ∀ b ∈ more, 0x80 ≤ b.toNat
  ends : last.toNat < 0x80

namespace LengthBytes

def bytes (length : LengthBytes) : Bytes := length.more ++ [length.last]

def value (length : LengthBytes) : Nat := base128 0 length.bytes

end LengthBytes

theorem high_bit (b : UInt8) : b.toNat &&& 0x80 = 0 ↔ b.toNat < 0x80 := by
  have hAll : ∀ n : Fin 256, n.val &&& 0x80 = 0 ↔ n.val < 0x80 := by
    decide +kernel
  exact hAll ⟨b.toNat, b.toNat_lt⟩

/-- The accumulator holds the number modulo 2^64. -/
theorem accumulate (value : Nat) (b : UInt8) :
    (value % 2 ^ 64 * 128 % 2 ^ 64 + (b.toNat &&& 0x7F)) % 2 ^ 64 =
      (value * 128 + b.toNat % 128) % 2 ^ 64 := by
  have hDigit : b.toNat &&& 0x7F = b.toNat % 128 := FrameLayout.lowBits b.toNat
  omega

theorem scan_continues (value : Nat) {more : Bytes} (hMore : ∀ b ∈ more, 0x80 ≤ b.toNat) :
    scan { state := .inBinaryFrameLength, bytesLeft := value % 2 ^ 64 } more =
      ({ state := .inBinaryFrameLength, bytesLeft := base128 value more % 2 ^ 64 }, []) := by
  induction more generalizing value with
  | nil => rfl
  | cons b more ih =>
      have hHigh : ¬ b.toNat &&& 0x80 = 0 := by
        rw [high_bit]
        exact Nat.not_lt.2 (hMore b List.mem_cons_self)
      have hAdvance : advance { state := .inBinaryFrameLength, bytesLeft := value % 2 ^ 64 } b =
          ({ state := .inBinaryFrameLength
             bytesLeft := (value * 128 + b.toNat % 128) % 2 ^ 64 }, []) := by
        simp only [advance, advanceLength, accumulate, hHigh, if_false]
      rw [scan, hAdvance, ih _ fun b hb => hMore b (List.mem_cons_of_mem _ hb)]
      rfl

/-- What follows the length bytes, with `announced` for the length. -/
def afterLength (announced : Nat) : WSHixie76Parser × List WSParserEvent :=
  if announced = 0 then
    ({ state := .start, bytesLeft := 0 }, [.onHeaderComplete (binaryInfo 0), .onFrameComplete])
  else ({ state := .inBinaryFrame, bytesLeft := announced },
    [.onHeaderComplete (binaryInfo announced)])

theorem scan_length (length : LengthBytes) :
    scan { state := .inBinaryFrameLength, bytesLeft := 0 } length.bytes =
      afterLength (length.value % 2 ^ 64) := by
  have hMore := scan_continues 0 length.continues
  have hValue : length.value = base128 0 length.more * 128 + length.last.toNat % 128 := by
    simp only [LengthBytes.value, LengthBytes.bytes, base128, List.foldl_append, List.foldl_cons,
      List.foldl_nil]
  have hLow : length.last.toNat &&& 0x80 = 0 := (high_bit _).2 length.ends
  rw [LengthBytes.bytes, scan_append, Nat.zero_mod] at *
  rw [hMore]
  simp only [scan, advance, advanceLength, accumulate, ← hValue, hLow, if_true, afterLength,
    List.nil_append, List.append_nil]
  split_ifs with hZero
  · rw [hZero]
  · rfl

/-- How a binary frame begins. Behind 0xFF, a length byte of zero means close. -/
def OpensBinary (typeByte : UInt8) (length : LengthBytes) : Prop :=
  0x80 ≤ typeByte.toNat ∧ (typeByte = 0xFF → length.bytes.head? ≠ some 0)

theorem scan_opening {parser : WSHixie76Parser} (hStart : parser.state = .start)
    {typeByte : UInt8} {length : LengthBytes} (hOpens : OpensBinary typeByte length) :
    scan parser (typeByte :: length.bytes) = afterLength (length.value % 2 ^ 64) := by
  obtain ⟨hBinary, hClose⟩ := hOpens
  have hHigh : ¬ typeByte.toNat &&& 0x80 = 0 := by
    rw [high_bit]
    omega
  rw [← scan_length]
  by_cases hMarker : typeByte = 0xFF
  · obtain ⟨b, rest, hBytes⟩ : ∃ b rest, length.bytes = b :: rest :=
      List.exists_cons_of_ne_nil (by simp [LengthBytes.bytes])
    have hFirst : b ≠ 0 := by
      intro hZero
      rw [hBytes, hZero] at hClose
      exact hClose hMarker rfl
    rw [hBytes]
    simp only [scan, advance, hStart, hMarker, hFirst, if_true, if_false, List.nil_append]
  · simp only [scan, advance, hStart, hMarker, hHigh, if_false, List.nil_append]

/-- A binary frame whose payload is as long as the parser believes. -/
theorem scan_binary_frame {parser : WSHixie76Parser} (hStart : parser.state = .start)
    {typeByte : UInt8} {length : LengthBytes} (hOpens : OpensBinary typeByte length)
    {payload : Bytes} (hPayload : payload.length = length.value % 2 ^ 64) :
    scan parser (typeByte :: (length.bytes ++ payload)) =
      ({ state := .start, bytesLeft := 0 },
        .onHeaderComplete (binaryInfo payload.length) :: bytewise payload ++ [.onFrameComplete]) := by
  rw [← List.cons_append, scan_append, scan_opening hStart hOpens, ← hPayload, afterLength]
  by_cases hNil : payload = []
  · subst hNil
    rfl
  · rw [if_neg (by simpa using hNil), scan_binary hNil]
    rfl

theorem scan_text_frame {parser : WSHixie76Parser} (hStart : parser.state = .start)
    {typeByte : UInt8} (hText : typeByte.toNat < 0x80) {payload : Bytes}
    (hUnmarked : 0xFF ∉ payload) :
    scan parser (typeByte :: (payload ++ [0xFF])) =
      ({ state := .start, bytesLeft := 0 },
        .onHeaderComplete textInfo :: bytewise payload ++ [.onFrameComplete]) := by
  have hMarker : typeByte ≠ 0xFF := by
    intro h
    rw [h] at hText
    exact absurd hText (by decide)
  have hLow : typeByte.toNat &&& 0x80 = 0 := (high_bit _).2 hText
  have hOpening : advance parser typeByte =
      ({ state := .inTextFrame, bytesLeft := 0 }, [.onHeaderComplete textInfo]) := by
    simp only [advance, hStart, hMarker, hLow, if_true, if_false]
  rw [scan, hOpening, scan_append, scan_text 0 hUnmarked]
  rfl

/-- The frames of a client that carry data. -/
inductive ClientFrame where
  | text (typeByte : UInt8) (payload : Bytes) (isText : typeByte.toNat < 0x80)
      (unmarked : 0xFF ∉ payload)
  | binary (typeByte : UInt8) (length : LengthBytes) (payload : Bytes)
      (isBinary : 0x80 ≤ typeByte.toNat ∧ typeByte ≠ 0xFF)
      (announced : length.value = payload.length) (fits : payload.length < 2 ^ 64)

namespace ClientFrame

def encode : ClientFrame → Bytes
  | .text typeByte payload _ _ => typeByte :: (payload ++ [0xFF])
  | .binary typeByte length payload _ _ _ => typeByte :: (length.bytes ++ payload)

def info : ClientFrame → WSFrameHeaderInfo
  | .text .. => textInfo
  | .binary _ _ payload _ _ _ => binaryInfo payload.length

def payload : ClientFrame → Bytes
  | .text _ payload _ _ => payload
  | .binary _ _ payload _ _ _ => payload

/-- The callbacks for a frame. -/
def callbacks (frame : ClientFrame) : List WSParserEvent :=
  .onHeaderComplete frame.info :: whole frame.payload ++ [.onFrameComplete]

theorem scan_encode {parser : WSHixie76Parser} (hStart : parser.state = .start)
    (frame : ClientFrame) : scan parser frame.encode =
      ({ state := .start, bytesLeft := 0 },
        .onHeaderComplete frame.info :: bytewise frame.payload ++ [.onFrameComplete]) := by
  cases frame with
  | text typeByte payload isText unmarked => exact scan_text_frame hStart isText unmarked
  | binary typeByte length payload isBinary announced fits =>
      have hOpens : OpensBinary typeByte length := ⟨isBinary.1, fun h => absurd h isBinary.2⟩
      apply scan_binary_frame hStart hOpens
      rw [announced, Nat.mod_eq_of_lt fits]

theorem scan_frames {parser : WSHixie76Parser} (hStart : parser.state = .start)
    (frames : List ClientFrame) :
    (scan parser (frames.flatMap encode)).1.state = .start ∧
      coalesce (scan parser (frames.flatMap encode)).2 = frames.flatMap callbacks := by
  induction frames generalizing parser with
  | nil => exact ⟨hStart, rfl⟩
  | cons frame frames ih =>
      obtain ⟨hState, hEvents⟩ := @ih { state := .start, bytesLeft := 0 } rfl
      rw [List.flatMap_cons, scan_append, scan_encode hStart]
      refine ⟨hState, ?_⟩
      simp only [List.append_assoc, List.singleton_append, List.flatMap_cons, callbacks]
      rw [coalesce_frame, hEvents]

end ClientFrame

/-- The pieces a stream arrives in are not seen, and the frames of a client are
delivered as they are. -/
theorem read_frames (bytesLeft : Nat) :
    (∀ first second : List Bytes, first.flatten = second.flatten →
      ∃ parser eventsFirst eventsSecond,
        System.exec read { state := .start, bytesLeft } first = some (parser, eventsFirst) ∧
        System.exec read { state := .start, bytesLeft } second = some (parser, eventsSecond) ∧
        coalesce eventsFirst = coalesce eventsSecond) ∧
    ∀ (frames : List ClientFrame) (chunks : List Bytes),
      chunks.flatten = frames.flatMap ClientFrame.encode →
      ∃ parser events,
        System.exec read { state := .start, bytesLeft } chunks = some (parser, events) ∧
        parser.state = .start ∧ coalesce events = frames.flatMap ClientFrame.callbacks := by
  have hResting : Resting { state := .start, bytesLeft } := resting_of_start rfl
  constructor
  · intro first second hSame
    obtain ⟨eventsFirst, hFirst, hFirstEvents⟩ := exec_read hResting first
    obtain ⟨eventsSecond, hSecond, hSecondEvents⟩ := exec_read hResting second
    rw [← hSame] at hSecond hSecondEvents
    exact ⟨_, eventsFirst, eventsSecond, hFirst, hSecond, hFirstEvents.trans hSecondEvents.symm⟩
  · intro frames chunks hChunks
    obtain ⟨events, hRun, hEvents⟩ := exec_read hResting chunks
    rw [hChunks] at hRun hEvents
    obtain ⟨hState, hCallbacks⟩ := @ClientFrame.scan_frames { state := .start, bytesLeft } rfl frames
    exact ⟨_, events, hRun, hState, hEvents.trans hCallbacks⟩

/-- Two frames, with a length that starts with a zero digit, cut inside it. -/
theorem read_frames_cut :
    let frames := [ClientFrame.binary 0x80 ⟨[0x80], 0x02, by simp, by decide⟩ [0xFF, 1]
      (by decide) rfl (by decide), .text 0x00 (ascii "a") (by decide) (by decide)]
    [[0x80, 0x80], [0x02, 0xFF], [1, 0x00, 0x61, 0xFF]].flatten =
        frames.flatMap ClientFrame.encode ∧
      ∃ parser events,
        System.exec read fresh [[0x80, 0x80], [0x02, 0xFF], [1, 0x00, 0x61, 0xFF]] =
          some (parser, events) ∧
        parser.state = .start ∧ coalesce events = frames.flatMap ClientFrame.callbacks :=
  ⟨by decide, (read_frames 0).2 _ _ (by decide)⟩

/-- The frame is read with the length its bytes denote, and ends with its payload. -/
def ReadsLength (parser : WSHixie76Parser) (typeByte : UInt8) (length : LengthBytes) : Prop :=
  ∀ (payload : Bytes) (chunks : List Bytes), payload.length = length.value →
    chunks.flatten = typeByte :: (length.bytes ++ payload) →
    ∃ after events, System.exec read parser chunks = some (after, events) ∧ after.state = .start ∧
      coalesce events =
        .onHeaderComplete (binaryInfo length.value) :: whole payload ++ [.onFrameComplete]

/-- No frame is reported. -/
def Refuses (parser : WSHixie76Parser) (typeByte : UInt8) (length : LengthBytes) : Prop :=
  ∀ chunks : List Bytes, chunks.flatten = typeByte :: length.bytes →
    ∃ after, System.exec read parser chunks = some (after, [])

/-- What is announced is the length modulo 2^64. -/
theorem coalesce_afterLength (announced : Nat) : ∃ tail,
    coalesce (afterLength announced).2 = .onHeaderComplete (binaryInfo announced) :: tail := by
  unfold afterLength
  split_ifs with hZero
  · rw [hZero]
    exact ⟨_, rfl⟩
  · exact ⟨_, rfl⟩

theorem fits_of_reads {parser : WSHixie76Parser} (hStart : parser.state = .start)
    {typeByte : UInt8} {length : LengthBytes} (hOpens : OpensBinary typeByte length)
    (hReads : ReadsLength parser typeByte length) : length.value < 2 ^ 64 := by
  let payload : Bytes := List.replicate length.value 0
  have hOne := List.flatten_singleton (l := typeByte :: (length.bytes ++ payload))
  obtain ⟨after, events, hRun, -, hEvents⟩ := hReads payload _ List.length_replicate hOne
  obtain ⟨scanned, hScanned, hScan⟩ := exec_read (resting_of_start hStart)
    [typeByte :: (length.bytes ++ payload)]
  rw [hRun, Option.some.injEq, Prod.mk.injEq] at hScanned
  obtain ⟨-, rfl⟩ := hScanned
  obtain ⟨tail, hHeader⟩ := coalesce_afterLength (length.value % 2 ^ 64)
  rw [hEvents, hOne, ← List.cons_append, scan_append, scan_opening hStart hOpens, coalesce_append,
    hHeader, List.foldr_cons] at hScan
  have hAnnounced : length.value = length.value % 2 ^ 64 :=
    congrArg WSFrameHeaderInfo.payloadLength
      (WSParserEvent.onHeaderComplete.inj (List.cons.inj hScan).1)
  omega

/-- A frame is never refused. -/
theorem not_refuses {parser : WSHixie76Parser} (hStart : parser.state = .start)
    {typeByte : UInt8} {length : LengthBytes} (hOpens : OpensBinary typeByte length) :
    ¬ Refuses parser typeByte length := by
  intro hRefuses
  have hOne := List.flatten_singleton (l := typeByte :: length.bytes)
  obtain ⟨after, hRun⟩ := hRefuses _ hOne
  obtain ⟨scanned, hScanned, hScan⟩ := exec_read (resting_of_start hStart)
    [typeByte :: length.bytes]
  rw [hRun, Option.some.injEq, Prod.mk.injEq] at hScanned
  obtain ⟨-, rfl⟩ := hScanned
  obtain ⟨tail, hHeader⟩ := coalesce_afterLength (length.value % 2 ^ 64)
  rw [hOne, scan_opening hStart hOpens, hHeader] at hScan
  cases hScan

/-- A length is read or refused exactly when it fits in a `size_t`. -/
theorem read_length_iff {parser : WSHixie76Parser} (hStart : parser.state = .start)
    {typeByte : UInt8} {length : LengthBytes} (hOpens : OpensBinary typeByte length) :
    ReadsLength parser typeByte length ∨ Refuses parser typeByte length ↔
      length.value < 2 ^ 64 := by
  constructor
  · intro h
    exact fits_of_reads hStart hOpens (h.resolve_right (not_refuses hStart hOpens))
  · intro hFits
    left
    intro payload chunks hPayload hChunks
    obtain ⟨events, hRun, hEvents⟩ := exec_read (resting_of_start hStart) chunks
    rw [hChunks, scan_binary_frame hStart hOpens
      (by rw [hPayload, Nat.mod_eq_of_lt hFits])] at hRun hEvents
    refine ⟨_, events, hRun, rfl, ?_⟩
    rw [hEvents, coalesce_frame, hPayload]
    rfl

/-- Three length bytes behind the marker that may also close. -/
theorem read_length_iff_marker :
    let length : LengthBytes := ⟨[0x81, 0x80], 0x00, by simp, by decide⟩
    length.value = 16384 ∧
      (ReadsLength fresh 0xFF length ∨ Refuses fresh 0xFF length) :=
  ⟨by decide, (read_length_iff rfl ⟨by decide, fun _ => by decide⟩).2 (by decide)⟩

/-- Eleven length bytes: 2^70 is taken for zero, and the frame ends there. -/
theorem read_length_wraps :
    let length : LengthBytes := ⟨0x81 :: List.replicate 9 0x80, 0x00, by simp, by decide⟩
    length.value = 2 ^ 70 ∧
      read fresh (0x80 :: length.bytes) =
        some (fresh, [.onHeaderComplete (binaryInfo 0), .onFrameComplete]) ∧
      ¬ (ReadsLength fresh 0x80 length ∨ Refuses fresh 0x80 length) := by
  intro length
  have hOpens : OpensBinary 0x80 length := ⟨by decide, fun h => absurd h (by decide)⟩
  have hLarge : ¬ length.value < 2 ^ 64 := by decide +kernel
  refine ⟨by decide +kernel, by decide +kernel, fun h => ?_⟩
  exact hLarge (fits_of_reads rfl hOpens (h.resolve_right (not_refuses rfl hOpens)))

/-- One frame with this opcode and payload is read, or none at all if the format
has no frame for the opcode. -/
def ReadsAs (opcode : Opcode) (payload sent : Bytes) : Prop :=
  ∃ after events, read fresh sent = some (after, events) ∧
    ((∃ info : WSFrameHeaderInfo, info.opcode = opcode ∧
        coalesce events = .onHeaderComplete info :: whole payload ++ [.onFrameComplete]) ∨
      opcode ≠ .text ∧ opcode ≠ .binary ∧ opcode ≠ .close ∧ events = [])

/-- What is sent reads as a text up to the first end marker. -/
theorem scan_sent (payload : Bytes) : ∃ text tail, 0xFF ∉ text ∧
    coalesce (scan fresh ([0] ++ payload ++ [0xFF])).2 =
      .onHeaderComplete textInfo :: whole text ++ .onFrameComplete :: tail ∧
    (0xFF ∉ payload → text = payload ∧ tail = []) := by
  by_cases hMarker : 0xFF ∈ payload
  · obtain ⟨text, rest, rfl, hText⟩ := List.eq_append_cons_of_mem hMarker
    have hSent : [0] ++ (text ++ 0xFF :: rest) ++ [0xFF] =
        (0 :: (text ++ [0xFF])) ++ (rest ++ [0xFF]) := by simp
    rw [hSent, scan_append, scan_text_frame rfl (by decide) hText, List.append_assoc,
      List.singleton_append, coalesce_frame]
    exact ⟨text, _, hText, rfl, fun h => absurd hMarker h⟩
  · have hSent : [0] ++ payload ++ [0xFF] = 0 :: (payload ++ [0xFF]) := rfl
    rw [hSent, scan_text_frame rfl (by decide) hMarker, coalesce_frame]
    exact ⟨payload, [], hMarker, rfl, fun _ => ⟨rfl, rfl⟩⟩

theorem whole_complete_inj {payload text : Bytes} {tail : List WSParserEvent}
    (hSame : whole payload ++ [.onFrameComplete] = whole text ++ .onFrameComplete :: tail) :
    payload = text := by
  unfold whole at hSame
  split_ifs at hSame with hPayload hText hText
  · rw [hPayload, hText]
  · cases hSame
  · cases hSame
  · exact WSParserEvent.onPayload.inj (List.cons.inj hSame).1

theorem readsAs_iff (opcode : Opcode) (payload : Bytes) :
    ReadsAs opcode payload ([0] ++ payload ++ [0xFF]) ↔ opcode = .text ∧ 0xFF ∉ payload := by
  obtain ⟨events, hRead, hEvents⟩ := @read_scan fresh (resting_of_start rfl)
    ([0] ++ payload ++ [0xFF])
  obtain ⟨text, tail, hText, hScan, hWhole⟩ := scan_sent payload
  rw [hScan] at hEvents
  constructor
  · intro h
    obtain ⟨after, events', hRead', hReads⟩ := h
    rw [hRead, Option.some.injEq, Prod.mk.injEq] at hRead'
    obtain ⟨-, rfl⟩ := hRead'
    rcases hReads with ⟨info, hOpcode, hFrame⟩ | ⟨-, -, -, hNone⟩
    · rw [hEvents] at hFrame
      have hSplit := List.cons.inj hFrame
      rw [← WSParserEvent.onHeaderComplete.inj hSplit.1] at hOpcode
      rw [whole_complete_inj hSplit.2.symm]
      exact ⟨hOpcode.symm, hText⟩
    · rw [hNone] at hEvents
      cases hEvents
  · intro h
    obtain ⟨rfl, hMarker⟩ := h
    obtain ⟨rfl, rfl⟩ := hWhole hMarker
    exact ⟨_, events, hRead, Or.inl ⟨textInfo, rfl, hEvents⟩⟩

end WSHixie76Parser

namespace WebSocketConnection

open WSHixie76Parser

variable [Host] {conn : WebSocketConnection} {parser : WSHixie76Parser}

/-- What is sent on a connection of the oldest protocol is read back as it was meant
exactly when it is a text without the byte that ends one. -/
theorem sendWSMessage_readsAs_iff (hParser : conn.pParser = some (.hixie76 parser))
    (hOpen : conn.connState ≠ .wsClosed) (opcode : Opcode) (payload : Bytes) :
    (∃ header data footer,
      conn.sendWSMessage opcode payload = some [.sendWSFrame opcode header data footer] ∧
        ReadsAs opcode payload (header ++ data ++ footer)) ↔
      opcode = .text ∧ 0xFF ∉ payload := by
  have hSend : conn.sendWSMessage opcode payload =
      some [.sendWSFrame opcode [0] payload [0xFF]] := by
    rw [sendWSMessage, if_neg hOpen, hParser]
    rfl
  rw [← readsAs_iff, hSend]
  constructor
  · intro h
    obtain ⟨header, data, footer, hFrame, hReads⟩ := h
    simp only [Option.some.injEq, List.cons.injEq, WSCallback.sendWSFrame.injEq, true_and,
      and_true] at hFrame
    obtain ⟨rfl, rfl, rfl⟩ := hFrame
    exact hReads
  · intro hReads
    exact ⟨[0], payload, [0xFF], rfl, hReads⟩

/-- A connection that `accept` has given the parser. -/
def hixie76Open : WebSocketConnection :=
  (constructed textInfo textInfo).withParser (.hixie76 fresh)

omit [Host] in
/-- A text is. -/
theorem sendWSMessage_readsAs_iff_text :
    ∃ header data footer,
      @sendWSMessage littleEndianHost hixie76Open .text (ascii "hi") =
        some [.sendWSFrame .text header data footer] ∧
      ReadsAs .text (ascii "hi") (header ++ data ++ footer) :=
  (@sendWSMessage_readsAs_iff littleEndianHost hixie76Open fresh rfl (by decide) .text
    (ascii "hi")).2 (by decide)

omit [Host] in
/-- A keepalive ping is read as an empty text. -/
theorem sendPing_reads_as_text :
    @sendPing littleEndianHost hixie76Open = some [.sendWSFrame .ping [0] [] [0xFF]] ∧
      WSHixie76Parser.read fresh ([0] ++ [] ++ [0xFF]) =
        some (fresh, [.onHeaderComplete textInfo, .onFrameComplete]) ∧
      ¬ ReadsAs .ping [] ([0] ++ [] ++ [0xFF]) := by
  refine ⟨by decide, by decide +kernel, fun h => ?_⟩
  rw [readsAs_iff] at h
  cases h.1

end WebSocketConnection

end Httpuv
