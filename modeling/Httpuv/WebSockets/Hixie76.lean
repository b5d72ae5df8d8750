import Httpuv.WebSockets.HyBiParser

/-! `WSHixie76Parser`: the incremental parser of the oldest framing. -/
namespace Httpuv

inductive Hixie76State where
  | start
  | inTextFrame
  | inBinaryOrCloseFrameLength
  | inBinaryFrameLength
  | inBinaryFrame
  deriving DecidableEq, Repr

structure WSHixie76Parser where
  state : Hixie76State
  bytesLeft : Nat
  deriving DecidableEq, Repr

namespace WSHixie76Parser

def fresh : WSHixie76Parser where
  state := .start
  bytesLeft := 0

def textInfo : WSFrameHeaderInfo where
  fin := true
  opcode := .text
  masked := false
  maskingKey := []
  hasLength := false
  payloadLength := 0

def closeInfo : WSFrameHeaderInfo where
  fin := true
  opcode := .close
  masked := false
  maskingKey := []
  hasLength := true
  payloadLength := 0

def binaryInfo (payloadLength : Nat) : WSFrameHeaderInfo where
  fin := true
  opcode := .binary
  masked := false
  maskingKey := []
  hasLength := true
  payloadLength := payloadLength

/-- The loop of `read` at the byte `pos` points to, with a bound on its number
of iterations. `bytesLeft` is a `size_t`. -/
def readLoop : Nat → WSHixie76Parser → Bytes → Option (WSHixie76Parser × List WSParserEvent)
  | _, parser, [] => some (parser, [])
  | 0, _, _ :: _ => none
  | fuel + 1, parser, b :: rest =>
      match parser.state with
      | .start =>
          if b = 0xFF then
            readLoop fuel { state := .inBinaryOrCloseFrameLength, bytesLeft := 0 } rest
          else if b.toNat &&& 0x80 = 0 then do
            let (parser, events) ← readLoop fuel { state := .inTextFrame, bytesLeft := 0 } rest
            return (parser, .onHeaderComplete textInfo :: events)
          else
            readLoop fuel { state := .inBinaryFrameLength, bytesLeft := 0 } rest
      | .inTextFrame =>
          let piece := (b :: rest).takeWhile (· != 0xFF)
          let payload := if piece = [] then [] else [WSParserEvent.onPayload piece]
          match (b :: rest).dropWhile (· != 0xFF) with
          | _ :: after => do
              let (parser, events) ← readLoop fuel { parser with state := .start } after
              return (parser, payload ++ .onFrameComplete :: events)
          | [] => some (parser, payload)
      | .inBinaryOrCloseFrameLength =>
          if b = 0 then do
            let (parser, events) ← readLoop fuel parser rest
            return (parser, .onHeaderComplete closeInfo :: .onFrameComplete :: events)
          else
            -- `pos--`: the same byte again, as a length byte
            readLoop fuel { parser with state := .inBinaryFrameLength } (b :: rest)
      | .inBinaryFrameLength =>
          let bytesLeft := (parser.bytesLeft * 128 % 2 ^ 64 + (b.toNat &&& 0x7F)) % 2 ^ 64
          if b.toNat &&& 0x80 = 0 then
            if bytesLeft = 0 then do
              let (parser, events) ← readLoop fuel { state := .start, bytesLeft } rest
              return (parser, .onHeaderComplete (binaryInfo bytesLeft) :: .onFrameComplete :: events)
            else do
              let (parser, events) ← readLoop fuel { state := .inBinaryFrame, bytesLeft } rest
              return (parser, .onHeaderComplete (binaryInfo bytesLeft) :: events)
          else
            readLoop fuel { parser with bytesLeft } rest
      | .inBinaryFrame =>
          let bytesToRead := min (b :: rest).length parser.bytesLeft
          let bytesLeft := parser.bytesLeft - bytesToRead
          let payload := WSParserEvent.onPayload ((b :: rest).take bytesToRead)
          if bytesLeft = 0 then do
            let (parser, events) ← readLoop fuel { state := .start, bytesLeft }
              ((b :: rest).drop bytesToRead)
            return (parser, payload :: .onFrameComplete :: events)
          else do
            let (parser, events) ← readLoop fuel { parser with bytesLeft }
              ((b :: rest).drop bytesToRead)
            return (parser, payload :: events)

/-- Each byte is looked at twice at most. -/
def read (parser : WSHixie76Parser) (data : Bytes) :
    Option (WSHixie76Parser × List WSParserEvent) :=
  readLoop (2 * data.length) parser data

/-- Inside a binary payload there are bytes to go. -/
def Resting (parser : WSHixie76Parser) : Prop :=
  parser.state = .inBinaryFrame → 0 < parser.bytesLeft

/-- The bound on the iterations is never reached. Only the second look at a
byte consumes nothing, and it happens in one state. -/
theorem readLoop_total (fuel : Nat) (parser : WSHixie76Parser) (data : Bytes)
    (hResting : parser.Resting)
    (hFuel : 2 * data.length ≤
      fuel + if parser.state = .inBinaryOrCloseFrameLength then 0 else 1) :
    ∃ after events, readLoop fuel parser data = some (after, events) ∧ after.Resting := by
  induction fuel generalizing parser data with
  | zero =>
      cases data with
      | nil => exact ⟨parser, [], by simp [readLoop], hResting⟩
      | cons b rest =>
          rw [List.length_cons] at hFuel
          split_ifs at hFuel <;> omega
  | succ fuel ih =>
      cases data with
      | nil => exact ⟨parser, [], by simp [readLoop], hResting⟩
      | cons b rest =>
          obtain ⟨state, bytesLeft⟩ := parser
          -- An iteration that has consumed at least one byte leaves enough of the bound.
          have hNext : ∀ (next : WSHixie76Parser) (after : Bytes), next.Resting →
              after.length ≤ rest.length → ∃ last events,
                readLoop fuel next after = some (last, events) ∧ last.Resting := by
            intro next after hNextResting hAfter
            apply ih next after hNextResting
            split_ifs at hFuel ⊢ <;> simp only [List.length_cons] at hFuel <;> omega
          have hReports : ∀ (next : WSHixie76Parser) (after : Bytes)
              (report : List WSParserEvent → List WSParserEvent), next.Resting →
              after.length ≤ rest.length → ∃ last events,
                (readLoop fuel next after).bind (fun last => some (last.1, report last.2)) =
                  some (last, events) ∧ last.Resting := by
            intro next after report hNextResting hAfter
            obtain ⟨last, events, hRead, hLast⟩ := hNext next after hNextResting hAfter
            exact ⟨last, report events, by rw [hRead]; rfl, hLast⟩
          cases state with
          | start =>
              simp only [readLoop]
              split_ifs
              · exact hNext _ rest nofun le_rfl
              · exact hReports _ rest (fun events => .onHeaderComplete textInfo :: events) nofun le_rfl
              · exact hNext _ rest nofun le_rfl
          | inTextFrame =>
              simp only [readLoop]
              split
              · next marker after hDrop =>
                  have hShorter : after.length ≤ rest.length := by
                    have hLength := (List.dropWhile_sublist (· != 0xFF) (l := b :: rest)).length_le
                    rw [hDrop] at hLength
                    simpa using hLength
                  exact hReports _ after (fun events => _ ++ .onFrameComplete :: events) nofun hShorter
              · exact ⟨_, _, rfl, nofun⟩
          | inBinaryOrCloseFrameLength =>
              simp only [readLoop]
              split_ifs
              · exact hReports _ rest (fun events => .onHeaderComplete closeInfo ::
                  .onFrameComplete :: events) nofun le_rfl
              · exact ih _ _ (by simp [Resting]) (by simpa using hFuel)
          | inBinaryFrameLength =>
              simp only [readLoop]
              split_ifs with hLast hZero
              · exact hReports _ rest (fun events => .onHeaderComplete _ :: .onFrameComplete :: events)
                  nofun le_rfl
              · exact hReports _ rest (fun events => .onHeaderComplete _ :: events)
                  (fun _ => Nat.pos_of_ne_zero hZero) le_rfl
              · exact hNext _ rest nofun le_rfl
          | inBinaryFrame =>
              have hLeft : 0 < bytesLeft := hResting rfl
              have hShorter : ((b :: rest).drop (min (b :: rest).length bytesLeft)).length ≤
                  rest.length := by
                simp only [List.length_drop, List.length_cons]
                omega
              simp only [readLoop]
              split_ifs with hDone
              · exact hReports _ _ (fun events => _ :: .onFrameComplete :: events) nofun hShorter
              · exact hReports _ _ (fun events => _ :: events)
                  (fun _ => Nat.pos_of_ne_zero hDone) hShorter

theorem read_total {parser : WSHixie76Parser} (hResting : parser.Resting) (data : Bytes) :
    ∃ after events, read parser data = some (after, events) ∧ after.Resting := by
  apply readLoop_total _ _ _ hResting
  omega

end WSHixie76Parser

end Httpuv
