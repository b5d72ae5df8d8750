import Httpuv.WebSockets.FrameHeader

/-! `WSHyBiParser`: the incremental parser of the binary framings. -/
namespace Httpuv

/-- The calls a parser makes to its `WSParserCallbacks`. -/
inductive WSParserEvent where
  | onHeaderComplete (header : WSFrameHeaderInfo)
  | onPayload (data : Bytes)
  | onFrameComplete
  deriving DecidableEq, Repr

namespace WSParserEvent

/-- Put an event in front, joining adjacent payload pieces. -/
def merge : WSParserEvent → List WSParserEvent → List WSParserEvent
  | .onPayload first, .onPayload second :: rest => .onPayload (first ++ second) :: rest
  | event, rest => event :: rest

/-- The callback sequence with adjacent payload pieces concatenated. -/
def coalesce (events : List WSParserEvent) : List WSParserEvent := events.foldr merge []

theorem merge_foldr (event : WSParserEvent) (events tail : List WSParserEvent) :
    (merge event events).foldr merge tail = merge event (events.foldr merge tail) := by
  cases event with
  | onHeaderComplete header => rfl
  | onFrameComplete => rfl
  | onPayload first =>
      cases events with
      | nil => rfl
      | cons next rest =>
          cases next with
          | onHeaderComplete header => rfl
          | onFrameComplete => rfl
          | onPayload second =>
              change merge (.onPayload (first ++ second)) (rest.foldr merge tail) =
                merge (.onPayload first) (merge (.onPayload second) (rest.foldr merge tail))
              generalize rest.foldr merge tail = events
              match events with
              | [] => rfl
              | .onPayload third :: events => simp [merge]
              | .onHeaderComplete header :: events => rfl
              | .onFrameComplete :: events => rfl

/-- What is coalesced first may be coalesced again with what follows. -/
theorem coalesce_append (before after : List WSParserEvent) :
    coalesce (before ++ after) = (coalesce before).foldr merge (coalesce after) := by
  simp only [coalesce, List.foldr_append]
  induction before with
  | nil => rfl
  | cons event before ih => rw [List.foldr_cons, ih, List.foldr_cons, merge_foldr]

theorem coalesce_congr {before before' : List WSParserEvent} (after : List WSParserEvent)
    (h : coalesce before = coalesce before') :
    coalesce (before ++ after) = coalesce (before' ++ after) := by
  rw [coalesce_append, coalesce_append, h]

theorem coalesce_cons (event : WSParserEvent) (events : List WSParserEvent) :
    coalesce (event :: events) = merge event (coalesce events) := rfl

end WSParserEvent

/-- `bytesLeft` means something only inside a payload. The constructor of the
source leaves it uninitialised. -/
structure WSHyBiParser where
  state : WSParseState
  header : Bytes
  bytesLeft : Nat
  deriving DecidableEq, Repr

namespace WSHyBiParser

def fresh : WSHyBiParser where
  state := .inHeader
  header := []
  bytesLeft := 0

/-- The loop of `read`, with a bound on its number of iterations. `none` is a
failed assertion, or a loop that is not finished within the bound. No buffer
holds the `10^18` bytes the loop asserts against, so that assertion can only
fail after `len -= payloadOffset` has wrapped. -/
def readLoop (proto : WebSocketProto) :
    Nat → WSHyBiParser → Bytes → Bool → Option (WSHyBiParser × List WSParserEvent)
  | 0, _, _, _ => none
  | fuel + 1, parser, data, recur =>
      if 0 < data.length ∨ recur = true then
        match parser.state with
        | .inHeader => do
            let startingSize := parser.header.length
            let header := parser.header ++ data.take (min data.length (maxHeaderBytes - startingSize))
            let frame := WSHyBiFrameHeader.ofData proto header
            if ← frame.isHeaderComplete then
              let info ← frame.info
              let payloadOffset := (← frame.headerLength) - startingSize
              let bytesLeft ← frame.payloadLength
              let recur := recur || bytesLeft == 0
              if payloadOffset ≤ data.length then
                let (parser, events) ← readLoop proto fuel
                  { state := .inPayload, header := [], bytesLeft } (data.drop payloadOffset) recur
                return (parser, .onHeaderComplete info :: events)
              else none
            else
              readLoop proto fuel { parser with header } [] recur
        | .inPayload => do
            let bytesToConsume := min data.length parser.bytesLeft
            let bytesLeft := parser.bytesLeft - bytesToConsume
            let payload := WSParserEvent.onPayload (data.take bytesToConsume)
            if bytesLeft = 0 then
              let (parser, events) ← readLoop proto fuel
                { parser with state := .inHeader, bytesLeft } (data.drop bytesToConsume) false
              return (parser, payload :: .onFrameComplete :: events)
            else
              let (parser, events) ← readLoop proto fuel
                { parser with bytesLeft } (data.drop bytesToConsume) false
              return (parser, payload :: events)
      else some (parser, [])

/-- Two iterations for each byte and one to see that nothing is left. -/
def read (proto : WebSocketProto) (parser : WSHyBiParser) (data : Bytes) :
    Option (WSHyBiParser × List WSParserEvent) :=
  readLoop proto (2 * data.length + 2) parser data false

end WSHyBiParser

end Httpuv
