import Httpuv.Http.HeaderFields
import Httpuv.WebSockets.Handshake

/-! Upgrade requests with two keys and eight bytes behind the head, and how the parser
reports them in pieces. -/
namespace Httpuv

namespace ParserPhase

variable {phase middle finish : ParserPhase} {events more : List ParserEvent}

theorem Follows.append (h : Follows phase events middle) (hMore : Follows middle more finish) :
    Follows phase (events ++ more) finish := by
  induction events generalizing phase with
  | nil =>
      obtain rfl : phase = middle := h
      exact hMore
  | cons event events ih =>
      obtain ⟨next, hNext, hRest⟩ := h
      exact ⟨next, hNext, ih hRest⟩

theorem Follows.split (h : Follows phase (events ++ more) finish) :
    ∃ middle, Follows phase events middle ∧ Follows middle more finish := by
  induction events generalizing phase with
  | nil => exact ⟨phase, rfl, h⟩
  | cons event events ih =>
      obtain ⟨next, hNext, hRest⟩ := h
      obtain ⟨middle, hEvents, hMore⟩ := ih hRest
      exact ⟨middle, ⟨next, hNext, hEvents⟩, hMore⟩

/-- No callback leads to a refused message, which is a phase that only an error or a
decision brings about. -/
theorem Follows.not_refused (h : Follows phase events finish) (hPhase : phase ≠ .refused) :
    finish ≠ .refused := by
  induction events generalizing phase with
  | nil =>
      obtain rfl : phase = finish := h
      exact hPhase
  | cons event events ih =>
      obtain ⟨next, hNext, hRest⟩ := h
      refine ih hRest ?_
      rintro rfl
      cases phase <;> cases event <;> cases hNext

end ParserPhase

section Replay

variable [HttpParser]

/-- The parser behind bytes that come in pieces, and what it has reported of them. Each
piece is given to it whole, as a read of the socket gives it. -/
def replay (parser : HttpParser.Parser) (pieces : List Bytes) :
    HttpParser.Parser × List ParserEvent :=
  pieces.foldl (fun known piece =>
    let result := HttpParser.execute known.1 piece
    (result.parser, known.2 ++ result.events)) (parser, [])

theorem replay_concat (parser : HttpParser.Parser) (pieces : List Bytes) (piece : Bytes) :
    replay parser (pieces ++ [piece]) =
      ((HttpParser.execute (replay parser pieces).1 piece).parser,
        (replay parser pieces).2 ++ (HttpParser.execute (replay parser pieces).1 piece).events) := by
  rw [replay, List.foldl_append]
  rfl

namespace HttpParserContract

variable (contract : HttpParserContract) {parser : HttpParser.Parser}

theorem replay_follows (hParser : contract.phase parser = .between) (pieces : List Bytes) :
    ParserPhase.Follows .between (replay parser pieces).2
      (contract.phase (replay parser pieces).1) := by
  induction pieces using List.reverseRecOn with
  | nil => exact hParser.symm
  | append_singleton pieces piece ih =>
      rw [replay_concat]
      rcases contract.execute (replay parser pieces).1 piece with hFollows | ⟨hRefused, -, -⟩
      · exact ih.append hFollows
      · exact absurd hRefused (ih.not_refused (by simp))

/-- The callbacks for one more piece go on from the phase that the pieces before it have
led to. -/
theorem replay_next (hParser : contract.phase parser = .between) (pieces : List Bytes)
    (piece : Bytes) : ParserPhase.Follows (contract.phase (replay parser pieces).1)
      (HttpParser.execute (replay parser pieces).1 piece).events
      (contract.phase (replay parser (pieces ++ [piece])).1) := by
  rw [replay_concat]
  rcases contract.execute (replay parser pieces).1 piece with hFollows | ⟨hRefused, -, -⟩
  · exact hFollows
  · exact absurd hRefused ((contract.replay_follows hParser pieces).not_refused (by simp))

end HttpParserContract

end Replay

/-- The callbacks for the head of an upgrade request. Its target and each of its values may
come in several pieces, which a `HeaderLine` holds. -/
def headEvents (targets : List Bytes) (lines : List HeaderLine) : List ParserEvent :=
  .onMessageBegin :: (targets.map .onUrl ++ lines.flatMap HeaderLine.events ++
    [.onHeadersComplete true])

/-- The bytes of a request up to the line feed that ends its head, and its fields. That
these are its fields is not part of the structure but of what the parser reports. -/
structure UpgradeRequest where
  head : Bytes
  fields : List (Bytes × Bytes)
  deriving DecidableEq, Repr

namespace UpgradeRequest

variable {request : UpgradeRequest} {headers : RequestHeaders}

/-- A request and the bytes behind it, with the line feed in between. The parser waits at
that byte, so it goes with what follows. -/
def bytes (request : UpgradeRequest) (key : Bytes) : Bytes := request.head ++ 10 :: key

/-- The values of a name come to one, as in the map of headers: joined with commas, with
the case of the name left open. -/
def field (request : UpgradeRequest) (name : Bytes) : Option Bytes :=
  if request.fields.any (fun field => sameName field.1 name) then
    some (joined ((request.fields.filter fun field => sameName field.1 name).map Prod.snd))
  else none

theorem combined_eq_field {lines : List HeaderLine}
    (hLines : lines.map (fun line => (line.name, line.value)) = request.fields) (name : Bytes) :
    RequestHead.combined lines name = request.field name := by
  have hAny : request.fields.any (fun field => sameName field.1 name) =
      lines.any (fun line => sameName line.name name) := by
    rw [← hLines, List.any_map]
    rfl
  have hValues : (request.fields.filter fun field => sameName field.1 name).map Prod.snd =
      (lines.filter fun line => sameName line.name name).map HeaderLine.value := by
    rw [← hLines, List.filter_map, List.map_map]
    rfl
  rw [field, hAny, hValues]
  rfl

/-- A request of this protocol: an upgrade to a WebSocket with a host and both keys, each
of which has a blank in it. Without one the number of the key could not be computed. -/
structure Valid (request : UpgradeRequest) : Prop where
  upgrade : ∃ value, request.field (ascii "upgrade") = some value ∧
    strcaseEq value (ascii "websocket") = true
  host : (request.field (ascii "host")).isSome = true
  keys : ∀ name ∈ [ascii "sec-websocket-key1", ascii "sec-websocket-key2"],
    ∃ key, request.field name = some key ∧ 0 < (trim key).count 32 ∧ (trim key).count 32 < 2 ^ 32

/-- How `http_parser` goes through the request, whatever pieces it comes in. It stops
before the line feed and waits, and when it is told to go on it consumes the line feed
and stops again, since what follows is another protocol. -/
structure Reported [HttpParser] (request : UpgradeRequest) (key : Bytes)
    (parser : HttpParser.Parser) : Prop where
  arriving : ∀ pieces piece, [] ∉ pieces ++ [piece] →
    (pieces ++ [piece]).flatten <+: request.head →
      (HttpParser.execute (replay parser pieces).1 piece).parsed = piece.length ∧
        HttpParser.waitingForHeadersCompleted (replay parser (pieces ++ [piece])).1 = false
  complete : ∀ pieces piece rest, [] ∉ pieces ++ [piece] → pieces.flatten <+: request.head →
    (pieces ++ [piece]).flatten = request.bytes rest → rest <+: key →
      (HttpParser.execute (replay parser pieces).1 piece).parsed =
          request.head.length - pieces.flatten.length ∧
        HttpParser.waitingForHeadersCompleted (replay parser (pieces ++ [piece])).1 = true ∧
        ∃ targets lines, (replay parser (pieces ++ [piece])).2 = headEvents targets lines ∧
          lines.map (fun line => (line.name, line.value)) = request.fields
  goesOn : ∀ pieces rest, [] ∉ pieces → pieces.flatten = request.bytes rest → rest <+: key →
    let result := HttpParser.execute
      (HttpParser.headersCompleted (replay parser pieces).1 0) (10 :: rest)
    result.parsed = 1 ∧ result.events = [.onMessageComplete] ∧
      HttpParser.waitingForHeadersCompleted result.parser = false

/-- The header map has the fields, each under its name. The order of names that differ
does not matter to it. -/
def Known (request : UpgradeRequest) (headers : RequestHeaders) : Prop :=
  ∀ name, Framing.isToken name = true → headers.find name = request.field name

end UpgradeRequest

namespace RequestHead

theorem foldl_onUrl (head : RequestHead) (targets : List Bytes) :
    ∃ url, (targets.map ParserEvent.onUrl).foldl onEvent head = { head with url } := by
  induction targets generalizing head with
  | nil => exact ⟨head.url, rfl⟩
  | cons target targets ih =>
      obtain ⟨url, hUrl⟩ := ih (head.onUrl target)
      exact ⟨url, hUrl⟩

end RequestHead

namespace UpgradeRequest

variable {request : UpgradeRequest} {headers : RequestHeaders} {pData : Bytes}

theorem known_of_events (start : RequestHead) (targets : List Bytes) {lines : List HeaderLine}
    (hLines : lines.map (fun line => (line.name, line.value)) = request.fields) :
    request.Known ((headEvents targets lines).foldl RequestHead.onEvent start).headers := by
  obtain ⟨url, hUrl⟩ := RequestHead.foldl_onUrl start.newRequest targets
  have hNew : RequestHead.Collects { start.newRequest with url } [] := {
    between := fun hField => absurd hField (by simp [RequestHead.newRequest])
    find := fun name hName => rfl
    occurred := fun key hKey => absurd hKey (by simp [RequestHead.newRequest])
    once := List.Pairwise.nil }
  have hCollected := hNew.lines lines
  intro name hName
  have hFind := hCollected.find name hName
  rw [List.nil_append, combined_eq_field hLines] at hFind
  rw [← hFind, headEvents, List.foldl_cons, List.foldl_append, List.foldl_append, RequestHead.onEvent, hUrl]
  rfl

theorem calculateKeyValue_isSome {key : Bytes} (hSome : 0 < (trim key).count 32)
    (hSmall : (trim key).count 32 < 2 ^ 32) : (calculateKeyValue key).isSome = true := by
  have hSpaces : (trim key).count 32 % 2 ^ 32 ≠ 0 := by
    rw [Nat.mod_eq_of_lt hSmall]
    omega
  have hValue : calculateKeyValue key = some _ := if_neg hSpaces
  rw [hValue]
  rfl

theorem upgrades (hValid : request.Valid) (hKnown : request.Known headers) :
    upgradesToWebSocket headers = true := by
  obtain ⟨value, hUpgrade, hName⟩ := hValid.upgrade
  rw [upgradesToWebSocket, hKnown _ (by decide), hUpgrade]
  exact hName

/-- Only the number of bytes behind the head decides: what else `canHandle` asks for, a
valid request has. -/
theorem hyBi03CanHandle_eq (hValid : request.Valid) (hKnown : request.Known headers)
    (pData : Bytes) : WebSocketProto.hyBi03CanHandle headers pData = (pData.length == 8) := by
  obtain ⟨key1, hKey1, hSome1, hSmall1⟩ := hValid.keys (ascii "sec-websocket-key1") (by simp)
  obtain ⟨key2, hKey2, hSome2, hSmall2⟩ := hValid.keys (ascii "sec-websocket-key2") (by simp)
  have hHost : headers.has (ascii "host") = true := by
    rw [RequestHeaders.has, hKnown _ (by decide)]
    exact hValid.host
  simp [WebSocketProto.hyBi03CanHandle, hKnown (ascii "sec-websocket-key1") (by decide),
    hKnown (ascii "sec-websocket-key2") (by decide), hKey1, hKey2, hHost, upgrades hValid hKnown,
    calculateKeyValue_isSome hSome1 hSmall1, calculateKeyValue_isSome hSome2 hSmall2]

/-- The request is accepted with all its bytes, or for a key of the later protocol. That
protocol is tried first, and it needs nothing behind the head. -/
theorem accepted (hValid : request.Valid) (hKnown : request.Known headers)
    (hEnough : (request.field (ascii "sec-websocket-key")).isSome = true ∨ pData.length = 8)
    {conn : WebSocketConnection} (hOpen : conn.connState = .wsOpen) :
    ∃ parser, conn.acceptedParser headers pData = some parser := by
  have hNotClosed : ¬ conn.connState = .wsClosed := by simp [hOpen]
  rw [WebSocketConnection.acceptedParser, if_neg hNotClosed]
  split_ifs with hIetf hHyBi03
  · exact ⟨_, rfl⟩
  · exact ⟨_, rfl⟩
  · exfalso
    rcases hEnough with hKey | hLength
    · apply hIetf
      rw [WebSocketProto.ietfCanHandle, upgrades hValid hKnown, RequestHeaders.has,
        hKnown _ (by decide), hKey]
      rfl
    · apply hHyBi03
      rw [hyBi03CanHandle_eq hValid hKnown, hLength]
      rfl

/-- Static serving leaves the request alone, since it has an `Upgrade` header. The decision
is then that of `onHeaders`. -/
theorem has_upgrade (hValid : request.Valid) (hKnown : request.Known headers) :
    headers.has (ascii "Upgrade") = true := by
  obtain ⟨value, hUpgrade, -⟩ := hValid.upgrade
  obtain ⟨entry, hMem, hName⟩ : ∃ entry ∈ headers, strcaseEq entry.1 (ascii "upgrade") = true := by
    rw [← RequestHeaders.has_iff, RequestHeaders.has, hKnown _ (by decide), hUpgrade]
    rfl
  have hCase : strcaseEq (ascii "upgrade") (ascii "Upgrade") = true := by decide
  exact RequestHeaders.has_iff.2 ⟨entry, hMem, strcaseEq_trans hName hCase⟩

end UpgradeRequest

end Httpuv
