import Httpuv.Http.Connection
import Httpuv.Parser.Contract

/-! The part of `HttpRequest` that hands what has been read to `http_parser`, and
keeps it while the headers of a request are looked at. -/
namespace Httpuv

open Semantics

/-- The members of `HttpRequest` that its reading works on. `_handlingRequest` is one of them,
since a second request that begins too early closes the connection. -/
structure RequestReader where
  parser : RequestParser
  requestBuffer : Bytes
  isUpgrade : Bool
  handlingRequest : Bool
  deriving DecidableEq, Repr

/-- What comes from the event loop: bytes, the decision to go on with a request, and
`requestCompleted`, which is called for every response that is written. -/
inductive ReaderAction where
  | read (data : Bytes)
  | headersCompleted
  | requestCompleted
  deriving DecidableEq, Repr

namespace ReaderAction

def data : ReaderAction → Bytes
  | .read data => data
  | .headersCompleted => []
  | .requestCompleted => []

/-- The bytes that have been read, in order. -/
def bytes (actions : List ReaderAction) : Bytes := actions.flatMap data

/-- How many requests have been allowed to go on. -/
def decisions (actions : List ReaderAction) : Nat := actions.count .headersCompleted

end ReaderAction

namespace RequestReader

def fresh : RequestReader where
  parser := RequestParser.init
  requestBuffer := []
  isUpgrade := false
  handlingRequest := false

/-- `_newRequest` for one callback of the parser: whether a request is handled behind
it, unless a second request has come too early and closes the connection. -/
def newRequest (handlingRequest : Bool) : ParserEvent → Option Bool
  | .onMessageBegin => if handlingRequest then none else some true
  | _ => some handlingRequest

/-- `_parse_http_data`, as long as the request does not become an upgrade and the
connection is not closed for what has been read. -/
def parseHttpData (reader : RequestReader) (buffer : Bytes) :
    Option (RequestReader × List ParserEvent) := do
  let result := reader.parser.execute buffer
  let isUpgrade := reader.isUpgrade || result.events.contains (.onHeadersComplete true)
  let handlingRequest ← result.events.foldlM newRequest reader.handlingRequest
  if result.parser.waitingForHeadersCompleted then
    some (⟨result.parser, reader.requestBuffer ++ buffer.drop result.parsed, isUpgrade,
      handlingRequest⟩, result.events)
  else if isUpgrade ∨ result.parsed < buffer.length then none
  else some (⟨result.parser, reader.requestBuffer, isUpgrade, handlingRequest⟩, result.events)

/-- `http_parser_headers_completed` without a response, and the buffer emptied as
`_parse_http_data_from_buffer` does it. -/
def resume (reader : RequestReader) : RequestReader :=
  { reader with parser := reader.parser.headersCompleted 0, requestBuffer := [] }

/-- `_on_request_read`, `_on_headers_complete_complete` without a response, and
`requestCompleted`. -/
def next (reader : RequestReader) : ReaderAction → Option (RequestReader × List ParserEvent)
  | .read data => if data = [] then none else reader.parseHttpData data
  | .headersCompleted =>
      if reader.parser.waitingForHeadersCompleted then
        reader.resume.parseHttpData reader.requestBuffer
      else none
  | .requestCompleted => some ({ reader with handlingRequest := false }, [])

/-- What `http_parser_execute` is given: the bytes of a read, or those that have been kept
when a request goes on. -/
def buffer (reader : RequestReader) : ReaderAction → Bytes
  | .read data => data
  | .headersCompleted => reader.requestBuffer
  | .requestCompleted => []

/-- An action whose buffer the count of the parser has room for. The count has 32 bits, and
would wrap for a longer one. -/
def step (reader : RequestReader) (action : ReaderAction) :
    Option (RequestReader × List ParserEvent) :=
  if (reader.buffer action).length + RequestParser.HTTP_MAX_HEADER_SIZE < 2 ^ 32 then
    reader.next action
  else none

/-- A connection as a reader. It has no step for what closes the connection or makes a
WebSocket of it. -/
def system : System RequestReader ReaderAction ParserEvent :=
  System.ofStep (fun reader => reader = fresh) step

end RequestReader

namespace Connection

local instance : HttpParser := httpParser

variable {File : Type} [Zlib] {conn : Connection File}
  {static : Option (HttpResponse (Body File))} {event : ParserEvent} {events : List ParserEvent}

/-- The part of a connection that reads, which `parseHttpData_reader` shows to behave as a
reader. -/
def reader (conn : Connection File) : RequestReader :=
  ⟨conn.parser.1, conn.requestBuffer, conn.isUpgrade, conn.handlingRequest⟩

/-- A callback of the parser that does not close the connection changes no more of this part
than the flags. -/
theorem onEvent_reader {handling : Bool}
    (hHandling : RequestReader.newRequest conn.handlingRequest event = some handling) :
    (conn.onEvent static event).reader = ⟨conn.parser.1, conn.requestBuffer,
        conn.isUpgrade || event == .onHeadersComplete true, handling⟩ ∧
      (conn.onEvent static event).isClosing = conn.isClosing := by
  cases event with
  | onMessageBegin =>
      unfold RequestReader.newRequest at hHandling
      split_ifs at hHandling with hBusy
      obtain rfl := Option.some.inj hHandling
      simp [onEvent, newRequest, reader, invokeLater, observe, hBusy]
  | onHeadersComplete upgrade =>
      obtain rfl := Option.some.inj hHandling
      simp only [onEvent, onHeadersComplete]
      split <;> cases upgrade <;> simp [reader, observe, push, invokeLater]
  | onMessageComplete =>
      obtain rfl := Option.some.inj hHandling
      simp only [onEvent, onMessageComplete]
      split <;> simp [reader, invokeLater]
  | _ =>
      obtain rfl := Option.some.inj hHandling
      simp [onEvent, reader, invokeLater]

theorem foldl_onEvent_reader {handling : Bool}
    (hHandling : events.foldlM RequestReader.newRequest conn.handlingRequest = some handling) :
    (events.foldl (onEvent static) conn).reader = ⟨conn.parser.1, conn.requestBuffer,
        conn.isUpgrade || events.contains (.onHeadersComplete true), handling⟩ ∧
      (events.foldl (onEvent static) conn).isClosing = conn.isClosing := by
  induction events generalizing conn with
  | nil =>
      obtain rfl := Option.some.inj hHandling
      simp [reader]
  | cons event events ih =>
      obtain ⟨middle, hMiddle, hRest⟩ := Option.bind_eq_some_iff.1 hHandling
      obtain ⟨hReader, hClosing⟩ := @onEvent_reader _ _ conn static _ _ hMiddle
      simp only [reader, RequestReader.mk.injEq] at hReader
      obtain ⟨hParser, hBuffer, hUpgrade, hFlag⟩ := hReader
      rw [← hFlag] at hRest
      obtain ⟨hReader', hClosing'⟩ := ih hRest
      refine ⟨?_, hClosing'.trans hClosing⟩
      rw [List.foldl_cons, hReader', hParser, hBuffer, hUpgrade, List.contains_cons, Bool.or_assoc,
        Bool.beq_comm]

variable [DataSource File] [Host] [Digests]

/-- `RequestReader.parseHttpData` is `parseHttpData` with `http_parser`, on a connection
that stays open. -/
theorem parseHttpData_reader {finish : RequestReader} {now : Tm} {buffer : Bytes}
    (hParse : conn.reader.parseHttpData buffer = some (finish, events)) :
    ∃ after, conn.parseHttpData static now buffer = some after ∧ after.reader = finish ∧
      after.isClosing = conn.isClosing := by
  unfold RequestReader.parseHttpData at hParse
  simp only [Option.bind_eq_bind, Option.bind_eq_some_iff] at hParse
  obtain ⟨handling, hHandling, hParse⟩ := hParse
  have hFeed : (conn.feed static buffer).reader =
        ⟨(conn.reader.parser.execute buffer).parser, conn.reader.requestBuffer,
          conn.reader.isUpgrade || (conn.reader.parser.execute buffer).events.contains
            (.onHeadersComplete true), handling⟩ ∧
      (conn.feed static buffer).isClosing = conn.isClosing := by
    unfold feed
    exact foldl_onEvent_reader (by exact hHandling)
  obtain ⟨hReader, hClosing⟩ := hFeed
  simp only [Connection.reader, RequestReader.mk.injEq] at hReader
  obtain ⟨hParser, hBuffer, hUpgrade, hFlag⟩ := hReader
  have hWaits : HttpParser.waitingForHeadersCompleted (conn.feed static buffer).parser =
      (conn.reader.parser.execute buffer).parser.waitingForHeadersCompleted :=
    congrArg RequestParser.waitingForHeadersCompleted hParser
  have hTaken : (HttpParser.execute conn.parser buffer).parsed =
      min (conn.reader.parser.execute buffer).parsed buffer.length := rfl
  simp only [parseHttpData, hWaits, hTaken]
  split_ifs at hParse with hWaiting hEnd
  · obtain ⟨rfl, -⟩ := Prod.mk.inj (Option.some.inj hParse)
    have hDrop : buffer.drop (min (conn.reader.parser.execute buffer).parsed buffer.length) =
        buffer.drop (conn.reader.parser.execute buffer).parsed := by
      rcases Nat.le_total (conn.reader.parser.execute buffer).parsed buffer.length with hLess | hMore
      · rw [Nat.min_eq_left hLess]
      · rw [Nat.min_eq_right hMore, List.drop_length, List.drop_eq_nil_of_le hMore]
    rw [if_pos hWaiting]
    refine ⟨_, rfl, ?_, hClosing⟩
    rw [hDrop]
    simp only [Connection.reader, hParser, hBuffer, hUpgrade, hFlag]
  · obtain ⟨rfl, -⟩ := Prod.mk.inj (Option.some.inj hParse)
    rw [not_or] at hEnd
    rw [if_neg hWaiting, if_neg (by rw [hUpgrade]; exact hEnd.1), if_neg (by omega)]
    refine ⟨_, rfl, ?_, hClosing⟩
    simp only [Connection.reader, hParser, hBuffer, hUpgrade, hFlag]

end Connection

end Httpuv
