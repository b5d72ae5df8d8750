import Httpuv.WebSockets.Messages

/-! Delivery of messages on an open IETF connection: one call for each message,
whatever its fragments, the control frames between them and the reads. -/
namespace Httpuv.WebSocketConnection

open Semantics

/-- An open connection on the IETF protocol that is between two frames and has
`pending` bytes of an unfinished message. -/
structure Reassembling (conn : WebSocketConnection) (pending : Bytes) : Prop where
  isOpen : conn.connState = .wsOpen
  parser : ∃ parser, conn.pParser = some (.hyBi parser)
  noPayload : conn.payload = []
  pending : conn.incompleteContentPayload = pending

/-- The connection when a frame has been read up to its end. -/
def received (conn : WebSocketConnection) (frame : ClientFrame) : WebSocketConnection :=
  { conn.onHeaderComplete frame.info with payload := frame.body.payload }

/-- Removing the mask from a whole payload. -/
theorem unmask_payloadBytes (body : FrameBody) :
    (if body.maskingKey.isSome then unmask body.keyBytes 0 body.payloadBytes
      else body.payloadBytes) = body.payload := by
  unfold FrameBody.payloadBytes FrameBody.keyBytes
  cases body.maskingKey with
  | none => rfl
  | some key =>
      simp only [Option.isSome_some, if_true, unmask]
      apply List.ext_getElem
      · simp
      · intro i hLeft hRight
        simp only [List.getElem_mapIdx, Nat.zero_add, UInt8.xor_assoc, UInt8.xor_self, UInt8.xor_zero]

theorem Reassembling.ofHeader {conn : WebSocketConnection} {pending : Bytes}
    (h : Reassembling conn pending) (header : WSFrameHeaderInfo) :
    Reassembling (conn.onHeaderComplete header) pending ∧
      (conn.onHeaderComplete header).header = header := by
  obtain ⟨hOpen, hParser, hPayload, hPending⟩ := h
  unfold onHeaderComplete
  rw [if_neg (by simp [hOpen])]
  split_ifs <;> exact ⟨⟨hOpen, hParser, hPayload, hPending⟩, rfl⟩

theorem onPayload_payloadBytes {conn : WebSocketConnection} {pending : Bytes}
    (h : Reassembling conn pending) (frame : ClientFrame) (hHeader : conn.header = frame.info) :
    conn.onPayload frame.body.payloadBytes = { conn with payload := frame.body.payload } := by
  have hUnmask := unmask_payloadBytes frame.body
  have hMasked : conn.header.masked = frame.body.maskingKey.isSome := by rw [hHeader]; rfl
  have hKey : conn.header.maskingKey = frame.body.keyBytes := by rw [hHeader]; rfl
  rw [← hMasked, ← hKey] at hUnmask
  unfold onPayload
  rw [if_neg (by simp [h.isOpen]), h.noPayload]
  split_ifs at hUnmask ⊢ <;> simp [hUnmask]

section

variable [Host]

theorem exec_events {conn : WebSocketConnection} {pending : Bytes}
    (h : Reassembling conn pending) (frame : ClientFrame) :
    System.exec onParserEvent conn frame.events = (received conn frame).onFrameComplete := by
  obtain ⟨hNext, hHeader⟩ := h.ofHeader frame.info
  have hPayload := onPayload_payloadBytes hNext frame hHeader
  rw [ClientFrame.events, System.exec_cons_silent rfl,
    System.exec_cons_silent (by rw [onParserEvent, hPayload]), System.exec_singleton]
  rfl

/-- A control frame is answered and leaves the unfinished message alone. -/
theorem exec_control {conn : WebSocketConnection} {pending : Bytes}
    (h : Reassembling conn pending) (control : ControlFrame) :
    ∃ after, System.exec onParserEvent conn control.frame.events = some (after, control.answer) ∧
      Reassembling after pending ∧
      after.incompleteContentHeader = conn.incompleteContentHeader := by
  obtain ⟨parser, hParser⟩ := h.parser
  rw [exec_events h]
  have hHeader : received conn control.frame =
      { conn with header := control.frame.info, payload := control.body.payload } := by
    cases hPing : control.isPing <;>
      simp [received, onHeaderComplete, h.isOpen, ControlFrame.frame, ClientFrame.info]
  rw [hHeader]
  refine ⟨{ conn with header := control.frame.info, payload := [] }, ?_,
    ⟨h.isOpen, h.parser, rfl, h.pending⟩, rfl⟩
  cases hPing : control.isPing with
  | true =>
      simp [onFrameComplete, h.isOpen, ClientFrame.info, ControlFrame.frame, hPing,
        sendWSMessage, hParser, WSParser.createFrameHeaderFooter, ControlFrame.answer]
  | false =>
      simp [onFrameComplete, h.isOpen, ClientFrame.info, ControlFrame.frame, hPing,
        ControlFrame.answer]

theorem exec_controls {conn : WebSocketConnection} {pending : Bytes}
    (h : Reassembling conn pending) (controls : List ControlFrame) :
    ∃ after, System.exec onParserEvent conn
        ((controls.map ControlFrame.frame).flatMap ClientFrame.events) =
          some (after, controls.flatMap ControlFrame.answer) ∧
      Reassembling after pending ∧
      after.incompleteContentHeader = conn.incompleteContentHeader := by
  induction controls generalizing conn with
  | nil => exact ⟨conn, rfl, h, rfl⟩
  | cons control controls ih =>
      obtain ⟨middle, hControl, hMiddle, hKept⟩ := exec_control h control
      obtain ⟨after, hRest, hAfter, hKeptAfter⟩ := ih hMiddle
      refine ⟨after, ?_, hAfter, hKeptAfter.trans hKept⟩
      rw [List.map_cons, List.flatMap_cons, List.flatMap_cons, System.exec_append, hControl]
      simp [hRest]

theorem onFrameComplete_unfinished {conn : WebSocketConnection}
    (hOpen : conn.connState = .wsOpen) (hFin : conn.header.fin = false) :
    conn.onFrameComplete = some ({ conn with
      incompleteContentPayload := conn.incompleteContentPayload ++ conn.payload
      payload := [] }, []) := by
  simp [onFrameComplete, hOpen, hFin]

/-- A fragment with more to come is kept. The first one decides the type. -/
theorem exec_fragment {conn : WebSocketConnection} {pending : Bytes}
    (h : Reassembling conn pending) (opcode : Opcode) (body : FrameBody) :
    ∃ after, System.exec onParserEvent conn
        (ClientFrame.events { fin := false, opcode, body }) = some (after, []) ∧
      Reassembling after (pending ++ body.payload) ∧
      after.incompleteContentHeader.opcode =
        if opcode = .continuation then conn.incompleteContentHeader.opcode else opcode := by
  let frame : ClientFrame := { fin := false, opcode, body }
  obtain ⟨hNext, hHeader⟩ := h.ofHeader frame.info
  rw [exec_events h]
  refine ⟨{ received conn frame with
    incompleteContentPayload := pending ++ body.payload, payload := [] }, ?_,
    ⟨hNext.isOpen, hNext.parser, rfl, rfl⟩, ?_⟩
  · have hFin : (received conn frame).header.fin = false := by
      change (conn.onHeaderComplete frame.info).header.fin = false
      rw [hHeader]
      rfl
    have hOpen : (received conn frame).connState = .wsOpen := hNext.isOpen
    rw [onFrameComplete_unfinished hOpen hFin, ← hNext.pending]
    rfl
  · by_cases hContinuation : opcode = .continuation
    · simp [received, onHeaderComplete, h.isOpen, frame, ClientFrame.info, hContinuation]
    · simp [received, onHeaderComplete, h.isOpen, frame, ClientFrame.info, hContinuation]

/-- The last continuation delivers what was kept. -/
theorem exec_lastContinuation {conn : WebSocketConnection} {pending : Bytes}
    (h : Reassembling conn pending) (body : FrameBody) :
    ∃ after, System.exec onParserEvent conn
        (ClientFrame.events { fin := true, opcode := .continuation, body }) =
          some (after, [.onWSMessage (conn.incompleteContentHeader.opcode == .binary)
            (pending ++ body.payload)]) ∧
      Reassembling after [] := by
  let frame : ClientFrame := { fin := true, opcode := .continuation, body }
  have hReceived : received conn frame =
      { conn with header := frame.info, payload := body.payload } := by
    simp [received, onHeaderComplete, h.isOpen, frame, ClientFrame.info]
  rw [exec_events h, hReceived]
  refine ⟨{ conn with header := frame.info, incompleteContentPayload := [], payload := [] }, ?_,
    ⟨h.isOpen, h.parser, rfl, rfl⟩⟩
  simp [onFrameComplete, h.isOpen, h.pending, frame, ClientFrame.info]

/-- A message in one frame is delivered at once. -/
theorem exec_single {conn : WebSocketConnection} (h : Reassembling conn []) (binary : Bool)
    (body : FrameBody) :
    ∃ after, System.exec onParserEvent conn
        (ClientFrame.events
          { fin := true, opcode := if binary then .binary else .text, body }) =
          some (after, [.onWSMessage binary body.payload]) ∧
      Reassembling after [] := by
  let frame : ClientFrame := { fin := true, opcode := if binary then .binary else .text, body }
  have hReceived : received conn frame =
      { conn with header := frame.info, payload := body.payload } := by
    simp [received, onHeaderComplete, h.isOpen, frame, ClientFrame.info]
  rw [exec_events h, hReceived]
  refine ⟨{ conn with header := frame.info, payload := [] }, ?_,
    ⟨h.isOpen, h.parser, rfl, h.pending⟩⟩
  cases binary <;> simp [onFrameComplete, h.isOpen, frame, ClientFrame.info]

/-- The fragments behind the first one, when the type is known. -/
theorem exec_continuations {conn : WebSocketConnection} {pending : Bytes}
    (h : Reassembling conn pending) (fragments : List Fragment) (hSome : fragments ≠ []) :
    ∃ after, System.exec onParserEvent conn
        ((Message.continuations fragments).flatMap ClientFrame.events) =
          some (after, (fragments.flatMap (·.controls)).flatMap ControlFrame.answer ++
            [.onWSMessage (conn.incompleteContentHeader.opcode == .binary)
              (pending ++ fragments.flatMap (·.body.payload))]) ∧
      Reassembling after [] := by
  induction fragments generalizing conn pending with
  | nil => exact absurd rfl hSome
  | cons fragment others ih =>
      obtain ⟨middle, hControls, hMiddle, hType⟩ := exec_controls h fragment.controls
      rw [Message.continuations, List.flatMap_append, System.exec_append, hControls,
        Option.bind_some, List.flatMap_cons, System.exec_append]
      cases others with
      | nil =>
          obtain ⟨after, hLast, hAfter⟩ := exec_lastContinuation hMiddle fragment.body
          refine ⟨after, ?_, hAfter⟩
          simp [hLast, hType, Message.continuations, System.exec]
      | cons next others =>
          obtain ⟨kept, hKept, hKeptState, hKeptType⟩ :=
            exec_fragment hMiddle .continuation fragment.body
          obtain ⟨after, hRest, hAfter⟩ := ih hKeptState (by simp)
          rw [if_pos rfl, hType] at hKeptType
          refine ⟨after, ?_, hAfter⟩
          simp [hKept, hRest, hKeptType]

/-- A whole message, in any number of fragments. -/
theorem exec_message {conn : WebSocketConnection} (h : Reassembling conn [])
    (message : Message) :
    ∃ after, System.exec onParserEvent conn (message.frames.flatMap ClientFrame.events) =
        some (after, message.delivery) ∧
      Reassembling after [] := by
  obtain ⟨binary, first, others⟩ := message
  obtain ⟨middle, hControls, hMiddle, -⟩ := exec_controls h first.controls
  rw [Message.frames, List.flatMap_append, System.exec_append, hControls, Option.bind_some,
    List.flatMap_cons, System.exec_append]
  cases others with
  | nil =>
      obtain ⟨after, hSingle, hAfter⟩ := exec_single hMiddle binary first.body
      refine ⟨after, ?_, hAfter⟩
      simp [hSingle, Message.continuations, System.exec, Message.delivery, Message.controls,
        Message.payload]
  | cons next others =>
      obtain ⟨kept, hKept, hKeptState, hType⟩ :=
        exec_fragment hMiddle (if binary then .binary else .text) first.body
      obtain ⟨after, hRest, hAfter⟩ := exec_continuations hKeptState (next :: others) (by simp)
      have hBinary : (kept.incompleteContentHeader.opcode == .binary) = binary := by
        rw [hType]
        cases binary <;> rfl
      refine ⟨after, ?_, hAfter⟩
      simp [hKept, hRest, hBinary, Message.delivery, Message.controls, Message.payload]

/-- Any number of messages, one after the other. -/
theorem exec_messages {conn : WebSocketConnection} (h : Reassembling conn [])
    (messages : List Message) :
    ∃ after, System.exec onParserEvent conn
        ((messages.flatMap Message.frames).flatMap ClientFrame.events) =
          some (after, messages.flatMap Message.delivery) ∧
      Reassembling after [] := by
  induction messages generalizing conn with
  | nil => exact ⟨conn, rfl, h⟩
  | cons message messages ih =>
      obtain ⟨middle, hMessage, hMiddle⟩ := exec_message h message
      obtain ⟨after, hRest, hAfter⟩ := ih hMiddle
      refine ⟨after, ?_, hAfter⟩
      rw [List.flatMap_cons, List.flatMap_append, System.exec_append, hMessage]
      simp [hRest]

/-- Frames are sent the same way in every state of the parser. -/
theorem onFrameComplete_withParser {conn : WebSocketConnection} {parser : WSHyBiParser}
    (hParser : conn.pParser = some (.hyBi parser)) (other : WSHyBiParser) :
    (conn.withParser (.hyBi other)).onFrameComplete =
      conn.onFrameComplete.map (fun result => (result.1.withParser (.hyBi other), result.2)) := by
  obtain ⟨connState, pParser, incompleteContentHeader, header, incompleteContentPayload, payload⟩ :=
    conn
  obtain ⟨fin, opcode, masked, maskingKey, hasLength, payloadLength⟩ := header
  cases hParser
  cases connState <;> cases fin <;> cases opcode <;> rfl

theorem onParserEvent_withParser {conn : WebSocketConnection} {parser : WSHyBiParser}
    (hParser : conn.pParser = some (.hyBi parser)) (other : WSHyBiParser)
    (event : WSParserEvent) :
    (conn.withParser (.hyBi other)).onParserEvent event =
      (conn.onParserEvent event).map (fun result => (result.1.withParser (.hyBi other), result.2)) := by
  cases event with
  | onHeaderComplete header =>
      by_cases hClosed : conn.connState = .wsClosed
      · simp [onParserEvent, onHeaderComplete, withParser, hClosed]
      · cases hFirst : !header.fin && header.opcode != .continuation <;>
          simp [onParserEvent, onHeaderComplete, withParser, hClosed, hFirst]
  | onPayload data =>
      by_cases hClosed : conn.connState = .wsClosed
      · simp [onParserEvent, onPayload, withParser, hClosed]
      · cases hMasked : conn.header.masked <;>
          simp [onParserEvent, onPayload, withParser, hClosed, hMasked]
  | onFrameComplete => exact onFrameComplete_withParser hParser other

theorem exec_withParser {conn after : WebSocketConnection} {parser : WSHyBiParser}
    {events : List WSParserEvent} {callbacks : List WSCallback}
    (hParser : conn.pParser = some (.hyBi parser)) (other : WSHyBiParser)
    (h : System.exec onParserEvent conn events = some (after, callbacks)) :
    System.exec onParserEvent (conn.withParser (.hyBi other)) events =
      some (after.withParser (.hyBi other), callbacks) := by
  induction events generalizing conn callbacks with
  | nil => cases h; rfl
  | cons event events ih =>
      obtain ⟨middle, first, rest, hFirst, hRest, rfl⟩ := System.exec_cons_eq_some.1 h
      have hMiddle := (onParserEvent_pParser hFirst).trans hParser
      simp [System.exec, onParserEvent_withParser hParser, hFirst, ih hMiddle hRest]

theorem exec_pParser {conn after : WebSocketConnection} {events : List WSParserEvent}
    {callbacks : List WSCallback}
    (h : System.exec onParserEvent conn events = some (after, callbacks)) :
    after.pParser = conn.pParser := by
  induction events generalizing conn callbacks with
  | nil => cases h; rfl
  | cons event events ih =>
      obtain ⟨middle, first, rest, hFirst, hRest, -⟩ := System.exec_cons_eq_some.1 h
      exact (ih hRest).trans (onParserEvent_pParser hFirst)

/-- Reading chunks makes the calls of all parser events, one chunk's events
after the other's. -/
theorem exec_read_of_events {conn after : WebSocketConnection} {parser last : WSHyBiParser}
    {chunks : List Bytes} {events : List WSParserEvent} {callbacks : List WSCallback}
    (hParser : conn.pParser = some (.hyBi parser))
    (hRead : System.exec (WSHyBiParser.read .ietf) parser chunks = some (last, events))
    (hEvents : System.exec onParserEvent conn events = some (after, callbacks)) :
    ∃ final, System.exec read conn chunks = some (final, callbacks) := by
  induction chunks generalizing conn after parser events callbacks with
  | nil => cases hRead; cases hEvents; exact ⟨_, rfl⟩
  | cons data chunks ih =>
      by_cases hClosed : conn.connState = .wsClosed
      · rw [exec_onParserEvent_closed hClosed] at hEvents
        cases hEvents
        exact ⟨_, exec_read_closed hClosed _⟩
      · obtain ⟨next, first, rest, hFirst, hRest, rfl⟩ := System.exec_cons_eq_some.1 hRead
        rw [System.exec_append] at hEvents
        simp only [Option.bind_eq_some_iff, Option.map_eq_some_iff, Prod.exists,
          Prod.mk.injEq] at hEvents
        obtain ⟨middle, before, hBefore, _, later, hLater, rfl, rfl⟩ := hEvents
        have hMiddle : middle.pParser = some (.hyBi parser) := by
          rw [← hParser]
          exact exec_pParser hBefore
        obtain ⟨final, hFinal⟩ := ih rfl hRest (exec_withParser hMiddle next hLater)
        have hData : conn.read data = some (middle.withParser (.hyBi next), before) := by
          rw [read, if_neg hClosed, hParser]
          simp [WSParser.read, hFirst, hBefore, withParser]
        exact ⟨final, by simp [System.exec, hData, hFinal]⟩

/-- Every list of messages, framed in any way with control frames in between,
and every way of cutting the bytes into reads. -/
theorem read_messages {conn : WebSocketConnection} (hOpen : conn.connState = .wsOpen)
    (hParser : conn.pParser = some (.hyBi .fresh)) (hPayload : conn.payload = [])
    (hPending : conn.incompleteContentPayload = [])
    (messages : List Message) (trailing : List ControlFrame) (chunks : List Bytes)
    (hChunks : chunks.flatten = encodeMessages messages trailing) :
    ∃ after, System.exec read conn chunks = some (after, deliveries messages trailing) := by
  have hStart : Reassembling conn [] := ⟨hOpen, ⟨_, hParser⟩, hPayload, hPending⟩
  obtain ⟨middle, hMessages, hMiddle⟩ := exec_messages hStart messages
  obtain ⟨after, hTrailing, -, -⟩ := exec_controls hMiddle trailing
  obtain ⟨events, hRead, hEvents⟩ := WSHyBiParser.exec_read .ietf chunks
  rw [hChunks, encodeMessages, ClientFrame.decodeFrames_flatMap_encode] at hRead hEvents
  have hCalls : System.exec onParserEvent conn events =
      some (after, deliveries messages trailing) := by
    rw [← exec_coalesce, hEvents, exec_coalesce, List.flatMap_append, System.exec_append,
      hMessages, Option.bind_some, hTrailing]
    rfl
  exact exec_read_of_events hParser hRead hCalls

end

/-- A text message in two fragments with a Ping in between, and a read that
ends inside the Ping. -/
theorem read_messages_two_fragments : ∃ after,
    System.exec (@read littleEndianHost)
      ((constructed WSHixie76Parser.textInfo WSHixie76Parser.textInfo).withParser (.hyBi .fresh))
      [[0x01, 0x01, 0x68, 0x89], [0x00, 0x80, 0x81, 0x05, 0x00, 0x00, 0x00, 0x6C]] =
    some (after, [.sendWSFrame .pong [0x8A, 0x00] [] [], .onWSMessage false [0x68, 0x69]]) :=
  @read_messages littleEndianHost _ rfl rfl rfl rfl
    [{ binary := false
       first := { controls := []
                  body := ⟨[0x68], none, .short, by decide⟩ }
       others := [{ controls := [{ isPing := true, body := ⟨[], none, .short, by decide⟩ }]
                    body := ⟨[0x69], some ⟨[0x05, 0, 0, 0], rfl⟩, .short, by decide⟩ }] }]
    [] [[0x01, 0x01, 0x68, 0x89], [0x00, 0x80, 0x81, 0x05, 0x00, 0x00, 0x00, 0x6C]] (by decide)

end Httpuv.WebSocketConnection
