import Httpuv.WebSockets.Connection

/-! The closing discipline of a WebSocket connection between the R object, the
background queue, the ping timer and the peer. -/
namespace Httpuv

open Semantics

/-- A call that R has pushed on the background queue. -/
inductive WSTask where
  | sendWSMessage (binary : Bool) (message : Bytes)
  | closeWS (code : UInt16) (reason : Bytes)
  deriving DecidableEq, Repr

/-- An accepted connection together with the handle of its R object and its
tasks on the background queue. -/
structure WSEndpoint where
  handle : Bool
  backgroundQueue : List WSTask
  conn : WebSocketConnection
  deriving DecidableEq, Repr

/-- One step on either thread. The first three run in R. -/
inductive WSAction where
  | send (binary : Bool) (message : Bytes)
  | close (code : Int) (reason : Bytes)
  | onWSClose
  | runTask
  | pingTimer
  | read (data : Bytes)
  | markClosed
  deriving DecidableEq, Repr

namespace WSEndpoint

/-- `ws$send` -/
def send (endpoint : WSEndpoint) (binary : Bool) (message : Bytes) : WSEndpoint :=
  if endpoint.handle then
    { endpoint with
      backgroundQueue := endpoint.backgroundQueue ++ [.sendWSMessage binary message] }
  else endpoint

/-- A code that does not fit two bytes is replaced by "Going Away". -/
def closeCode (code : Int) : UInt16 :=
  (if code < 0 ∨ code > 2 ^ 16 - 1 then 1001 else code).toNat.toUInt16

/-- `ws$close`: the handle is gone afterwards. -/
def close (endpoint : WSEndpoint) (code : Int) (reason : Bytes) : WSEndpoint :=
  if endpoint.handle then
    { endpoint with
      backgroundQueue := endpoint.backgroundQueue ++ [.closeWS (closeCode code) reason]
      handle := false }
  else endpoint

variable [Host]

def runTask (endpoint : WSEndpoint) : Option (WSEndpoint × List WSCallback) :=
  match endpoint.backgroundQueue with
  | [] => none
  | .sendWSMessage binary message :: rest => do
      let sent ← endpoint.conn.sendWSMessage (if binary then .binary else .text) message
      return ({ endpoint with backgroundQueue := rest }, sent)
  | .closeWS code reason :: rest => do
      let (conn, sent) ← endpoint.conn.closeWS code reason
      return ({ endpoint with backgroundQueue := rest, conn }, sent)

def step (endpoint : WSEndpoint) : WSAction → Option (WSEndpoint × List WSCallback)
  | .send binary message => some (endpoint.send binary message, [])
  | .close code reason => some (endpoint.close code reason, [])
  | .onWSClose => some ({ endpoint with handle := false }, [])
  | .runTask => endpoint.runTask
  | .pingTimer => do
      let sent ← endpoint.conn.sendPing
      return (endpoint, sent)
  | .read data => do
      let (conn, callbacks) ← endpoint.conn.read data
      return ({ endpoint with conn }, callbacks)
  | .markClosed => some ({ endpoint with conn := endpoint.conn.markClosed }, [])

/-- Just accepted, with a fresh parser of either framing. -/
def Initial (endpoint : WSEndpoint) : Prop :=
  endpoint.handle = true ∧ endpoint.backgroundQueue = [] ∧
    ∃ incompleteContentHeader header parser, (parser = .hyBi .fresh ∨ parser = .hixie76 .fresh) ∧
      endpoint.conn =
        (WebSocketConnection.constructed incompleteContentHeader header).withParser parser

def system : System WSEndpoint WSAction WSCallback := System.ofStep Initial step

end WSEndpoint

namespace WSCallback

def isCloseFrame : WSCallback → Bool
  | .sendWSFrame opcode _ _ _ => opcode == .close
  | _ => false

def isMessageFrame : WSCallback → Bool
  | .sendWSFrame opcode _ _ _ => opcode == .text || opcode == .binary
  | _ => false

def IsFrame : WSCallback → Prop
  | .sendWSFrame _ _ _ _ => True
  | _ => False

end WSCallback

open WSCallback

/-- Only `onWSClose` comes after the socket has been closed. -/
def ClosesLast (callbacks : List WSCallback) : Prop :=
  callbacks.Pairwise (fun earlier later => earlier = .closeWSSocket → ∃ code, later = .onWSClose code)

/-- What the calls made so far have in common with the closing state. -/
structure Disciplined (state : WSConnState) (log : List WSCallback) : Prop where
  notReceived : state ≠ .wsCloseReceived
  closeFrames : (log.filter isCloseFrame).length ≤ if state = .wsOpen then 0 else 1
  closeSockets : log.count .closeWSSocket ≤ if state = .wsClosed then 1 else 0
  ordered : log.Pairwise (fun earlier later => isCloseFrame earlier → ¬ isMessageFrame later)

namespace Disciplined

variable {state : WSConnState} {log : List WSCallback}

theorem noCloseFrame (h : Disciplined .wsOpen log) :
    ∀ callback ∈ log, ¬ isCloseFrame callback := by
  have hLength := h.closeFrames
  simp only [if_true, Nat.le_zero, List.length_eq_zero_iff, List.filter_eq_nil_iff] at hLength
  exact hLength

theorem append_ordered (hOrdered : log.Pairwise fun earlier later =>
      isCloseFrame earlier → ¬ isMessageFrame later) (calls : List WSCallback)
    (hCalls : ∀ call ∈ calls, ¬ isCloseFrame call)
    (hCross : ∀ earlier ∈ log, ∀ call ∈ calls, isCloseFrame earlier → ¬ isMessageFrame call) :
    (log ++ calls).Pairwise fun earlier later => isCloseFrame earlier → ¬ isMessageFrame later := by
  rw [List.pairwise_append]
  refine ⟨hOrdered, ?_, hCross⟩
  exact List.pairwise_of_forall_mem_list fun call hCall _ _ hClose =>
    absurd hClose (hCalls call hCall)

theorem filter_append_calls (calls : List WSCallback)
    (hCalls : ∀ call ∈ calls, ¬ isCloseFrame call) :
    (log ++ calls).filter isCloseFrame = log.filter isCloseFrame := by
  rw [List.filter_append, List.filter_eq_nil_iff.2 hCalls, List.append_nil]

/-- Calls that are neither Close frames nor messages nor a closed socket may be
made in any state. -/
theorem append_neutral (h : Disciplined state log) (calls : List WSCallback)
    (hCalls : ∀ call ∈ calls, ¬ isCloseFrame call ∧ ¬ isMessageFrame call ∧
      call ≠ .closeWSSocket) :
    Disciplined state (log ++ calls) where
  notReceived := h.notReceived
  closeFrames := by
    rw [filter_append_calls calls fun call hCall => (hCalls call hCall).1]
    exact h.closeFrames
  closeSockets := by
    have hNone : calls.count .closeWSSocket = 0 :=
      List.count_eq_zero.2 fun hMem => (hCalls _ hMem).2.2 rfl
    rw [List.count_append, hNone]
    exact h.closeSockets
  ordered := append_ordered h.ordered calls (fun call hCall => (hCalls call hCall).1)
    fun _ _ call hCall _ => (hCalls call hCall).2.1

/-- A message may be sent while the connection is open. -/
theorem append_open (h : Disciplined .wsOpen log) (calls : List WSCallback)
    (hCalls : ∀ call ∈ calls, ¬ isCloseFrame call ∧ call ≠ .closeWSSocket) :
    Disciplined .wsOpen (log ++ calls) where
  notReceived := h.notReceived
  closeFrames := by
    rw [filter_append_calls calls fun call hCall => (hCalls call hCall).1]
    exact h.closeFrames
  closeSockets := by
    have hNone : calls.count .closeWSSocket = 0 :=
      List.count_eq_zero.2 fun hMem => (hCalls _ hMem).2 rfl
    rw [List.count_append, hNone]
    exact h.closeSockets
  ordered := append_ordered h.ordered calls (fun call hCall => (hCalls call hCall).1)
    fun earlier hEarlier _ _ hClose => absurd hClose (h.noCloseFrame earlier hEarlier)

/-- The one Close frame. -/
theorem append_closeFrame (h : Disciplined .wsOpen log) (header data footer : Bytes) :
    Disciplined .wsCloseSent (log ++ [.sendWSFrame .close header data footer]) where
  notReceived := by simp
  closeFrames := by
    rw [List.filter_append, List.filter_eq_nil_iff.2 h.noCloseFrame]
    simp [isCloseFrame]
  closeSockets := by
    rw [List.count_append]
    simpa using h.closeSockets
  ordered := by
    rw [List.pairwise_append]
    exact ⟨h.ordered, List.pairwise_singleton _ _, fun earlier hEarlier _ _ hClose =>
      absurd hClose (h.noCloseFrame earlier hEarlier)⟩

theorem closed (h : Disciplined state log) : Disciplined .wsClosed log where
  notReceived := by simp
  closeFrames := by
    have hFrames := h.closeFrames
    split_ifs at hFrames <;> simp only [reduceCtorEq, if_false] <;> omega
  closeSockets := by
    have hSockets := h.closeSockets
    split_ifs at hSockets <;> simp only [if_true] <;> omega
  ordered := h.ordered

/-- The transition that closes the socket. -/
theorem append_closeSocket (h : Disciplined state log) (hState : state ≠ .wsClosed) :
    Disciplined .wsClosed (log ++ [.closeWSSocket, .onWSClose 0]) where
  notReceived := by simp
  closeFrames := by
    rw [filter_append_calls _ (by simp [isCloseFrame])]
    exact h.closed.closeFrames
  closeSockets := by
    have hSockets := h.closeSockets
    rw [if_neg hState] at hSockets
    rw [List.count_append]
    simp only [if_true]
    simp only [List.count_cons, List.count_nil]
    simp
    omega
  ordered := append_ordered h.ordered _ (by simp [isCloseFrame]) (by simp [isMessageFrame])

end Disciplined

namespace WebSocketConnection

variable [Host] {conn after : WebSocketConnection} {log callbacks : List WSCallback}

/-- A parser event either makes calls that the discipline does not restrict, or
closes the connection. -/
theorem onParserEvent_cases {event : WSParserEvent}
    (h : conn.onParserEvent event = some (after, callbacks)) :
    (after.connState = conn.connState ∧ ∀ call ∈ callbacks,
        ¬ isCloseFrame call ∧ ¬ isMessageFrame call ∧ call ≠ .closeWSSocket) ∨
    (conn.connState ≠ .wsClosed ∧ after.connState = .wsClosed ∧
      callbacks = [.closeWSSocket, .onWSClose 0]) := by
  cases event with
  | onHeaderComplete header =>
      simp only [onParserEvent, Option.some.injEq, Prod.mk.injEq] at h
      obtain ⟨rfl, rfl⟩ := h
      refine Or.inl ⟨?_, by simp⟩
      unfold onHeaderComplete
      split_ifs <;> rfl
  | onPayload data =>
      simp only [onParserEvent, Option.some.injEq, Prod.mk.injEq] at h
      obtain ⟨rfl, rfl⟩ := h
      refine Or.inl ⟨?_, by simp⟩
      unfold onPayload
      split_ifs <;> rfl
  | onFrameComplete =>
      rcases onFrameComplete_cases h with ⟨-, rfl, rfl⟩ | ⟨hState, -, rfl, rfl⟩ |
        ⟨-, -, hState, -, hCalls⟩
      · exact Or.inl ⟨rfl, by simp⟩
      · exact Or.inr ⟨hState, rfl, rfl⟩
      · refine Or.inl ⟨hState, ?_⟩
        intro call hCall
        have hData := hCalls call hCall
        cases call with
        | onWSMessage binary data => simp [isCloseFrame, isMessageFrame]
        | sendWSFrame opcode header data footer =>
            have hPong : opcode = .pong := hData
            simp [isCloseFrame, isMessageFrame, hPong]
        | onWSClose code => exact False.elim hData
        | closeWSSocket => exact False.elim hData

/-- One parser event keeps the discipline. -/
theorem disciplined_onParserEvent {event : WSParserEvent} (h : Disciplined conn.connState log)
    (hEvent : conn.onParserEvent event = some (after, callbacks)) :
    Disciplined after.connState (log ++ callbacks) := by
  rcases onParserEvent_cases hEvent with ⟨hState, hCalls⟩ | ⟨hNotClosed, hState, rfl⟩
  · rw [hState]
    exact h.append_neutral callbacks hCalls
  · rw [hState]
    exact h.append_closeSocket hNotClosed

/-- So do the events of a whole read, wherever in it the connection closes. -/
theorem disciplined_exec {events : List WSParserEvent} (h : Disciplined conn.connState log)
    (hEvents : System.exec onParserEvent conn events = some (after, callbacks)) :
    Disciplined after.connState (log ++ callbacks) ∧
      (after.connState = conn.connState ∨ after.connState = .wsClosed) := by
  have hRun : (System.ofStep (fun _ => True) onParserEvent).Run conn events after callbacks :=
    System.run_of_exec hEvents
  refine System.Run.invariant hRun
    (I := fun s os => Disciplined s.connState (log ++ os) ∧
      (s.connState = conn.connState ∨ s.connState = .wsClosed)) ⟨by simpa using h, Or.inl rfl⟩ ?_
  intro s os event t es ⟨hLog, hState⟩ hStep
  refine ⟨?_, ?_⟩
  · rw [← List.append_assoc]
    exact disciplined_onParserEvent hLog hStep
  · rcases onParserEvent_cases hStep with ⟨hSame, -⟩ | ⟨-, hClosed, -⟩
    · rw [hSame]; exact hState
    · exact Or.inr hClosed

theorem disciplined_read {data : Bytes} (h : Disciplined conn.connState log)
    (hRead : conn.read data = some (after, callbacks)) :
    Disciplined after.connState (log ++ callbacks) ∧
      (after.connState = conn.connState ∨ after.connState = .wsClosed) := by
  by_cases hClosed : conn.connState = .wsClosed
  · rw [read_closed hClosed] at hRead
    cases hRead
    exact ⟨by simpa using h, Or.inl rfl⟩
  · rw [read, if_neg hClosed] at hRead
    simp only [Option.bind_eq_bind, Option.bind_eq_some_iff, Option.pure_def, Option.some.injEq,
      Prod.mk.injEq, Prod.exists] at hRead
    obtain ⟨parser, -, next, events, -, middle, calls, hEvents, rfl, rfl⟩ := hRead
    have hMiddle := disciplined_exec h hEvents
    exact hMiddle

/-- A frame is sent with the opcode that was asked for. -/
theorem sendWSMessage_cases {opcode : Opcode} {data : Bytes}
    (h : conn.sendWSMessage opcode data = some callbacks) :
    (conn.connState = .wsClosed ∧ callbacks = []) ∨
    (conn.connState ≠ .wsClosed ∧
      ∃ header footer, callbacks = [.sendWSFrame opcode header data footer]) := by
  by_cases hClosed : conn.connState = .wsClosed
  · rw [sendWSMessage, if_pos hClosed] at h
    cases h
    exact Or.inl ⟨hClosed, rfl⟩
  · rw [sendWSMessage, if_neg hClosed] at h
    simp only [Option.bind_eq_bind, Option.bind_eq_some_iff, Option.pure_def,
      Option.some.injEq] at h
    obtain ⟨parser, -, rfl⟩ := h
    exact Or.inr ⟨hClosed, _, _, rfl⟩

theorem disciplined_sendPing (h : Disciplined conn.connState log)
    (hPing : conn.sendPing = some callbacks) : Disciplined conn.connState (log ++ callbacks) := by
  unfold sendPing at hPing
  split_ifs at hPing
  rcases sendWSMessage_cases hPing with ⟨-, rfl⟩ | ⟨-, header, footer, rfl⟩
  · simpa using h
  · exact h.append_neutral _ (by simp [isCloseFrame, isMessageFrame])

/-- Messages may be sent unless the Close frame has been sent. -/
theorem disciplined_sendWSMessage {opcode : Opcode} {data : Bytes}
    (h : Disciplined conn.connState log) (hNotSent : conn.connState ≠ .wsCloseSent)
    (hOpcode : opcode ≠ .close) (hSend : conn.sendWSMessage opcode data = some callbacks) :
    Disciplined conn.connState (log ++ callbacks) := by
  rcases sendWSMessage_cases hSend with ⟨-, rfl⟩ | ⟨hNotClosed, header, footer, rfl⟩
  · simpa using h
  · have hOpen : conn.connState = .wsOpen := by
      have hNotReceived := h.notReceived
      cases hState : conn.connState <;> simp_all
    rw [hOpen] at h ⊢
    exact h.append_open _ (by simp [isCloseFrame, hOpcode])

/-- Closing sends a Close frame, answers one, or does nothing. -/
theorem closeWS_cases {code : UInt16} {reason : Bytes}
    (h : conn.closeWS code reason = some (after, callbacks)) :
    (conn.connState = .wsCloseSent ∨ conn.connState = .wsClosed) ∧ after = conn ∧
        callbacks = [] ∨
      conn.connState = .wsOpen ∧ after = { conn with connState := .wsCloseSent } ∧
        { conn with connState := .wsCloseSent }.sendWSMessage .close (closeMessage code reason) =
          some callbacks ∨
      conn.connState = .wsCloseReceived ∧ after = { conn with connState := .wsClosed } ∧
        callbacks = [.closeWSSocket] := by
  unfold closeWS at h
  cases hState : conn.connState with
  | wsCloseSent =>
      rw [hState] at h
      cases h
      exact Or.inl ⟨Or.inl rfl, rfl, rfl⟩
  | wsClosed =>
      rw [hState] at h
      cases h
      exact Or.inl ⟨Or.inr rfl, rfl, rfl⟩
  | wsOpen =>
      simp only [hState, Option.bind_eq_bind, Option.bind_eq_some_iff, Option.pure_def,
        Option.some.injEq, Prod.mk.injEq] at h
      obtain ⟨sent, hSend, rfl, rfl⟩ := h
      exact Or.inr (Or.inl ⟨rfl, rfl, hSend⟩)
  | wsCloseReceived =>
      simp only [hState, sendWSMessage, if_true, Option.bind_eq_bind, Option.bind_some,
        Option.pure_def, Option.some.injEq, Prod.mk.injEq] at h
      obtain ⟨rfl, rfl⟩ := h
      exact Or.inr (Or.inr ⟨rfl, rfl, rfl⟩)

theorem disciplined_closeWS {code : UInt16} {reason : Bytes} (h : Disciplined conn.connState log)
    (hClose : conn.closeWS code reason = some (after, callbacks)) :
    Disciplined after.connState (log ++ callbacks) := by
  rcases closeWS_cases hClose with ⟨-, rfl, rfl⟩ | ⟨hOpen, rfl, hSend⟩ | ⟨hReceived, -⟩
  · simpa using h
  · rw [hOpen] at h
    rcases sendWSMessage_cases hSend with ⟨hClosed, -⟩ | ⟨-, header, footer, rfl⟩
    · cases hClosed
    · exact h.append_closeFrame header _ footer
  · exact absurd hReceived h.notReceived

omit [Host] in
theorem closesLast_of_open (hOpen : .closeWSSocket ∉ callbacks) : ClosesLast callbacks := by
  apply List.pairwise_of_forall_mem_list
  rintro earlier hMem later - rfl
  exact absurd hMem hOpen

theorem closesLast_exec {events : List WSParserEvent}
    (h : System.exec onParserEvent conn events = some (after, callbacks)) :
    ClosesLast callbacks := by
  induction events generalizing conn after callbacks with
  | nil =>
      cases h
      exact .nil
  | cons event events ih =>
      obtain ⟨middle, calls, rest, hEvent, hRest, rfl⟩ := System.exec_cons_eq_some.1 h
      rcases onParserEvent_cases hEvent with ⟨-, hCalls⟩ | ⟨-, hClosed, rfl⟩
      · have hNone : .closeWSSocket ∉ calls := fun hMem => (hCalls _ hMem).2.2 rfl
        refine List.pairwise_append.2 ⟨closesLast_of_open hNone, ih hRest, ?_⟩
        rintro earlier hMem later - rfl
        exact absurd hMem hNone
      · rw [exec_onParserEvent_closed hClosed] at hRest
        cases hRest
        simp [ClosesLast]

/-- Once the socket is closed, a read makes no more calls but the last one. -/
theorem closesLast_read {data : Bytes} (h : conn.read data = some (after, callbacks)) :
    ClosesLast callbacks := by
  by_cases hClosed : conn.connState = .wsClosed
  · rw [read_closed hClosed] at h
    cases h
    exact .nil
  · rw [read, if_neg hClosed] at h
    simp only [Option.bind_eq_bind, Option.bind_eq_some_iff, Option.pure_def, Option.some.injEq,
      Prod.mk.injEq, Prod.exists] at h
    obtain ⟨parser, -, parsed, events, -, last, calls, hEvents, -, rfl⟩ := h
    exact closesLast_exec hEvents

/-- A message is sent unless the connection is closed. -/
theorem sendWSMessage_calls {opcode : Opcode} {data : Bytes}
    (h : conn.sendWSMessage opcode data = some callbacks) :
    ClosesLast callbacks ∧ (∀ binary data, .onWSMessage binary data ∉ callbacks) ∧
      ((∃ callback ∈ callbacks, callback.IsFrame) ↔ conn.connState ≠ .wsClosed) := by
  rcases sendWSMessage_cases h with ⟨hClosed, rfl⟩ | ⟨hOpen, header, footer, rfl⟩
  · exact ⟨.nil, by simp, by simp [hClosed]⟩
  · exact ⟨closesLast_of_open (by simp), by simp, by simp [hOpen, WSCallback.IsFrame]⟩

theorem closeWS_calls {code : UInt16} {reason : Bytes}
    (h : conn.closeWS code reason = some (after, callbacks)) :
    ClosesLast callbacks ∧ (∀ binary data, .onWSMessage binary data ∉ callbacks) ∧
      ((∃ callback ∈ callbacks, callback.IsFrame) ↔ conn.connState = .wsOpen) := by
  rcases closeWS_cases h with ⟨hState, -, rfl⟩ | ⟨hOpen, -, hSend⟩ | ⟨hReceived, -, rfl⟩
  · refine ⟨.nil, by simp, ?_⟩
    rcases hState with hState | hState <;> simp [hState]
  · obtain ⟨hLast, hNone, hFrame⟩ := sendWSMessage_calls hSend
    exact ⟨hLast, hNone, hFrame.trans (by simp [hOpen])⟩
  · exact ⟨by simp [ClosesLast], by simp, by simp [hReceived, WSCallback.IsFrame]⟩

end WebSocketConnection

namespace WSEndpoint

open WebSocketConnection

/-- What R has queued. A `closeWS` task is the last one, and is there only when
the handle is gone. After it has run the queue stays empty. -/
structure Coherent (endpoint : WSEndpoint) : Prop where
  queue : ∃ sends : List (Bool × Bytes),
    endpoint.backgroundQueue = sends.map (fun send => .sendWSMessage send.1 send.2) ∨
    endpoint.handle = false ∧ ∃ code reason, endpoint.backgroundQueue =
      sends.map (fun send => .sendWSMessage send.1 send.2) ++ [.closeWS code reason]
  closeSent : endpoint.conn.connState = .wsCloseSent →
    endpoint.handle = false ∧ endpoint.backgroundQueue = []

namespace Coherent

variable {endpoint : WSEndpoint}

theorem send (h : Coherent endpoint) (binary : Bool) (message : Bytes) :
    Coherent (endpoint.send binary message) := by
  unfold WSEndpoint.send
  split_ifs with hHandle
  · obtain ⟨sends, hQueue | ⟨hNone, -⟩⟩ := h.queue
    · refine ⟨⟨sends ++ [(binary, message)], Or.inl (by simp [hQueue])⟩, ?_⟩
      intro hSent
      exact absurd hHandle (by simp [(h.closeSent hSent).1])
    · rw [hNone] at hHandle
      cases hHandle
  · exact h

theorem close (h : Coherent endpoint) (code : Int) (reason : Bytes) :
    Coherent (endpoint.close code reason) := by
  unfold WSEndpoint.close
  split_ifs with hHandle
  · obtain ⟨sends, hQueue | ⟨hNone, -⟩⟩ := h.queue
    · refine ⟨⟨sends, Or.inr ⟨rfl, closeCode code, reason, by simp [hQueue]⟩⟩, ?_⟩
      intro hSent
      exact absurd hHandle (by simp [(h.closeSent hSent).1])
    · rw [hNone] at hHandle
      cases hHandle
  · exact h

/-- A connection that moves on without sending a Close frame. -/
theorem withConn (h : Coherent endpoint) {conn : WebSocketConnection}
    (hState : conn.connState = endpoint.conn.connState ∨ conn.connState = .wsClosed) :
    Coherent { endpoint with conn } := by
  refine ⟨h.queue, ?_⟩
  intro hSent
  rcases hState with hState | hState
  · exact h.closeSent (hState ▸ hSent)
  · rw [show conn.connState = .wsCloseSent from hSent] at hState
    cases hState

theorem handleGone (h : Coherent endpoint) : Coherent { endpoint with handle := false } := by
  obtain ⟨sends, hQueue | ⟨-, hClose⟩⟩ := h.queue
  · exact ⟨⟨sends, Or.inl hQueue⟩, fun hSent => ⟨rfl, (h.closeSent hSent).2⟩⟩
  · exact ⟨⟨sends, Or.inr ⟨rfl, hClose⟩⟩, fun hSent => ⟨rfl, (h.closeSent hSent).2⟩⟩

end Coherent

variable {endpoint after : WSEndpoint} {log emitted : List WSCallback}

/-- The state after any number of steps. -/
def Invariant (endpoint : WSEndpoint) (log : List WSCallback) : Prop :=
  Coherent endpoint ∧ Disciplined endpoint.conn.connState log

theorem invariant_initial (h : Initial endpoint) : Invariant endpoint [] := by
  obtain ⟨hHandle, hQueue, incompleteContentHeader, header, parser, -, hConn⟩ := h
  have hOpen : endpoint.conn.connState = .wsOpen := by rw [hConn]; rfl
  refine ⟨⟨⟨[], Or.inl (by simp [hQueue])⟩, by simp [hOpen]⟩, ?_⟩
  rw [hOpen]
  exact ⟨by simp, by simp, by simp, List.Pairwise.nil⟩

section

variable [Host]

/-- A task is a message that finds no Close frame sent, or the last task. -/
theorem invariant_runTask (h : Invariant endpoint log)
    (hRun : endpoint.runTask = some (after, emitted)) : Invariant after (log ++ emitted) := by
  obtain ⟨hCoherent, hLog⟩ := h
  obtain ⟨sends, hQueue⟩ := hCoherent.queue
  cases sends with
  | cons send sends =>
      obtain ⟨rest, hHead, hRest⟩ : ∃ rest,
          endpoint.backgroundQueue = .sendWSMessage send.1 send.2 :: rest ∧
          Coherent { endpoint with backgroundQueue := rest } := by
        rcases hQueue with hQueue | ⟨hHandle, code, reason, hQueue⟩
        · refine ⟨_, by rw [hQueue]; rfl, ⟨sends, Or.inl rfl⟩, ?_⟩
          intro hSent
          exact absurd (hCoherent.closeSent hSent).2 (by simp [hQueue])
        · rw [List.map_cons, List.cons_append] at hQueue
          refine ⟨_, hQueue, ⟨sends, Or.inr ⟨hHandle, code, reason, rfl⟩⟩, ?_⟩
          intro hSent
          exact absurd (hCoherent.closeSent hSent).2 (by simp [hQueue])
      rw [runTask, hHead] at hRun
      simp only [Option.bind_eq_bind, Option.bind_eq_some_iff, Option.pure_def,
        Option.some.injEq, Prod.mk.injEq] at hRun
      obtain ⟨sent, hSend, rfl, rfl⟩ := hRun
      have hNotSent : endpoint.conn.connState ≠ .wsCloseSent := by
        intro hSent
        rw [(hCoherent.closeSent hSent).2] at hHead
        cases hHead
      have hOpcode : (if send.1 then Opcode.binary else .text) ≠ .close := by
        split_ifs <;> simp
      exact ⟨hRest, disciplined_sendWSMessage hLog hNotSent hOpcode hSend⟩
  | nil =>
      rcases hQueue with hQueue | ⟨hHandle, code, reason, hQueue⟩
      · rw [runTask, hQueue] at hRun
        cases hRun
      · rw [runTask, hQueue] at hRun
        simp only [List.map_nil, List.nil_append, Option.bind_eq_bind, Option.bind_eq_some_iff,
          Option.pure_def, Option.some.injEq, Prod.mk.injEq, Prod.exists] at hRun
        obtain ⟨conn, sent, hClose, rfl, rfl⟩ := hRun
        exact ⟨⟨⟨[], Or.inl rfl⟩, fun _ => ⟨hHandle, rfl⟩⟩, disciplined_closeWS hLog hClose⟩

/-- Every step, on either thread, keeps the invariant. -/
theorem invariant_step {action : WSAction} (h : Invariant endpoint log)
    (hStep : endpoint.step action = some (after, emitted)) :
    Invariant after (log ++ emitted) := by
  obtain ⟨hCoherent, hLog⟩ := h
  cases action with
  | send binary message =>
      cases hStep
      rw [List.append_nil]
      refine ⟨hCoherent.send binary message, ?_⟩
      unfold WSEndpoint.send
      split_ifs <;> exact hLog
  | close code reason =>
      cases hStep
      rw [List.append_nil]
      refine ⟨hCoherent.close code reason, ?_⟩
      unfold WSEndpoint.close
      split_ifs <;> exact hLog
  | onWSClose =>
      cases hStep
      rw [List.append_nil]
      exact ⟨hCoherent.handleGone, hLog⟩
  | runTask => exact invariant_runTask ⟨hCoherent, hLog⟩ hStep
  | pingTimer =>
      simp only [step, Option.bind_eq_bind, Option.bind_eq_some_iff, Option.pure_def,
        Option.some.injEq, Prod.mk.injEq] at hStep
      obtain ⟨sent, hPing, rfl, rfl⟩ := hStep
      exact ⟨hCoherent, disciplined_sendPing hLog hPing⟩
  | read data =>
      simp only [step, Option.bind_eq_bind, Option.bind_eq_some_iff, Option.pure_def,
        Option.some.injEq, Prod.mk.injEq, Prod.exists] at hStep
      obtain ⟨conn, callbacks, hRead, rfl, rfl⟩ := hStep
      obtain ⟨hAfter, hState⟩ := disciplined_read hLog hRead
      exact ⟨hCoherent.withConn hState, hAfter⟩
  | markClosed =>
      cases hStep
      rw [List.append_nil]
      exact ⟨hCoherent.withConn (Or.inr rfl), hLog.closed⟩

theorem invariant_run {start finish : WSEndpoint} {actions : List WSAction}
    (hStart : Initial start) (run : system.Run start actions finish log) :
    Invariant finish log := by
  apply System.Run.invariant run (invariant_initial hStart)
  intro s os action t es h hStep
  exact invariant_step h hStep

/-- Once closed, a step makes no call. -/
theorem step_closed {action : WSAction} (hClosed : endpoint.conn.connState = .wsClosed)
    (hStep : endpoint.step action = some (after, emitted)) :
    after.conn.connState = .wsClosed ∧ emitted = [] := by
  cases action with
  | send binary message =>
      cases hStep
      refine ⟨?_, rfl⟩
      unfold WSEndpoint.send
      split_ifs <;> exact hClosed
  | close code reason =>
      cases hStep
      refine ⟨?_, rfl⟩
      unfold WSEndpoint.close
      split_ifs <;> exact hClosed
  | onWSClose => cases hStep; exact ⟨hClosed, rfl⟩
  | markClosed => cases hStep; exact ⟨rfl, rfl⟩
  | read data =>
      rw [step, read_closed hClosed] at hStep
      cases hStep
      exact ⟨hClosed, rfl⟩
  | pingTimer =>
      simp only [step, sendPing, sendWSMessage, if_pos hClosed] at hStep
      split_ifs at hStep
      · cases hStep
        exact ⟨hClosed, rfl⟩
      · cases hStep
  | runTask =>
      simp only [step, runTask, sendWSMessage, closeWS, hClosed, if_true] at hStep
      split at hStep
      · cases hStep
      · cases hStep; exact ⟨hClosed, rfl⟩
      · cases hStep; exact ⟨hClosed, rfl⟩

/-- So does a whole run. -/
theorem run_closed {finish : WSEndpoint} {actions : List WSAction}
    (hClosed : endpoint.conn.connState = .wsClosed)
    (run : system.Run endpoint actions finish emitted) :
    finish.conn.connState = .wsClosed ∧ emitted = [] := by
  refine System.Run.invariant run
    (I := fun s os => s.conn.connState = .wsClosed ∧ os = []) ⟨hClosed, rfl⟩ ?_
  rintro s os action t es ⟨hState, rfl⟩ hStep
  exact step_closed hState hStep

/-- A read closes the connection at one parser event, whose two calls are the
last ones although the buffer may go on. -/
def ClosesInRead (conn : WebSocketConnection) (data : Bytes) (emitted : List WSCallback) : Prop :=
  ∃ parser next before closing rest middle closed callbacks,
    conn.pParser = some parser ∧
    parser.read data = some (next, before ++ closing :: rest) ∧
    System.exec onParserEvent conn before = some (middle, callbacks) ∧
    middle.connState ≠ .wsClosed ∧
    middle.onParserEvent closing = some (closed, [.closeWSSocket, .onWSClose 0]) ∧
    emitted = callbacks ++ [.closeWSSocket, .onWSClose 0]

/-- Among the events of a read there is a first one that closes. -/
theorem exec_closes {conn last : WebSocketConnection} {events : List WSParserEvent}
    (hNotClosed : conn.connState ≠ .wsClosed)
    (hEvents : System.exec onParserEvent conn events = some (last, emitted))
    (hClosed : last.connState = .wsClosed) :
    ∃ before closing rest middle closed callbacks, events = before ++ closing :: rest ∧
      System.exec onParserEvent conn before = some (middle, callbacks) ∧
      middle.connState ≠ .wsClosed ∧
      middle.onParserEvent closing = some (closed, [.closeWSSocket, .onWSClose 0]) ∧
      emitted = callbacks ++ [.closeWSSocket, .onWSClose 0] := by
  induction events generalizing conn emitted with
  | nil => cases hEvents; exact absurd hClosed hNotClosed
  | cons event events ih =>
      obtain ⟨next, first, later, hFirst, hRest, rfl⟩ := System.exec_cons_eq_some.1 hEvents
      rcases onParserEvent_cases hFirst with ⟨hState, -⟩ | ⟨-, hNext, rfl⟩
      · obtain ⟨before, closing, rest, middle, closed, callbacks, rfl, hBefore, hMiddle, hClosing,
          rfl⟩ := ih (hState ▸ hNotClosed) hRest
        exact ⟨event :: before, closing, rest, middle, closed, first ++ callbacks, rfl,
          by simp [System.exec, hFirst, hBefore], hMiddle, hClosing, by simp⟩
      · rw [exec_onParserEvent_closed hNext] at hRest
        cases hRest
        exact ⟨[], event, events, conn, last, [], rfl, rfl, hNotClosed, hFirst, by simp⟩

/-- Only a read and `markClosed` close a connection. -/
theorem step_closes {action : WSAction} (h : Invariant endpoint log)
    (hNotClosed : endpoint.conn.connState ≠ .wsClosed)
    (hStep : endpoint.step action = some (after, emitted))
    (hClosed : after.conn.connState = .wsClosed) :
    action = .markClosed ∧ emitted = [] ∨
      ∃ data, action = .read data ∧ ClosesInRead endpoint.conn data emitted := by
  cases action with
  | send binary message =>
      cases hStep
      unfold WSEndpoint.send at hClosed
      split_ifs at hClosed <;> exact absurd hClosed hNotClosed
  | close code reason =>
      cases hStep
      unfold WSEndpoint.close at hClosed
      split_ifs at hClosed <;> exact absurd hClosed hNotClosed
  | onWSClose => cases hStep; exact absurd hClosed hNotClosed
  | markClosed => cases hStep; exact Or.inl ⟨rfl, rfl⟩
  | pingTimer =>
      simp only [step, Option.bind_eq_bind, Option.bind_eq_some_iff, Option.pure_def,
        Option.some.injEq, Prod.mk.injEq] at hStep
      obtain ⟨sent, -, rfl, -⟩ := hStep
      exact absurd hClosed hNotClosed
  | runTask =>
      simp only [step, runTask] at hStep
      split at hStep
      · cases hStep
      · simp only [Option.bind_eq_bind, Option.bind_eq_some_iff, Option.pure_def,
          Option.some.injEq, Prod.mk.injEq] at hStep
        obtain ⟨sent, -, rfl, -⟩ := hStep
        exact absurd hClosed hNotClosed
      · simp only [Option.bind_eq_bind, Option.bind_eq_some_iff, Option.pure_def,
          Option.some.injEq, Prod.mk.injEq, Prod.exists] at hStep
        obtain ⟨conn, sent, hClose, rfl, -⟩ := hStep
        rcases closeWS_cases hClose with ⟨-, rfl, -⟩ | ⟨-, rfl, -⟩ | ⟨hReceived, -⟩
        · exact absurd hClosed hNotClosed
        · cases hClosed
        · exact absurd hReceived h.2.notReceived
  | read data =>
      simp only [step, WebSocketConnection.read, if_neg hNotClosed, Option.bind_eq_bind, Option.bind_eq_some_iff,
        Option.pure_def, Option.some.injEq, Prod.mk.injEq, Prod.exists] at hStep
      obtain ⟨_, _, ⟨parser, hParser, next, events, hRead, last, calls, hEvents, rfl, rfl⟩, rfl,
        rfl⟩ := hStep
      obtain ⟨before, closing, rest, middle, closed, callbacks, rfl, hBefore, hMiddle, hClosing,
        hCalls⟩ := exec_closes hNotClosed hEvents hClosed
      exact Or.inr ⟨data, rfl, parser, next, before, closing, rest, middle, closed, callbacks,
        hParser, hRead, hBefore, hMiddle, hClosing, hCalls⟩

/-- The closing discipline over every interleaving of R, the background queue,
the ping timer, the peer's bytes and the notification of a closed socket. -/
theorem closing_discipline {start finish : WSEndpoint} {actions : List WSAction}
    (hStart : Initial start) (run : system.Run start actions finish log) :
    (log.filter isCloseFrame).length ≤ 1 ∧
    log.Pairwise (fun earlier later => isCloseFrame earlier → ¬ isMessageFrame later) ∧
    log.count .closeWSSocket ≤ 1 ∧
    finish.conn.connState ≠ .wsCloseReceived ∧
    (finish.conn.connState = .wsClosed → ∀ later next emitted,
      system.Run finish later next emitted → next.conn.connState = .wsClosed ∧ emitted = []) ∧
    (finish.conn.connState ≠ .wsClosed → ∀ action next emitted,
      system.step finish action next emitted → next.conn.connState = .wsClosed →
        action = .markClosed ∧ emitted = [] ∨
          ∃ data, action = .read data ∧ ClosesInRead finish.conn data emitted) := by
  have hInvariant := invariant_run hStart run
  obtain ⟨hReceived, hFrames, hSockets, hOrdered⟩ := hInvariant.2
  refine ⟨?_, hOrdered, ?_, hReceived, ?_, ?_⟩
  · split_ifs at hFrames <;> omega
  · split_ifs at hSockets <;> omega
  · intro hClosed later next emitted hRun
    exact run_closed hClosed hRun
  · intro hNotClosed action next emitted hStep hClosed
    exact step_closes hInvariant hNotClosed hStep hClosed

end

/-- R closes, the peer answers and goes on with a text frame in the same buffer. -/
theorem closing_discipline_close_answered :
    let conn := (constructed WSHixie76Parser.textInfo WSHixie76Parser.textInfo).withParser
      (.hyBi .fresh)
    let start : WSEndpoint := { handle := true, backgroundQueue := [], conn }
    ∃ finish log, (@system littleEndianHost).Run start
        [.send false [0x68], .close 70000 [], .send true [], .runTask, .runTask,
          .read [0x88, 0x00, 0x81, 0x00], .pingTimer] finish log ∧
      log = [.sendWSFrame .text [0x81, 0x01] [0x68] [],
        .sendWSFrame .close [0x88, 0x02] [0x03, 0xE9] [], .closeWSSocket, .onWSClose 0] ∧
      (log.filter isCloseFrame).length ≤ 1 := by
  intro conn start
  let _ : Host := littleEndianHost
  have hStart : Initial start := ⟨rfl, rfl, _, _, _, Or.inl rfl, rfl⟩
  have hRun := @System.run_of_exec _ _ _ Initial (@step littleEndianHost) start _
    [.send false [0x68], .close 70000 [], .send true [], .runTask, .runTask,
      .read [0x88, 0x00, 0x81, 0x00], .pingTimer] _ rfl
  exact ⟨_, _, hRun, rfl, (closing_discipline hStart hRun).1⟩

end WSEndpoint

end Httpuv
