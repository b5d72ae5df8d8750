import Httpuv.WebSockets.Closing

/-! Whether a Close frame of the peer is answered with one of the server. -/
namespace Httpuv

open Semantics WSCallback

/-- One step of a connection. What the peer sends arrives as parser events. -/
inductive WSConnectionAction where
  | parserEvent (event : WSParserEvent)
  | sendWSMessage (binary : Bool) (data : Bytes)
  | closeWS (code : UInt16) (reason : Bytes)
  | sendPing
  deriving DecidableEq, Repr

namespace WebSocketConnection

/-- The closing state tells whether a Close frame has been sent. -/
def RecordsClose (conn : WebSocketConnection) (log : List WSCallback) : Prop :=
  conn.connState ≠ .wsCloseReceived ∧
    (conn.connState = .wsOpen → ∀ call ∈ log, ¬ isCloseFrame call) ∧
    (conn.connState = .wsCloseSent → ∃ call ∈ log, isCloseFrame call)

theorem RecordsClose.append {conn after : WebSocketConnection} {log calls : List WSCallback}
    (h : RecordsClose conn log)
    (hState : after.connState = conn.connState ∨ after.connState = .wsClosed)
    (hCalls : ∀ call ∈ calls, ¬ isCloseFrame call) : RecordsClose after (log ++ calls) := by
  obtain ⟨hReceived, hOpen, hSent⟩ := h
  rcases hState with hState | hState
  · refine ⟨hState ▸ hReceived, ?_, ?_⟩
    · intro hAfter call hCall
      rcases List.mem_append.1 hCall with hPast | hNew
      · exact hOpen (hState ▸ hAfter) call hPast
      · exact hCalls call hNew
    · intro hAfter
      obtain ⟨call, hCall, hClose⟩ := hSent (hState ▸ hAfter)
      exact ⟨call, List.mem_append_left _ hCall, hClose⟩
  · exact ⟨by simp [hState], by simp [hState], by simp [hState]⟩

section

variable [Host]

def step (conn : WebSocketConnection) :
    WSConnectionAction → Option (WebSocketConnection × List WSCallback)
  | .parserEvent event => conn.onParserEvent event
  | .sendWSMessage binary data => do
      let sent ← conn.sendWSMessage (if binary then .binary else .text) data
      return (conn, sent)
  | .closeWS code reason => conn.closeWS code reason
  | .sendPing => do
      let sent ← conn.sendPing
      return (conn, sent)

/-- Just accepted on the IETF protocol. -/
def Initial (conn : WebSocketConnection) : Prop :=
  ∃ incompleteContentHeader header,
    conn = (constructed incompleteContentHeader header).withParser (.hyBi .fresh)

def system : System WebSocketConnection WSConnectionAction WSCallback :=
  System.ofStep Initial step

/-- A read is a run over the events of the parser. -/
theorem run_of_read {conn after : WebSocketConnection} {parser : WSParser} {data : Bytes}
    {callbacks : List WSCallback} (hNotClosed : conn.connState ≠ .wsClosed)
    (hParser : conn.pParser = some parser) (hRead : conn.read data = some (after, callbacks)) :
    ∃ next events middle, parser.read data = some (next, events) ∧
      system.Run conn (events.map .parserEvent) middle callbacks ∧
      after = middle.withParser next := by
  simp only [read, if_neg hNotClosed, hParser, Option.bind_eq_bind, Option.bind_eq_some_iff,
    Option.pure_def, Option.some.injEq, Prod.mk.injEq, Prod.exists] at hRead
  obtain ⟨_, rfl, next, events, hEvents, middle, calls, hExec, rfl, rfl⟩ := hRead
  refine ⟨next, events, middle, hEvents, ?_, rfl⟩
  have hRun : (System.ofStep Initial onParserEvent).Run conn events middle calls :=
    System.run_of_exec hExec
  exact hRun.map WSConnectionAction.parserEvent fun _ _ _ _ hStep => hStep

/-- The step reaches the `case Close` of `onFrameComplete`. -/
def ProcessesClose (conn : WebSocketConnection) (action : WSConnectionAction) : Prop :=
  action = .parserEvent .onFrameComplete ∧ conn.connState ≠ .wsClosed ∧
    conn.header.fin = true ∧ conn.header.opcode = .close

/-- Exactly one Close frame, with this payload, is sent before the socket is
closed. -/
def EchoedBeforeClose (payload : Bytes) (calls : List WSCallback) : Prop :=
  ∃ header footer, (calls.takeWhile (· != .closeWSSocket)).filter isCloseFrame =
    [.sendWSFrame .close header payload footer]

/-- Every Close frame of the peer that is processed before the server has sent
one is echoed. -/
def EchoesClose (start : WebSocketConnection) (actions : List WSConnectionAction) : Prop :=
  ∀ before action after middle next finish past calls later,
    actions = before ++ action :: after → system.Run start before middle past →
    system.step middle action next calls → system.Run next after finish later →
    ProcessesClose middle action → (∀ call ∈ past, ¬ isCloseFrame call) →
    EchoedBeforeClose middle.payload (calls ++ later)

/-- In the run a Close frame of the peer is processed on an open connection. -/
def PeerClosesFirst (start : WebSocketConnection) (actions : List WSConnectionAction) : Prop :=
  ∃ before action after middle next finish past calls later,
    actions = before ++ action :: after ∧ system.Run start before middle past ∧
    system.step middle action next calls ∧ system.Run next after finish later ∧
    ProcessesClose middle action ∧ middle.connState = .wsOpen

theorem recordsClose_step {conn after : WebSocketConnection} {action : WSConnectionAction}
    {log calls : List WSCallback} (h : RecordsClose conn log)
    (hStep : conn.step action = some (after, calls)) : RecordsClose after (log ++ calls) := by
  cases action with
  | parserEvent event =>
      rcases onParserEvent_cases hStep with ⟨hState, hCalls⟩ | ⟨-, hState, rfl⟩
      · exact h.append (Or.inl hState) fun call hCall => (hCalls call hCall).1
      · exact h.append (Or.inr hState) (by simp [isCloseFrame])
  | sendWSMessage binary data =>
      simp only [step, Option.bind_eq_bind, Option.bind_eq_some_iff, Option.pure_def,
        Option.some.injEq, Prod.mk.injEq] at hStep
      obtain ⟨sent, hSend, rfl, rfl⟩ := hStep
      apply h.append (Or.inl rfl)
      rcases sendWSMessage_cases hSend with ⟨-, rfl⟩ | ⟨-, header, footer, rfl⟩
      · simp
      · cases binary <;> simp [isCloseFrame]
  | sendPing =>
      simp only [step, Option.bind_eq_bind, Option.bind_eq_some_iff, Option.pure_def,
        Option.some.injEq, Prod.mk.injEq] at hStep
      obtain ⟨sent, hPing, rfl, rfl⟩ := hStep
      apply h.append (Or.inl rfl)
      unfold sendPing at hPing
      split_ifs at hPing
      rcases sendWSMessage_cases hPing with ⟨-, rfl⟩ | ⟨-, header, footer, rfl⟩
      · simp
      · simp [isCloseFrame]
  | closeWS code reason =>
      have hClose : conn.closeWS code reason = some (after, calls) := hStep
      rcases closeWS_cases hClose with ⟨-, rfl, rfl⟩ | ⟨-, rfl, hSend⟩ | ⟨hReceived, -⟩
      · simpa using h
      · rcases sendWSMessage_cases hSend with ⟨hClosed, -⟩ | ⟨-, header, footer, rfl⟩
        · cases hClosed
        · exact ⟨by simp, by simp, fun _ =>
            ⟨_, List.mem_append_right _ (List.mem_singleton_self _), rfl⟩⟩
      · exact absurd hReceived h.1

theorem recordsClose_run {start finish : WebSocketConnection}
    {actions : List WSConnectionAction} {log : List WSCallback} (hStart : Initial start)
    (run : system.Run start actions finish log) : RecordsClose finish log := by
  refine System.Run.invariant run ?_ fun s os action t es h hStep => recordsClose_step h hStep
  obtain ⟨incompleteContentHeader, header, rfl⟩ := hStart
  exact ⟨by simp [constructed, withParser], by simp, by simp [constructed, withParser]⟩

/-- Processing a Close frame closes the socket at once, and nothing is sent
before. -/
theorem step_processesClose {conn after : WebSocketConnection} {action : WSConnectionAction}
    {calls : List WSCallback} (hStep : conn.step action = some (after, calls))
    (hProcesses : ProcessesClose conn action) : calls = [.closeWSSocket, .onWSClose 0] := by
  obtain ⟨rfl, hNotClosed, hClose⟩ := hProcesses
  have hComplete : conn.onFrameComplete = some (after, calls) := hStep
  rcases onFrameComplete_cases hComplete with ⟨hClosed, -⟩ | ⟨-, -, -, hCalls⟩ | ⟨-, hOther, -⟩
  · exact absurd hClosed hNotClosed
  · exact hCalls
  · exact absurd hClose hOther

/-- In a run every Close frame of the peer is answered exactly when none of
them is processed before the server has closed from its side. -/
theorem echoesClose_iff {start : WebSocketConnection} (hStart : Initial start)
    (actions : List WSConnectionAction) :
    EchoesClose start actions ↔ ¬ PeerClosesFirst start actions := by
  constructor
  · rintro hEchoes ⟨before, action, after, middle, next, last, past, calls, later, hActions,
      hBefore, hStep, hLater, hProcesses, hOpen⟩
    have hPast := (recordsClose_run hStart hBefore).2.1 hOpen
    obtain ⟨header, footer, hEcho⟩ := hEchoes before action after middle next last past calls later
      hActions hBefore hStep hLater hProcesses hPast
    rw [step_processesClose hStep hProcesses] at hEcho
    simp at hEcho
  · intro hNever before action after middle next last past calls later hActions hBefore hStep
      hLater hProcesses hPast
    exfalso
    apply hNever
    refine ⟨before, action, after, middle, next, last, past, calls, later, hActions, hBefore,
      hStep, hLater, hProcesses, ?_⟩
    obtain ⟨hReceived, -, hSent⟩ := recordsClose_run hStart hBefore
    cases hState : middle.connState with
    | wsOpen => rfl
    | wsCloseReceived => exact absurd hState hReceived
    | wsClosed => exact absurd hState hProcesses.2.1
    | wsCloseSent =>
        obtain ⟨call, hCall, hClose⟩ := hSent hState
        exact absurd hClose (hPast call hCall)

end

/-- The server closes with status 1000 and the peer answers without a payload. -/
theorem echoesClose_server_first :
    @EchoesClose littleEndianHost
      ((constructed WSHixie76Parser.textInfo WSHixie76Parser.textInfo).withParser (.hyBi .fresh))
      [.closeWS 1000 [], .parserEvent (.onHeaderComplete WSHixie76Parser.closeInfo),
        .parserEvent .onFrameComplete] := by
  let _ : Host := littleEndianHost
  refine (echoesClose_iff ⟨_, _, rfl⟩ _).2 ?_
  rintro ⟨before, action, after, middle, next, last, past, calls, later, hActions, hBefore,
    -, -, ⟨rfl, -⟩, hOpen⟩
  match before with
  | [] => simp at hActions
  | [_] => simp at hActions
  | [first, second] =>
      simp only [List.cons_append, List.nil_append, List.cons.injEq] at hActions
      obtain ⟨rfl, rfl, -, -⟩ := hActions
      have hExec := System.exec_of_run hBefore
      cases hExec
      cases hOpen
  | first :: second :: third :: rest => simp at hActions

/-- The peer closes with status 1000: the bytes read, the calls made, and the
claimed echo missing in the run over their events. -/
theorem close_not_echoed :
    let start := (constructed WSHixie76Parser.textInfo WSHixie76Parser.textInfo).withParser
      (.hyBi .fresh)
    Initial start ∧ (@read littleEndianHost start [0x88, 0x02, 0x03, 0xE8]).map Prod.snd =
      some [.closeWSSocket, .onWSClose 0] ∧
    ∃ parser events, WSParser.read (.hyBi .fresh) [0x88, 0x02, 0x03, 0xE8] =
        some (parser, events) ∧
      ¬ @EchoesClose littleEndianHost start (events.map .parserEvent) := by
  intro start
  let _ : Host := littleEndianHost
  refine ⟨⟨_, _, rfl⟩, rfl, _, _, rfl, ?_⟩
  intro hEchoes
  have hEcho := hEchoes
    [.parserEvent (.onHeaderComplete { WSHixie76Parser.closeInfo with payloadLength := 2 }),
      .parserEvent (.onPayload [0x03, 0xE8])]
    (.parserEvent .onFrameComplete) [] _ _ _ _ [.closeWSSocket, .onWSClose 0] [] rfl
    (System.run_of_exec rfl) rfl .nil ⟨rfl, nofun, rfl, rfl⟩ (by simp)
  obtain ⟨header, footer, hFrames⟩ := hEcho
  simp at hFrames

end WebSocketConnection

end Httpuv
