import Httpuv.Http.History
import Httpuv.Http.WriteCompletion

/-! A response that ends its connection. When the last of its writes has been called
back, the connection is closed. -/
namespace Httpuv

open Semantics

namespace WebSocketConnection

variable [Host] {conn after : WebSocketConnection} {callbacks : List WSCallback}

/-! Without a parser nothing is sent, and none comes into being. -/

theorem read_parserless {data : Bytes} (hNone : conn.pParser = none)
    (h : conn.read data = some (after, callbacks)) : after = conn ∧ callbacks = [] := by
  unfold read at h
  split_ifs at h
  · exact ⟨(congrArg Prod.fst (Option.some.inj h)).symm, (congrArg Prod.snd (Option.some.inj h)).symm⟩
  · simp [hNone] at h

theorem sendWSMessage_parserless {opcode : Opcode} {message : Bytes}
    (hNone : conn.pParser = none) (h : conn.sendWSMessage opcode message = some callbacks) :
    callbacks = [] := by
  unfold sendWSMessage at h
  split_ifs at h
  · exact (Option.some.inj h).symm
  · simp [hNone] at h

theorem closeWS_parserless {code : UInt16} {reason : Bytes} (hNone : conn.pParser = none)
    (h : conn.closeWS code reason = some (after, callbacks)) :
    after.pParser = none ∧ ∀ callback ∈ callbacks, ¬ callback.IsFrame := by
  have hQuiet : ∀ (other : WebSocketConnection) {sent : List WSCallback}, other.pParser = none →
      other.sendWSMessage .close (closeMessage code reason) = some sent → sent = [] :=
    fun other _ hOther hSent => sendWSMessage_parserless hOther hSent
  unfold closeWS at h
  cases hState : conn.connState with
  | wsOpen =>
      simp only [hState, Option.bind_eq_bind, Option.bind_eq_some_iff, Option.pure_def,
        Option.some.injEq, Prod.mk.injEq] at h
      obtain ⟨sent, hSent, rfl, rfl⟩ := h
      obtain rfl := hQuiet { conn with connState := .wsCloseSent } hNone hSent
      exact ⟨hNone, by simp⟩
  | wsCloseReceived =>
      simp only [hState, Option.bind_eq_bind, Option.bind_eq_some_iff, Option.pure_def,
        Option.some.injEq, Prod.mk.injEq] at h
      obtain ⟨sent, hSent, rfl, rfl⟩ := h
      obtain rfl := hQuiet { conn with connState := .wsClosed } hNone hSent
      exact ⟨hNone, by simp [WSCallback.IsFrame]⟩
  | wsCloseSent =>
      simp only [hState, Option.some.injEq, Prod.mk.injEq] at h
      obtain ⟨rfl, rfl⟩ := h
      exact ⟨hNone, by simp⟩
  | wsClosed =>
      simp only [hState, Option.some.injEq, Prod.mk.injEq] at h
      obtain ⟨rfl, rfl⟩ := h
      exact ⟨hNone, by simp⟩

end WebSocketConnection

namespace Connection

variable {File : Type} [HttpParser] [Zlib] [DataSource File] {conn middle after : Connection File}
  {serial : Nat}

/-- The connection is being closed, or it will be when the last write under way has been
called back. Those before it have nothing more to write. -/
def Ending (serial : Nat) (conn : Connection File) : Prop :=
  conn.isClosing = true ∨ ∃ before write, conn.writes = before ++ [write] ∧
    write.serial = some serial ∧ write.closeAfterWritten = true ∧
    ∀ other ∈ before, other.drained = true

/-- As long as the connection has no WebSocket, the response still ends it. It is asked of
every part of a step, so that the parts can be put together. -/
structure KeepsEnding (conn after : Connection File) : Prop where
  pParser : conn.websocket.pParser = none → after.websocket.pParser = none
  ending : conn.websocket.pParser = none → ∀ serial, conn.Ending serial → after.Ending serial

namespace KeepsEnding

theorem trans (h : KeepsEnding conn middle) (h' : KeepsEnding middle after) :
    KeepsEnding conn after where
  pParser := fun hNone => h'.pParser (h.pParser hNone)
  ending := fun hNone serial hEnding => h'.ending (h.pParser hNone) serial (h.ending hNone serial hEnding)

/-- The writes stay as they are. -/
theorem same (hWebSocket : after.websocket.pParser = conn.websocket.pParser)
    (hWrites : after.writes = conn.writes)
    (hClosing : conn.isClosing = true → after.isClosing = true) : KeepsEnding conn after where
  pParser := fun hNone => hWebSocket.trans hNone
  ending := by
    rintro - serial (hBefore | hLast)
    · exact Or.inl (hClosing hBefore)
    · refine Or.inr ?_
      rw [hWrites]
      exact hLast

theorem refl (conn : Connection File) : KeepsEnding conn conn := same rfl rfl id

theorem of_closing (hWebSocket : after.websocket.pParser = conn.websocket.pParser)
    (hClosing : after.isClosing = true) : KeepsEnding conn after where
  pParser := fun hNone => hWebSocket.trans hNone
  ending := fun _ _ _ => Or.inl hClosing

theorem close (conn : Connection File) : KeepsEnding conn conn.close := by
  refine of_closing ?_ (close_isClosing conn)
  unfold Connection.close
  split_ifs <;> rfl

theorem destroy (conn : Connection File) (response : HttpResponse (SentBody File)) :
    KeepsEnding conn (conn.destroy response) := by
  unfold Connection.destroy
  split_ifs
  · exact close conn
  · exact refl conn

theorem foldl {Step : Type} {f : Connection File → Step → Connection File} (steps : List Step)
    (hStep : ∀ conn, ∀ step ∈ steps, KeepsEnding conn (f conn step)) (conn : Connection File) :
    KeepsEnding conn (steps.foldl f conn) := by
  induction steps generalizing conn with
  | nil => exact refl conn
  | cons step steps ih =>
      apply (hStep conn step (by simp)).trans
      exact ih (fun conn other hMem => hStep conn other (List.mem_cons_of_mem _ hMem)) _

end KeepsEnding

/-! The callbacks of libuv. -/

omit [DataSource File] in
theorem destroy_isClosing {response : HttpResponse (SentBody File)}
    (hClose : response.closeAfterWritten = true) :
    (conn.destroy response).isClosing = true := by
  rw [destroy, if_pos hClose]
  exact close_isClosing conn

/-- A stream with no write under way makes one write, or its response is destroyed. libuv
refuses the write of a connection that is being closed. -/
theorem nextWrite_cases {response : HttpResponse (SentBody File)}
    {write : ExtendedWrite (SentBody File)} (hIdle : write.activeWrites = 0) :
    conn.nextWrite serial response write = conn.destroy response ∨
    write.drained = false ∧ (conn.isClosing = true ∧
        conn.nextWrite serial response write = conn.observe (.uvWriteFailed (some serial)) ∨
      ∃ bytes stream, conn.nextWrite serial response write =
        conn.queue serial bytes (.body serial response stream)) := by
  unfold nextWrite
  cases hNext : write.next (!conn.isClosing) with
  | mk stream effects =>
      rcases ExtendedWrite.next_cases hIdle (!conn.isClosing) with
        ⟨-, front, status, hFront, hEffects⟩ | ⟨hIssues, -, bufs, hEffects⟩
      · left
        obtain rfl : effects = front ++ [.close, .onWriteComplete status] := by
          rw [hNext] at hEffects
          exact hEffects
        rcases hFront with rfl | rfl <;> rfl
      · right
        obtain rfl : effects = [.uvWrite bufs (!conn.isClosing)] := by
          rw [hNext] at hEffects
          exact hEffects
        rcases ExtendedWrite.next_effects hNext with ⟨-, hUndrained, -⟩ | ⟨hNone, -⟩
        · refine ⟨hUndrained, ?_⟩
          cases hClosing : conn.isClosing with
          | true => exact Or.inl ⟨rfl, rfl⟩
          | false => exact Or.inr ⟨bufs.flatten, stream, rfl⟩
        · rw [hNone] at hIssues
          cases hIssues

/-- A stream that is over lets its response go. It may be a response that closes nothing, and
then the one that ends the connection is still there. -/
theorem KeepsEnding.nextWrite_drained {response : HttpResponse (SentBody File)}
    {write : ExtendedWrite (SentBody File)} (hIdle : write.activeWrites = 0)
    (hDrained : write.drained = true) :
    KeepsEnding conn (conn.nextWrite serial response write) := by
  rcases nextWrite_cases hIdle with hDestroyed | ⟨hUndrained, -⟩
  · rw [hDestroyed]
    exact destroy conn response
  · rw [hDrained] at hUndrained
    cases hUndrained

/-- The last response goes on, or it closes the connection. In the first case its next write
is the last one now. -/
theorem Ending.nextWrite {response : HttpResponse (SentBody File)}
    {write : ExtendedWrite (SentBody File)} (hIdle : write.activeWrites = 0)
    (hNone : conn.writes = []) (hClose : response.closeAfterWritten = true) :
    (conn.nextWrite serial response write).Ending serial := by
  rcases nextWrite_cases hIdle with hDestroyed | ⟨-, ⟨hClosing, hFailed⟩ | ⟨bytes, stream, hQueued⟩⟩
  · rw [hDestroyed]
    exact Or.inl (destroy_isClosing hClose)
  · rw [hFailed]
    exact Or.inl hClosing
  · rw [hQueued]
    refine Or.inr ⟨[], .body serial response stream, ?_, rfl, hClose, by simp⟩
    rw [queue, hNone]

theorem Writing.idle {rest : List (Write File)}
    {response : HttpResponse (SentBody File)} {write : ExtendedWrite (SentBody File)}
    (h : conn.Writing) (hWrites : conn.writes = .body serial response write :: rest) :
    write.activeWrites - 1 = 0 := by
  have hAlone : write.activeWrites = 1 :=
    (h.backed (.body serial response write) (by simp [hWrites]) serial rfl).alone
  rw [hAlone]

theorem pParser_nextWrite {response : HttpResponse (SentBody File)}
    {write : ExtendedWrite (SentBody File)} (hIdle : write.activeWrites = 0)
    (hNone : conn.websocket.pParser = none) :
    (conn.nextWrite serial response write).websocket.pParser = none := by
  rcases nextWrite_cases hIdle with hDestroyed | ⟨-, ⟨-, hFailed⟩ | ⟨bytes, stream, hQueued⟩⟩
  · rw [hDestroyed]
    exact (KeepsEnding.destroy conn response).pParser hNone
  · rw [hFailed]
    exact hNone
  · rw [hQueued]
    exact hNone

/-- The last write is called back. With an error the response is destroyed at once, and
otherwise its body goes on. -/
theorem Ending.last {status : Int} {queueEmpty : Bool} {write : Write File}
    (hWriting : conn.Writing) (hWrites : conn.writes = [write]) (hSerial : write.serial = some serial)
    (hClose : write.closeAfterWritten = true)
    (hWritten : Written conn status queueEmpty [] write after) : after.Ending serial := by
  cases hWritten with
  | frame => cases hSerial
  | failed hStatus => exact Or.inl (destroy_isClosing rfl)
  | bodiless hStatus hBody => exact Or.inl (destroy_isClosing hClose)
  | begins hStatus hBody =>
      obtain rfl := Option.some.inj hSerial
      exact .nextWrite rfl rfl hClose
  | waits hQueue hRest => exact absurd rfl hRest
  | goesOn hQueue =>
      obtain rfl := Option.some.inj hSerial
      exact .nextWrite (hWriting.idle hWrites) rfl hClose

/-- A write before the last one is called back. It has nothing more to write, so that no
other write gets behind the last one. -/
theorem KeepsEnding.drained {status : Int} {queueEmpty : Bool} {write : Write File}
    {rest : List (Write File)} (hWriting : conn.Writing) (hWrites : conn.writes = write :: rest)
    (hDrained : write.drained = true) (hWritten : Written conn status queueEmpty rest write after) :
    KeepsEnding { conn with writes := rest } after := by
  cases hWritten with
  | frame => exact .refl _
  | failed hStatus => exact .destroy _ _
  | bodiless hStatus hBody => exact .destroy _ _
  | begins hStatus hBody =>
      refine .nextWrite_drained rfl ?_
      simpa [Write.drained, HttpResponse.drained, hBody] using hDrained
  | waits hQueue hRest => exact .refl _
  | goesOn hQueue => exact .nextWrite_drained (hWriting.idle hWrites) hDrained

theorem keepsEnding_onWritten {status : Int} {queueEmpty : Bool} (hWriting : conn.Writing)
    (h : conn.onWritten status queueEmpty = some after) : KeepsEnding conn after := by
  obtain ⟨write, rest, hWrites, hWritten⟩ := onWritten_cases h
  constructor
  · intro hNone
    cases hWritten with
    | frame => exact hNone
    | failed hStatus => exact (KeepsEnding.destroy _ _).pParser hNone
    | bodiless hStatus hBody => exact (KeepsEnding.destroy _ _).pParser hNone
    | begins hStatus hBody => exact pParser_nextWrite rfl hNone
    | waits hQueue hRest => exact hNone
    | goesOn hQueue => exact pParser_nextWrite (hWriting.idle hWrites) hNone
  · rintro hNone serial (hClosing | ⟨before, last, hLast, hSerial, hClose, hDrained⟩)
    · exact Or.inl ((quiet_onWritten h).isClosing hClosing)
    · rw [hWrites] at hLast
      cases before with
      | nil =>
          obtain ⟨rfl, rfl⟩ := List.cons.inj hLast
          exact Ending.last hWriting hWrites hSerial hClose hWritten
      | cons first before =>
          obtain ⟨rfl, rfl⟩ := List.cons.inj hLast
          refine (KeepsEnding.drained hWriting hWrites (hDrained _ (by simp)) hWritten).ending
            hNone serial (Or.inr ⟨before, last, rfl, hSerial, hClose, ?_⟩)
          exact fun other hMem => hDrained other (List.mem_cons_of_mem _ hMem)

theorem keepsEnding_onClosed (h : conn.onClosed = some after) : KeepsEnding conn after := by
  simp only [onClosed, Option.ite_none_right_eq_some, Bool.and_eq_true] at h
  obtain ⟨-, h⟩ := h
  obtain rfl := Option.some.inj h
  refine .same ?_ rfl id
  dsimp only
  split_ifs <;> rfl

/-! The calls that concern the WebSocket. -/

/-- Frames come from a connection with a parser, which is not one that this is about. -/
theorem keepsEnding_runWebSocket {websocket : WebSocketConnection} {callbacks : List WSCallback}
    (hParser : conn.websocket.pParser = none → websocket.pParser = none)
    (hFrames : conn.websocket.pParser = none → ∀ callback ∈ callbacks, ¬ callback.IsFrame) :
    KeepsEnding conn (conn.runWebSocket websocket callbacks) := by
  by_cases hNone : conn.websocket.pParser = none
  · have hMember : KeepsEnding conn { conn with websocket } :=
      .same ((hParser hNone).trans hNone.symm) rfl id
    refine hMember.trans (.foldl _ ?_ _)
    intro conn callback hMem
    cases callback with
    | onWSMessage binary data =>
        simp only [onWSCallback]
        split_ifs
        · exact .same rfl rfl id
        · exact .refl conn
    | onWSClose code => exact .refl conn
    | sendWSFrame opcode header data footer => exact absurd trivial (hFrames hNone _ hMem)
    | closeWSSocket => exact .close conn
  · exact ⟨fun hOther => absurd hOther hNone, fun hOther => absurd hOther hNone⟩

theorem keepsEnding_wsCall (conn : Connection File) (call : WSCall) :
    KeepsEnding conn (conn.wsCall call) := by
  cases call <;> simp only [wsCall] <;> split_ifs <;> exact .same rfl rfl id

theorem keepsEnding_closeIfFailed (conn : Connection File) (outcome : AppOutcome File) :
    KeepsEnding conn (conn.closeIfFailed outcome) := by
  cases outcome <;> exact .same rfl rfl id

theorem keepsEnding_callROnWSOpen (conn : Connection File) (outcome : AppOutcome File)
    (calls : List WSCall) : KeepsEnding conn (conn.callROnWSOpen outcome calls) := by
  unfold callROnWSOpen
  split_ifs
  · exact .refl conn
  · have hOpened : KeepsEnding conn ({ conn with wsHandle := true }.observe .onWSOpen) :=
      .same rfl rfl id
    have hCalled := hOpened.trans (.foldl calls (fun conn call _ => keepsEnding_wsCall conn call) _)
    have hFailed := hCalled.trans (keepsEnding_closeIfFailed _ outcome)
    exact hFailed.trans (.same rfl rfl id)

section WebSocket

variable [Host]

theorem keepsEnding_wsRead {data : Bytes} (h : conn.wsRead data = some after) :
    KeepsEnding conn after := by
  obtain ⟨websocket, callbacks, hRead, rfl⟩ := wsRead_cases h
  have hObserved : KeepsEnding conn (conn.observe (.wsRead data)) := .same rfl rfl id
  refine hObserved.trans (keepsEnding_runWebSocket ?_ ?_)
  · intro hNone
    rw [(WebSocketConnection.read_parserless hNone hRead).1]
    exact hNone
  · intro hNone
    rw [(WebSocketConnection.read_parserless hNone hRead).2]
    simp

theorem keepsEnding_runWSTask {task : WSTask} (h : conn.runWSTask task = some after) :
    KeepsEnding conn after := by
  obtain ⟨websocket, callbacks, rfl, hTask⟩ := runWSTask_cases h
  rcases hTask with ⟨binary, message, -, rfl, hSend⟩ | ⟨code, reason, -, hClose⟩
  · refine keepsEnding_runWebSocket id ?_
    intro hNone
    rw [WebSocketConnection.sendWSMessage_parserless hNone hSend]
    simp
  · exact keepsEnding_runWebSocket
      (fun hNone => (WebSocketConnection.closeWS_parserless hNone hClose).1)
      (fun hNone => (WebSocketConnection.closeWS_parserless hNone hClose).2)

end WebSocket

end Connection

end Httpuv
