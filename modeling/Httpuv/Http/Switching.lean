import Httpuv.Http.Decisions
import Httpuv.WebSockets.Channel

/-! The connection as a channel between the client and the application: every step
is a sequence of events of the channel. -/
namespace Httpuv

open Semantics

/-- The tasks of the main thread that call the application for a WebSocket. Those for
requests are none of them, though they share the queue. -/
def MainTask.notice : MainTask → Option Notice
  | .callROnWSOpen => some .onWSOpen
  | .onWSMessage binary data => some (.onWSMessage binary data)
  | .onWSClose => some .onWSClose
  | _ => none

/-- The size of what has come with a handshake. The bytes themselves are not part of the
task: its pointer leads into a vector that `_call_r_on_ws_open` frees. -/
def BackgroundTask.returned {File : Type} : BackgroundTask File → Option Nat
  | .read size => some size
  | _ => none

namespace Observation

variable {File : Type}

/-- The entries of the log for the callbacks that have been called, next to
`MainTask.notice` for those that still wait. -/
def notice : Observation File → Option Notice
  | .onWSOpen => some .onWSOpen
  | .onWSMessage binary data => some (.onWSMessage binary data)
  | .onWSClose => some .onWSClose
  | _ => none

/-- The bytes that `WebSocketConnection::read` is given, be they from the network or
from behind the pointer of a handshake. -/
def passed : Observation File → Option Bytes
  | .wsRead data => some data
  | _ => none

/-- The bytes of the client behind the handshake. They begin with those that were read
together with it, and go on with every read. -/
def sentAfter (sent : Option Bytes) : Observation File → Option Bytes
  | .handshake leftover => some leftover
  | .read data => sent.map (· ++ data)
  | _ => sent

/-- Entries that the channel knows nothing of: requests and their responses, the parser,
and closing, which the channel sees in the flags of the connection. -/
def IsOffChannel : Observation File → Prop
  | .read _ | .handshake _ | .wsRead _ | .onWSOpen | .onWSMessage _ _ | .onWSClose => False
  | _ => True

end Observation

section Log

variable {File : Type} {log entries : List (Observation File)}

/-- What the client has sent since the handshake, and nothing before there has been
one. Bytes that the connection ignores are counted here too. -/
def sentSinceHandshake (log : List (Observation File)) : Option Bytes :=
  log.foldl Observation.sentAfter none

/-- What `WebSocketConnection::read` has been given, in this order and without the ends
of the single reads. -/
def passedToWebSocket (log : List (Observation File)) : Bytes :=
  (log.filterMap Observation.passed).flatten

/-- The callbacks of the application for the WebSocket, in the order in which they were
called. -/
def wsCallbacks (log : List (Observation File)) : List Notice :=
  log.filterMap Observation.notice

/-- Writing a response is off the channel, however many pieces it takes and whether or
not they are all of it. -/
theorem pieces_off (serial : Nat) (bytes : Bytes) (drained : Bool) :
    ∀ entry ∈ (pieces serial bytes drained : List (Observation File)), entry.IsOffChannel := by
  cases drained <;> simp [pieces, Observation.IsOffChannel]

/-- Entries off the channel call nothing. This and the next two lemmas are what makes
most steps invisible to it. -/
theorem wsCallbacks_off (hOff : ∀ entry ∈ entries, entry.IsOffChannel) :
    wsCallbacks (log ++ entries) = wsCallbacks log := by
  have hNone : entries.filterMap Observation.notice = [] := by
    rw [List.filterMap_eq_nil_iff]
    intro entry hMem
    have hEntry := hOff entry hMem
    cases entry <;> first | rfl | exact hEntry.elim
  rw [wsCallbacks, List.filterMap_append, hNone, List.append_nil]
  rfl

theorem passedToWebSocket_off (hOff : ∀ entry ∈ entries, entry.IsOffChannel) :
    passedToWebSocket (log ++ entries) = passedToWebSocket log := by
  have hNone : entries.filterMap Observation.passed = [] := by
    rw [List.filterMap_eq_nil_iff]
    intro entry hMem
    have hEntry := hOff entry hMem
    cases entry <;> first | rfl | exact hEntry.elim
  rw [passedToWebSocket, List.filterMap_append, hNone, List.append_nil]
  rfl

theorem sentSinceHandshake_off (hOff : ∀ entry ∈ entries, entry.IsOffChannel) :
    sentSinceHandshake (log ++ entries) = sentSinceHandshake log := by
  rw [sentSinceHandshake, List.foldl_append]
  change entries.foldl _ (sentSinceHandshake log) = _
  generalize sentSinceHandshake log = sent
  induction entries with
  | nil => rfl
  | cons entry entries ih =>
      have hEntry := hOff entry (by simp)
      have hSame : entry.sentAfter sent = sent := by
        cases entry <;> first | rfl | exact hEntry.elim
      rw [List.foldl_cons, hSame]
      exact ih (fun other hMem => hOff other (List.mem_cons_of_mem _ hMem))

end Log

def WSCallback.isMessage : WSCallback → Bool
  | .onWSMessage _ _ => true
  | _ => false

/-- Whether a message is complete with these bytes. A message of several frames is
complete with the last of them, so this depends on what has been read before. -/
def WebSocketConnection.completes [Host] (conn : WebSocketConnection) (data : Bytes) : Bool :=
  match conn.read data with
  | some (_, callbacks) => callbacks.any WSCallback.isMessage
  | none => false

namespace Connection

variable {File : Type} [HttpParser] [Zlib] {conn middle after : Connection File}

/-- What a connection is for its WebSocket. The tasks that wait are read off the queues,
and the past off the log, so that nothing has to be carried along. -/
def channel (conn : Connection File) : Channel where
  switched := conn.protocol == .webSockets
  present := conn.pWebSocketConnection
  closing := conn.isClosing
  reading := conn.reading
  ignoring := conn.ignoreNewData
  kept := conn.requestBuffer
  returning := conn.backgroundQueue.filterMap BackgroundTask.returned
  queue := conn.mainQueue.filterMap MainTask.notice
  sent := sentSinceHandshake conn.log
  passed := passedToWebSocket conn.log
  calls := wsCallbacks conn.log

/-- The events between two states of a connection. There may be several for one step,
as for a read with many frames, or none. -/
def Moves (allowed : Channel → ChannelEvent → Prop) (conn after : Connection File) : Prop :=
  Relation.ReflTransGen (Channel.Move allowed) conn.channel after.channel

/-- What is allowed anywhere. The bytes of a handshake follow no others: nothing is kept
for the parser when the upgrade begins. -/
structure Lenient (allowed : Channel → ChannelEvent → Prop) : Prop where
  plain : ∀ channel event, ChannelEvent.IsPlain event → allowed channel event
  switch : ∀ channel leftover, channel.kept = [] → allowed channel (.switch leftover)

variable {allowed : Channel → ChannelEvent → Prop} {entries : List (Observation File)}

namespace Moves

theorem refl (conn : Connection File) : Moves allowed conn conn :=
  Relation.ReflTransGen.refl

theorem trans (h : Moves allowed conn middle) (h' : Moves allowed middle after) :
    Moves allowed conn after :=
  Relation.ReflTransGen.trans h h'

theorem of_eq (h : after.channel = conn.channel) : Moves allowed conn after := by
  rw [Moves, h]

/-- One event, when it is allowed and leads to the channel of the state behind it. Most of
the lemmas below end with it. -/
theorem of_step (event : ChannelEvent) (hAllowed : allowed conn.channel event)
    (hStep : conn.channel.step event = some after.channel) : Moves allowed conn after :=
  Relation.ReflTransGen.single ⟨event, hAllowed, hStep⟩

/-- Operations in a row, each of which is a sequence of events. The state in between is
arbitrary, which the events of a parser need. -/
theorem foldl {Step : Type} {f : Connection File → Step → Connection File} (steps : List Step)
    (hStep : ∀ conn, ∀ step ∈ steps, Moves allowed conn (f conn step)) (conn : Connection File) :
    Moves allowed conn (steps.foldl f conn) := by
  induction steps generalizing conn with
  | nil => exact refl conn
  | cons step steps ih =>
      apply (hStep conn step (by simp)).trans
      exact ih (fun conn step hMem => hStep conn step (List.mem_cons_of_mem _ hMem)) _

end Moves

/-! What the channel does not see. -/

/-- Entries off the channel can be added without moving it. The other lemmas of this
group say the same of the queues. -/
theorem channel_log (hOff : ∀ entry ∈ entries, entry.IsOffChannel) :
    ({ conn with log := conn.log ++ entries } : Connection File).channel = conn.channel := by
  simp only [channel, sentSinceHandshake_off hOff, passedToWebSocket_off hOff, wsCallbacks_off hOff]

theorem channel_observe {entry : Observation File} (hOff : entry.IsOffChannel) :
    (conn.observe entry).channel = conn.channel :=
  channel_log (by simpa using hOff)

theorem channel_invokeLater {task : MainTask} (hTask : task.notice = none) :
    (conn.invokeLater task).channel = conn.channel := by
  simp [channel, invokeLater, List.filterMap_append, hTask]

theorem channel_push {task : BackgroundTask File} (hTask : task.returned = none) :
    (conn.push task).channel = conn.channel := by
  simp [channel, push, List.filterMap_append, hTask]

theorem channel_popMain {task : MainTask} {rest : List MainTask} (hTask : task.notice = none)
    (hQueue : conn.mainQueue = task :: rest) :
    ({ conn with mainQueue := rest } : Connection File).channel = conn.channel := by
  simp [channel, hQueue, hTask]

theorem channel_popBackground {task : BackgroundTask File} {rest : List (BackgroundTask File)}
    (hTask : task.returned = none) (hQueue : conn.backgroundQueue = task :: rest) :
    ({ conn with backgroundQueue := rest } : Connection File).channel = conn.channel := by
  simp [channel, hQueue, hTask]

/-! Each operation is a sequence of events. -/

section Operations

variable (hLenient : Lenient allowed)
include hLenient

/-- `HttpRequest::close` is one event, unless it has been called before. The callback
`onWSClose` is asked for only when there is a WebSocket to tell of it. -/
theorem moves_close (conn : Connection File) : Moves allowed conn conn.close := by
  by_cases hClosing : conn.isClosing = true
  · rw [close, if_pos hClosing]
    exact .refl conn
  · refine .of_step .close (hLenient.plain _ _ trivial) ?_
    have hOff : ∀ entry ∈ [(.uvClose : Observation File)], entry.IsOffChannel := by
      simp [Observation.IsOffChannel]
    rw [close, if_neg hClosing]
    cases hOpen : conn.pWebSocketConnection <;> cases hProtocol : conn.protocol <;>
      simp [Channel.step, channel, observe, invokeLater, hClosing, hOpen, hProtocol,
        sentSinceHandshake_off hOff, passedToWebSocket_off hOff, wsCallbacks_off hOff,
        List.filterMap_append, MainTask.notice]

/-- Reading may stop at any time, with what still comes being ignored or not. -/
theorem moves_stopped (conn : Connection File) (ignore : Bool) : Moves allowed conn
    { conn with reading := false, ignoreNewData := conn.ignoreNewData || ignore } :=
  .of_step (.stop ignore) (hLenient.plain _ _ trivial) rfl

/-- A new request is not seen on the channel, except that the connection is closed when
the request before it has not been answered. -/
theorem moves_newRequest (conn : Connection File) : Moves allowed conn conn.newRequest := by
  have hBegun : conn.begun.channel = conn.channel := by
    have hOff : (Observation.onMessageBegin (conn.current + 1) conn.handlingRequest :
        Observation File).IsOffChannel := trivial
    exact (channel_observe hOff : (conn.observe _).channel = _)
  have hStart : Moves allowed conn conn.begun := .of_eq hBegun
  rw [newRequest_eq]
  refine Moves.trans ?_ (.of_eq (channel_invokeLater rfl))
  split_ifs
  · exact hStart.trans (moves_close hLenient _)
  · exact hStart

/-- The events of the parser are those of requests, so that only closing shows. A static
path that answers is no exception, since its response is a task as well. -/
theorem moves_onEvent (conn : Connection File) (static : Option (HttpResponse (Body File)))
    (event : ParserEvent) : Moves allowed conn (conn.onEvent static event) := by
  cases event with
  | onMessageBegin => exact moves_newRequest hLenient conn
  | onHeadersComplete upgrade =>
      apply Moves.of_eq
      simp only [onEvent, onHeadersComplete]
      split
      · rw [channel_push rfl, channel_observe (by trivial), channel_observe (by trivial)]
        rfl
      · rw [channel_invokeLater rfl, channel_observe (by trivial)]
        rfl
  | onBody data => exact .of_eq (channel_invokeLater rfl)
  | onMessageComplete =>
      apply Moves.of_eq
      simp only [onEvent, onMessageComplete]
      split_ifs
      · rfl
      · exact channel_invokeLater rfl
  | onUrl data => exact .refl conn
  | onHeaderField data => exact .refl conn
  | onHeaderValue data => exact .refl conn

theorem moves_feed (conn : Connection File) (static : Option (HttpResponse (Body File)))
    (buffer : Bytes) : Moves allowed conn (conn.feed static buffer) := by
  have hExecuted : ({ conn with parser := (HttpParser.execute conn.parser buffer).parser }.observe
      (.execute (buffer.take (HttpParser.execute conn.parser buffer).parsed))).channel =
        conn.channel :=
    channel_observe trivial
  refine (Moves.of_eq hExecuted).trans ?_
  exact .foldl _ (fun conn event _ => moves_onEvent hLenient conn static event) _

variable [DataSource File]

omit hLenient in
/-- Responses are written beside the channel: `Wrote` adds to the writes and puts
entries off the channel into the log. -/
theorem channel_wrote {request : Nat} {kind : ResponseKind} {response : HttpResponse (Body File)}
    (h : Wrote conn after request kind response entries) : after.channel = conn.channel := by
  have hOff : ∀ entry ∈ .writeResponse request conn.serial kind response :: entries,
      entry.IsOffChannel := by
    intro entry hMem
    rcases List.mem_cons.1 hMem with rfl | hMem
    · trivial
    · rcases h.entries with ⟨-, rfl⟩ | ⟨-, written, -, rfl⟩
      · rw [List.mem_singleton.1 hMem]
        trivial
      · exact pieces_off _ _ _ entry hMem
  obtain ⟨writes, rfl⟩ := h.same
  exact channel_log hOff

/-- Ending a response may stop the reading, and then nothing that comes is heard. The
response itself is written beside the channel. -/
theorem moves_finishes {request : Nat} {response : HttpResponse (Body File)} {closing : Bool}
    (h : Finishes conn request response closing after) : Moves allowed conn after := by
  have hStopped : Moves allowed conn (conn.stopIf closing) := by
    cases closing with
    | true => simpa [stopIf] using moves_stopped hLenient conn true
    | false =>
        apply Moves.of_eq
        simp [stopIf, channel]
  exact hStopped.trans (.of_eq (channel_wrote (wrote h).choose_spec))

omit [DataSource File] in
/-- With the last use of a response its connection is closed, if it is to be closed after
it. Closing is plain, so it is always allowed. -/
theorem moves_destroy (conn : Connection File) (response : HttpResponse (SentBody File)) :
    Moves allowed conn (conn.destroy response) := by
  unfold destroy
  split_ifs
  · exact moves_close hLenient conn
  · exact .refl conn

theorem moves_nextWrite (conn : Connection File) (serial : Nat)
    (response : HttpResponse (SentBody File)) (write : ExtendedWrite (SentBody File)) :
    Moves allowed conn (conn.nextWrite serial response write) := by
  unfold nextWrite
  apply Moves.foldl
  intro conn effect hMem
  cases effect with
  | uvWrite bufs accepted =>
      cases accepted with
      | true =>
          exact .of_eq (channel_log (pieces_off serial bufs.flatten _))
      | false => exact .of_eq (channel_observe trivial)
  | onWriteComplete status => exact moves_destroy hLenient conn response
  | freeData => exact .refl conn
  | close => exact .refl conn

/-- The callback of a write goes on with the body or is the end of the response. A
frame of the WebSocket has nothing behind it. -/
theorem moves_onWritten {status : Int} {queueEmpty : Bool}
    (h : conn.onWritten status queueEmpty = some after) : Moves allowed conn after := by
  have hPop : ∀ writes, ({ conn with writes } : Connection File).channel = conn.channel :=
    fun writes => rfl
  obtain ⟨write, rest, hWrites, hWritten⟩ := onWritten_cases h
  have hPopped : Moves allowed conn { conn with writes := rest } := .of_eq (hPop rest)
  cases hWritten with
  | frame => exact hPopped
  | failed hStatus => exact hPopped.trans (moves_destroy hLenient _ _)
  | bodiless hStatus hBody => exact hPopped.trans (moves_destroy hLenient _ _)
  | begins hStatus hBody => exact hPopped.trans (moves_nextWrite hLenient _ _ _ _)
  | waits hQueue hRest => exact hPopped
  | goesOn hQueue => exact hPopped.trans (moves_nextWrite hLenient _ _ _ _)

omit [DataSource File] in
theorem moves_onClosed (h : conn.onClosed = some after) : Moves allowed conn after := by
  simp only [onClosed, Option.ite_none_right_eq_some, Option.some.injEq, Bool.and_eq_true] at h
  obtain ⟨⟨⟨hClosing, -⟩, -⟩, rfl⟩ := h
  refine .of_step .closed (hLenient.plain _ _ trivial) ?_
  simp [Channel.step, channel, hClosing]

omit hLenient [DataSource File] in
/-- What the application sends waits on the background queue, where it moves nothing
until its task is run. -/
theorem channel_wsCall (conn : Connection File) (call : WSCall) :
    (conn.wsCall call).channel = conn.channel := by
  cases call with
  | send binary message =>
      simp only [wsCall]
      split_ifs
      · exact channel_push rfl
      · rfl
  | close code reason =>
      simp only [wsCall]
      split_ifs
      · have hHandle : ({ conn with wsHandle := false } : Connection File).channel =
            conn.channel := rfl
        exact (channel_push rfl).trans hHandle
      · rfl

omit hLenient [DataSource File] in
theorem channel_closeIfFailed (conn : Connection File) (outcome : AppOutcome File) :
    (conn.closeIfFailed outcome).channel = conn.channel := by
  cases outcome with
  | failed => exact channel_push rfl
  | _ => rfl

omit [DataSource File] in
/-- A message is allowed unless the connection has been closed on the way. The
induction is on the callbacks: once one of them has closed the socket, only `onWSClose`
follows, and until then no notice has been added that `hMessages` excludes. -/
theorem moves_callbacks (callbacks : List WSCallback) (hLast : ClosesLast callbacks)
    (hMessages : ∀ binary data, .onWSMessage binary data ∈ callbacks →
      conn.protocol = .webSockets ∧ ∀ channel : Channel,
        (.onWSClose ∈ channel.notices → .onWSClose ∈ conn.channel.notices) →
          allowed channel (.message binary data)) :
    Moves allowed conn (callbacks.foldl onWSCallback conn) := by
  induction callbacks generalizing conn with
  | nil => exact .refl conn
  | cons callback callbacks ih =>
      obtain ⟨hOnly, hRest⟩ := List.pairwise_cons.1 hLast
      have hGo : ∀ middle : Connection File, Moves allowed conn middle →
          middle.protocol = conn.protocol →
          (.onWSClose ∈ middle.channel.notices → .onWSClose ∈ conn.channel.notices) →
          Moves allowed conn (callbacks.foldl onWSCallback middle) := by
        intro middle hMoves hProtocol hClose
        refine hMoves.trans (ih hRest ?_)
        intro binary data hMem
        obtain ⟨hSwitched, hAllowed⟩ := hMessages binary data (List.mem_cons_of_mem _ hMem)
        exact ⟨hProtocol.trans hSwitched, fun channel hSame =>
          hAllowed channel (fun hNotice => hClose (hSame hNotice))⟩
      rw [List.foldl_cons]
      cases callback with
      | onWSMessage binary data =>
          obtain ⟨hSwitched, hAllowed⟩ := hMessages binary data (by simp)
          simp only [onWSCallback]
          split_ifs with hOpen
          · refine hGo _ (.of_step (.message binary data) (hAllowed _ id) ?_) rfl ?_
            · simp [Channel.step, channel, invokeLater, hSwitched, hOpen, List.filterMap_append,
                MainTask.notice]
            · simp [channel, Channel.notices, invokeLater, List.filterMap_append, MainTask.notice]
          · exact hGo conn (.refl conn) rfl id
      | onWSClose code => exact hGo conn (.refl conn) rfl id
      | sendWSFrame opcode header data footer =>
          have hSame : (conn.onWSCallback (.sendWSFrame opcode header data footer)).channel =
              conn.channel := by
            simp only [onWSCallback]
            split_ifs
            · exact channel_observe trivial
            · have hWrites : ({ conn with writes := conn.writes ++ [.frame] } :
                Connection File).channel = conn.channel := rfl
              exact (channel_observe (by trivial)).trans hWrites
          refine hGo _ (.of_eq hSame) ?_ (by rw [hSame]; exact id)
          simp only [onWSCallback]
          split_ifs <;> rfl
      | closeWSSocket =>
          -- only `onWSClose` follows, so that no message is to be allowed
          refine (moves_close hLenient conn).trans (ih hRest ?_)
          intro binary data hMem
          obtain ⟨code, hOther⟩ := hOnly _ hMem rfl
          cases hOther

omit [DataSource File] in
/-- The same with the state of the WebSocket stored first, which the channel does not
look into. -/
theorem moves_runWebSocket (websocket : WebSocketConnection) (callbacks : List WSCallback)
    (hLast : ClosesLast callbacks)
    (hMessages : ∀ binary data, .onWSMessage binary data ∈ callbacks →
      conn.protocol = .webSockets ∧ ∀ channel : Channel,
        (.onWSClose ∈ channel.notices → .onWSClose ∈ conn.channel.notices) →
          allowed channel (.message binary data)) :
    Moves allowed conn (conn.runWebSocket websocket callbacks) := by
  have hSame : ({ conn with websocket } : Connection File).channel = conn.channel := rfl
  refine (Moves.of_eq hSame).trans (moves_callbacks hLenient callbacks hLast ?_)
  rwa [hSame]

omit [DataSource File] in
/-- Frames alone need no permission: a call that sends or closes delivers no message to
the application. -/
theorem moves_frames (websocket : WebSocketConnection) (callbacks : List WSCallback)
    (hLast : ClosesLast callbacks) (hNone : ∀ binary data, .onWSMessage binary data ∉ callbacks) :
    Moves allowed conn (conn.runWebSocket websocket callbacks) :=
  moves_runWebSocket hLenient websocket callbacks hLast
    (fun binary data hMem => absurd hMem (hNone binary data))

section

variable [Host]

omit [DataSource File] in
/-- Bytes that are given to the WebSocket lead to its callbacks. Messages among them have
to be allowed only when these bytes complete one. -/
theorem moves_wsRead {data : Bytes} (h : conn.wsRead data = some after)
    (hProtocol : conn.protocol = .webSockets)
    (hMessages : conn.websocket.completes data = true → ∀ channel binary message,
      (.onWSClose ∈ Channel.notices channel → .onWSClose ∈ conn.channel.notices) →
        allowed channel (.message binary message)) :
    Moves allowed (conn.observe (.wsRead data)) after := by
  obtain ⟨websocket, callbacks, hRead, rfl⟩ := wsRead_cases h
  apply moves_runWebSocket hLenient _ _ (WebSocketConnection.closesLast_read hRead)
  intro binary message hMem
  refine ⟨hProtocol, fun channel hSame => ?_⟩
  have hCompletes : conn.websocket.completes data = true := by
    rw [WebSocketConnection.completes, hRead]
    exact List.any_eq_true.2 ⟨_, hMem, rfl⟩
  apply hMessages hCompletes
  have hNotices : (conn.observe (.wsRead data)).channel.notices = conn.channel.notices := by
    simp [Connection.channel, Channel.notices, observe, wsCallbacks, Observation.notice]
  rwa [← hNotices]

omit [DataSource File] in
theorem moves_runWSTask {task : WSTask} (h : conn.runWSTask task = some after) :
    Moves allowed conn after := by
  obtain ⟨websocket, callbacks, rfl, ⟨binary, message, -, rfl, hSend⟩ |
    ⟨code, reason, -, hClose⟩⟩ := runWSTask_cases h
  · obtain ⟨hLast, hNone, -⟩ := WebSocketConnection.sendWSMessage_calls hSend
    exact moves_frames hLenient _ _ hLast hNone
  · obtain ⟨hLast, hNone, -⟩ := WebSocketConnection.closeWS_calls hClose
    exact moves_frames hLenient _ _ hLast hNone

end

omit hLenient [DataSource File] in
/-- `onWSOpen` tells the background of the bytes that came with the handshake. Only their
number goes along, and the buffer is empty from then on. -/
theorem moves_callROnWSOpen {rest : List MainTask} (hQueue : conn.mainQueue = .callROnWSOpen :: rest)
    (hAllowed : allowed conn.channel .deliver) (outcome : AppOutcome File) (calls : List WSCall) :
    Moves allowed conn (callROnWSOpen { conn with mainQueue := rest } outcome calls) := by
  refine .of_step .deliver hAllowed ?_
  unfold callROnWSOpen
  split_ifs with hGone
  · have hAbsent : conn.pWebSocketConnection = false := by simpa using hGone
    simp [Channel.step, channel, hQueue, hAbsent, MainTask.notice]
  · have hPresent : conn.pWebSocketConnection = true := by simpa using hGone
    generalize hBase : ({ conn with mainQueue := rest, wsHandle := true }.observe .onWSOpen :
      Connection File) = base
    have hBaseChannel : base.channel = { conn.channel with
        queue := rest.filterMap MainTask.notice
        calls := conn.channel.calls ++ [.onWSOpen] } := by
      simp [← hBase, channel, observe, sentSinceHandshake, passedToWebSocket, wsCallbacks,
        Observation.sentAfter, Observation.passed, Observation.notice]
    have hCalls : (calls.foldl wsCall base).channel = base.channel := by
      clear hBase hBaseChannel
      induction calls generalizing base with
      | nil => rfl
      | cons call calls ih => exact (ih _).trans (channel_wsCall base call)
    generalize calls.foldl wsCall base = opened at hCalls ⊢
    have hFailed := (channel_closeIfFailed opened outcome).trans (hCalls.trans hBaseChannel)
    have hKept : opened.requestBuffer = conn.requestBuffer :=
      congrArg Channel.kept (hCalls.trans hBaseChannel)
    have hEnd : ({ opened.closeIfFailed outcome with requestBuffer := [] }.push
        (.read opened.requestBuffer.length)).channel = { (opened.closeIfFailed outcome).channel with
          kept := []
          returning := (opened.closeIfFailed outcome).channel.returning ++
            [opened.requestBuffer.length] } := by
      simp [channel, push, List.filterMap_append, BackgroundTask.returned]
    refine Eq.trans ?_ (congrArg some hEnd.symm)
    rw [hFailed, hKept]
    simp [Channel.step, channel, hQueue, hPresent, MainTask.notice]

omit hLenient [DataSource File] in
/-- Events of the parser leave the protocol and the buffer alone: bytes are kept by
`parse_http_data` after the parser has stopped. -/
theorem onEvent_stashed (conn : Connection File) (static : Option (HttpResponse (Body File)))
    (event : ParserEvent) : (conn.onEvent static event).protocol = conn.protocol ∧
      (conn.onEvent static event).requestBuffer = conn.requestBuffer := by
  have hClose : ∀ conn : Connection File, conn.close.protocol = conn.protocol ∧
      conn.close.requestBuffer = conn.requestBuffer := by
    intro conn
    unfold close
    split_ifs <;> exact ⟨rfl, rfl⟩
  cases event with
  | onMessageBegin =>
      simp only [onEvent, newRequest_eq]
      split_ifs
      · exact hClose conn.begun
      · exact ⟨rfl, rfl⟩
  | onHeadersComplete upgrade =>
      simp only [onEvent, onHeadersComplete]
      split <;> exact ⟨rfl, rfl⟩
  | onMessageComplete =>
      simp only [onEvent, onMessageComplete]
      split_ifs <;> exact ⟨rfl, rfl⟩
  | _ => exact ⟨rfl, rfl⟩

omit hLenient [DataSource File] in
theorem feed_stashed (conn : Connection File) (static : Option (HttpResponse (Body File)))
    (buffer : Bytes) : (conn.feed static buffer).protocol = conn.protocol ∧
      (conn.feed static buffer).requestBuffer = conn.requestBuffer := by
  have hEvents : ∀ (events : List ParserEvent) (conn : Connection File),
      (events.foldl (onEvent static) conn).protocol = conn.protocol ∧
        (events.foldl (onEvent static) conn).requestBuffer = conn.requestBuffer := by
    intro events
    induction events with
    | nil => exact fun conn => ⟨rfl, rfl⟩
    | cons event events ih =>
        intro conn
        obtain ⟨hProtocol, hBuffer⟩ := onEvent_stashed conn static event
        obtain ⟨hProtocol', hBuffer'⟩ := ih (conn.onEvent static event)
        exact ⟨hProtocol'.trans hProtocol, hBuffer'.trans hBuffer⟩
  exact hEvents _ ({ conn with parser := (HttpParser.execute conn.parser buffer).parser }.observe
    (.execute (buffer.take (HttpParser.execute conn.parser buffer).parsed)))

variable [Host] [Digests]

/-- An upgrade begins with the bytes that come with it. They are kept in the buffer, which
is empty before, until `onWSOpen` has been called. -/
theorem moves_upgrade {now : Tm} {pData : Bytes} (h : conn.upgrade now pData = some after)
    (hProtocol : conn.protocol = .http) (hKept : conn.requestBuffer = []) :
    Moves allowed conn after := by
  rcases upgrade_cases h with ⟨-, rfl⟩ | ⟨-, -, rfl⟩ |
    ⟨parser, handshake, answered, hOpen, -, -, hAnswered, rfl⟩
  · exact .refl _
  · have hRefused : Moves allowed conn (conn.observe (.accept conn.current false)) :=
      .of_eq (channel_observe trivial)
    split_ifs
    · exact hRefused
    · exact hRefused.trans (moves_close hLenient _)
  · have hWrote := channel_wrote (wrote hAnswered).choose_spec
    refine .of_step (.switch handshake.pData) (hLenient.switch _ _ hKept) ?_
    have hSwitched : (answered.switchProtocol handshake).channel = { answered.channel with
        switched := true
        kept := answered.channel.kept ++ handshake.pData
        queue := answered.channel.queue ++ [.onWSOpen] } := by
      simp [switchProtocol, channel, invokeLater, List.filterMap_append, MainTask.notice]
    have hAccept : (conn.accept parser handshake).channel =
        { conn.channel with sent := some handshake.pData } := by
      simp [accept, channel, observe, sentSinceHandshake, passedToWebSocket, wsCallbacks,
        Observation.sentAfter, Observation.passed, Observation.notice, List.foldl_append,
        List.filterMap_append]
    rw [hSwitched, hWrote, hAccept]
    simp [Channel.step, channel, hProtocol]

omit hLenient [DataSource File] [Host] [Digests] in
/-- A parser that waits goes on waiting, whatever bytes it is offered. This is why they
have to be kept. -/
theorem waits_on (contract : HttpParserContract) {static : Option (HttpResponse (Body File))}
    (hPhase : contract.phase conn.parser = .waiting) (buffer : Bytes) :
    HttpParser.waitingForHeadersCompleted (conn.feed static buffer).parser = true := by
  rw [parser_feed, contract.waiting_iff]
  rcases (contract.silent (Or.inl hPhase) buffer).2 with hStill | ⟨hRefused, -⟩
  · exact hStill.trans hPhase
  · rw [hPhase] at hRefused
    cases hRefused

/-- Bytes for the parser, when nothing is kept for it unless it waits. The four branches
are those of `parse_http_data`: wait, upgrade, close for an error, or go on. -/
theorem moves_parse (contract : HttpParserContract) {static : Option (HttpResponse (Body File))}
    {now : Tm} {buffer : Bytes} (h : conn.parseHttpData static now buffer = some after)
    (hProtocol : conn.protocol = .http)
    (hKept : contract.phase conn.parser ≠ .waiting → conn.requestBuffer = []) :
    Moves allowed conn after := by
  obtain ⟨hSame, hBuffer⟩ := feed_stashed conn static buffer
  have hFed := moves_feed hLenient conn static buffer
  have hEmpty : HttpParser.waitingForHeadersCompleted (conn.feed static buffer).parser ≠ true →
      (conn.feed static buffer).requestBuffer = [] := by
    intro hWaiting
    rw [hBuffer]
    exact hKept (fun hPhase => hWaiting (waits_on contract hPhase buffer))
  unfold parseHttpData at h
  dsimp only at h
  split_ifs at h with hWaiting hUpgrade hRest hIgnore
  · obtain rfl := Option.some.inj h
    have hKeep : (conn.feed static buffer).channel.step (.keep
        ((conn.feed static buffer).requestBuffer ++
          buffer.drop (HttpParser.execute conn.parser buffer).parsed)) =
        some ({ conn.feed static buffer with
          requestBuffer := (conn.feed static buffer).requestBuffer ++
            buffer.drop (HttpParser.execute conn.parser buffer).parsed } :
          Connection File).channel := by
      simp [Channel.step, channel, hSame, hProtocol]
    exact hFed.trans (.of_step _ (hLenient.plain _ _ (by trivial)) hKeep)
  · exact hFed.trans (moves_upgrade hLenient h (hSame.trans hProtocol) (hEmpty hWaiting))
  · obtain rfl := Option.some.inj h
    exact hFed
  · obtain rfl := Option.some.inj h
    have hStopped : Moves allowed (conn.feed static buffer)
        { conn.feed static buffer with reading := false } := by
      simpa using moves_stopped hLenient (conn.feed static buffer) false
    exact hFed.trans (hStopped.trans (moves_close hLenient _))
  · obtain rfl := Option.some.inj h
    exact hFed

omit hLenient [Host] [Digests] in
theorem protocol_wrote {request : Nat} {kind : ResponseKind} {response : HttpResponse (Body File)}
    (h : Wrote conn after request kind response entries) : after.protocol = conn.protocol := by
  obtain ⟨writes, rfl⟩ := h.same
  rfl

omit [Host] [Digests] in
/-- The decision about the headers is carried out before the protocol can change. What it
writes is off the channel. -/
theorem moves_headersCompleted {now : Tm} {request : Nat}
    {response : Option (HttpResponse (Body File))}
    (h : conn.headersCompleted now request response = some middle) :
    Moves allowed conn middle ∧ middle.protocol = conn.protocol := by
  cases response with
  | some answer =>
      obtain ⟨closing, answered, hFinishes, rfl⟩ := headersCompleted_some h
      have hParser : ({ answered with parser := HttpParser.headersCompleted answered.parser 3 } :
        Connection File).channel = answered.channel := rfl
      have hProtocol : answered.protocol = (conn.stopIf closing).protocol :=
        protocol_wrote (wrote hFinishes).choose_spec
      exact ⟨(moves_finishes hLenient hFinishes).trans (.of_eq hParser), hProtocol⟩
  | none =>
      obtain ⟨continued, hContinued, rfl⟩ := headersCompleted_none h
      have hParser : ({ continued with parser := HttpParser.headersCompleted continued.parser 0 } :
        Connection File).channel = continued.channel := rfl
      rcases hContinued with rfl | hContinued
      · exact ⟨.of_eq hParser, rfl⟩
      · have hWrote := (wrote hContinued).choose_spec
        have hProtocol : continued.protocol = conn.protocol := protocol_wrote hWrote
        exact ⟨.of_eq (hParser.trans (channel_wrote hWrote)), hProtocol⟩

end Operations

/-! The main thread: only the callbacks of the WebSocket are events. -/

theorem channel_schedule {task : BackgroundTask File} (hTask : task.returned = none)
    (scheduled : Bool) :
    ({ conn with responseScheduled := scheduled }.push task).channel = conn.channel := by
  have hScheduled : ({ conn with responseScheduled := scheduled } : Connection File).channel =
    conn.channel := rfl
  exact (channel_push hTask).trans hScheduled

/-- The callbacks for requests put their answers on the background queue, and none of
these answers is about the WebSocket. -/
theorem channel_onHeaders (conn : Connection File) (request : Nat) (outcome : AppOutcome File)
    (now : Tm) : (conn.onHeaders request outcome now).channel = conn.channel := by
  have hSchedule : ∀ (conn : Connection File) response,
      (conn.scheduleHeadersCompleteComplete request response).channel = conn.channel := by
    intro conn response
    refine Eq.trans (channel_push rfl) ?_
    cases response with
    | none => rfl
    | some answer =>
        have hScheduled : ({ conn with responseScheduled := true } : Connection File).channel =
          conn.channel := rfl
        exact (channel_observe (by trivial)).trans hScheduled
  have hObserved : (conn.observe (.onHeaders request)).channel = conn.channel :=
    channel_observe trivial
  cases outcome with
  | returned answer => exact (hSchedule _ _).trans hObserved
  | failed => exact (hSchedule _ _).trans hObserved
  | malformed => exact hObserved
  | promise => exact hObserved

theorem channel_onBodyData (conn : Connection File) (request : Nat) (outcome : AppOutcome File)
    (now : Tm) : (conn.onBodyData request outcome now).channel = conn.channel := by
  unfold onBodyData
  split_ifs
  · rfl
  · cases outcome with
    | failed => exact (channel_schedule rfl _).trans (channel_observe trivial)
    | _ => exact channel_observe trivial

theorem channel_getResponse (conn : Connection File) (request : Nat) (outcome : AppOutcome File)
    (now : Tm) : (conn.getResponse request outcome now).channel = conn.channel := by
  have hCall : (conn.observe (.call request)).channel = conn.channel := channel_observe trivial
  unfold getResponse
  split_ifs
  · exact channel_schedule rfl _
  · cases outcome with
    | promise => exact hCall
    | returned answer => exact (channel_schedule rfl _).trans hCall
    | malformed => exact (channel_schedule rfl _).trans hCall
    | failed => exact (channel_schedule rfl _).trans hCall

/-- A callback is a delivery, in the order of the queue. Everything else that the main
thread runs leaves the channel as it is. -/
theorem moves_runMain {outcome : AppOutcome File} {calls : List WSCall} {now : Tm}
    (h : conn.runMain outcome calls now = some after)
    (hDeliver : ∀ task rest, conn.mainQueue = task :: rest → task.notice ≠ none →
      allowed conn.channel .deliver) : Moves allowed conn after := by
  obtain ⟨task, rest, hQueue, rfl⟩ := runMain_cases h
  cases task with
  | initializeEnv =>
      exact .of_eq (channel_popMain rfl hQueue)
  | onHeaders request =>
      exact .of_eq ((channel_onHeaders _ _ _ _).trans (channel_popMain rfl hQueue))
  | onBodyData request data =>
      exact .of_eq ((channel_onBodyData _ _ _ _).trans (channel_popMain rfl hQueue))
  | getResponse request =>
      exact .of_eq ((channel_getResponse _ _ _ _).trans (channel_popMain rfl hQueue))
  | callROnWSOpen =>
      exact moves_callROnWSOpen hQueue (hDeliver _ _ hQueue (by simp [MainTask.notice])) _ _
  | onWSMessage binary data =>
      refine .of_step .deliver (hDeliver _ _ hQueue (by simp [MainTask.notice])) ?_
      rw [performed, channel_closeIfFailed]
      simp [Channel.step, channel, hQueue, observe, sentSinceHandshake, passedToWebSocket,
        wsCallbacks, MainTask.notice, Observation.notice, Observation.passed,
        Observation.sentAfter]
  | onWSClose =>
      refine .of_step .deliver (hDeliver _ _ hQueue (by simp [MainTask.notice])) ?_
      simp [performed, Channel.step, channel, hQueue, observe, sentSinceHandshake, passedToWebSocket,
        wsCallbacks, MainTask.notice, Observation.notice, Observation.passed,
        Observation.sentAfter]

/-! ## Steps -/

/-- The buffer is only used while the parser waits, until the connection is switched.
Then it holds what has come with the handshake. -/
def Stashed (phase : ParserPhase) (conn : Connection File) : Prop :=
  conn.protocol = .http → phase ≠ .waiting → conn.requestBuffer = []

/-- What the WebSocket reads in a step. It is the data of a read, or the bytes that are
found behind the pointer of the task, of which only the number is known. -/
inductive Gives (conn : Connection File) : ConnectionAction File → Bytes → Prop
  | read {data : Bytes} {static : Option (HttpResponse (Body File))} {now : Tm}
      (hProtocol : conn.protocol = .webSockets) : Gives conn (.read data static now) data
  | task {freed : Bytes} {rest : List (BackgroundTask File)}
      {static : Option (HttpResponse (Body File))} {now : Tm}
      (hQueue : conn.backgroundQueue = .read freed.length :: rest) :
      Gives conn (.runBackground static now freed) freed

/-- The events of a step are allowed. The fields ask for no more than the step can do:
to read or to give bytes, to complete a message with them, or to call the application. -/
structure Permits [Host] (allowed : Channel → ChannelEvent → Prop) (conn : Connection File)
    (action : ConnectionAction File) : Prop where
  receive : ∀ data static now, action = .read data static now → conn.protocol = .webSockets →
    conn.ignoreNewData = false → conn.pWebSocketConnection = true →
      allowed conn.channel (.receive data)
  giveBack : ∀ static now freed, action = .runBackground static now freed →
    ∀ rest, conn.backgroundQueue = .read freed.length :: rest →
      allowed conn.channel (.giveBack freed)
  message : ∀ data, conn.Gives action data → conn.websocket.completes data = true →
    ∀ channel binary message,
      (.onWSClose ∈ Channel.notices channel → .onWSClose ∈ conn.channel.notices) →
        allowed channel (.message binary message)
  deliver : ∀ outcome calls now, action = .runMain outcome calls now →
    ∀ task rest, conn.mainQueue = task :: rest → task.notice ≠ none →
      allowed conn.channel .deliver

section Steps

variable [DataSource File] [Host] [Digests] {static : Option (HttpResponse (Body File))} {now : Tm}
  {phase : ParserPhase}

/-- A read in its four cases: ignored, for the parser, for the WebSocket, or for one that
is gone. In the first and the last the bytes count as sent and go nowhere. -/
theorem moves_onRead (contract : HttpParserContract) (hLenient : Lenient allowed)
    (hStashed : Stashed (contract.phase conn.parser) conn) {data : Bytes}
    (h : conn.onRead static now data = some after)
    (hPermits : conn.Permits allowed (.read data static now)) : Moves allowed conn after := by
  unfold onRead at h
  dsimp only at h
  have hRead : (conn.observe (.read data)).channel = { conn.channel with
      sent := conn.channel.sent.map (· ++ data) } := by
    simp [channel, observe, sentSinceHandshake, passedToWebSocket, wsCallbacks,
      Observation.notice, Observation.passed, Observation.sentAfter]
  have hDropped : conn.ignoreNewData = true ∨ conn.pWebSocketConnection = false →
      Moves allowed conn (conn.observe (.read data)) := by
    intro hDeaf
    refine .of_step (.drop data) (hLenient.plain _ _ trivial) ?_
    rw [hRead]
    rcases hDeaf with hDeaf | hDeaf <;> simp [Channel.step, channel, hDeaf]
  by_cases hIgnore : conn.ignoreNewData = true
  · rw [if_pos (show (conn.observe (.read data)).ignoreNewData = true from hIgnore)] at h
    obtain rfl := Option.some.inj h
    exact hDropped (Or.inl hIgnore)
  · rw [if_neg (show ¬ (conn.observe (.read data)).ignoreNewData = true from hIgnore)] at h
    cases hProtocol : (conn.observe (.read data)).protocol with
    | http =>
        rw [hProtocol] at h
        have hHttp : conn.protocol = .http := hProtocol
        refine Moves.trans ?_ (moves_parse hLenient contract h hProtocol (hStashed hProtocol))
        refine .of_step (.read data) (hLenient.plain _ _ trivial) ?_
        rw [hRead]
        simp [Channel.step, channel, hHttp]
    | webSockets =>
        rw [hProtocol] at h
        dsimp only at h
        have hSwitched : conn.protocol = .webSockets := hProtocol
        have hHears : conn.ignoreNewData = false := by simpa using hIgnore
        by_cases hOpen : conn.pWebSocketConnection = true
        · rw [if_pos (show (conn.observe (.read data)).pWebSocketConnection = true from hOpen)] at h
          have hReceive := hPermits.receive data static now rfl hProtocol hHears hOpen
          have hGiven : Moves allowed conn ((conn.observe (.read data)).observe (.wsRead data)) := by
            refine .of_step (.receive data) hReceive ?_
            simp [Channel.step, channel, hSwitched, hHears, hOpen, observe, sentSinceHandshake,
              passedToWebSocket, wsCallbacks, Observation.notice, Observation.passed,
              Observation.sentAfter, List.foldl_append, List.filterMap_cons]
          refine hGiven.trans (moves_wsRead hLenient h hProtocol ?_)
          intro hCompletes channel binary message hSame
          have hNotices : (conn.observe (.read data)).channel.notices = conn.channel.notices := by
            rw [hRead]
            rfl
          exact hPermits.message data (.read hProtocol) hCompletes channel binary message
            (hNotices ▸ hSame)
        · rw [if_neg (show ¬ (conn.observe (.read data)).pWebSocketConnection = true from hOpen)] at h
          obtain rfl := Option.some.inj h
          exact hDropped (Or.inr (by simpa using hOpen))

/-- A task of the background. The decision about the headers goes on with the bytes that
were kept, which takes three moves: what it writes, taking the bytes, parsing them. -/
theorem moves_runBackground (contract : HttpParserContract) (hLenient : Lenient allowed)
    (hSound : Sound (contract.phase conn.parser) conn) {freed : Bytes}
    (h : conn.runBackground static now freed = some after)
    (hPermits : conn.Permits allowed (.runBackground static now freed)) :
    Moves allowed conn after := by
  obtain ⟨task, rest, hQueue, hRan⟩ := runBackground_cases h
  have hPopped : task.returned = none → Moves allowed conn { conn with backgroundQueue := rest } :=
    fun hNone => .of_eq (channel_popBackground hNone hQueue)
  cases hRan with
  | @onHeadersCompleteComplete request response middle after hMiddle hAfter =>
      have hPlain : ({ conn with backgroundQueue := rest } : Connection File).protocol = .http :=
        protocol_http ((hSound.front hQueue).2.2 .head).2
      have hHttp : conn.protocol = .http := hPlain
      obtain ⟨hMoves, hSame⟩ := moves_headersCompleted hLenient hMiddle
      have hTaken : Moves allowed middle { middle with requestBuffer := [] } := by
        refine .of_step (.keep []) (hLenient.plain _ _ trivial) ?_
        simp [Channel.step, channel, hSame.trans hHttp]
      have hParsed : Moves allowed { middle with requestBuffer := [] } after :=
        moves_parse hLenient contract hAfter (hSame.trans hHttp) (fun _ => rfl)
      exact (hPopped rfl).trans (hMoves.trans (hTaken.trans hParsed))
  | onBodyError hAfter =>
      have hPaused : Moves allowed conn
          { conn with backgroundQueue := rest, parser := HttpParser.pause conn.parser } :=
        .of_eq (channel_popBackground rfl hQueue)
      exact hPaused.trans (moves_finishes hLenient (onBodyError_finishes hAfter))
  | onMessageCompleteComplete hAfter =>
      rcases onMessageCompleteComplete_cases hAfter with ⟨rfl, -⟩ | ⟨-, answer, -, hFinishes⟩
      · exact hPopped rfl
      · exact (hPopped rfl).trans (moves_finishes hLenient hFinishes)
  | close => exact (hPopped rfl).trans (moves_close hLenient _)
  | read hAfter =>
      have hSwitched : conn.protocol = .webSockets :=
        (hSound.switched (Or.inr (Or.inr (Or.inl ⟨freed.length, by simp [hQueue]⟩)))).1
      have hGiven : Moves allowed conn
          ({ conn with backgroundQueue := rest }.observe (.wsRead freed)) := by
        refine .of_step (.giveBack freed) (hPermits.giveBack static now freed rfl rest hQueue) ?_
        simp [Channel.step, channel, hQueue, observe, sentSinceHandshake, passedToWebSocket,
          wsCallbacks, Observation.notice, Observation.passed, Observation.sentAfter,
          BackgroundTask.returned]
      exact hGiven.trans
        (moves_wsRead hLenient hAfter hSwitched (hPermits.message freed (.task hQueue)))
  | websocket hAfter => exact (hPopped rfl).trans (moves_runWSTask hLenient hAfter)

/-- The connection refines the channel: a step that is permitted is a sequence of events,
all of which are allowed where they occur. -/
theorem moves_next (contract : HttpParserContract) (hLenient : Lenient allowed)
    {action : ConnectionAction File} (hSound : Sound (contract.phase conn.parser) conn)
    (hStashed : Stashed (contract.phase conn.parser) conn)
    (hPermits : conn.Permits allowed action) (h : conn.next action = some after) :
    Moves allowed conn after := by
  cases action with
  | read data static now =>
      simp only [next, Option.ite_none_right_eq_some] at h
      exact moves_onRead contract hLenient hStashed h.2 hPermits
  | readError =>
      simp only [next, Option.ite_none_right_eq_some, Option.some.injEq] at h
      obtain ⟨-, rfl⟩ := h
      exact moves_close hLenient conn
  | written status queueEmpty => exact moves_onWritten hLenient h
  | onClosed => exact moves_onClosed hLenient h
  | pingTimer =>
      simp only [next, Option.bind_eq_bind, Option.bind_eq_some_iff, Option.pure_def,
        Option.some.injEq] at h
      obtain ⟨callbacks, hPing, rfl⟩ := h
      simp only [WebSocketConnection.sendPing, Option.ite_none_right_eq_some] at hPing
      obtain ⟨hLast, hNone, -⟩ := WebSocketConnection.sendWSMessage_calls hPing.2
      exact moves_frames hLenient _ _ hLast hNone
  | stop =>
      obtain rfl := Option.some.inj h
      exact moves_close hLenient conn
  | runBackground static now freed => exact moves_runBackground contract hLenient hSound h hPermits
  | runMain outcome calls now => exact moves_runMain h (hPermits.deliver outcome calls now rfl)
  | settle index outcome now =>
      simp only [next, settle, Option.bind_eq_bind, Option.bind_eq_some_iff] at h
      obtain ⟨request, -, h⟩ := h
      cases outcome with
      | returned answer =>
          obtain rfl := Option.some.inj h
          have hPromises : ({ conn with promises := conn.promises.eraseIdx index } :
            Connection File).channel = conn.channel := rfl
          exact .of_eq ((channel_schedule rfl true).trans hPromises)
      | malformed =>
          obtain rfl := Option.some.inj h
          exact .of_eq rfl
      | promise =>
          obtain rfl := Option.some.inj h
          exact .of_eq rfl
      | failed =>
          obtain rfl := Option.some.inj h
          exact .of_eq rfl
  | wsCall call =>
      obtain rfl := Option.some.inj h
      exact .of_eq (channel_wsCall conn call)

omit [Host] [Digests] in
/-- Steps that no request notices do not use the buffer, except those of a switched
connection. -/
theorem Stashed.quiet (h : Stashed phase conn)
    (hSwitched : conn.UsesWebSocket → conn.protocol = .webSockets) (hQuiet : Quiet conn after) :
    Stashed phase after := by
  intro hProtocol hPhase
  have hBefore : conn.protocol = .http := hQuiet.protocol.symm.trans hProtocol
  rcases hQuiet.requestBuffer with hUses | hSame
  · rw [hSwitched hUses] at hBefore
    cases hBefore
  · exact hSame.trans (h hBefore hPhase)

/-- Parsing keeps nothing unless the parser waits at its end. After an upgrade the protocol
is another one, so there is nothing to show. -/
theorem Stashed.parsed (contract : HttpParserContract) {buffer : Bytes}
    (hFeeding : Feeding (contract.phase conn.parser) conn)
    (hKept : contract.phase conn.parser ≠ .waiting → conn.requestBuffer = [])
    (h : Parsed conn static now buffer after) :
    Stashed (contract.phase after.parser) after := by
  have hUses := (hFeeding.feed contract static buffer).2
  have hFed : Stashed (contract.phase (conn.feed static buffer).parser)
      (conn.feed static buffer) := by
    intro hProtocol hPhase
    rw [(feed_stashed conn static buffer).2]
    exact hKept (fun hStart => hPhase ((contract.waiting_iff _).1 (waits_on contract hStart buffer)))
  cases h with
  | waiting hWaiting =>
      intro hProtocol hPhase
      exact absurd ((contract.waiting_iff _).1 hWaiting) hPhase
  | upgrade hWaiting hUpgrade hAfter =>
      rw [hAfter.parser]
      cases hAfter with
      | gone hGone => exact hFed
      | refused hRefused hQuiet hClosed =>
          have hObserved : Stashed (contract.phase (conn.feed static buffer).parser)
              ((conn.feed static buffer).observe
                (.accept (conn.feed static buffer).current false)) := hFed
          refine hObserved.quiet (fun hNow => ?_) hQuiet
          exact absurd (UsesWebSocket.of_append hNow (by simp) (by simp)) hUses
      | accepted hOpen hAccepted hHandshake hAnswered =>
          intro hProtocol
          cases hProtocol
  | quiet hWaiting hUpgrade hQuiet hRest =>
      rw [hQuiet.parser]
      exact hFed.quiet (fun hNow => absurd hNow hUses) hQuiet

omit [Host] [Digests] in
theorem Stashed.finishes {request : Nat} {response : HttpResponse (Body File)} {closing : Bool}
    (h : Stashed phase conn) (hFinishes : Finishes conn request response closing after) :
    Stashed phase after := by
  obtain ⟨entries, hWrote⟩ := wrote hFinishes
  obtain ⟨writes, rfl⟩ := hWrote.same
  exact h

/-- Every step keeps the buffer empty but for its two uses. Only the steps that parse look
into it; the others leave it as it is. -/
theorem Stashed.step (contract : HttpParserContract)
    (hSound : Sound (contract.phase conn.parser) conn)
    (h : Stashed (contract.phase conn.parser) conn) (hStep : Step conn after) :
    Stashed (contract.phase after.parser) after := by
  cases hStep with
  | quiet hQuiet =>
      rw [hQuiet.parser]
      exact h.quiet (fun hUses => (hSound.switched hUses).1) hQuiet
  | read static now data hReading hIgnore hProtocol hParsed =>
      have hHttp : ¬ conn.UsesWebSocket := hSound.http hProtocol
      have hFeeding : Feeding (contract.phase conn.parser) conn := ⟨hSound, hHttp⟩
      have hRead := hFeeding.observe (.read data) (by simp) (by simp)
      have hKept : contract.phase (conn.observe (.read data)).parser ≠ .waiting →
          (conn.observe (.read data)).requestBuffer = [] := h hProtocol
      exact Stashed.parsed contract hRead hKept hParsed
  | onHeadersCompleteComplete static now hQueue hMiddle hParsed =>
      obtain ⟨-, -, hPopped⟩ := hSound.front hQueue
      exact Stashed.parsed contract ((hPopped _).headersCompleted hMiddle) (fun _ => rfl) hParsed
  | @onBodyError _ request response rest hQueue hAfter =>
      have hFinishes := onBodyError_finishes hAfter
      have hPaused : Stashed (contract.phase conn.parser)
          { conn with backgroundQueue := rest, parser := HttpParser.pause conn.parser } := h
      rw [hFinishes.parser, contract.pause]
      exact hPaused.finishes hFinishes
  | @onMessageCompleteComplete _ request response rest hQueue hAfter =>
      have hPopped : Stashed (contract.phase conn.parser)
          { conn with backgroundQueue := rest } := h
      rcases onMessageCompleteComplete_cases hAfter with ⟨rfl, -⟩ | ⟨-, answer, -, hFinishes⟩
      · exact hPopped
      · rw [hFinishes.parser]
        exact hPopped.finishes hFinishes
  | decided hQueue response => exact h
  | undecided hQueue => exact h
  | bodySkipped hQueue hScheduled => exact h
  | bodyTaken hQueue hScheduled => exact h
  | bodyFailed hQueue hScheduled now => exact h
  | callSkipped hQueue hScheduled => exact h
  | called hQueue hScheduled response => exact h
  | promised hQueue hScheduled => exact h
  | settled hPromise response => exact h
  | rejected hPromise => exact h

/-- A run whose steps are permitted is a run of the channel. What holds of all runs of the
channel can then be read off the connection, without another look at its steps. -/
theorem run_moves (contract : HttpParserContract) (hLenient : Lenient allowed)
    {condition : Connection File → ConnectionAction File → Prop}
    {start finish : Connection File} {actions : List (ConnectionAction File)} {outputs : List Unit}
    (run : (system.guarded condition).Run start actions finish outputs) (hInitial : Initial start)
    (hPermits : ∀ conn action after, Sound (contract.phase conn.parser) conn →
      Relation.ReflTransGen (Channel.Move allowed) Channel.fresh conn.channel →
      condition conn action → conn.next action = some after → conn.Permits allowed action) :
    Relation.ReflTransGen (Channel.Move allowed) Channel.fresh finish.channel := by
  have hFresh : start.channel = Channel.fresh ∧ Stashed (contract.phase start.parser) start := by
    obtain ⟨incompleteContentHeader, header, rfl⟩ := hInitial
    exact ⟨rfl, fun _ _ => rfl⟩
  suffices hAll : Sound (contract.phase finish.parser) finish ∧
      Stashed (contract.phase finish.parser) finish ∧
      Relation.ReflTransGen (Channel.Move allowed) Channel.fresh finish.channel from hAll.2.2
  apply run.invariant (I := fun conn _ => Sound (contract.phase conn.parser) conn ∧
    Stashed (contract.phase conn.parser) conn ∧
    Relation.ReflTransGen (Channel.Move allowed) Channel.fresh conn.channel)
  · refine ⟨hInitial.sound contract, hFresh.2, ?_⟩
    rw [hFresh.1]
  · rintro conn outputs action after emitted ⟨hSound, hStashed, hChannel⟩ ⟨hCondition, hNext⟩
    obtain ⟨result, hResult, hSame⟩ := Option.map_eq_some_iff.1 hNext
    obtain rfl : result = after := congrArg Prod.fst hSame
    have hTaken := Connection.step hResult
    have hMoves := moves_next contract hLenient hSound hStashed
      (hPermits conn action result hSound hChannel hCondition hResult) hResult
    exact ⟨hSound.step contract hTaken, hStashed.step contract hSound hTaken,
      hChannel.trans hMoves⟩

end Steps

end Connection

end Httpuv
