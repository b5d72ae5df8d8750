import Httpuv.Http.ResponseFraming
import Httpuv.Http.Steps
import Httpuv.Parser.Contract

/-! Writes on a handle that is being closed. -/
namespace Httpuv

open Semantics

/-- A call of `uv_write`, whether it is taken or not. -/
def Observation.IsUvWrite {File : Type} : Observation File → Prop
  | .uvWrite _ _ | .uvWriteFailed _ => True
  | _ => False

/-- Nothing is given to `uv_write` after `uv_close`. -/
def SilentAfterClose {File : Type} (log : List (Observation File)) : Prop :=
  AtEach (fun before entry => entry.IsUvWrite → .uvClose ∉ before) log

namespace Connection

variable {File : Type} [HttpParser] [Zlib] {conn middle after : Connection File}

/-- `uv_close` is called when the connection begins to close, and reading stops. -/
structure Marked (conn : Connection File) : Prop where
  isClosing : conn.isClosing = true ↔ .uvClose ∈ conn.log
  reading : conn.reading = true → conn.isClosing = false

/-- A part of a step that writes on a closing handle exactly if `late`. -/
structure Issues (late : Prop) (conn after : Connection File) : Prop where
  marked : conn.Marked → after.Marked
  grows : conn.log <+: after.log
  silent : conn.Marked → SilentAfterClose conn.log → (SilentAfterClose after.log ↔ ¬ late)

namespace Issues

variable {late later : Prop} {entries : List (Observation File)}

theorem refl (conn : Connection File) : Issues False conn conn where
  marked := id
  grows := List.prefix_refl _
  silent := fun _ hSilent => by simp [hSilent]

theorem trans (h : Issues late conn middle) (h' : Issues later middle after) :
    Issues (late ∨ later) conn after where
  marked := fun hMarked => h'.marked (h.marked hMarked)
  grows := h.grows.trans h'.grows
  silent := by
    intro hMarked hSilent
    have hMiddle := h.silent hMarked hSilent
    by_cases hLate : late
    · have hLoud : ¬ SilentAfterClose after.log := fun hAfter =>
        hMiddle.1 (AtEach.of_prefix hAfter h'.grows) hLate
      simp [hLate, hLoud]
    · have hAfter := h'.silent (h.marked hMarked) (hMiddle.2 hLate)
      simpa [hLate] using hAfter

theorem congr (h : Issues late conn after) (hSame : late ↔ later) : Issues later conn after := by
  rwa [← propext hSame]

theorem quiet_trans (h : Issues False conn middle) (h' : Issues later middle after) :
    Issues later conn after :=
  (h.trans h').congr (by simp)

theorem trans_quiet (h : Issues late conn middle) (h' : Issues False middle after) :
    Issues late conn after :=
  (h.trans h').congr (by simp)

/-- The connection is not closed here. -/
theorem extend (hClosing : after.isClosing = conn.isClosing)
    (hReading : after.reading = true → conn.reading = true)
    (hLog : after.log = conn.log ++ entries) (hOpen : .uvClose ∉ entries) :
    Issues (conn.isClosing = true ∧ ∃ entry ∈ entries, entry.IsUvWrite) conn after where
  marked := by
    intro hMarked
    refine ⟨?_, fun hAfter => hClosing.trans (hMarked.reading (hReading hAfter))⟩
    rw [hClosing, hLog, hMarked.isClosing, List.mem_append, or_iff_left hOpen]
  grows := ⟨entries, hLog.symm⟩
  silent := by
    intro hMarked hSilent
    rw [hLog]
    constructor
    · rintro hAfter ⟨hClosing, entry, hMem, hWrite⟩
      obtain ⟨before, rest, rfl⟩ := List.append_of_mem hMem
      refine hAfter (conn.log ++ before) entry ⟨rest, by simp⟩ hWrite ?_
      exact List.mem_append_left _ (hMarked.isClosing.1 hClosing)
    · intro hNone
      by_cases hClosing : conn.isClosing = true
      · apply hSilent.append
        exact fun entry hMem before hWrite => absurd ⟨hClosing, entry, hMem, hWrite⟩ hNone
      · rintro before entry ⟨rest, hAll⟩ hWrite hMem
        have hClose : .uvClose ∈ conn.log ++ entries := by
          rw [← hAll]
          simp [hMem]
        rcases List.mem_append.1 hClose with hClose | hClose
        · exact hClosing (hMarked.isClosing.2 hClose)
        · exact hOpen hClose

theorem same (hClosing : after.isClosing = conn.isClosing)
    (hReading : after.reading = true → conn.reading = true) (hLog : after.log = conn.log) :
    Issues False conn after :=
  (extend hClosing hReading (hLog.trans (List.append_nil _).symm) (by simp)).congr (by simp)

/-- Changes that come first. -/
theorem from_same (h : Issues late middle after) (hClosing : middle.isClosing = conn.isClosing)
    (hReading : middle.reading = true → conn.reading = true) (hLog : middle.log = conn.log) :
    Issues late conn after :=
  (same hClosing hReading hLog).quiet_trans h

theorem record (conn : Connection File) (entry : Observation File) (hOpen : .uvClose ≠ entry) :
    Issues (conn.isClosing = true ∧ entry.IsUvWrite) conn (conn.observe entry) := by
  have hOne : Issues (conn.isClosing = true ∧ ∃ other ∈ [entry], other.IsUvWrite) conn
      (conn.observe entry) :=
    extend rfl id rfl (by simpa using hOpen)
  exact hOne.congr (by simp)

/-- Entries that are about other things. -/
theorem observe (conn : Connection File) (entry : Observation File) (hWrite : ¬ entry.IsUvWrite)
    (hOpen : .uvClose ≠ entry) : Issues False conn (conn.observe entry) :=
  (record conn entry hOpen).congr (by simp [hWrite])

theorem foldl {Step : Type} {f : Connection File → Step → Connection File} (steps : List Step)
    (hStep : ∀ conn, ∀ step ∈ steps, Issues False conn (f conn step)) (conn : Connection File) :
    Issues False conn (steps.foldl f conn) := by
  induction steps generalizing conn with
  | nil => exact refl conn
  | cons step steps ih =>
      apply (hStep conn step (by simp)).quiet_trans
      exact ih (fun conn step hMem => hStep conn step (List.mem_cons_of_mem _ hMem)) _

end Issues

theorem issues_close (conn : Connection File) : Issues False conn conn.close := by
  by_cases hClosing : conn.isClosing = true
  · rw [close, if_pos hClosing]
    exact .refl conn
  have hClosed : Issues False conn
      ({ conn with isClosing := true, reading := false }.observe .uvClose) := {
    marked := fun hMarked => ⟨by simp [observe], by simp [observe]⟩
    grows := List.prefix_append _ _
    silent := by
      intro hMarked hSilent
      have hAll : SilentAfterClose (conn.log ++ [.uvClose]) :=
        AtEach.concat_iff.2 ⟨hSilent, fun hWrite => hWrite.elim⟩
      exact ⟨fun _ => id, fun _ => hAll⟩ }
  rw [close, if_neg hClosing]
  dsimp only
  split_ifs
  · exact hClosed.quiet_trans (.same rfl id rfl)
  · exact hClosed

theorem issues_newRequest (conn : Connection File) : Issues False conn conn.newRequest := by
  have hBegun : Issues False conn conn.begun := by
    have hObserved := Issues.observe conn
      (.onMessageBegin (conn.current + 1) conn.handlingRequest) id (by simp)
    exact hObserved.quiet_trans (.same rfl id rfl)
  rw [newRequest_eq]
  split_ifs
  · exact hBegun.quiet_trans ((issues_close _).quiet_trans (.same rfl id rfl))
  · exact hBegun.quiet_trans (.same rfl id rfl)

theorem issues_onEvent (conn : Connection File) (static : Option (HttpResponse (Body File)))
    (event : ParserEvent) : Issues False conn (conn.onEvent static event) := by
  cases event with
  | onMessageBegin => exact issues_newRequest conn
  | onHeadersComplete upgrade =>
      have hObserved := Issues.observe { conn with isUpgrade := conn.isUpgrade || upgrade }
        (.onHeadersComplete conn.current upgrade) id (by simp)
      have hFlagged : Issues False conn ({ conn with isUpgrade := conn.isUpgrade || upgrade }.observe
          (.onHeadersComplete conn.current upgrade)) :=
        hObserved.from_same rfl id rfl
      simp only [onEvent, onHeadersComplete]
      split
      case h_1 response hSome =>
          have hAnswered := Issues.observe ({ conn with
            isUpgrade := conn.isUpgrade || upgrade }.observe (.onHeadersComplete conn.current upgrade))
            (.answeredInHeaders conn.current response) id (by simp)
          exact hFlagged.quiet_trans (hAnswered.quiet_trans (.same rfl id rfl))
      case h_2 hNone => exact hFlagged.quiet_trans (.same rfl id rfl)
  | onMessageComplete =>
      simp only [onEvent, onMessageComplete]
      split_ifs
      · exact .refl conn
      · exact .same rfl id rfl
  | _ => exact .same rfl id rfl

theorem issues_feed (conn : Connection File) (static : Option (HttpResponse (Body File)))
    (buffer : Bytes) : Issues False conn (conn.feed static buffer) := by
  have hObserved := Issues.observe
    { conn with parser := (HttpParser.execute conn.parser buffer).parser }
    (.execute (buffer.take (HttpParser.execute conn.parser buffer).parsed)) id (by simp)
  have hExecuted : Issues False conn
      ({ conn with parser := (HttpParser.execute conn.parser buffer).parser }.observe
        (.execute (buffer.take (HttpParser.execute conn.parser buffer).parsed))) :=
    hObserved.from_same rfl id rfl
  exact hExecuted.quiet_trans (.foldl _ (fun conn event _ => issues_onEvent conn static event) _)

variable [DataSource File]

theorem issues_writeResponse {request : Nat} {kind : ResponseKind}
    {response : HttpResponse (Body File)}
    (h : conn.writeResponse request kind response = some after) :
    Issues (conn.isClosing = true) conn after := by
  obtain ⟨entries, hWrote⟩ := wrote h
  have hEntries : .uvClose ∉ entries ∧ ∃ entry ∈ entries, entry.IsUvWrite := by
    rcases hWrote.entries with ⟨-, rfl⟩ | ⟨-, written, -, rfl⟩
    · exact ⟨by simp, _, List.mem_singleton_self _, trivial⟩
    · refine ⟨?_, _, List.mem_cons_self, trivial⟩
      cases written.drained <;> simp [pieces]
  obtain ⟨hOpen, entry, hMem, hWrite⟩ := hEntries
  have hCall : .uvClose ∉ .writeResponse request conn.serial kind response :: entries := by
    simpa using hOpen
  have hIssues : Issues (conn.isClosing = true ∧
      ∃ entry ∈ .writeResponse request conn.serial kind response :: entries, entry.IsUvWrite)
      conn after := by
    obtain ⟨writes, rfl⟩ := hWrote.same
    exact .extend rfl id rfl hCall
  exact hIssues.congr (and_iff_left ⟨entry, List.mem_cons_of_mem _ hMem, hWrite⟩)

omit [DataSource File] in
theorem issues_destroy (conn : Connection File) (response : HttpResponse (SentBody File)) :
    Issues False conn (conn.destroy response) := by
  unfold destroy
  split_ifs
  · exact issues_close conn
  · exact .refl conn

theorem issues_nextWrite (conn : Connection File) (serial : Nat)
    (response : HttpResponse (SentBody File)) (write : ExtendedWrite (SentBody File)) :
    Issues (conn.isClosing = true ∧ write.issuesWrite = true) conn
      (conn.nextWrite serial response write) := by
  unfold nextWrite
  cases hNext : write.next (!conn.isClosing) with
  | mk next effects =>
      rcases ExtendedWrite.next_effects hNext with ⟨hIssues, -, bufs, rfl⟩ | ⟨hNone, hEffects⟩
      · cases hClosing : conn.isClosing with
        | true =>
            refine (Issues.record conn (.uvWriteFailed (some serial)) (by simp)).congr ?_
            simp [hClosing, hIssues, Observation.IsUvWrite]
        | false =>
            have hQueued : Issues (conn.isClosing = true ∧ ∃ entry ∈
                (pieces serial bufs.flatten (Write.body serial response next).drained :
                  List (Observation File)), entry.IsUvWrite) conn
                (conn.queue serial bufs.flatten (.body serial response next)) := by
              refine .extend rfl id rfl ?_
              cases (Write.body serial response next).drained <;> simp [pieces]
            refine hQueued.congr ?_
            simp [hClosing]
      · apply (Issues.foldl effects ?_ conn).congr (by simp [hNone])
        intro conn effect hMem
        cases effect with
        | uvWrite bufs accepted => exact absurd hMem (hEffects bufs accepted)
        | onWriteComplete status => exact issues_destroy conn response
        | freeData => exact .refl conn
        | close => exact .refl conn

/-- The callback of the oldest write goes on with a body. -/
def CallbackWritesLate (conn : Connection File) (status : Int) (queueEmpty : Bool) : Prop :=
  conn.isClosing = true ∧
    match conn.writes with
    | .header _ response :: _ => status = 0 ∧ ∃ body, response.pBody = some body ∧
        (ExtendedWrite.construct body response.chunked).issuesWrite = true
    | .body _ _ write :: _ => queueEmpty = true ∧ write.issuesWrite = true
    | _ => False

/-- An upgrade is accepted behind a request that came too early. -/
def SwitchesLate [Host] [Digests] (conn : Connection File)
    (static : Option (HttpResponse (Body File))) (buffer : Bytes) : Prop :=
  let fed := conn.feed static buffer
  fed.isClosing = true ∧ HttpParser.waitingForHeadersCompleted fed.parser = false ∧
    fed.isUpgrade = true ∧ fed.pWebSocketConnection = true ∧
    fed.websocket.acceptedParser fed.head.headers
      (buffer.drop (HttpParser.execute conn.parser buffer).parsed) ≠ none

/-- The next task of the background queue writes. What has come with a handshake is
answered for the bytes that its buffer holds by now. -/
def TaskWritesLate [Host] [Digests] (conn : Connection File)
    (static : Option (HttpResponse (Body File))) (now : Tm) (freed : Bytes) : Prop :=
  match conn.backgroundQueue with
  | [] => False
  | task :: rest =>
      match task with
      | .onHeadersCompleteComplete request response =>
          conn.isClosing = true ∧
              (response ≠ none ∨ conn.hasHeader (ascii "Expect") (ascii "100-continue") = true) ∨
            ∃ middle, { conn with backgroundQueue := rest }.headersCompleted now request response =
              some middle ∧ { middle with requestBuffer := [] }.SwitchesLate static middle.requestBuffer
      | .onBodyError _ _ => conn.isClosing = true
      | .onMessageCompleteComplete _ _ => False
      | .close => False
      | .read _ => conn.isClosing = true ∧ ∃ after callbacks,
          conn.websocket.read freed = some (after, callbacks) ∧
            ∃ callback ∈ callbacks, callback.IsFrame
      | .websocket (.sendWSMessage _ _) =>
          conn.isClosing = true ∧ conn.websocket.connState ≠ .wsClosed
      | .websocket (.closeWS _ _) => conn.isClosing = true ∧ conn.websocket.connState = .wsOpen

/-- The steps that give something to `uv_write` on a handle that is being closed. -/
def WritesLate [Host] [Digests] (conn : Connection File) : ConnectionAction File → Prop
  | .read data static _ => conn.ignoreNewData = false ∧ conn.protocol = .http ∧
      (conn.observe (.read data)).SwitchesLate static data
  | .written status queueEmpty => conn.CallbackWritesLate status queueEmpty
  | .pingTimer => conn.isClosing = true ∧ conn.websocket.connState ≠ .wsClosed
  | .runBackground static now freed => conn.TaskWritesLate static now freed
  | .readError | .onClosed | .stop | .runMain _ _ _ | .settle _ _ _ | .wsCall _ => False

omit [DataSource File] in
/-- The calls of the WebSocket connection. -/
theorem issues_runWebSocket (conn : Connection File) (websocket : WebSocketConnection)
    {callbacks : List WSCallback} (hLast : ClosesLast callbacks) :
    Issues (conn.isClosing = true ∧ ∃ callback ∈ callbacks, callback.IsFrame) conn
      (conn.runWebSocket websocket callbacks) := by
  have hCalls : ∀ (callbacks : List WSCallback) (conn : Connection File), ClosesLast callbacks →
      Issues (conn.isClosing = true ∧ ∃ callback ∈ callbacks, callback.IsFrame) conn
        (callbacks.foldl onWSCallback conn) := by
    intro callbacks
    induction callbacks with
    | nil =>
        intro conn _
        exact (Issues.refl conn).congr (by simp)
    | cons callback rest ih =>
        intro conn hLast
        obtain ⟨hHead, hRest⟩ := List.pairwise_cons.1 hLast
        have hTail := ih (conn.onWSCallback callback) hRest
        rw [List.foldl_cons]
        cases callback with
        | onWSMessage binary data =>
            have hOne : Issues False conn (conn.onWSCallback (.onWSMessage binary data)) := by
              simp only [onWSCallback]
              split_ifs
              · exact .same rfl id rfl
              · exact .refl conn
            refine (hOne.quiet_trans hTail).congr ?_
            have hSame : (conn.onWSCallback (.onWSMessage binary data)).isClosing =
                conn.isClosing := by
              simp only [onWSCallback]
              split_ifs <;> rfl
            simp [hSame, WSCallback.IsFrame]
        | onWSClose code => exact hTail.congr (by simp [onWSCallback, WSCallback.IsFrame])
        | closeWSSocket =>
            refine ((issues_close conn).quiet_trans hTail).congr ?_
            have hNone : ∀ later ∈ rest, ¬ later.IsFrame := by
              intro later hMem
              obtain ⟨code, rfl⟩ := hHead later hMem rfl
              exact id
            have hNoFrame : ¬ ∃ later ∈ rest, later.IsFrame := by simpa using hNone
            have hHeadFrame : ¬ ∃ later ∈ .closeWSSocket :: rest, later.IsFrame := by
              simpa [WSCallback.IsFrame] using hNone
            rw [iff_false_intro hNoFrame, iff_false_intro hHeadFrame]
            simp
        | sendWSFrame opcode header data footer =>
            have hOne : Issues (conn.isClosing = true) conn
                (conn.onWSCallback (.sendWSFrame opcode header data footer)) := by
              simp only [onWSCallback]
              split_ifs with hClosing
              · have hFailed := Issues.record conn (.uvWriteFailed none) (by simp)
                exact hFailed.congr (and_iff_left trivial)
              · have hTaken := Issues.record { conn with writes := conn.writes ++ [Write.frame] }
                  (.uvWrite none (header ++ data ++ footer)) (by simp)
                exact (hTaken.congr (and_iff_left trivial)).from_same rfl id rfl
            have hSame : (conn.onWSCallback (.sendWSFrame opcode header data footer)).isClosing =
                conn.isClosing := by
              simp only [onWSCallback]
              split_ifs <;> rfl
            have hFrame : ∃ callback ∈ .sendWSFrame opcode header data footer :: rest,
                callback.IsFrame := ⟨_, List.mem_cons_self, trivial⟩
            refine (hOne.trans hTail).congr ?_
            rw [hSame, and_iff_left hFrame]
            exact or_iff_left_of_imp And.left
  exact (hCalls callbacks { conn with websocket } hLast).from_same rfl id rfl

theorem issues_onWritten {status : Int} {queueEmpty : Bool}
    (h : conn.onWritten status queueEmpty = some after) :
    Issues (conn.CallbackWritesLate status queueEmpty) conn after := by
  obtain ⟨write, rest, hWrites, hWritten⟩ := onWritten_cases h
  have hPopped : Issues False conn { conn with writes := rest } := .same rfl id rfl
  unfold CallbackWritesLate
  rw [hWrites]
  cases hWritten with
  | frame => exact hPopped.congr (by simp)
  | failed hStatus => exact (hPopped.quiet_trans (issues_destroy _ _)).congr (by simp [hStatus])
  | bodiless hStatus hBody =>
      exact (hPopped.quiet_trans (issues_destroy _ _)).congr (by simp [hBody])
  | begins hStatus hBody =>
      refine (hPopped.quiet_trans (issues_nextWrite _ _ _ _)).congr ?_
      simp [hBody, hStatus]
  | waits hQueue hRest => exact hPopped.congr (by simp [hQueue])
  | goesOn hQueue =>
      refine (hPopped.quiet_trans (issues_nextWrite _ _ _ _)).congr ?_
      simp [hQueue, ExtendedWrite.issuesWrite]

theorem issues_finishes {request : Nat} {response : HttpResponse (Body File)} {closing : Bool}
    (h : Finishes conn request response closing after) :
    Issues (conn.isClosing = true) conn after :=
  (issues_writeResponse h).from_same rfl (fun hAfter => (Bool.and_eq_true_iff.1 hAfter).1) rfl

theorem issues_headersCompleted {now : Tm} {request : Nat}
    {response : Option (HttpResponse (Body File))}
    (h : conn.headersCompleted now request response = some after) :
    Issues (conn.isClosing = true ∧
      (response ≠ none ∨ conn.hasHeader (ascii "Expect") (ascii "100-continue") = true))
      conn after := by
  cases response with
  | some answer =>
      obtain ⟨closing, answered, hFinishes, rfl⟩ := headersCompleted_some h
      have hParser : Issues False answered
          { answered with parser := HttpParser.headersCompleted answered.parser 3 } :=
        .same rfl id rfl
      exact ((issues_finishes hFinishes).trans_quiet hParser).congr (by simp)
  | none =>
      have hParser : ∀ continued : Connection File, Issues False continued
          { continued with parser := HttpParser.headersCompleted continued.parser 0 } :=
        fun continued => .same rfl id rfl
      simp only [headersCompleted, Option.bind_eq_bind, Option.pure_def] at h
      split_ifs at h with hExpect
      · obtain ⟨continued, hContinued, h⟩ := Option.bind_eq_some_iff.1 h
        obtain rfl := Option.some.inj h
        have hWritten := (issues_writeResponse hContinued).trans_quiet (hParser continued)
        exact hWritten.congr (by simp [hExpect])
      · obtain rfl := Option.some.inj h
        exact (hParser conn).congr (by simp [hExpect])

theorem issues_onMessageCompleteComplete {request : Nat}
    {response : Option (HttpResponse (Body File))}
    (h : conn.onMessageCompleteComplete request response = some after) :
    Issues False conn after := by
  rcases onMessageCompleteComplete_cases h with ⟨rfl, -⟩ | ⟨hOpen, answer, -, hFinishes⟩
  · exact .refl _
  · exact (issues_finishes hFinishes).congr (by simp [hOpen])

variable [Host]

omit [DataSource File] in
theorem issues_wsRead {data : Bytes} (h : conn.wsRead data = some after) :
    Issues (conn.isClosing = true ∧ ∃ after callbacks,
      conn.websocket.read data = some (after, callbacks) ∧
        ∃ callback ∈ callbacks, callback.IsFrame) conn after := by
  obtain ⟨websocket, callbacks, hRead, rfl⟩ := wsRead_cases h
  have hRun := issues_runWebSocket (conn.observe (.wsRead data)) websocket
    (WebSocketConnection.closesLast_read hRead)
  refine ((Issues.observe conn (.wsRead data) id (by simp)).quiet_trans hRun).congr ?_
  simp [hRead, Connection.observe]

variable [Digests]

theorem issues_runWSTask {task : WSTask} {rest : List (BackgroundTask File)} {now : Tm}
    {static : Option (HttpResponse (Body File))} {freed : Bytes}
    (hQueue : conn.backgroundQueue = .websocket task :: rest)
    (h : runWSTask { conn with backgroundQueue := rest } task = some after) :
    Issues (conn.TaskWritesLate static now freed) conn after := by
  have hPopped : Issues False conn { conn with backgroundQueue := rest } := .same rfl id rfl
  unfold TaskWritesLate
  rw [hQueue]
  obtain ⟨websocket, callbacks, rfl, ⟨binary, message, rfl, rfl, hSend⟩ |
    ⟨code, reason, rfl, hClose⟩⟩ := runWSTask_cases h
  · obtain ⟨hLast, -, hFrame⟩ := WebSocketConnection.sendWSMessage_calls hSend
    have hRun := issues_runWebSocket { conn with backgroundQueue := rest } conn.websocket hLast
    exact (hPopped.quiet_trans hRun).congr (and_congr_right (fun _ => hFrame))
  · obtain ⟨hLast, -, hFrame⟩ := WebSocketConnection.closeWS_calls hClose
    have hRun := issues_runWebSocket { conn with backgroundQueue := rest } websocket hLast
    exact (hPopped.quiet_trans hRun).congr (and_congr_right (fun _ => hFrame))

theorem issues_upgrade {now : Tm} {pData : Bytes} (h : conn.upgrade now pData = some after) :
    Issues (conn.isClosing = true ∧ conn.pWebSocketConnection = true ∧
      conn.websocket.acceptedParser conn.head.headers pData ≠ none) conn after := by
  rcases upgrade_cases h with ⟨hGone, rfl⟩ | ⟨-, hNone, rfl⟩ |
    ⟨parser, handshake, answered, hOpen, hAccepted, -, hAnswered, rfl⟩
  · exact (Issues.refl _).congr (by simp [hGone])
  · have hRefused := Issues.observe conn (.accept conn.current false) id (by simp)
    split_ifs
    · exact hRefused.congr (by simp [hNone])
    · exact (hRefused.quiet_trans (issues_close _)).congr (by simp [hNone])
  · have hParser : Issues False conn
        { conn with websocket := conn.websocket.withParser parser } := .same rfl id rfl
    have hObserved := Issues.observe { conn with websocket := conn.websocket.withParser parser }
      (.accept conn.current true) id (by simp)
    have hHandshake := Issues.observe ({ conn with
      websocket := conn.websocket.withParser parser }.observe (.accept conn.current true))
      (.handshake handshake.pData) id (by simp)
    have hAccept : Issues False conn (conn.accept parser handshake) :=
      hParser.quiet_trans (hObserved.quiet_trans hHandshake)
    have hWritten := hAccept.quiet_trans (issues_writeResponse hAnswered)
    have hSwitched : Issues False answered (answered.switchProtocol handshake) :=
      .same rfl id rfl
    refine (hWritten.trans_quiet hSwitched).congr ?_
    simp [hOpen, hAccepted, Connection.accept, Connection.observe]

theorem issues_parseHttpData {static : Option (HttpResponse (Body File))} {now : Tm}
    {buffer : Bytes} (h : conn.parseHttpData static now buffer = some after) :
    Issues (conn.SwitchesLate static buffer) conn after := by
  have hFed := issues_feed conn static buffer
  unfold parseHttpData at h
  unfold SwitchesLate
  dsimp only at h ⊢
  split_ifs at h with hWaiting hUpgrade hRest hIgnore
  · obtain rfl := Option.some.inj h
    have hKept : Issues False (conn.feed static buffer) { conn.feed static buffer with
        requestBuffer := (conn.feed static buffer).requestBuffer ++
          buffer.drop (HttpParser.execute conn.parser buffer).parsed } := .same rfl id rfl
    exact (hFed.quiet_trans hKept).congr (by simp [hWaiting])
  · refine (hFed.quiet_trans (issues_upgrade h)).congr ?_
    simp [hWaiting, hUpgrade]
  · obtain rfl := Option.some.inj h
    exact hFed.congr (by simp [hUpgrade])
  · obtain rfl := Option.some.inj h
    have hStopped : Issues False (conn.feed static buffer)
        (Connection.close { conn.feed static buffer with reading := false }) :=
      (issues_close _).from_same rfl (fun hReading => Bool.noConfusion hReading) rfl
    exact (hFed.quiet_trans hStopped).congr (by simp [hUpgrade])
  · obtain rfl := Option.some.inj h
    exact hFed.congr (by simp [hUpgrade])

theorem issues_onRead {static : Option (HttpResponse (Body File))} {now : Tm} {data : Bytes}
    (hOpen : conn.isClosing = false) (h : conn.onRead static now data = some after) :
    Issues (conn.ignoreNewData = false ∧ conn.protocol = .http ∧
      (conn.observe (.read data)).SwitchesLate static data) conn after := by
  have hRead := Issues.observe conn (.read data) id (by simp)
  unfold onRead at h
  dsimp only at h
  by_cases hIgnore : conn.ignoreNewData = true
  · rw [if_pos (show (conn.observe (.read data)).ignoreNewData = true from hIgnore)] at h
    obtain rfl := Option.some.inj h
    exact hRead.congr (by simp [hIgnore])
  · rw [if_neg (show ¬ (conn.observe (.read data)).ignoreNewData = true from hIgnore)] at h
    rw [Bool.not_eq_true] at hIgnore
    cases hProtocol : conn.protocol with
    | http =>
        rw [show (conn.observe (.read data)).protocol = .http from hProtocol] at h
        exact (hRead.quiet_trans (issues_parseHttpData h)).congr (by simp [hIgnore])
    | webSockets =>
        rw [show (conn.observe (.read data)).protocol = .webSockets from hProtocol] at h
        dsimp only at h
        split_ifs at h with hGone
        · exact (hRead.quiet_trans (issues_wsRead h)).congr (by simp [Connection.observe, hOpen])
        · obtain rfl := Option.some.inj h
          exact hRead.congr (by simp)

theorem issues_runBackground {static : Option (HttpResponse (Body File))} {now : Tm}
    {freed : Bytes} (h : conn.runBackground static now freed = some after) :
    Issues (conn.TaskWritesLate static now freed) conn after := by
  obtain ⟨task, rest, hQueue, hRan⟩ := runBackground_cases h
  have hPopped : Issues False conn { conn with backgroundQueue := rest } := .same rfl id rfl
  cases hRan with
  | websocket hAfter => exact issues_runWSTask hQueue hAfter
  | @onHeadersCompleteComplete request response middle after hMiddle hAfter =>
      have hParsed : Issues ({ middle with requestBuffer := [] }.SwitchesLate static
          middle.requestBuffer) middle after :=
        (issues_parseHttpData hAfter).from_same rfl id rfl
      have hBoth := hPopped.quiet_trans ((issues_headersCompleted hMiddle).trans hParsed)
      refine hBoth.congr ?_
      simp [TaskWritesLate, hQueue, hMiddle, hasHeader]
  | onBodyError hAfter =>
      have hFinishes := issues_finishes (onBodyError_finishes hAfter)
      have hPaused : Issues False conn { conn with
          backgroundQueue := rest
          parser := HttpParser.pause conn.parser } := .same rfl id rfl
      refine (hPaused.quiet_trans hFinishes).congr ?_
      simp [TaskWritesLate, hQueue]
  | onMessageCompleteComplete hAfter =>
      refine (hPopped.quiet_trans (issues_onMessageCompleteComplete hAfter)).congr ?_
      simp [TaskWritesLate, hQueue]
  | close =>
      refine (hPopped.quiet_trans (issues_close _)).congr ?_
      simp [TaskWritesLate, hQueue]
  | read hAfter =>
      refine (hPopped.quiet_trans (issues_wsRead hAfter)).congr ?_
      simp [TaskWritesLate, hQueue]

omit [Host] [Digests] [DataSource File] in
theorem issues_wsCall (conn : Connection File) (call : WSCall) :
    Issues False conn (conn.wsCall call) := by
  cases call with
  | send binary message =>
      simp only [wsCall]
      split_ifs
      · exact .same rfl id rfl
      · exact .refl conn
  | close code reason =>
      simp only [wsCall]
      split_ifs
      · exact .same rfl id rfl
      · exact .refl conn

omit [Host] [Digests] [DataSource File] in
theorem issues_onHeaders (conn : Connection File) (request : Nat) (outcome : AppOutcome File)
    (now : Tm) : Issues False conn (conn.onHeaders request outcome now) := by
  have hCall := Issues.observe conn (.onHeaders request) id (by simp)
  have hAnswered : ∀ response, Issues False (conn.observe (.onHeaders request))
      ((conn.observe (.onHeaders request)).scheduleHeadersCompleteComplete request
        (some response)) := by
    intro response
    have hScheduled : Issues False (conn.observe (.onHeaders request))
        { conn.observe (.onHeaders request) with responseScheduled := true } := .same rfl id rfl
    have hObserved := Issues.observe { conn.observe (.onHeaders request) with
      responseScheduled := true } (.answeredInHeaders request response) id (by simp)
    exact (hScheduled.quiet_trans hObserved).quiet_trans (.same rfl id rfl)
  cases outcome with
  | returned answer =>
      cases answer with
      | none => exact hCall.quiet_trans (.same rfl id rfl)
      | some answer => exact hCall.quiet_trans (hAnswered _)
  | failed => exact hCall.quiet_trans (hAnswered _)
  | malformed => exact hCall
  | promise => exact hCall

omit [Host] [Digests] [DataSource File] in
theorem issues_onBodyData (conn : Connection File) (request : Nat) (outcome : AppOutcome File)
    (now : Tm) : Issues False conn (conn.onBodyData request outcome now) := by
  have hCall : ∀ failed, Issues False conn (conn.observe (.onBodyData request failed)) :=
    fun failed => .observe conn _ id (by simp)
  unfold onBodyData
  split_ifs
  · exact .refl conn
  · cases outcome with
    | failed => exact (hCall true).quiet_trans (.same rfl id rfl)
    | _ => exact hCall false

omit [Host] [Digests] [DataSource File] in
theorem issues_getResponse (conn : Connection File) (request : Nat) (outcome : AppOutcome File)
    (now : Tm) : Issues False conn (conn.getResponse request outcome now) := by
  have hCall := Issues.observe conn (.call request) id (by simp)
  unfold getResponse
  split_ifs
  · exact .same rfl id rfl
  · cases outcome with
    | _ => exact hCall.quiet_trans (.same rfl id rfl)

omit [Host] [Digests] [DataSource File] in
theorem issues_closeIfFailed (conn : Connection File) (outcome : AppOutcome File) :
    Issues False conn (conn.closeIfFailed outcome) := by
  cases outcome with
  | failed => exact .same rfl id rfl
  | _ => exact .refl conn

omit [Host] [Digests] [DataSource File] in
theorem issues_callROnWSOpen (conn : Connection File) (outcome : AppOutcome File)
    (calls : List WSCall) : Issues False conn (conn.callROnWSOpen outcome calls) := by
  unfold callROnWSOpen
  split_ifs
  · exact .refl conn
  · have hObserved := Issues.observe { conn with wsHandle := true } .onWSOpen id (by simp)
    have hOpened : Issues False conn ({ conn with wsHandle := true }.observe .onWSOpen) :=
      hObserved.from_same rfl id rfl
    have hCalls := Issues.foldl calls (fun conn call _ => issues_wsCall conn call)
      ({ conn with wsHandle := true }.observe .onWSOpen)
    have hFailed := issues_closeIfFailed
      (calls.foldl wsCall ({ conn with wsHandle := true }.observe .onWSOpen)) outcome
    exact (hOpened.quiet_trans (hCalls.quiet_trans hFailed)).quiet_trans (.same rfl id rfl)

omit [Host] [Digests] [DataSource File] in
/-- Nothing is written on the main thread. -/
theorem issues_runMain {outcome : AppOutcome File} {calls : List WSCall} {now : Tm}
    (h : conn.runMain outcome calls now = some after) : Issues False conn after := by
  obtain ⟨task, rest, hQueue, rfl⟩ := runMain_cases h
  have hPopped : Issues False conn { conn with mainQueue := rest } := .same rfl id rfl
  cases task with
  | initializeEnv =>
      exact hPopped
  | onHeaders request =>
      exact hPopped.quiet_trans (issues_onHeaders _ _ _ _)
  | onBodyData request data =>
      exact hPopped.quiet_trans (issues_onBodyData _ _ _ _)
  | getResponse request =>
      exact hPopped.quiet_trans (issues_getResponse _ _ _ _)
  | callROnWSOpen =>
      exact hPopped.quiet_trans (issues_callROnWSOpen _ _ _)
  | onWSMessage binary data =>
      have hCall := Issues.observe { conn with mainQueue := rest } (.onWSMessage binary data) id
        (by simp)
      exact hPopped.quiet_trans (hCall.quiet_trans (issues_closeIfFailed _ _))
  | onWSClose =>
      have hGone : Issues False conn { conn with mainQueue := rest, wsHandle := false } :=
        .same rfl id rfl
      exact hGone.quiet_trans (.observe _ .onWSClose id (by simp))

/-- A step writes on a closing handle exactly if it is one of those. -/
theorem issues_next {action : ConnectionAction File} (hMarked : conn.Marked)
    (h : conn.next action = some after) : Issues (conn.WritesLate action) conn after := by
  cases action with
  | read data static now =>
      simp only [next, Option.ite_none_right_eq_some, Bool.and_eq_true] at h
      exact issues_onRead (hMarked.reading h.1.1) h.2
  | readError =>
      simp only [next, Option.ite_none_right_eq_some, Option.some.injEq] at h
      obtain ⟨-, rfl⟩ := h
      exact issues_close conn
  | written status queueEmpty => exact issues_onWritten h
  | onClosed =>
      simp only [next, onClosed, Option.ite_none_right_eq_some, Option.some.injEq] at h
      obtain ⟨-, rfl⟩ := h
      exact .same rfl id rfl
  | pingTimer =>
      simp only [next, Option.bind_eq_bind, Option.bind_eq_some_iff, Option.pure_def,
        Option.some.injEq] at h
      obtain ⟨callbacks, hPing, rfl⟩ := h
      simp only [WebSocketConnection.sendPing, Option.ite_none_right_eq_some] at hPing
      obtain ⟨hLast, -, hFrame⟩ := WebSocketConnection.sendWSMessage_calls hPing.2
      exact (issues_runWebSocket conn conn.websocket hLast).congr
        (and_congr_right (fun _ => hFrame))
  | stop =>
      obtain rfl := Option.some.inj h
      exact issues_close conn
  | runBackground static now freed => exact issues_runBackground h
  | runMain outcome calls now => exact issues_runMain h
  | settle index outcome now =>
      simp only [next, settle, Option.bind_eq_bind, Option.bind_eq_some_iff] at h
      obtain ⟨request, -, h⟩ := h
      cases outcome with
      | _ =>
          obtain rfl := Option.some.inj h
          exact .same rfl id rfl
  | wsCall call =>
      obtain rfl := Option.some.inj h
      exact issues_wsCall conn call

omit [Host] [Digests] [DataSource File] in
theorem Initial.marked (h : Initial conn) : conn.Marked ∧ SilentAfterClose conn.log := by
  obtain ⟨incompleteContentHeader, header, rfl⟩ := h
  exact ⟨⟨by simp [fresh], fun _ => rfl⟩, AtEach.nil⟩

theorem issues_step {action : ConnectionAction File} {emitted : List Unit} (hMarked : conn.Marked)
    (hStep : system.step conn action after emitted) : Issues (conn.WritesLate action) conn after := by
  obtain ⟨result, hResult, hSame⟩ := Option.map_eq_some_iff.1 hStep
  obtain rfl : result = after := congrArg Prod.fst hSame
  exact issues_next hMarked hResult

/-- Nothing is given to `uv_write` after `uv_close` exactly if no step of the run
does so. -/
theorem silent_after_close_iff {start finish : Connection File}
    {actions : List (ConnectionAction File)} {outputs : List Unit} (hInitial : Initial start)
    (run : system.Run start actions finish outputs) :
    SilentAfterClose finish.log ↔
      (system.guarded (fun conn action => ¬ conn.WritesLate action)).Run start actions finish
        outputs := by
  constructor
  · intro hSilent
    suffices hRun : finish.Marked ∧ (SilentAfterClose finish.log →
        (system.guarded (fun conn action => ¬ conn.WritesLate action)).Run start actions finish
          outputs) from hRun.2 hSilent
    clear hSilent
    induction run with
    | nil => exact ⟨hInitial.marked.1, fun _ => .nil⟩
    | @snoc actions middle finish outputs emitted action prior last ih =>
        obtain ⟨hMarked, hGuarded⟩ := ih
        have hIssues := issues_step hMarked last
        refine ⟨hIssues.marked hMarked, fun hFinish => ?_⟩
        have hBefore : SilentAfterClose middle.log := AtEach.of_prefix hFinish hIssues.grows
        exact (hGuarded hBefore).snoc ⟨(hIssues.silent hMarked hBefore).1 hFinish, last⟩
  · intro hGuarded
    have hRun := hGuarded.invariant (I := fun conn _ => conn.Marked ∧ SilentAfterClose conn.log)
      hInitial.marked ?_
    · exact hRun.2
    · rintro conn outputs action after emitted ⟨hMarked, hSilent⟩ ⟨hSpared, hStep⟩
      have hIssues := issues_step hMarked hStep
      exact ⟨hIssues.marked hMarked, (hIssues.silent hMarked hSilent).2 hSpared⟩

omit [HttpParser] [Zlib] [DataSource File] [Host] [Digests] in
/-- The response is written, and then the client goes away. -/
theorem silent_after_close_answered :
    let head := ascii "GET / HTTP/1.1\r\n\r\n"
    let _ : HttpParser := httpParser
    let _ : Zlib := HttpResponse.SampleStream.zlib
    let _ : Host := littleEndianHost
    let _ : Digests := sampleDigests
    ∃ finish : Connection InMemoryDataSource,
      (system.guarded (fun conn action => ¬ conn.WritesLate action)).Run
        (fresh WSHixie76Parser.textInfo WSHixie76Parser.textInfo)
        [.read head none .epoch, .runMain (.returned none) [] .epoch,
          .runMain (.returned (some (.response 403 [] none))) [] .epoch,
          .runBackground none .epoch [], .readError] finish [] ∧
      .uvClose ∈ finish.log := by
  intro head parser zlib host digests
  let fact : Observation InMemoryDataSource → Option Bool := fun entry => match entry with
    | .uvWrite _ _ | .uvWriteFailed _ => some true
    | .uvClose => some false
    | _ => none
  obtain ⟨finish, hRun, hFacts⟩ : ∃ finish,
      [ConnectionAction.read head none .epoch, .runMain (.returned none) [] .epoch,
        .runMain (.returned (some (.response 403 [] none))) [] .epoch,
        .runBackground none .epoch [], .readError].foldlM next
          (fresh WSHixie76Parser.textInfo WSHixie76Parser.textInfo) = some finish ∧
      finish.log.filterMap fact = [true, false] :=
    Option.map_eq_some_iff.1 (by decide +kernel)
  have hWrite : ∀ entry : Observation InMemoryDataSource, entry.IsUvWrite → fact entry = some true := by
    intro entry hWrite
    cases entry <;> first | rfl | exact hWrite.elim
  have hSilent : SilentAfterClose finish.log := by
    intro before entry hPrefix hEntry hClose
    have hBefore : false ∈ before.filterMap fact := List.mem_filterMap.2 ⟨_, hClose, rfl⟩
    have hTrace := hPrefix.filterMap fact
    rw [hFacts, List.filterMap_append, List.filterMap_cons_some (hWrite entry hEntry)] at hTrace
    obtain ⟨rest, hTrace⟩ := hTrace
    generalize before.filterMap fact = past at hBefore hTrace
    match past with
    | [] => cases hBefore
    | [other] => simp at hTrace
    | first :: second :: past => simp at hTrace
  have hClosed : .uvClose ∈ finish.log := by
    have hMem : false ∈ finish.log.filterMap fact := by simp [hFacts]
    obtain ⟨entry, hEntry, hFact⟩ := List.mem_filterMap.1 hMem
    cases entry with
    | uvClose => exact hEntry
    | _ => cases hFact
  exact ⟨finish, (silent_after_close_iff ⟨_, _, rfl⟩ (run_of_foldlM hRun)).1 hSilent, hClosed⟩

omit [HttpParser] [Zlib] [DataSource File] [Host] [Digests] in
/-- The client goes away before the answer of `onHeaders` comes back. -/
theorem writes_after_close :
    let head := ascii "GET / HTTP/1.1\r\n\r\n"
    let _ : HttpParser := httpParser
    let _ : Zlib := HttpResponse.SampleStream.zlib
    let _ : Host := littleEndianHost
    let _ : Digests := sampleDigests
    ∃ finish : Connection InMemoryDataSource,
      system.Run (fresh WSHixie76Parser.textInfo WSHixie76Parser.textInfo)
        [.read head none .epoch, .runMain (.returned none) [] .epoch,
          .runMain (.returned (some (.response 403 [] none))) [] .epoch, .readError,
          .runBackground none .epoch []] finish [] ∧
      ¬ SilentAfterClose finish.log := by
  intro head parser zlib host digests
  let fact : Observation InMemoryDataSource → Option Bool := fun entry => match entry with
    | .uvWriteFailed _ => some true
    | .uvClose => some false
    | _ => none
  obtain ⟨finish, hRun, hFacts⟩ : ∃ finish,
      [ConnectionAction.read head none .epoch, .runMain (.returned none) [] .epoch,
        .runMain (.returned (some (.response 403 [] none))) [] .epoch, .readError,
        .runBackground none .epoch []].foldlM next
          (fresh WSHixie76Parser.textInfo WSHixie76Parser.textInfo) = some finish ∧
      finish.log.filterMap fact = [false, true] :=
    Option.map_eq_some_iff.1 (by decide +kernel)
  refine ⟨finish, run_of_foldlM hRun, fun hSilent => ?_⟩
  obtain ⟨before, first, rest, hLog, -, hLast, hRest⟩ := List.filterMap_eq_cons_iff.1 hFacts
  obtain ⟨between, second, last, rfl, -, hSecond, -⟩ := List.filterMap_eq_cons_iff.1 hRest
  have hClose : first = .uvClose := by
    cases first with
    | uvClose => rfl
    | _ => cases hLast
  have hWrite : second.IsUvWrite := by
    cases second with
    | uvWriteFailed => trivial
    | _ => cases hSecond
  refine hSilent (before ++ first :: between) second ⟨last, ?_⟩ hWrite ?_
  · simp [hLog]
  · simp [hClose]

end Connection

end Httpuv
