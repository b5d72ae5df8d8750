import Httpuv.Http.Streaming

/-! What a run does for each request, and the steps that do nothing for any. -/
namespace Httpuv

open Semantics

/-- The entries of a log that belong to one request. -/
inductive RequestEvent (File : Type) where
  | answered (response : HttpResponse (Body File))
  | onBodyData (failed : Bool)
  | call
  | switching
  | final (serial : Nat) (response : HttpResponse (Body File))

namespace Observation

variable {File : Type}

def requestEvent (request : Nat) : Observation File → Option (RequestEvent File)
  | .answeredInHeaders owner response => if owner = request then some (.answered response) else none
  | .onBodyData owner failed => if owner = request then some (.onBodyData failed) else none
  | .call owner => if owner = request then some .call else none
  | .writeResponse owner _ .switching _ => if owner = request then some .switching else none
  | .writeResponse owner serial .final response =>
      if owner = request then some (.final serial response) else none
  | _ => none

/-- Entries that belong to no request: bytes, writes, and calls of the WebSocket
half. -/
def IsQuiet : Observation File → Prop
  | .read _ | .execute _ | .uvWrite _ _ | .uvWriteFailed _ | .handedOver _ | .onWSOpen
  | .onWSMessage _ _ | .onWSClose | .wsRead _ | .uvClose => True
  | _ => False

/-- Bytes that libuv has taken. -/
def IsWrite : Observation File → Prop
  | .uvWrite _ _ => True
  | _ => False

end Observation

/-- The bytes that have come from the socket. -/
def received {File : Type} (log : List (Observation File)) : Bytes :=
  (log.filterMap (fun entry => match entry with
    | .read data => some data
    | _ => none)).flatten

/-- The bytes of them that the parser is done with. -/
def consumed {File : Type} (log : List (Observation File)) : Bytes :=
  (log.filterMap (fun entry => match entry with
    | .execute data => some data
    | _ => none)).flatten

/-- What has been done for a request. -/
def history {File : Type} (request : Nat) (log : List (Observation File)) :
    List (RequestEvent File) :=
  log.filterMap (Observation.requestEvent request)

section History

variable {File : Type} {request : Nat} {log entries : List (Observation File)}

theorem history_append :
    history request (log ++ entries) = history request log ++ history request entries :=
  List.filterMap_append

theorem received_append : received (log ++ entries) = received log ++ received entries := by
  rw [received, List.filterMap_append, List.flatten_append]
  rfl

theorem consumed_append : consumed (log ++ entries) = consumed log ++ consumed entries := by
  rw [consumed, List.filterMap_append, List.flatten_append]
  rfl

theorem history_concat {entry : Observation File} {event : RequestEvent File}
    (hEntry : entry.requestEvent request = some event) :
    history request (log ++ [entry]) = history request log ++ [event] := by
  rw [history_append]
  exact congrArg _ (List.filterMap_cons_some hEntry)

theorem history_concat_none {entry : Observation File}
    (hEntry : entry.requestEvent request = none) :
    history request (log ++ [entry]) = history request log := by
  rw [history_append]
  exact (congrArg _ (List.filterMap_cons_none hEntry)).trans (List.append_nil _)

theorem history_quiet (hQuiet : ∀ entry ∈ entries, entry.IsQuiet) :
    history request entries = [] := by
  rw [history, List.filterMap_eq_nil_iff]
  intro entry hMem
  have hEntry := hQuiet entry hMem
  cases entry <;> first | rfl | exact absurd hEntry id

end History

/-- The tasks that belong to a request. -/
def MainTask.ofRequest : MainTask → Option Nat
  | .onHeaders request | .onBodyData request _ | .getResponse request => some request
  | _ => none

def BackgroundTask.ofRequest {File : Type} : BackgroundTask File → Option Nat
  | .onHeadersCompleteComplete request _ | .onBodyError request _
  | .onMessageCompleteComplete request _ => some request
  | _ => none

namespace Connection

variable {File : Type} [HttpParser] [Zlib]

def mainTasks (conn : Connection File) : List MainTask :=
  conn.mainQueue.filter (fun task => task.ofRequest.isSome)

def backgroundTasks (conn : Connection File) : List (BackgroundTask File) :=
  conn.backgroundQueue.filter (fun task => task.ofRequest.isSome)

/-- Anything that only an accepted upgrade sets off. -/
def UsesWebSocket (conn : Connection File) : Prop :=
  conn.protocol = .webSockets ∨ .callROnWSOpen ∈ conn.mainQueue ∨
    (∃ size, .read size ∈ conn.backgroundQueue) ∨ .onWSOpen ∈ conn.log ∨
    ∃ data, .wsRead data ∈ conn.log

variable [DataSource File]

/-- The entries of steps that do nothing for a request. -/
def Admits (conn middle : Connection File) : Observation File → Prop
  | .uvWrite none _ => middle.isClosing = false
  | .uvWriteFailed _ | .onWSMessage _ _ | .onWSClose | .uvClose => True
  | .onWSOpen | .wsRead _ => conn.UsesWebSocket
  | .read _ => conn.UsesWebSocket ∨ conn.ignoreNewData = true
  | _ => False

/-- Nothing has been done for a request, nothing can be done that was not to be
done before, and the responses under way have gone on in their order. -/
structure Quiet (conn after : Connection File) : Prop where
  parser : after.parser = conn.parser
  protocol : after.protocol = conn.protocol
  ignoreNewData : after.ignoreNewData = conn.ignoreNewData
  isUpgrade : after.isUpgrade = conn.isUpgrade
  responseScheduled : after.responseScheduled = conn.responseScheduled
  handlingRequest : after.handlingRequest = conn.handlingRequest
  current : after.current = conn.current
  promises : after.promises = conn.promises
  mainTasks : after.mainTasks = conn.mainTasks
  backgroundTasks : after.backgroundTasks = conn.backgroundTasks
  isClosing : conn.isClosing = true → after.isClosing = true
  reading : after.reading = true →
    conn.reading = true ∧ after.isClosing = conn.isClosing
  websocket : after.pWebSocketConnection = false →
    conn.pWebSocketConnection = false ∨ after.isClosing = true
  log : ∃ entries, after.log = conn.log ++ entries ∧ (∀ entry ∈ entries, entry.IsQuiet) ∧
    (conn.isClosing = true → ∀ entry ∈ entries, ¬ entry.IsWrite)
  usesWebSocket : after.UsesWebSocket → conn.UsesWebSocket
  requestBuffer : conn.UsesWebSocket ∨ after.requestBuffer = conn.requestBuffer
  bytes : conn.UsesWebSocket ∨ conn.ignoreNewData = true ∨
    (after.requestBuffer = conn.requestBuffer ∧ received after.log = received conn.log ∧
      consumed after.log = consumed conn.log)
  writing : conn.Writing → after.Writing
  unfinished : conn.Writing → ∀ serial, Unfinished serial after.log → Unfinished serial conn.log
  uninterrupted : conn.Writing → conn.Flowing → Uninterrupted after.log

namespace Quiet

variable {conn middle after : Connection File}

theorem refl (conn : Connection File) : Quiet conn conn where
  parser := rfl
  protocol := rfl
  ignoreNewData := rfl
  isUpgrade := rfl
  responseScheduled := rfl
  handlingRequest := rfl
  current := rfl
  promises := rfl
  mainTasks := rfl
  backgroundTasks := rfl
  isClosing := id
  reading := fun hReading => ⟨hReading, rfl⟩
  websocket := Or.inl
  log := ⟨[], by simp⟩
  usesWebSocket := id
  requestBuffer := Or.inr rfl
  bytes := Or.inr (Or.inr ⟨rfl, rfl, rfl⟩)
  writing := id
  unfinished := fun _ _ => id
  uninterrupted := fun _ => Flowing.uninterrupted

theorem flowing (h : Quiet conn after) (hWriting : conn.Writing) (hFlowing : conn.Flowing) :
    after.Flowing where
  uninterrupted := h.uninterrupted hWriting hFlowing
  alone := by
    intro hOpen serial other hSerial hOther
    have hBefore : conn.isClosing = false := by
      cases hClosing : conn.isClosing with
      | false => rfl
      | true => exact absurd (h.isClosing hClosing) (by simp [hOpen])
    exact hFlowing.alone hBefore serial other (h.unfinished hWriting serial hSerial)
      (h.unfinished hWriting other hOther)

theorem trans (h : Quiet conn middle) (h' : Quiet middle after) : Quiet conn after where
  parser := h'.parser.trans h.parser
  protocol := h'.protocol.trans h.protocol
  ignoreNewData := h'.ignoreNewData.trans h.ignoreNewData
  isUpgrade := h'.isUpgrade.trans h.isUpgrade
  responseScheduled := h'.responseScheduled.trans h.responseScheduled
  handlingRequest := h'.handlingRequest.trans h.handlingRequest
  current := h'.current.trans h.current
  promises := h'.promises.trans h.promises
  mainTasks := h'.mainTasks.trans h.mainTasks
  backgroundTasks := h'.backgroundTasks.trans h.backgroundTasks
  isClosing := fun hClosing => h'.isClosing (h.isClosing hClosing)
  reading := by
    intro hReading
    obtain ⟨hMiddle, hSame'⟩ := h'.reading hReading
    obtain ⟨hBefore, hSame⟩ := h.reading hMiddle
    exact ⟨hBefore, hSame'.trans hSame⟩
  websocket := by
    intro hGone
    rcases h'.websocket hGone with hMiddle | hClosing
    · rcases h.websocket hMiddle with hBefore | hClosing
      · exact Or.inl hBefore
      · exact Or.inr (h'.isClosing hClosing)
    · exact Or.inr hClosing
  log := by
    obtain ⟨entries, hLog, hQuiet, hRefused⟩ := h.log
    obtain ⟨entries', hLog', hQuiet', hRefused'⟩ := h'.log
    refine ⟨entries ++ entries', by rw [hLog', hLog, List.append_assoc], ?_, ?_⟩
    · intro entry hMem
      rcases List.mem_append.1 hMem with hMem | hMem
      · exact hQuiet entry hMem
      · exact hQuiet' entry hMem
    · intro hClosing entry hMem
      rcases List.mem_append.1 hMem with hMem | hMem
      · exact hRefused hClosing entry hMem
      · exact hRefused' (h.isClosing hClosing) entry hMem
  usesWebSocket := fun hUses => h.usesWebSocket (h'.usesWebSocket hUses)
  requestBuffer := by
    rcases h'.requestBuffer with hUses | hSame'
    · exact Or.inl (h.usesWebSocket hUses)
    · exact h.requestBuffer.imp id hSame'.trans
  bytes := by
    rcases h'.bytes with hUses | hIgnore | ⟨hBuffer', hReceived', hConsumed'⟩
    · exact Or.inl (h.usesWebSocket hUses)
    · exact Or.inr (Or.inl (h.ignoreNewData ▸ hIgnore))
    · rcases h.bytes with hUses | hIgnore | ⟨hBuffer, hReceived, hConsumed⟩
      · exact Or.inl hUses
      · exact Or.inr (Or.inl hIgnore)
      · exact Or.inr (Or.inr ⟨hBuffer'.trans hBuffer, hReceived'.trans hReceived,
          hConsumed'.trans hConsumed⟩)
  writing := fun hWriting => h'.writing (h.writing hWriting)
  unfinished := fun hWriting serial hSerial =>
    h.unfinished hWriting serial (h'.unfinished (h.writing hWriting) serial hSerial)
  uninterrupted := fun hWriting hFlowing =>
    h'.uninterrupted (h.writing hWriting) (h.flowing hWriting hFlowing)

/-- A loop of quiet steps. -/
theorem foldl {Step : Type} {f : Connection File → Step → Connection File} (steps : List Step)
    (hStep : ∀ conn step, step ∈ steps → Quiet conn (f conn step)) (conn : Connection File) :
    Quiet conn (steps.foldl f conn) := by
  induction steps generalizing conn with
  | nil => exact refl conn
  | cons step steps ih =>
      have hRest := ih (fun conn other hMem => hStep conn other (List.mem_cons_of_mem _ hMem))
        (f conn step)
      exact (hStep conn step (by simp)).trans hRest

/-- An entry about the WebSocket half or a closed handle. -/
theorem observe (h : Quiet conn middle) (entry : Observation File)
    (hAdmits : conn.Admits middle entry) : Quiet conn (middle.observe entry) :=
  have hQuiet : entry.IsQuiet := by
    cases entry <;> trivial
  have hApart : entry.IsApart := by
    cases entry with
    | uvWrite serial bytes =>
        cases serial with
        | none => trivial
        | some serial => exact hAdmits.elim
    | handedOver serial => exact hAdmits.elim
    | _ => trivial
  { h with
    log := by
      obtain ⟨entries, hLog, hEntries, hRefused⟩ := h.log
      refine ⟨entries ++ [entry], by simp [Connection.observe, hLog], ?_, ?_⟩
      · intro other hMem
        rcases List.mem_append.1 hMem with hMem | hMem
        · exact hEntries other hMem
        · rwa [List.mem_singleton.1 hMem]
      · intro hClosing other hMem hWrite
        rcases List.mem_append.1 hMem with hMem | hMem
        · exact hRefused hClosing other hMem hWrite
        · obtain rfl := List.mem_singleton.1 hMem
          cases other with
          | uvWrite serial bytes =>
              cases serial with
              | none =>
                  have hOpen : middle.isClosing = false := hAdmits
                  exact absurd (h.isClosing hClosing) (by simp [hOpen])
              | some serial => exact hAdmits.elim
          | _ => exact False.elim hWrite
    usesWebSocket := by
      rintro (hProtocol | hMain | hBackground | hOpen | ⟨data, hRead⟩)
      · exact h.usesWebSocket (Or.inl hProtocol)
      · exact h.usesWebSocket (Or.inr (Or.inl hMain))
      · exact h.usesWebSocket (Or.inr (Or.inr (Or.inl hBackground)))
      · rcases List.mem_append.1 hOpen with hOpen | hOpen
        · exact h.usesWebSocket (Or.inr (Or.inr (Or.inr (Or.inl hOpen))))
        · obtain rfl := List.mem_singleton.1 hOpen
          exact hAdmits
      · rcases List.mem_append.1 hRead with hRead | hRead
        · exact h.usesWebSocket (Or.inr (Or.inr (Or.inr (Or.inr ⟨data, hRead⟩))))
        · obtain rfl := List.mem_singleton.1 hRead
          exact hAdmits
    bytes := by
      rcases h.bytes with hUses | hIgnore | ⟨hBuffer, hReceived, hConsumed⟩
      · exact Or.inl hUses
      · exact Or.inr (Or.inl hIgnore)
      · cases entry with
        | read data =>
            rcases (hAdmits : conn.UsesWebSocket ∨ conn.ignoreNewData = true) with hUses | hIgnore
            · exact Or.inl hUses
            · exact Or.inr (Or.inl hIgnore)
        | execute data => exact hAdmits.elim
        | _ =>
            refine Or.inr (Or.inr ⟨hBuffer, ?_, ?_⟩)
            · rw [Connection.observe, received_append, hReceived]
              simp [received]
            · rw [Connection.observe, consumed_append, hConsumed]
              simp [consumed]
    writing := by
      intro hWriting
      apply (h.writing hWriting).observe hApart
      rintro request serial kind response rfl
      exact hQuiet.elim
    unfinished := fun hWriting serial hSerial =>
      h.unfinished hWriting serial ((unfinished_apart hApart).1 hSerial)
    uninterrupted := fun hWriting hFlowing =>
      uninterrupted_apart hApart (h.uninterrupted hWriting hFlowing) }

theorem invokeLater (h : Quiet conn middle) (task : MainTask) (hTask : task.ofRequest = none)
    (hOther : task ≠ .callROnWSOpen) : Quiet conn (middle.invokeLater task) :=
  { h with
    mainTasks := by
      rw [← h.mainTasks]
      simp [Connection.mainTasks, Connection.invokeLater, List.filter_append, hTask]
    usesWebSocket := by
      rintro (hProtocol | hMain | hRest)
      · exact h.usesWebSocket (Or.inl hProtocol)
      · rcases List.mem_append.1 hMain with hMain | hMain
        · exact h.usesWebSocket (Or.inr (Or.inl hMain))
        · exact absurd (List.mem_singleton.1 hMain).symm hOther
      · exact h.usesWebSocket (Or.inr (Or.inr hRest))
    writing := fun hWriting => { h.writing hWriting with } }

theorem push (h : Quiet conn middle) (task : BackgroundTask File) (hTask : task.ofRequest = none)
    (hUses : (∃ size, task = .read size) → conn.UsesWebSocket) : Quiet conn (middle.push task) :=
  { h with
    backgroundTasks := by
      rw [← h.backgroundTasks]
      simp [Connection.backgroundTasks, Connection.push, List.filter_append, hTask]
    usesWebSocket := by
      rintro (hProtocol | hMain | ⟨size, hRead⟩ | hRest)
      · exact h.usesWebSocket (Or.inl hProtocol)
      · exact h.usesWebSocket (Or.inr (Or.inl hMain))
      · rcases List.mem_append.1 hRead with hRead | hRead
        · exact h.usesWebSocket (Or.inr (Or.inr (Or.inl ⟨size, hRead⟩)))
        · exact hUses ⟨size, (List.mem_singleton.1 hRead).symm⟩
      · exact h.usesWebSocket (Or.inr (Or.inr (Or.inr hRest)))
    writing := fun hWriting => { h.writing hWriting with } }

end Quiet

/-- Closing is quiet, and nothing is read any more. -/
theorem quiet_close (conn : Connection File) : Quiet conn conn.close := by
  let stopped : Connection File := { conn with isClosing := true, reading := false }
  have hStopped : Quiet conn stopped :=
    { Quiet.refl conn with
      isClosing := fun _ => rfl
      reading := fun hReading => Bool.noConfusion hReading
      websocket := fun _ => Or.inr rfl
      writing := fun hWriting => { hWriting with }
      uninterrupted := fun _ hFlowing => hFlowing.uninterrupted }
  have hClosed : Quiet conn (stopped.observe .uvClose) :=
    hStopped.observe _ trivial
  unfold close
  split_ifs with hClosing hOpen
  · exact Quiet.refl conn
  · exact hClosed.invokeLater _ rfl (by simp)
  · exact hClosed

/-- The same after reading has been stopped. -/
theorem quiet_stopped (conn : Connection File) :
    Quiet conn (Connection.close { conn with reading := false }) := by
  have hStopped : Quiet conn { conn with reading := false } :=
    { Quiet.refl conn with
      reading := fun hReading => Bool.noConfusion hReading
      writing := fun hWriting => { hWriting with }
      uninterrupted := fun _ hFlowing => hFlowing.uninterrupted }
  exact hStopped.trans (quiet_close _)

omit [DataSource File] in
theorem close_isClosing (conn : Connection File) : conn.close.isClosing = true := by
  unfold close
  split_ifs with hClosing
  · exact hClosing
  · rfl
  · rfl

/-- The members that only the WebSocket half looks at. -/
theorem quiet_members (conn : Connection File) (websocket : WebSocketConnection)
    (wsHandle : Bool) : Quiet conn { conn with websocket, wsHandle } :=
  { Quiet.refl conn with
    writing := fun hWriting => { hWriting with }
    uninterrupted := fun _ hFlowing => hFlowing.uninterrupted }

theorem quiet_frame (conn : Connection File) (hOpen : conn.isClosing = false) (bytes : Bytes) :
    Quiet conn
      ({ conn with writes := conn.writes ++ [Write.frame] }.observe (.uvWrite none bytes)) := by
  have hFrame : Quiet conn { conn with writes := conn.writes ++ [Write.frame] } :=
    { Quiet.refl conn with
      writing := Writing.frame
      uninterrupted := fun _ hFlowing => hFlowing.uninterrupted }
  exact hFrame.observe _ hOpen

theorem quiet_runWebSocket (conn : Connection File) (websocket : WebSocketConnection)
    (callbacks : List WSCallback) : Quiet conn (conn.runWebSocket websocket callbacks) := by
  apply (quiet_members conn websocket conn.wsHandle).trans
  apply Quiet.foldl
  intro conn callback _
  cases callback with
  | onWSMessage binary data =>
      simp only [onWSCallback]
      split_ifs
      · exact (Quiet.refl conn).invokeLater _ rfl (by simp)
      · exact Quiet.refl conn
  | onWSClose code => exact Quiet.refl conn
  | sendWSFrame opcode header data footer =>
      simp only [onWSCallback]
      split_ifs with hClosing
      · exact (Quiet.refl conn).observe _ trivial
      · exact quiet_frame conn (by simpa using hClosing) _
  | closeWSSocket => exact quiet_close conn

theorem quiet_destroy (conn : Connection File) (response : HttpResponse (SentBody File)) :
    Quiet conn (conn.destroy response) := by
  unfold destroy
  split_ifs
  · exact quiet_close conn
  · exact Quiet.refl conn

theorem quiet_pop {conn : Connection File} {write : Write File} {rest : List (Write File)}
    (hWrites : conn.writes = write :: rest) : Quiet conn { conn with writes := rest } :=
  { Quiet.refl conn with
    writing := fun hWriting => hWriting.pop hWrites
    uninterrupted := fun _ hFlowing => hFlowing.uninterrupted }

/-- A write of the response whose last write has been called back. -/
theorem quiet_queue {conn : Connection File} {older write : Write File} {rest : List (Write File)}
    {serial : Nat} (hWrites : conn.writes = older :: rest) (hOpen : conn.isClosing = false)
    (hOlder : older.serial = some serial) (hUndrained : older.drained = false)
    (hSerial : write.serial = some serial)
    (hSame : write.closeAfterWritten = older.closeAfterWritten)
    (hAlone : conn.Writing → write.Alone) (bytes : Bytes) :
    Quiet conn ({ conn with writes := rest }.queue serial bytes write) := by
  have hBacked : conn.Writing → Backed conn.log serial older := fun hWriting =>
    hWriting.backed older (by simp [hWrites]) serial hOlder
  have hNotOver : conn.Writing → .handedOver serial ∉ conn.log := by
    intro hWriting hOver
    rw [(hBacked hWriting).finished hOver] at hUndrained
    cases hUndrained
  have hQuiet : ∀ entry ∈ (pieces serial bytes write.drained : List (Observation File)),
      entry.IsQuiet := by
    cases write.drained <;> simp [pieces, Observation.IsQuiet]
  exact {
    quiet_pop hWrites with
    log := ⟨_, rfl, hQuiet, fun hClosing => absurd hClosing (by simp [hOpen])⟩
    usesWebSocket := by
      rintro (hProtocol | hMain | hBackground | hEntry | ⟨data, hEntry⟩)
      · exact Or.inl hProtocol
      · exact Or.inr (Or.inl hMain)
      · exact Or.inr (Or.inr (Or.inl hBackground))
      · exact Or.inr (Or.inr (Or.inr (Or.inl ((mem_pieces_of_apart (by trivial)).1 hEntry))))
      · exact Or.inr (Or.inr (Or.inr (Or.inr ⟨data, (mem_pieces_of_apart (by trivial)).1 hEntry⟩)))
    bytes := by
      refine Or.inr (Or.inr ⟨rfl, ?_, ?_⟩)
      · rw [queue, received_append]
        cases write.drained <;> simp [pieces, received]
      · rw [queue, consumed_append]
        cases write.drained <;> simp [pieces, consumed]
    writing := by
      intro hWriting
      refine (hWriting.pop hWrites).queue bytes ?_ (hNotOver hWriting) ?_ hSerial ?_
        (hAlone hWriting)
      · exact hWriting.numbered serial (Or.inl (hBacked hWriting).begun)
      · intro other hMem hOther
        have hDistinct := hWriting.distinct
        rw [hWrites, List.filterMap_cons_some hOlder, List.nodup_cons] at hDistinct
        exact hDistinct.1 (List.mem_filterMap.2 ⟨other, hMem, hOther⟩)
      · intro request kind response hMem
        rw [hSame]
        exact (hBacked hWriting).closing request kind response hMem
    unfinished := by
      intro hWriting other hOther
      rcases unfinished_pieces hOther with ⟨rfl, -⟩ | hOther
      · exact ⟨(hBacked hWriting).begun, hNotOver hWriting⟩
      · exact hOther
    uninterrupted := by
      intro hWriting hFlowing
      apply hFlowing.uninterrupted.pieces (hNotOver hWriting)
      intro other hOther
      exact hFlowing.alone hOpen other serial hOther ⟨(hBacked hWriting).begun, hNotOver hWriting⟩ }

theorem quiet_nextWrite {conn popped : Connection File} {older : Write File}
    {rest : List (Write File)} {serial : Nat} {response : HttpResponse (SentBody File)}
    {write : ExtendedWrite (SentBody File)} (hWrites : conn.writes = older :: rest)
    (hPopped : popped = { conn with writes := rest }) (hOlder : older.serial = some serial)
    (hDrained : older.drained = write.drained)
    (hSame : older.closeAfterWritten = response.closeAfterWritten)
    (hIdle : conn.Writing → write.activeWrites = 0) :
    Quiet conn (popped.nextWrite serial response write) := by
  have hPop : Quiet conn popped := hPopped ▸ quiet_pop hWrites
  unfold nextWrite
  cases hNext : write.next (!popped.isClosing) with
  | mk next effects =>
      rcases ExtendedWrite.next_effects hNext with ⟨-, hUndrained, bufs, rfl⟩ | ⟨-, hNone⟩
      · cases hClosing : popped.isClosing with
        | true =>
            exact hPop.observe (.uvWriteFailed (some serial)) trivial
        | false =>
            have hOpen : conn.isClosing = false := by
              rw [hPopped] at hClosing
              exact hClosing
            have hAlone : conn.Writing → (Write.body serial response next).Alone := by
              intro hWriting
              rw [Write.Alone, ExtendedWrite.next_activeWrites hNext, hIdle hWriting]
            have hQueued := quiet_queue hWrites hOpen hOlder (hDrained.trans hUndrained)
              (show (Write.body serial response next).serial = some serial from rfl)
              hSame.symm hAlone bufs.flatten
            rw [← hPopped] at hQueued
            exact hQueued
      · apply hPop.trans
        apply Quiet.foldl
        intro conn effect hMem
        cases effect with
        | uvWrite bufs accepted => exact absurd hMem (hNone bufs accepted)
        | onWriteComplete status => exact quiet_destroy conn response
        | freeData => exact Quiet.refl conn
        | close => exact Quiet.refl conn

/-- What the callback of the oldest write makes of the connection. -/
inductive Written (conn : Connection File) (status : Int) (queueEmpty : Bool)
    (rest : List (Write File)) : Write File → Connection File → Prop
  | frame : Written conn status queueEmpty rest .frame { conn with writes := rest }
  | failed {serial : Nat} {response : HttpResponse (SentBody File)} (hStatus : status ≠ 0) :
      Written conn status queueEmpty rest (.header serial response)
        ({ conn with writes := rest }.destroy { response with closeAfterWritten := true })
  | bodiless {serial : Nat} {response : HttpResponse (SentBody File)} (hStatus : status = 0)
      (hBody : response.pBody = none) : Written conn status queueEmpty rest (.header serial response)
        ({ conn with writes := rest }.destroy response)
  | begins {serial : Nat} {response : HttpResponse (SentBody File)} {body : SentBody File}
      (hStatus : status = 0) (hBody : response.pBody = some body) :
      Written conn status queueEmpty rest (.header serial response)
        ({ conn with writes := rest }.nextWrite serial response
          (ExtendedWrite.construct body response.chunked))
  | waits {serial : Nat} {response : HttpResponse (SentBody File)} {write : ExtendedWrite (SentBody File)}
      (hQueue : queueEmpty = false) (hRest : rest ≠ []) : Written conn status queueEmpty rest
        (.body serial response write) { conn with writes := rest }
  | goesOn {serial : Nat} {response : HttpResponse (SentBody File)} {write : ExtendedWrite (SentBody File)}
      (hQueue : queueEmpty = true) : Written conn status queueEmpty rest
        (.body serial response write) ({ conn with writes := rest }.nextWrite serial response
          { write with activeWrites := write.activeWrites - 1 })

theorem onWritten_cases {conn after : Connection File} {status : Int} {queueEmpty : Bool}
    (h : conn.onWritten status queueEmpty = some after) :
    ∃ write rest, conn.writes = write :: rest ∧ Written conn status queueEmpty rest write after := by
  unfold onWritten at h
  cases hWrites : conn.writes with
  | nil =>
      rw [hWrites] at h
      cases h
  | cons write rest =>
      rw [hWrites] at h
      refine ⟨write, rest, rfl, ?_⟩
      cases write with
      | frame =>
          obtain rfl := Option.some.inj h
          exact .frame
      | header serial response =>
          dsimp only at h
          split_ifs at h with hStatus
          · obtain rfl := Option.some.inj h
            exact .failed hStatus
          · cases hBody : response.pBody with
            | none =>
                rw [hBody] at h
                obtain rfl := Option.some.inj h
                exact .bodiless (not_not.1 hStatus) hBody
            | some body =>
                rw [hBody] at h
                obtain rfl := Option.some.inj h
                exact .begins (not_not.1 hStatus) hBody
      | body serial response write =>
          dsimp only at h
          split_ifs at h with hQueue hRest
          · obtain rfl := Option.some.inj h
            exact .goesOn hQueue
          · obtain rfl := Option.some.inj h
            exact .waits (by simpa using hQueue) (by simpa using hRest)

theorem quiet_onWritten {conn after : Connection File} {status : Int} {queueEmpty : Bool}
    (h : conn.onWritten status queueEmpty = some after) : Quiet conn after := by
  obtain ⟨write, rest, hWrites, hWritten⟩ := onWritten_cases h
  cases hWritten with
  | frame => exact quiet_pop hWrites
  | failed hStatus => exact (quiet_pop hWrites).trans (quiet_destroy _ _)
  | bodiless hStatus hBody => exact (quiet_pop hWrites).trans (quiet_destroy _ _)
  | begins hStatus hBody =>
      apply quiet_nextWrite hWrites rfl rfl _ rfl (fun _ => rfl)
      simp [Write.drained, HttpResponse.drained, hBody]
  | waits hQueue hRest => exact quiet_pop hWrites
  | @goesOn serial response write hQueue =>
      have hIdle : conn.Writing → write.activeWrites - 1 = 0 := by
        intro hWriting
        have hBacked := hWriting.backed (.body serial response write) (by simp [hWrites])
          serial rfl
        have hAlone : write.activeWrites = 1 := hBacked.alone
        rw [hAlone]
      exact quiet_nextWrite hWrites rfl rfl rfl rfl hIdle

theorem quiet_onClosed {conn after : Connection File} (h : conn.onClosed = some after) :
    Quiet conn after := by
  simp only [onClosed, Option.ite_none_right_eq_some, Bool.and_eq_true] at h
  obtain ⟨⟨⟨hClosing, -⟩, -⟩, h⟩ := h
  obtain rfl := Option.some.inj h
  exact {
    Quiet.refl conn with
    websocket := fun _ => Or.inr hClosing
    writing := fun hWriting => { hWriting with }
    uninterrupted := fun _ hFlowing => hFlowing.uninterrupted }

theorem quiet_wsCall (conn : Connection File) (call : WSCall) : Quiet conn (conn.wsCall call) := by
  cases call with
  | send binary message =>
      simp only [wsCall]
      split_ifs
      · exact (Quiet.refl conn).push _ rfl (by simp)
      · exact Quiet.refl conn
  | close code reason =>
      simp only [wsCall]
      split_ifs
      · exact (quiet_members conn conn.websocket false).push _ rfl (by simp)
      · exact Quiet.refl conn

theorem quiet_closeIfFailed (conn : Connection File) (outcome : AppOutcome File) :
    Quiet conn (conn.closeIfFailed outcome) := by
  cases outcome with
  | failed => exact (Quiet.refl conn).push _ rfl (by simp)
  | _ => exact Quiet.refl conn

theorem Quiet.clearBuffer {conn middle : Connection File} (h : Quiet conn middle)
    (hUses : conn.UsesWebSocket) : Quiet conn { middle with requestBuffer := [] } :=
  { h with
    requestBuffer := Or.inl hUses
    bytes := Or.inl hUses
    writing := fun hWriting => { h.writing hWriting with } }

/-- The application uses the WebSocket, and the bytes that came with the upgrade
are read. -/
theorem Quiet.callROnWSOpen {conn middle : Connection File} (h : Quiet conn middle)
    (hUses : conn.UsesWebSocket) (outcome : AppOutcome File) (calls : List WSCall) :
    Quiet conn (middle.callROnWSOpen outcome calls) := by
  unfold Connection.callROnWSOpen
  split_ifs
  · exact h
  · have hHandle := h.trans (quiet_members middle middle.websocket true)
    have hOpened := hHandle.observe .onWSOpen hUses
    have hCalled := hOpened.trans (Quiet.foldl calls (fun conn call _ => quiet_wsCall conn call) _)
    have hFailed := hCalled.trans (quiet_closeIfFailed _ outcome)
    exact (hFailed.clearBuffer hUses).push _ rfl (fun _ => hUses)

section WebSocket

variable [Host]

omit [DataSource File] in
theorem wsRead_cases {conn after : Connection File} {data : Bytes}
    (h : conn.wsRead data = some after) :
    ∃ websocket callbacks, conn.websocket.read data = some (websocket, callbacks) ∧
      after = (conn.observe (.wsRead data)).runWebSocket websocket callbacks := by
  simp only [Connection.wsRead, Option.bind_eq_bind, Option.bind_eq_some_iff, Option.pure_def,
    Option.some.injEq, Prod.exists] at h
  obtain ⟨websocket, callbacks, hRead, rfl⟩ := h
  exact ⟨websocket, callbacks, hRead, rfl⟩

omit [DataSource File] in
theorem runWSTask_cases {conn after : Connection File} {task : WSTask}
    (h : conn.runWSTask task = some after) :
    ∃ websocket callbacks, after = conn.runWebSocket websocket callbacks ∧
      ((∃ binary message, task = .sendWSMessage binary message ∧ websocket = conn.websocket ∧
          conn.websocket.sendWSMessage (if binary then .binary else .text) message =
            some callbacks) ∨
        ∃ code reason, task = .closeWS code reason ∧
          conn.websocket.closeWS code reason = some (websocket, callbacks)) := by
  cases task with
  | sendWSMessage binary message =>
      simp only [runWSTask, Option.bind_eq_bind, Option.bind_eq_some_iff, Option.pure_def,
        Option.some.injEq] at h
      obtain ⟨callbacks, hSend, rfl⟩ := h
      exact ⟨_, callbacks, rfl, Or.inl ⟨binary, message, rfl, rfl, hSend⟩⟩
  | closeWS code reason =>
      simp only [runWSTask, Option.bind_eq_bind, Option.bind_eq_some_iff, Option.pure_def,
        Option.some.injEq, Prod.exists] at h
      obtain ⟨websocket, callbacks, hClose, rfl⟩ := h
      exact ⟨websocket, callbacks, rfl, Or.inr ⟨code, reason, rfl, hClose⟩⟩

theorem Quiet.wsRead {conn middle after : Connection File} {data : Bytes} (h : Quiet conn middle)
    (hUses : conn.UsesWebSocket) (hRead : middle.wsRead data = some after) : Quiet conn after := by
  obtain ⟨websocket, callbacks, -, rfl⟩ := wsRead_cases hRead
  exact (h.observe (.wsRead data) hUses).trans (quiet_runWebSocket _ _ _)

theorem quiet_runWSTask {conn after : Connection File} {task : WSTask}
    (h : conn.runWSTask task = some after) : Quiet conn after := by
  obtain ⟨websocket, callbacks, rfl, -⟩ := runWSTask_cases h
  exact quiet_runWebSocket _ _ _

end WebSocket

theorem quiet_popMain {conn : Connection File} {task : MainTask} {rest : List MainTask}
    (hQueue : conn.mainQueue = task :: rest) (hTask : task.ofRequest = none) :
    Quiet conn { conn with mainQueue := rest } :=
  { Quiet.refl conn with
    mainTasks := by simp [mainTasks, hQueue, hTask]
    usesWebSocket := by
      rintro (hProtocol | hMain | hRest)
      · exact Or.inl hProtocol
      · exact Or.inr (Or.inl (by simp_all))
      · exact Or.inr (Or.inr hRest)
    writing := fun hWriting => { hWriting with }
    uninterrupted := fun _ hFlowing => hFlowing.uninterrupted }

theorem quiet_popBackground {conn : Connection File} {task : BackgroundTask File}
    {rest : List (BackgroundTask File)} (hQueue : conn.backgroundQueue = task :: rest)
    (hTask : task.ofRequest = none) : Quiet conn { conn with backgroundQueue := rest } :=
  { Quiet.refl conn with
    backgroundTasks := by simp [backgroundTasks, hQueue, hTask]
    usesWebSocket := by
      rintro (hProtocol | hMain | ⟨data, hRead⟩ | hRest)
      · exact Or.inl hProtocol
      · exact Or.inr (Or.inl hMain)
      · refine Or.inr (Or.inr (Or.inl ⟨data, ?_⟩))
        rw [hQueue]
        exact List.mem_cons_of_mem _ hRead
      · exact Or.inr (Or.inr (Or.inr hRest))
    writing := fun hWriting => { hWriting with }
    uninterrupted := fun _ hFlowing => hFlowing.uninterrupted }

/-- What a call of `writeResponse` does, as far as it concerns requests. -/
structure Wrote (conn after : Connection File) (request : Nat) (kind : ResponseKind)
    (response : HttpResponse (Body File)) (entries : List (Observation File)) : Prop where
  same : ∃ writes, after = { conn with
    serial := conn.serial + 1
    log := conn.log ++ .writeResponse request conn.serial kind response :: entries
    writes
    handlingRequest := conn.handlingRequest && conn.isClosing }
  entries : conn.isClosing = true ∧ entries = [.uvWriteFailed (some conn.serial)] ∨
    conn.isClosing = false ∧ ∃ written, response.writeResponse conn.head.headers = some written ∧
      entries = pieces conn.serial written.responseHeader written.drained
  writing : conn.Writing → after.Writing

theorem Wrote.usesWebSocket {conn after : Connection File} {request : Nat} {kind : ResponseKind}
    {response : HttpResponse (Body File)} {entries : List (Observation File)}
    (h : Wrote conn after request kind response entries) (hUses : after.UsesWebSocket) :
    conn.UsesWebSocket := by
  obtain ⟨writes, rfl⟩ := h.same
  have hEntries : .onWSOpen ∉ entries ∧ ∀ data, .wsRead data ∉ entries := by
    rcases h.entries with ⟨-, rfl⟩ | ⟨-, written, -, rfl⟩
    · simp
    · cases written.drained <;> simp [pieces]
  rcases hUses with hProtocol | hMain | hBackground | hEntry | ⟨data, hEntry⟩
  · exact Or.inl hProtocol
  · exact Or.inr (Or.inl hMain)
  · exact Or.inr (Or.inr (Or.inl hBackground))
  · refine Or.inr (Or.inr (Or.inr (Or.inl ?_)))
    simpa [hEntries.1] using hEntry
  · refine Or.inr (Or.inr (Or.inr (Or.inr ⟨data, ?_⟩)))
    simpa [hEntries.2 data] using hEntry

omit [HttpParser] in
theorem writeResponse_closeAfterWritten {response : HttpResponse (Body File)}
    {written : HttpResponse (SentBody File)} {requestHeaders : RequestHeaders}
    (h : response.writeResponse requestHeaders = some written) :
    written.closeAfterWritten = response.closeAfterWritten := by
  simp only [HttpResponse.writeResponse, Option.bind_eq_bind, Option.bind_eq_some_iff] at h
  obtain ⟨encoded, hEncoded, h⟩ := h
  have hSame : encoded.closeAfterWritten = response.closeAfterWritten := by
    unfold HttpResponse.encodeBody at hEncoded
    split at hEncoded
    · simp only [Option.bind_eq_bind, Option.bind_eq_some_iff, Option.pure_def,
        Option.some.injEq] at hEncoded
      obtain ⟨wrapped, -, rfl⟩ := hEncoded
      rfl
    · obtain rfl := Option.some.inj hEncoded
      rfl
  rw [← hSame]
  cases hBody : encoded.pBody with
  | none =>
      simp only [hBody, Option.pure_def, Option.some.injEq] at h
      rw [← h]
  | some body =>
      simp only [hBody, Option.pure_def] at h
      by_cases hSwitching : encoded.statusCode = 101 ∧ 0 < DataSource.size body ∧
          DataSource.size body < 256
      · simp only [if_pos hSwitching, Option.bind_eq_some_iff, Option.some.injEq] at h
        obtain ⟨result, -, h⟩ := h
        rw [← h]
      · simp only [if_neg hSwitching, Option.some.injEq] at h
        rw [← h]

/-- A new serial number, and an entry for the call. -/
theorem Writing.called {conn : Connection File} (h : conn.Writing) (request : Nat)
    (kind : ResponseKind) (response : HttpResponse (Body File)) :
    ({ conn with serial := conn.serial + 1 }.observe
      (.writeResponse request conn.serial kind response)).Writing where
  numbered := by
    rintro serial (hPiece | hOver | ⟨owner, other, answer, hMem⟩)
    · exact Nat.lt_succ_of_lt (h.numbered serial (Or.inl ((hasPiece_apart (by trivial)).1 hPiece)))
    · have hBefore := (handedOver_apart (by trivial)).1 hOver
      exact Nat.lt_succ_of_lt (h.numbered serial (Or.inr (Or.inl hBefore)))
    · rcases List.mem_append.1 hMem with hMem | hMem
      · exact Nat.lt_succ_of_lt (h.numbered serial (Or.inr (Or.inr ⟨owner, other, answer, hMem⟩)))
      · cases List.mem_singleton.1 hMem
        exact Nat.lt_succ_self _
  distinct := h.distinct
  backed := by
    intro write hMem serial hSerial
    have hBacked := h.backed write hMem serial hSerial
    refine ⟨hBacked.begun.append, fun hOver => hBacked.finished ((handedOver_apart (by trivial)).1 hOver),
      ?_, hBacked.alone⟩
    intro owner other answer hMem
    rcases List.mem_append.1 hMem with hMem | hMem
    · exact hBacked.closing owner other answer hMem
    · cases List.mem_singleton.1 hMem
      exact absurd (h.numbered conn.serial (Or.inl hBacked.begun)) (lt_irrefl _)

theorem wrote {conn after : Connection File} {request : Nat} {kind : ResponseKind}
    {response : HttpResponse (Body File)} (h : conn.writeResponse request kind response = some after) :
    ∃ entries, Wrote conn after request kind response entries := by
  simp only [writeResponse, Option.bind_eq_bind, Option.bind_eq_some_iff, Option.pure_def] at h
  obtain ⟨written, hWritten, h⟩ := h
  split_ifs at h with hClosing
  · obtain rfl := Option.some.inj h
    refine ⟨_, ⟨conn.writes, ?_⟩, Or.inl ⟨hClosing, rfl⟩, ?_⟩
    · simp [observe, hClosing]
    · intro hWriting
      exact (hWriting.called request kind response).observe trivial (by simp)
  · obtain rfl := Option.some.inj h
    refine ⟨_, ⟨conn.writes ++ [.header conn.serial written], ?_⟩,
      Or.inr ⟨by simpa using hClosing, written, hWritten, rfl⟩, ?_⟩
    · simp [observe, queue, Write.drained, hClosing]
    · intro hWriting
      have hCalled := hWriting.called request kind response
      have hNone : ∀ write ∈ conn.writes, write.serial ≠ some conn.serial := by
        intro write hMem hSerial
        have hBegun := (hWriting.backed write hMem _ hSerial).begun
        exact absurd (hWriting.numbered _ (Or.inl hBegun)) (lt_irrefl _)
      suffices hQueued : (({ conn with serial := conn.serial + 1 }.observe
          (.writeResponse request conn.serial kind response)).queue conn.serial
            written.responseHeader (.header conn.serial written)).Writing by
        exact { hQueued with }
      refine hCalled.queue _ (Nat.lt_succ_self _) ?_ hNone rfl ?_ trivial
      · intro hOver
        have hBefore := (handedOver_apart (by trivial)).1 hOver
        exact absurd (hWriting.numbered _ (Or.inr (Or.inl hBefore))) (lt_irrefl _)
      · intro owner other answer hMem
        rcases List.mem_append.1 hMem with hMem | hMem
        · exact absurd (hWriting.numbered _ (Or.inr (Or.inr ⟨owner, other, answer, hMem⟩)))
            (lt_irrefl _)
        · cases List.mem_singleton.1 hMem
          exact writeResponse_closeAfterWritten hWritten

end Connection

end Httpuv
