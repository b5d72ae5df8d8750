import Httpuv.Http.Steps

/-! The decision about the headers of a request, which the parser waits for. -/
namespace Httpuv

open Semantics

/-- The tasks that decide about the headers of a request: `onHeaders` is called on the
main thread, and its answer comes back as a task of the background. -/
def MainTask.decision : MainTask → Option Nat
  | .onHeaders request => some request
  | _ => none

/-- The answer that comes back belongs to the request that it was asked for, whatever
the answer is. -/
def BackgroundTask.decision {File : Type} : BackgroundTask File → Option Nat
  | .onHeadersCompleteComplete request _ => some request
  | _ => none

namespace Connection

variable {File : Type} [HttpParser] [Zlib]

/-- The decisions that are under way, those on the main thread first. There is never
more than one, which `Sound` states and every step keeps. -/
def decisions (conn : Connection File) : List Nat :=
  conn.mainTasks.filterMap MainTask.decision ++
    conn.backgroundTasks.filterMap BackgroundTask.decision

/-- What holds of every connection. The parser waits for one decision at most, and a
connection that has been switched waits for none. Reading goes on only while the handle
is open, and the WebSocket is let go of only by a connection that closes. -/
structure Sound (phase : ParserPhase) (conn : Connection File) : Prop where
  deciding : conn.decisions = [] ∨ phase = .waiting ∧ conn.decisions = [conn.current]
  reading : conn.reading = true → conn.isClosing = false
  websocket : conn.pWebSocketConnection = false → conn.isClosing = true
  switched : conn.UsesWebSocket → conn.protocol = .webSockets ∧ conn.decisions = []

section Http

variable {conn : Connection File} {phase : ParserPhase}

/-- Nothing of a WebSocket is under way before the protocol has been switched, so the
bytes that come are for the parser. -/
theorem protocol_http (h : ¬ conn.UsesWebSocket) : conn.protocol = .http := by
  cases hProtocol : conn.protocol with
  | http => rfl
  | webSockets => exact absurd (Or.inl hProtocol) h

theorem Sound.http (h : Sound phase conn) (hProtocol : conn.protocol = .http) :
    ¬ conn.UsesWebSocket := by
  intro hUses
  rw [(h.switched hUses).1] at hProtocol
  cases hProtocol

/-- While a decision is under way the connection has not been switched: it is the
parser that decides whether to upgrade, and it waits. -/
theorem Sound.undecided (h : Sound phase conn) (hDecisions : conn.decisions ≠ []) :
    ¬ conn.UsesWebSocket := fun hUses => hDecisions (h.switched hUses).2

end Http

section Queues

variable {conn : Connection File}

/-- Taking a task about a request off the queue of the main thread takes off the
first of the tasks that are counted. -/
theorem mainTasks_cons {task : MainTask} {rest : List MainTask} {request : Nat}
    (hTask : task.ofRequest = some request) (hQueue : conn.mainQueue = task :: rest) :
    conn.mainTasks = task :: ({ conn with mainQueue := rest } : Connection File).mainTasks := by
  simp [mainTasks, hQueue, hTask]

theorem backgroundTasks_cons {task : BackgroundTask File}
    {rest : List (BackgroundTask File)} {request : Nat} (hTask : task.ofRequest = some request)
    (hQueue : conn.backgroundQueue = task :: rest) : conn.backgroundTasks =
      task :: ({ conn with backgroundQueue := rest } : Connection File).backgroundTasks := by
  simp [backgroundTasks, hQueue, hTask]

theorem mainTasks_invokeLater {task : MainTask} {request : Nat}
    (hTask : task.ofRequest = some request) :
    (conn.invokeLater task).mainTasks = conn.mainTasks ++ [task] := by
  simp [mainTasks, invokeLater, List.filter_append, hTask]

theorem backgroundTasks_push {task : BackgroundTask File} {request : Nat}
    (hTask : task.ofRequest = some request) :
    (conn.push task).backgroundTasks = conn.backgroundTasks ++ [task] := by
  simp [backgroundTasks, push, List.filter_append, hTask]

/-- The decisions can be read off the queues as they are, since a task that is about
no request decides nothing. -/
theorem decisions_eq (conn : Connection File) : conn.decisions =
    conn.mainQueue.filterMap MainTask.decision ++
      conn.backgroundQueue.filterMap BackgroundTask.decision := by
  have hMain : ∀ task : MainTask,
      (if task.ofRequest.isSome then task.decision else none) = task.decision := by
    intro task
    cases task <;> rfl
  have hBackground : ∀ task : BackgroundTask File,
      (if task.ofRequest.isSome then task.decision else none) = task.decision := by
    intro task
    cases task <;> rfl
  simp [decisions, mainTasks, backgroundTasks, List.filterMap_filter, hMain, hBackground]

theorem decisions_invokeLater {task : MainTask} (hTask : task.decision = none) :
    (conn.invokeLater task).decisions = conn.decisions := by
  simp [decisions_eq, invokeLater, List.filterMap_append, hTask]

theorem decisions_push {task : BackgroundTask File} (hTask : task.decision = none) :
    (conn.push task).decisions = conn.decisions := by
  simp [decisions_eq, push, List.filterMap_append, hTask]

theorem decisions_popMain {task : MainTask} {rest : List MainTask} (hTask : task.decision = none)
    (hQueue : conn.mainQueue = task :: rest) :
    ({ conn with mainQueue := rest } : Connection File).decisions = conn.decisions := by
  simp [decisions_eq, hQueue, hTask]

theorem decisions_popBackground {task : BackgroundTask File} {rest : List (BackgroundTask File)}
    (hTask : task.decision = none) (hQueue : conn.backgroundQueue = task :: rest) :
    ({ conn with backgroundQueue := rest } : Connection File).decisions = conn.decisions := by
  simp [decisions_eq, hQueue, hTask]

/-! None of these sets off anything of a WebSocket. -/

/-- Entries of the log set off nothing of a WebSocket unless they are those of
`onWSOpen` or of bytes that it is given. -/
theorem UsesWebSocket.of_append {entries : List (Observation File)}
    (h : ({ conn with log := conn.log ++ entries } : Connection File).UsesWebSocket)
    (hOpen : .onWSOpen ∉ entries) (hRead : ∀ data, .wsRead data ∉ entries) :
    conn.UsesWebSocket := by
  rcases h with hProtocol | hMain | hBackground | hEntry | ⟨data, hEntry⟩
  · exact Or.inl hProtocol
  · exact Or.inr (Or.inl hMain)
  · exact Or.inr (Or.inr (Or.inl hBackground))
  · rcases List.mem_append.1 hEntry with hEntry | hEntry
    · exact Or.inr (Or.inr (Or.inr (Or.inl hEntry)))
    · exact absurd hEntry hOpen
  · rcases List.mem_append.1 hEntry with hEntry | hEntry
    · exact Or.inr (Or.inr (Or.inr (Or.inr ⟨data, hEntry⟩)))
    · exact absurd hEntry (hRead data)

/-- On the main queue it is `callROnWSOpen` alone that counts as work of a WebSocket,
since messages and the end come behind it. -/
theorem UsesWebSocket.of_invokeLater {task : MainTask} (h : (conn.invokeLater task).UsesWebSocket)
    (hTask : task ≠ .callROnWSOpen) : conn.UsesWebSocket := by
  rcases h with hProtocol | hMain | hRest
  · exact Or.inl hProtocol
  · rcases List.mem_append.1 hMain with hMain | hMain
    · exact Or.inr (Or.inl hMain)
    · exact absurd (List.mem_singleton.1 hMain).symm hTask
  · exact Or.inr (Or.inr hRest)

/-- On the background queue it is the task that hands over what came with the
handshake, whose size is all that is known of it. -/
theorem UsesWebSocket.of_push {task : BackgroundTask File} (h : (conn.push task).UsesWebSocket)
    (hTask : ∀ size, task ≠ .read size) : conn.UsesWebSocket := by
  rcases h with hProtocol | hMain | ⟨size, hRead⟩ | hRest
  · exact Or.inl hProtocol
  · exact Or.inr (Or.inl hMain)
  · rcases List.mem_append.1 hRead with hRead | hRead
    · exact Or.inr (Or.inr (Or.inl ⟨size, hRead⟩))
    · exact absurd (List.mem_singleton.1 hRead).symm (hTask size)
  · exact Or.inr (Or.inr (Or.inr hRest))

theorem UsesWebSocket.not_append (h : ¬ conn.UsesWebSocket) (entries : List (Observation File))
    (hOpen : .onWSOpen ∉ entries) (hRead : ∀ data, .wsRead data ∉ entries) :
    ¬ ({ conn with log := conn.log ++ entries } : Connection File).UsesWebSocket :=
  fun hUses => h (hUses.of_append hOpen hRead)

theorem UsesWebSocket.not_push (h : ¬ conn.UsesWebSocket) (task : BackgroundTask File)
    (hTask : ∀ size, task ≠ .read size) : ¬ (conn.push task).UsesWebSocket :=
  fun hUses => h (hUses.of_push hTask)

theorem UsesWebSocket.not_invokeLater (h : ¬ conn.UsesWebSocket) (task : MainTask)
    (hTask : task ≠ .callROnWSOpen) : ¬ (conn.invokeLater task).UsesWebSocket :=
  fun hUses => h (hUses.of_invokeLater hTask)

/-- Taking a task off a queue sets off nothing by itself. What the task then does is
looked at with its own step. -/
theorem UsesWebSocket.of_popMain {task : MainTask} {rest : List MainTask}
    (hQueue : conn.mainQueue = task :: rest)
    (h : ({ conn with mainQueue := rest } : Connection File).UsesWebSocket) :
    conn.UsesWebSocket := by
  rcases h with hProtocol | hMain | hRest
  · exact Or.inl hProtocol
  · exact Or.inr (Or.inl (by rw [hQueue]; exact List.mem_cons_of_mem _ hMain))
  · exact Or.inr (Or.inr hRest)

theorem UsesWebSocket.of_popBackground {task : BackgroundTask File}
    {rest : List (BackgroundTask File)} (hQueue : conn.backgroundQueue = task :: rest)
    (h : ({ conn with backgroundQueue := rest } : Connection File).UsesWebSocket) :
    conn.UsesWebSocket := by
  rcases h with hProtocol | hMain | ⟨data, hRead⟩ | hRest
  · exact Or.inl hProtocol
  · exact Or.inr (Or.inl hMain)
  · exact Or.inr (Or.inr (Or.inl ⟨data, by rw [hQueue]; exact List.mem_cons_of_mem _ hRead⟩))
  · exact Or.inr (Or.inr (Or.inr hRest))

end Queues

namespace Sound

variable {phase : ParserPhase} {conn after : Connection File}

/-- A connection that waits for no decision may be in any phase: the phase matters only
through the decision that it waits for. -/
theorem withPhase (h : Sound phase conn) (hNone : conn.decisions = []) (other : ParserPhase) :
    Sound other conn :=
  { h with deciding := Or.inl hNone }

/-- What `Sound` looks at. Steps that keep these members keep it, whatever else they
change, and most steps change the writes or the log alone. -/
theorem congr (h : Sound phase conn) (hCurrent : after.current = conn.current)
    (hDecisions : after.decisions = conn.decisions)
    (hReading : after.reading = true → conn.reading = true)
    (hClosing : after.isClosing = conn.isClosing)
    (hWebSocket : after.pWebSocketConnection = conn.pWebSocketConnection)
    (hProtocol : after.protocol = conn.protocol)
    (hUses : after.UsesWebSocket → conn.UsesWebSocket) : Sound phase after where
  deciding := by rw [hDecisions, hCurrent]; exact h.deciding
  reading := fun hAfter => hClosing ▸ h.reading (hReading hAfter)
  websocket := fun hGone => hClosing ▸ h.websocket (hWebSocket ▸ hGone)
  switched := by
    intro hAfter
    rw [hProtocol, hDecisions]
    exact h.switched (hUses hAfter)

variable [DataSource File]

/-- The steps that no request notices keep `Sound`: they stop reading, close, or add
to the log. -/
theorem quiet (h : Sound phase conn) (hQuiet : Quiet conn after) : Sound phase after where
  deciding := by
    rw [decisions, hQuiet.mainTasks, hQuiet.backgroundTasks, hQuiet.current]
    exact h.deciding
  reading := by
    intro hReading
    obtain ⟨hBefore, hSame⟩ := hQuiet.reading hReading
    exact hSame.trans (h.reading hBefore)
  websocket := by
    intro hGone
    rcases hQuiet.websocket hGone with hBefore | hClosing
    · exact hQuiet.isClosing (h.websocket hBefore)
    · exact hClosing
  switched := by
    intro hUses
    rw [decisions, hQuiet.mainTasks, hQuiet.backgroundTasks, hQuiet.protocol]
    exact h.switched (hQuiet.usesWebSocket hUses)

end Sound

/-- A connection whose parser is running has not been switched. It is the state in
which the events of the parser are handled, one after the other. -/
def Feeding (phase : ParserPhase) (conn : Connection File) : Prop :=
  Sound phase conn ∧ ¬ conn.UsesWebSocket

section Steps

variable [DataSource File] {phase : ParserPhase} {conn after : Connection File}

theorem Feeding.quiet (h : Feeding phase conn) (hQuiet : Quiet conn after) :
    Feeding phase after :=
  ⟨h.1.quiet hQuiet, fun hUses => h.2 (hQuiet.usesWebSocket hUses)⟩

omit [DataSource File] in
/-- Entries that are not about a WebSocket leave a connection as it is for the parser:
neither its decisions nor its protocol depends on them. -/
theorem Feeding.observe (h : Feeding phase conn) (entry : Observation File)
    (hOpen : .onWSOpen ≠ entry) (hRead : ∀ data, .wsRead data ≠ entry) :
    Feeding phase (conn.observe entry) := by
  have hUses : (conn.observe entry).UsesWebSocket → conn.UsesWebSocket := fun hUses =>
    hUses.of_append (by simpa using hOpen) (by simpa using hRead)
  exact ⟨h.1.congr rfl rfl id rfl rfl rfl hUses, fun hAfter => h.2 (hUses hAfter)⟩

/-- A message begins between two others, when no decision is under way. It may find
another request unanswered, and then closes the connection, which keeps the phase. -/
theorem Feeding.onMessageBegin (h : Feeding .between conn) : Feeding .head conn.newRequest := by
  have hNone : conn.decisions = [] := h.1.deciding.resolve_right (by simp)
  have hObserved := h.observe (.onMessageBegin (conn.current + 1) conn.handlingRequest)
    (by simp) (by simp)
  have hBegun : Feeding .head conn.begun :=
    ⟨⟨Or.inl hNone, h.1.reading, h.1.websocket, fun hUses => absurd hUses hObserved.2⟩,
      hObserved.2⟩
  exact hBegun.quiet (quiet_newRequest conn)

omit [DataSource File] in
/-- Calls into R that decide nothing leave the decision that is under way alone. -/
theorem Feeding.invokeLater (h : Feeding phase conn) {task : MainTask}
    (hTask : task.decision = none) (hOther : task ≠ .callROnWSOpen) :
    Feeding phase (conn.invokeLater task) := by
  have hUses : (conn.invokeLater task).UsesWebSocket → conn.UsesWebSocket := fun hUses =>
    hUses.of_invokeLater hOther
  exact ⟨h.1.congr rfl (decisions_invokeLater hTask) id rfl rfl rfl hUses,
    fun hAfter => h.2 (hUses hAfter)⟩

omit [DataSource File] in
/-- With the headers complete exactly one decision is under way. It is on its way back
where a static path has answered, and on its way to R otherwise. -/
theorem Feeding.onHeadersComplete (h : Feeding .head conn)
    (static : Option (HttpResponse (Body File))) (upgrade : Bool) :
    Feeding .waiting (conn.onHeadersComplete static upgrade) := by
  have hNone : conn.decisions = [] := h.1.deciding.resolve_right (by simp)
  rw [decisions_eq, List.append_eq_nil_iff] at hNone
  have hFlagged : Feeding .head ({ conn with isUpgrade := conn.isUpgrade || upgrade }.observe
      (.onHeadersComplete conn.current upgrade)) := by
    have hSame : Feeding .head { conn with isUpgrade := conn.isUpgrade || upgrade } :=
      ⟨h.1.congr rfl rfl id rfl rfl rfl id, h.2⟩
    exact hSame.observe _ (by simp) (by simp)
  unfold Connection.onHeadersComplete
  dsimp only
  split
  · rename_i response _
    have hAnswered := hFlagged.observe (.answeredInHeaders conn.current response)
      (by simp) (by simp)
    have hUses := UsesWebSocket.not_push hAnswered.2
      (.onHeadersCompleteComplete conn.current (some response)) (by simp)
    refine ⟨⟨Or.inr ⟨rfl, ?_⟩, h.1.reading, h.1.websocket, fun hAfter => absurd hAfter hUses⟩, hUses⟩
    simp [decisions_eq, Connection.push, Connection.observe, List.filterMap_append, hNone,
      BackgroundTask.decision]
  · have hUses := UsesWebSocket.not_invokeLater hFlagged.2 (.onHeaders conn.current) (by simp)
    refine ⟨⟨Or.inr ⟨rfl, ?_⟩, h.1.reading, h.1.websocket, fun hAfter => absurd hAfter hUses⟩, hUses⟩
    simp [decisions_eq, Connection.invokeLater, Connection.observe, List.filterMap_append, hNone,
      MainTask.decision]

/-- One event of the parser, which the phase allows. The cases are those of
`ParserPhase.next`: an event in any other phase does not occur. -/
theorem Feeding.onEvent {next : ParserPhase} {event : ParserEvent} (h : Feeding phase conn)
    (static : Option (HttpResponse (Body File))) (hNext : phase.next event = some next) :
    Feeding next (conn.onEvent static event) := by
  cases phase <;> cases event <;> cases hNext
  · exact h.onMessageBegin
  · exact ⟨h.1.congr rfl rfl id rfl rfl rfl id, h.2⟩
  · exact ⟨h.1.congr rfl rfl id rfl rfl rfl id, h.2⟩
  · exact ⟨h.1.congr rfl rfl id rfl rfl rfl id, h.2⟩
  · exact h.onHeadersComplete static _
  · exact ⟨h.1.congr rfl rfl id rfl rfl rfl id, h.2⟩
  · exact ⟨h.1.congr rfl rfl id rfl rfl rfl id, h.2⟩
  · exact h.invokeLater rfl (by simp)
  · have hNone : conn.decisions = [] := h.1.deciding.resolve_right (by simp)
    have hBetween : Feeding .between conn := ⟨h.1.withPhase hNone _, h.2⟩
    simp only [Connection.onEvent, onMessageComplete]
    split_ifs
    · exact hBetween
    · exact hBetween.invokeLater rfl (by simp)

/-- The events of one run of the parser, by `feed_invariant`. A parser that refuses what
follows goes to a phase of its own, in which no event comes. -/
theorem Feeding.feed (contract : HttpParserContract)
    (h : Feeding (contract.phase conn.parser) conn) (static : Option (HttpResponse (Body File)))
    (buffer : Bytes) :
    Feeding (contract.phase (conn.feed static buffer).parser) (conn.feed static buffer) := by
  apply feed_invariant contract buffer
  · have hSame : Feeding (contract.phase conn.parser)
        { conn with parser := (HttpParser.execute conn.parser buffer).parser } :=
      ⟨h.1.congr rfl rfl id rfl rfl rfl id, h.2⟩
    exact hSame.observe _ (by simp) (by simp)
  · rintro conn ⟨hSound, hUses⟩
    exact ⟨hSound.withPhase (hSound.deciding.resolve_right (by simp)) _, hUses⟩
  · intro phase event after conn hNext hFeeding
    exact hFeeding.onEvent static hNext

/-- Writing a response changes nothing of this. The writes and the log grow by what is
sent, and none of it is about a WebSocket. -/
theorem Sound.wrote {request : Nat} {kind : ResponseKind} {response : HttpResponse (Body File)}
    {entries : List (Observation File)} (h : Sound phase conn)
    (hWrote : Wrote conn after request kind response entries) : Sound phase after := by
  have hUses := hWrote.usesWebSocket
  obtain ⟨writes, rfl⟩ := hWrote.same
  exact h.congr rfl rfl id rfl rfl rfl hUses

/-- Neither does ending a response, which may stop the reading before it writes. -/
theorem Sound.finishes {request : Nat} {response : HttpResponse (Body File)} {closing : Bool}
    (h : Sound phase conn) (hFinishes : Finishes conn request response closing after) :
    Sound phase after := by
  obtain ⟨entries, hWrote⟩ := Connection.wrote hFinishes
  have hStopped : Sound phase (conn.stopIf closing) := by
    have hReading : (conn.stopIf closing).reading = true → conn.reading = true :=
      fun hAfter => (Bool.and_eq_true_iff.1 hAfter).1
    exact h.congr rfl rfl hReading rfl rfl rfl id
  exact hStopped.wrote hWrote

omit [DataSource File] in
/-- The decision that comes back is the one the parser waits for. It is the only one,
so the request that it names is the current one, and none is left when it is taken off. -/
theorem Sound.front {request : Nat} {response : Option (HttpResponse (Body File))}
    {rest : List (BackgroundTask File)} (h : Sound phase conn)
    (hQueue : conn.backgroundQueue = .onHeadersCompleteComplete request response :: rest) :
    phase = .waiting ∧ request = conn.current ∧
      (∀ other, Feeding other { conn with backgroundQueue := rest }) := by
  have hDecisions : conn.decisions = conn.mainQueue.filterMap MainTask.decision ++
      request :: rest.filterMap BackgroundTask.decision := by
    simp [decisions_eq, hQueue, BackgroundTask.decision]
  have hHttp : ¬ conn.UsesWebSocket := h.undecided (by simp [hDecisions])
  have hPopped : ¬ ({ conn with backgroundQueue := rest } : Connection File).UsesWebSocket :=
    fun hUses => hHttp (UsesWebSocket.of_popBackground hQueue hUses)
  rcases h.deciding with hNone | ⟨hPhase, hOne⟩
  · rw [hNone] at hDecisions
    simp at hDecisions
  · rw [hOne] at hDecisions
    have hMain : conn.mainQueue.filterMap MainTask.decision = [] := by
      have hLength := congrArg List.length hDecisions
      simp only [List.length_append, List.length_cons, List.length_nil] at hLength
      exact List.length_eq_zero_iff.1 (by omega)
    rw [hMain, List.nil_append, List.cons.injEq] at hDecisions
    refine ⟨hPhase, hDecisions.1.symm, fun other => ⟨⟨Or.inl ?_, h.reading, h.websocket, ?_⟩, hPopped⟩⟩
    · simp only [decisions_eq, hMain, ← hDecisions.2, List.append_nil]
    · exact fun hUses => absurd hUses hPopped

omit [DataSource File] in
/-- In the same way the call of `onHeaders` that is next on the main thread is about the
current request. -/
theorem Sound.frontMain {request : Nat} {rest : List MainTask} (h : Sound phase conn)
    (hQueue : conn.mainQueue = .onHeaders request :: rest) :
    phase = .waiting ∧ request = conn.current ∧
      (∀ other, Feeding other { conn with mainQueue := rest }) := by
  have hDecisions : conn.decisions = request :: (rest.filterMap MainTask.decision ++
      conn.backgroundQueue.filterMap BackgroundTask.decision) := by
    simp [decisions_eq, hQueue, MainTask.decision]
  have hHttp : ¬ conn.UsesWebSocket := h.undecided (by simp [hDecisions])
  have hPopped : ¬ ({ conn with mainQueue := rest } : Connection File).UsesWebSocket :=
    fun hUses => hHttp (UsesWebSocket.of_popMain hQueue hUses)
  rcases h.deciding with hNone | ⟨hPhase, hOne⟩
  · rw [hNone] at hDecisions
    simp at hDecisions
  · rw [hOne, List.cons.injEq] at hDecisions
    refine ⟨hPhase, hDecisions.1.symm, fun other => ⟨⟨Or.inl ?_, h.reading, h.websocket, ?_⟩, hPopped⟩⟩
    · simp only [decisions_eq, ← hDecisions.2]
    · exact fun hUses => absurd hUses hPopped

omit [DataSource File] in
/-- A task that decides nothing is put on the background queue. It must not be the one
that hands bytes to a WebSocket, which only a switched connection has. -/
theorem Sound.push (h : Sound phase conn) (task : BackgroundTask File)
    (hTask : task.decision = none) (hRead : ∀ size, task ≠ .read size) :
    Sound phase (conn.push task) :=
  h.congr rfl (decisions_push hTask) id rfl rfl rfl (fun hUses => hUses.of_push hRead)

omit [DataSource File] in
theorem Sound.popMain {task : MainTask} {rest : List MainTask} (h : Sound phase conn)
    (hTask : task.decision = none) (hQueue : conn.mainQueue = task :: rest) :
    Sound phase { conn with mainQueue := rest } :=
  h.congr rfl (decisions_popMain hTask hQueue) id rfl rfl rfl
    (fun hUses => UsesWebSocket.of_popMain hQueue hUses)

omit [DataSource File] in
theorem Sound.popBackground {task : BackgroundTask File} {rest : List (BackgroundTask File)}
    (h : Sound phase conn) (hTask : task.decision = none)
    (hQueue : conn.backgroundQueue = task :: rest) :
    Sound phase { conn with backgroundQueue := rest } :=
  h.congr rfl (decisions_popBackground hTask hQueue) id rfl rfl rfl
    (fun hUses => UsesWebSocket.of_popBackground hQueue hUses)

omit [DataSource File] in
theorem Sound.observe (h : Sound phase conn) (entry : Observation File)
    (hOpen : .onWSOpen ≠ entry) (hRead : ∀ data, .wsRead data ≠ entry) :
    Sound phase (conn.observe entry) :=
  h.congr rfl rfl id rfl rfl rfl
    (fun hUses => hUses.of_append (by simpa using hOpen) (by simpa using hRead))

omit [DataSource File] in
theorem Sound.schedule (h : Sound phase conn) (scheduled : Bool) :
    Sound phase { conn with responseScheduled := scheduled } :=
  h.congr rfl rfl id rfl rfl rfl id

omit [DataSource File] in
theorem Feeding.schedule (h : Feeding phase conn) (scheduled : Bool) :
    Feeding phase { conn with responseScheduled := scheduled } :=
  ⟨h.1.schedule scheduled, h.2⟩

omit [DataSource File] in
theorem Sound.promise (h : Sound phase conn) (promises : List Nat) :
    Sound phase { conn with promises } :=
  h.congr rfl rfl id rfl rfl rfl id

omit [DataSource File] in
theorem Feeding.withParser (h : Feeding phase conn) (parser : HttpParser.Parser) :
    Feeding phase { conn with parser } :=
  ⟨h.1.congr rfl rfl id rfl rfl rfl id, h.2⟩

theorem Feeding.wrote {request : Nat} {kind : ResponseKind} {response : HttpResponse (Body File)}
    {entries : List (Observation File)} (h : Feeding phase conn)
    (hWrote : Wrote conn after request kind response entries) : Feeding phase after :=
  ⟨h.1.wrote hWrote, fun hUses => h.2 (hWrote.usesWebSocket hUses)⟩

theorem Feeding.finishes {request : Nat} {response : HttpResponse (Body File)} {closing : Bool}
    (h : Feeding phase conn) (hFinishes : Finishes conn request response closing after) :
    Feeding phase after := by
  obtain ⟨entries, hWrote⟩ := Connection.wrote hFinishes
  exact ⟨h.1.finishes hFinishes, fun hUses => h.2 (hWrote.usesWebSocket hUses)⟩

/-- The parser can go on with what has been kept for it. The response of `onHeaders`,
or the one that asks the client to continue, has been written by then. -/
theorem Feeding.headersCompleted {middle : Connection File} {now : Tm} {request : Nat}
    {response : Option (HttpResponse (Body File))} (h : Feeding phase conn)
    (hMiddle : conn.headersCompleted now request response = some middle) :
    Feeding phase { middle with requestBuffer := [] } := by
  have hFeeding : Feeding phase middle := by
    cases response with
    | some answer =>
        obtain ⟨closing, answered, hFinishes, rfl⟩ := headersCompleted_some hMiddle
        exact (h.finishes hFinishes).withParser _
    | none =>
        obtain ⟨continued, rfl | hContinued, rfl⟩ := headersCompleted_none hMiddle
        · exact h.withParser _
        · exact (h.wrote (Connection.wrote hContinued).choose_spec).withParser _
  exact ⟨hFeeding.1.congr rfl rfl id rfl rfl rfl id, hFeeding.2⟩

omit [DataSource File] in
/-- The value of `onHeaders` decides, or nothing ever does. The decision moves from one
queue to the other, so that there is one before the call and one after it. -/
theorem Sound.decided {request : Nat} {rest : List MainTask} (h : Sound phase conn)
    (hQueue : conn.mainQueue = .onHeaders request :: rest)
    (response : Option (HttpResponse (Body File))) : Sound phase { conn with
      mainQueue := rest
      responseScheduled := conn.responseScheduled || response.isSome
      log := conn.log ++ .onHeaders request :: response.toList.map (.answeredInHeaders request)
      backgroundQueue := conn.backgroundQueue ++ [.onHeadersCompleteComplete request response] } := by
  obtain ⟨rfl, rfl, hPopped⟩ := h.frontMain hQueue
  have hNone : ({ conn with mainQueue := rest } : Connection File).decisions = [] :=
    (hPopped .between).1.deciding.resolve_right (by simp)
  rw [decisions_eq, List.append_eq_nil_iff] at hNone
  have hHttp := UsesWebSocket.not_push
    (UsesWebSocket.not_append
      ((hPopped .waiting).schedule (conn.responseScheduled || response.isSome)).2
      (.onHeaders conn.current :: response.toList.map (.answeredInHeaders conn.current))
      (by cases response <;> simp) (by cases response <;> simp))
    (.onHeadersCompleteComplete conn.current response) (by simp)
  refine ⟨Or.inr ⟨rfl, ?_⟩, h.reading, h.websocket, fun hUses => absurd hUses hHttp⟩
  simp [decisions_eq, List.filterMap_append, hNone, BackgroundTask.decision]

variable [Host] [Digests]

/-- An upgrade ends the work of the parser. From then on the protocol is that of the
WebSocket, and no decision may be under way, since none would be heard. -/
theorem Feeding.upgraded {now : Tm} {pData : Bytes} (h : Feeding phase conn)
    (hPhase : phase ≠ .waiting) (hUpgraded : Upgraded conn now pData after) :
    Sound phase after := by
  have hNone : conn.decisions = [] := h.1.deciding.resolve_right (fun hWaiting => hPhase hWaiting.1)
  cases hUpgraded with
  | gone hGone => exact h.1
  | refused hRefused hQuiet hClosed => exact ((h.observe _ (by simp) (by simp)).quiet hQuiet).1
  | @accepted parser answered handshake hOpen hAccepted hHandshake hAnswered =>
      obtain ⟨entries, hWrote⟩ := Connection.wrote hAnswered
      have hAccept : Sound phase (conn.accept parser handshake) := by
        have hParser : Feeding phase { conn with websocket := conn.websocket.withParser parser } :=
          ⟨h.1.congr rfl rfl id rfl rfl rfl id, h.2⟩
        exact ((hParser.observe _ (by simp) (by simp)).observe _ (by simp) (by simp)).1
      have hSound := hAccept.wrote hWrote
      have hSwitched : (answered.switchProtocol handshake).decisions = [] := by
        rw [switchProtocol, decisions_invokeLater rfl]
        obtain ⟨writes, rfl⟩ := hWrote.same
        exact hNone
      exact ⟨Or.inl hSwitched, hSound.reading, hSound.websocket, fun _ => ⟨rfl, hSwitched⟩⟩

/-- Bytes that are parsed, with what follows: waiting, an upgrade, or closing for an
error. Only the first leaves a decision under way. -/
theorem Feeding.parsed (contract : HttpParserContract) {static : Option (HttpResponse (Body File))}
    {now : Tm} {buffer : Bytes} (h : Feeding (contract.phase conn.parser) conn)
    (hParsed : Parsed conn static now buffer after) :
    Sound (contract.phase after.parser) after := by
  have hFed := h.feed contract static buffer
  have hNotWaiting : HttpParser.waitingForHeadersCompleted (conn.feed static buffer).parser = false →
      contract.phase (conn.feed static buffer).parser ≠ .waiting := by
    intro hWaiting hPhase
    rw [(contract.waiting_iff _).2 hPhase] at hWaiting
    cases hWaiting
  cases hParsed with
  | waiting hWaiting => exact hFed.1.congr rfl rfl id rfl rfl rfl id
  | upgrade hWaiting hUpgrade hAfter =>
      have hSound := hFed.upgraded (hNotWaiting hWaiting) hAfter
      rwa [hAfter.parser]
  | quiet hWaiting hUpgrade hQuiet hRest =>
      have hSound := hFed.1.quiet hQuiet
      rwa [hQuiet.parser]

/-- Every step keeps `Sound`. The cases are those of `Step`, and the decision is looked
at where one comes up, moves or is taken: all other tasks are popped and pushed
without it. -/
theorem Sound.step (contract : HttpParserContract) (h : Sound (contract.phase conn.parser) conn)
    (hStep : Step conn after) : Sound (contract.phase after.parser) after := by
  cases hStep with
  | quiet hQuiet =>
      rw [hQuiet.parser]
      exact h.quiet hQuiet
  | read static now data hReading hIgnore hProtocol hParsed =>
      have hHttp : ¬ conn.UsesWebSocket := h.http hProtocol
      have hFeeding : Feeding (contract.phase conn.parser) conn := ⟨h, hHttp⟩
      exact (hFeeding.observe (.read data) (by simp) (by simp)).parsed contract hParsed
  | @onHeadersCompleteComplete middle _ request response rest static now hQueue hMiddle hParsed =>
      obtain ⟨hWaiting, -, hPopped⟩ := h.front hQueue
      exact ((hPopped _).headersCompleted hMiddle).parsed contract hParsed
  | @onBodyError _ request response rest hQueue hAfter =>
      have hFinishes := onBodyError_finishes hAfter
      have hPopped := h.popBackground rfl hQueue
      have hPaused : Sound (contract.phase conn.parser)
          { conn with backgroundQueue := rest, parser := HttpParser.pause conn.parser } :=
        hPopped.congr rfl rfl id rfl rfl rfl id
      have hParser := hFinishes.parser
      rw [hParser, contract.pause]
      exact hPaused.finishes hFinishes
  | onMessageCompleteComplete hQueue hAfter =>
      have hPopped := h.popBackground rfl hQueue
      rcases onMessageCompleteComplete_cases hAfter with ⟨rfl, -⟩ | ⟨-, answer, -, hFinishes⟩
      · exact hPopped
      · rw [hFinishes.parser]
        exact hPopped.finishes hFinishes
  | decided hQueue response => exact h.decided hQueue response
  | undecided hQueue =>
      obtain ⟨-, -, hPopped⟩ := h.frontMain hQueue
      exact ((hPopped _).observe _ (by simp) (by simp)).1
  | bodySkipped hQueue hScheduled => exact h.popMain rfl hQueue
  | bodyTaken hQueue hScheduled => exact (h.popMain rfl hQueue).observe _ (by simp) (by simp)
  | bodyFailed hQueue hScheduled now =>
      exact (((h.popMain rfl hQueue).schedule _).observe _ (by simp) (by simp)).push _ rfl (by simp)
  | callSkipped hQueue hScheduled =>
      exact ((h.popMain rfl hQueue).schedule _).push _ rfl (by simp)
  | called hQueue hScheduled response =>
      exact (((h.popMain rfl hQueue).schedule _).observe _ (by simp) (by simp)).push _ rfl (by simp)
  | promised hQueue hScheduled =>
      exact ((h.popMain rfl hQueue).promise _).observe _ (by simp) (by simp)
  | @settled index request hPromise response =>
      have hSettled := (h.promise (conn.promises.eraseIdx index)).schedule true
      exact hSettled.push (.onMessageCompleteComplete request response) rfl (by simp)
  | rejected hPromise => exact h.promise _

omit [DataSource File] [Host] [Digests] in
/-- A fresh connection waits for nothing: it reads, and its parser is between two
messages. -/
theorem Initial.sound (contract : HttpParserContract) (h : Initial conn) :
    Sound (contract.phase conn.parser) conn := by
  obtain ⟨incompleteContentHeader, header, rfl⟩ := h
  exact {
    deciding := Or.inl rfl
    reading := fun _ => rfl
    websocket := fun hGone => Bool.noConfusion hGone
    switched := by simp [UsesWebSocket, fresh] }

/-- What a step preserves holds after every run. The step may use `Sound`, which spares
each invariant the cases that it excludes. -/
theorem run_invariant (contract : HttpParserContract) {I : Connection File → Prop}
    {start finish : Connection File} {actions : List (ConnectionAction File)} {outputs : List Unit}
    (run : system.Run start actions finish outputs) (hInitial : Initial start) (hStart : I start)
    (hStep : ∀ conn after, Sound (contract.phase conn.parser) conn → Step conn after →
      I conn → I after) : Sound (contract.phase finish.parser) finish ∧ I finish := by
  apply run.invariant (I := fun conn _ => Sound (contract.phase conn.parser) conn ∧ I conn)
  · exact ⟨hInitial.sound contract, hStart⟩
  · rintro conn outputs action after emitted ⟨hSound, hInvariant⟩ hNext
    obtain ⟨result, hResult, hSame⟩ := Option.map_eq_some_iff.1 hNext
    obtain rfl : result = after := congrArg Prod.fst hSame
    have hTaken := step hResult
    exact ⟨hSound.step contract hTaken, hStep conn result hSound hTaken hInvariant⟩

end Steps

end Connection

end Httpuv
