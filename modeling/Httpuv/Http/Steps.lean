import Httpuv.Http.Ending

/-! What one step of a connection can do. -/
namespace Httpuv

open Semantics

namespace Connection

variable {File : Type} [HttpParser] [Zlib]

section Feed

variable {conn : Connection File} {static : Option (HttpResponse (Body File))}

theorem parser_close (conn : Connection File) : conn.close.parser = conn.parser := by
  unfold close
  split_ifs <;> rfl

theorem parser_onEvent (conn : Connection File) (event : ParserEvent) :
    (conn.onEvent static event).parser = conn.parser := by
  cases event with
  | onMessageBegin =>
      simp only [onEvent, newRequest, invokeLater]
      split_ifs
      · exact parser_close _
      · rfl
  | onHeadersComplete upgrade =>
      simp only [onEvent, onHeadersComplete]
      split <;> rfl
  | onMessageComplete =>
      simp only [onEvent, onMessageComplete]
      split_ifs <;> rfl
  | _ => rfl

theorem parser_foldl_onEvent (events : List ParserEvent) (conn : Connection File) :
    (events.foldl (onEvent static) conn).parser = conn.parser := by
  induction events generalizing conn with
  | nil => rfl
  | cons event events ih => exact (ih (conn.onEvent static event)).trans (parser_onEvent conn event)

theorem parser_feed (conn : Connection File) (buffer : Bytes) :
    (conn.feed static buffer).parser = (HttpParser.execute conn.parser buffer).parser :=
  parser_foldl_onEvent _ _

/-- What every callback preserves, in the order in which the parser makes them,
holds when the parser returns. -/
theorem feed_invariant (contract : HttpParserContract)
    {I : ParserPhase → Connection File → Prop} (buffer : Bytes)
    (hStart : I (contract.phase conn.parser)
      ({ conn with parser := (HttpParser.execute conn.parser buffer).parser }.observe
        (.execute (buffer.take (HttpParser.execute conn.parser buffer).parsed))))
    (hDropped : ∀ conn, I .refused conn → I .between conn)
    (hEvent : ∀ phase event after conn, ParserPhase.next phase event = some after →
      I phase conn → I after (conn.onEvent static event)) :
    I (contract.phase (conn.feed static buffer).parser) (conn.feed static buffer) := by
  rw [parser_feed, feed]
  have hExecute := contract.execute conn.parser buffer
  generalize hResult : HttpParser.execute conn.parser buffer = result at hExecute hStart ⊢
  generalize ({ conn with parser := result.parser }.observe
    (.execute (buffer.take result.parsed))) = start at hStart ⊢
  rcases hExecute with hFollows | ⟨hRefused, hEvents, hBetween⟩
  · generalize contract.phase conn.parser = phase at hFollows hStart
    generalize result.events = events at hFollows
    induction events generalizing phase start with
    | nil =>
        obtain rfl : phase = contract.phase result.parser := hFollows
        exact hStart
    | cons event events ih =>
        obtain ⟨middle, hNext, hRest⟩ := hFollows
        exact ih _ middle (hEvent phase event middle start hNext hStart) hRest
  · rw [hEvents, hBetween]
    rw [hRefused] at hStart
    exact hDropped start hStart

/-- A parser that waits or has been refused makes no callbacks. -/
theorem feed_silent (contract : HttpParserContract)
    (hPhase : contract.phase conn.parser = .waiting ∨ contract.phase conn.parser = .refused)
    (buffer : Bytes) : conn.feed static buffer =
      { conn with parser := (HttpParser.execute conn.parser buffer).parser }.observe
        (.execute (buffer.take (HttpParser.execute conn.parser buffer).parsed)) := by
  rw [feed, (contract.silent hPhase buffer).1]
  rfl

end Feed

/-- A connection at the beginning of its next request. -/
def begun (conn : Connection File) : Connection File :=
  { conn.observe (.onMessageBegin (conn.current + 1) conn.handlingRequest) with
    handlingRequest := true
    head := conn.head.newRequest
    responseScheduled := false
    current := conn.current + 1 }

theorem newRequest_eq (conn : Connection File) : conn.newRequest =
    (if conn.handlingRequest then conn.begun.close else conn.begun).invokeLater .initializeEnv := by
  unfold newRequest
  cases hHandling : conn.handlingRequest with
  | false => simp [begun, observe, invokeLater, hHandling]
  | true =>
      simp only [if_true, begun, close, observe, hHandling, invokeLater]
      split_ifs <;> rfl

variable [DataSource File]

/-- Only the close of a connection that is handling a request comes on top. -/
theorem quiet_newRequest (conn : Connection File) : Quiet conn.begun conn.newRequest := by
  rw [newRequest_eq]
  split_ifs
  · exact (quiet_close _).invokeLater _ rfl (by simp)
  · exact (Quiet.refl _).invokeLater _ rfl (by simp)

omit [DataSource File] in
theorem newRequest_isClosing {conn : Connection File} (hHandling : conn.handlingRequest = true) :
    conn.newRequest.isClosing = true := by
  rw [newRequest_eq, if_pos hHandling]
  exact close_isClosing _

variable [Host] [Digests]

/-- The branch for upgrades: the WebSocket is gone, or refuses, or has its response written. -/
theorem upgrade_cases {conn after : Connection File} {now : Tm} {pData : Bytes}
    (h : conn.upgrade now pData = some after) :
    (conn.pWebSocketConnection = false ∧ after = conn) ∨
    (conn.pWebSocketConnection = true ∧
      conn.websocket.acceptedParser conn.head.headers pData = none ∧
      after = if conn.protocol = .webSockets then conn.observe (.accept conn.current false)
        else (conn.observe (.accept conn.current false)).close) ∨
    ∃ parser handshake answered, conn.pWebSocketConnection = true ∧
      conn.websocket.acceptedParser conn.head.headers pData = some parser ∧
      handshake = WebSocketConnection.handshake parser conn.head.url conn.head.headers pData ∧
      (conn.accept parser handshake).writeResponse conn.current .switching
        (switchingProtocols handshake now) = some answered ∧
      after = answered.switchProtocol handshake := by
  unfold upgrade at h
  by_cases hOpen : conn.pWebSocketConnection = true
  · right
    rw [if_neg (by simp [hOpen])] at h
    cases hAccepted : conn.websocket.acceptedParser conn.head.headers pData with
    | none =>
        simp only [hAccepted, Option.some.injEq] at h
        exact Or.inl ⟨hOpen, rfl, h.symm⟩
    | some parser =>
        simp only [hAccepted, Option.bind_eq_bind, Option.bind_eq_some_iff, Option.pure_def,
          Option.some.injEq] at h
        obtain ⟨answered, hAnswered, rfl⟩ := h
        exact Or.inr ⟨parser, _, answered, hOpen, rfl, rfl, hAnswered, rfl⟩
  · rw [if_pos (by simpa using hOpen)] at h
    obtain rfl := Option.some.inj h
    exact Or.inl ⟨by simpa using hOpen, rfl⟩

/-- How the branch for upgrades ends. -/
inductive Upgraded (conn : Connection File) (now : Tm) (pData : Bytes) : Connection File → Prop
  | gone (hGone : conn.pWebSocketConnection = false) : Upgraded conn now pData conn
  | refused {after : Connection File}
      (hRefused : conn.websocket.acceptedParser conn.head.headers pData = none)
      (hQuiet : Quiet (conn.observe (.accept conn.current false)) after)
      (hClosed : conn.protocol = .webSockets ∨ after.isClosing = true) :
      Upgraded conn now pData after
  | accepted {parser : WSParser} {answered : Connection File}
      {handshake : WebSocketProto.Handshake} (hOpen : conn.pWebSocketConnection = true)
      (hAccepted : conn.websocket.acceptedParser conn.head.headers pData = some parser)
      (hHandshake : handshake =
        WebSocketConnection.handshake parser conn.head.url conn.head.headers pData)
      (hAnswered : (conn.accept parser handshake).writeResponse conn.current .switching
        (switchingProtocols handshake now) = some answered) :
      Upgraded conn now pData (answered.switchProtocol handshake)

theorem upgraded {conn after : Connection File} {now : Tm} {pData : Bytes}
    (h : conn.upgrade now pData = some after) : Upgraded conn now pData after := by
  rcases upgrade_cases h with ⟨hGone, rfl⟩ | ⟨hOpen, hRefused, rfl⟩ |
    ⟨parser, handshake, answered, hOpen, hAccepted, hHandshake, hAnswered, rfl⟩
  · exact .gone hGone
  · split_ifs with hProtocol
    · exact .refused hRefused (Quiet.refl _) (Or.inl hProtocol)
    · exact .refused hRefused (quiet_close _) (Or.inr (close_isClosing _))
  · exact .accepted hOpen hAccepted hHandshake hAnswered

theorem Upgraded.parser {conn after : Connection File} {now : Tm} {pData : Bytes}
    (h : Upgraded conn now pData after) : after.parser = conn.parser := by
  cases h with
  | gone hGone => rfl
  | refused hRefused hQuiet hClosed => exact hQuiet.parser
  | accepted hOpen hAccepted hHandshake hAnswered =>
      obtain ⟨entries, hWrote⟩ := wrote hAnswered
      obtain ⟨writes, rfl⟩ := hWrote.same
      rfl

/-- How `_parse_http_data` ends, once the parser has returned. -/
inductive Parsed (conn : Connection File) (static : Option (HttpResponse (Body File))) (now : Tm)
    (buffer : Bytes) : Connection File → Prop
  | waiting
      (hWaiting : HttpParser.waitingForHeadersCompleted (conn.feed static buffer).parser = true) :
      Parsed conn static now buffer { conn.feed static buffer with
        requestBuffer := (conn.feed static buffer).requestBuffer ++
          buffer.drop (HttpParser.execute conn.parser buffer).parsed }
  | upgrade {after : Connection File}
      (hWaiting : HttpParser.waitingForHeadersCompleted (conn.feed static buffer).parser = false)
      (hUpgrade : (conn.feed static buffer).isUpgrade = true)
      (hAfter : Upgraded (conn.feed static buffer) now
        (buffer.drop (HttpParser.execute conn.parser buffer).parsed) after) :
      Parsed conn static now buffer after
  | quiet {after : Connection File}
      (hWaiting : HttpParser.waitingForHeadersCompleted (conn.feed static buffer).parser = false)
      (hUpgrade : (conn.feed static buffer).isUpgrade = false)
      (hQuiet : Quiet (conn.feed static buffer) after)
      (hRest : buffer.length ≤ (HttpParser.execute conn.parser buffer).parsed ∨
        (conn.feed static buffer).ignoreNewData = true ∨ after.isClosing = true)
      (hEnding : KeepsEnding (conn.feed static buffer) after) :
      Parsed conn static now buffer after

theorem parsed {conn after : Connection File} {static : Option (HttpResponse (Body File))}
    {now : Tm} {buffer : Bytes} (h : conn.parseHttpData static now buffer = some after) :
    Parsed conn static now buffer after := by
  unfold parseHttpData at h
  dsimp only at h
  split_ifs at h with hWaiting hUpgrade hRest hIgnore
  · obtain rfl := Option.some.inj h
    exact .waiting hWaiting
  · exact .upgrade (by simpa using hWaiting) hUpgrade (upgraded h)
  · obtain rfl := Option.some.inj h
    exact .quiet (by simpa using hWaiting) (by simpa using hUpgrade) (Quiet.refl _)
      (Or.inr (Or.inl hIgnore)) (.refl _)
  · obtain rfl := Option.some.inj h
    have hStopped : KeepsEnding (conn.feed static buffer)
        { conn.feed static buffer with reading := false } := .same rfl rfl id
    exact .quiet (by simpa using hWaiting) (by simpa using hUpgrade) (quiet_stopped _)
      (Or.inr (Or.inr (close_isClosing _))) (hStopped.trans (.close _))
  · obtain rfl := Option.some.inj h
    exact .quiet (by simpa using hWaiting) (by simpa using hUpgrade) (Quiet.refl _)
      (Or.inl (Nat.le_of_not_lt hRest)) (.refl _)

/-- Reading may be stopped before a final response is written. -/
def stopIf (conn : Connection File) (closing : Bool) : Connection File :=
  { conn with
    reading := conn.reading && !closing
    ignoreNewData := conn.ignoreNewData || closing }

/-- The final response to a request is written, and may close the connection. -/
def Finishes (conn : Connection File) (request : Nat) (response : HttpResponse (Body File))
    (closing : Bool) (after : Connection File) : Prop :=
  (conn.stopIf closing).writeResponse request .final
    (if closing then response.requestClose else response) = some after

omit [DataSource File] [Host] [Digests] in
theorem stopIf_eq (conn : Connection File) (closing : Bool) :
    conn.stopIf closing = if closing then conn.stopReading else conn := by
  cases closing <;> simp [stopIf, stopReading]

omit [Host] [Digests] in
theorem finishes_of {conn after : Connection File} {request : Nat}
    {response : HttpResponse (Body File)} (closing : Bool)
    (h : (if closing then conn.stopReading.writeResponse request .final response.requestClose
      else conn.writeResponse request .final response) = some after) :
    Finishes conn request response closing after := by
  rw [Finishes, stopIf_eq]
  cases closing
  · exact h
  · exact h

omit [Host] [Digests] in
theorem Finishes.parser {conn after : Connection File} {request : Nat}
    {response : HttpResponse (Body File)} {closing : Bool}
    (h : Finishes conn request response closing after) : after.parser = conn.parser := by
  obtain ⟨entries, hWrote⟩ := wrote h
  obtain ⟨writes, rfl⟩ := hWrote.same
  rfl

omit [Host] [Digests] in
theorem headersCompleted_some {conn middle : Connection File} {now : Tm} {request : Nat}
    {response : HttpResponse (Body File)}
    (h : conn.headersCompleted now request (some response) = some middle) :
    ∃ closing answered, Finishes conn request response closing answered ∧
      middle = { answered with parser := HttpParser.headersCompleted answered.parser 3 } := by
  simp only [headersCompleted, Option.bind_eq_bind, Option.pure_def] at h
  split_ifs at h
  · obtain ⟨answered, hAnswered, hMiddle⟩ := Option.bind_eq_some_iff.1 h
    exact ⟨true, answered, finishes_of true hAnswered, (Option.some.inj hMiddle).symm⟩
  · obtain ⟨answered, hAnswered, hMiddle⟩ := Option.bind_eq_some_iff.1 h
    exact ⟨false, answered, finishes_of false hAnswered, (Option.some.inj hMiddle).symm⟩

omit [Host] [Digests] in
/-- Without a response at most `100 Continue` is written. -/
theorem headersCompleted_none {conn middle : Connection File} {now : Tm} {request : Nat}
    (h : conn.headersCompleted now request none = some middle) :
    ∃ continued, (continued = conn ∨ conn.writeResponse request .interim
        (HttpResponse.construct 100 (ascii "Continue") none now) = some continued) ∧
      middle = { continued with parser := HttpParser.headersCompleted continued.parser 0 } := by
  simp only [headersCompleted, Option.bind_eq_bind, Option.pure_def] at h
  split_ifs at h
  · obtain ⟨continued, hContinued, hMiddle⟩ := Option.bind_eq_some_iff.1 h
    exact ⟨continued, Or.inr hContinued, (Option.some.inj hMiddle).symm⟩
  · exact ⟨conn, Or.inl rfl, (Option.some.inj h).symm⟩

omit [Host] [Digests] in
theorem parser_headersCompleted {conn middle : Connection File} {now : Tm} {request : Nat}
    {response : Option (HttpResponse (Body File))}
    (h : conn.headersCompleted now request response = some middle) :
    middle.parser = HttpParser.headersCompleted conn.parser (if response.isSome then 3 else 0) := by
  cases response with
  | some answer =>
      obtain ⟨closing, answered, hFinishes, rfl⟩ := headersCompleted_some h
      exact congrArg (fun parser => HttpParser.headersCompleted parser 3) hFinishes.parser
  | none =>
      obtain ⟨continued, rfl | hContinued, rfl⟩ := headersCompleted_none h
      · rfl
      · obtain ⟨entries, hWrote⟩ := wrote hContinued
        obtain ⟨writes, rfl⟩ := hWrote.same
        rfl

omit [Host] [Digests] in
theorem onBodyError_finishes {conn after : Connection File} {request : Nat}
    {response : HttpResponse (Body File)} (h : conn.onBodyError request response = some after) :
    Finishes { conn with parser := HttpParser.pause conn.parser } request response true after :=
  finishes_of true h

omit [Host] [Digests] in
theorem onMessageCompleteComplete_cases {conn after : Connection File} {request : Nat}
    {response : Option (HttpResponse (Body File))}
    (h : conn.onMessageCompleteComplete request response = some after) :
    after = conn ∧ (response = none ∨ conn.isClosing = true) ∨
      conn.isClosing = false ∧ ∃ answer, response = some answer ∧
        Finishes conn request answer (!HttpParser.shouldKeepAlive conn.parser) after := by
  cases response with
  | none => exact Or.inl ⟨(Option.some.inj h).symm, Or.inl rfl⟩
  | some answer =>
      simp only [onMessageCompleteComplete] at h
      split_ifs at h with hClosing hKeepAlive
      · exact Or.inl ⟨(Option.some.inj h).symm, Or.inr hClosing⟩
      · refine Or.inr ⟨by simpa using hClosing, answer, rfl, finishes_of _ ?_⟩
        simpa [hKeepAlive] using h
      · refine Or.inr ⟨by simpa using hClosing, answer, rfl, finishes_of _ ?_⟩
        simpa [hKeepAlive] using h

/-- The steps of a connection. Those that do nothing for a request are one case. -/
inductive Step (conn : Connection File) : Connection File → Prop
  | quiet {after : Connection File} (hQuiet : Quiet conn after)
      (hEnding : conn.Writing → KeepsEnding conn after) : Step conn after
  | read {after : Connection File} (static : Option (HttpResponse (Body File))) (now : Tm)
      (data : Bytes) (hReading : conn.reading = true) (hIgnore : conn.ignoreNewData = false)
      (hProtocol : conn.protocol = .http)
      (hParsed : Parsed (conn.observe (.read data)) static now data after) : Step conn after
  | onHeadersCompleteComplete {middle after : Connection File} {request : Nat}
      {response : Option (HttpResponse (Body File))} {rest : List (BackgroundTask File)}
      (static : Option (HttpResponse (Body File))) (now : Tm)
      (hQueue : conn.backgroundQueue = .onHeadersCompleteComplete request response :: rest)
      (hMiddle : { conn with backgroundQueue := rest }.headersCompleted now request response =
        some middle)
      (hParsed : Parsed { middle with requestBuffer := [] } static now middle.requestBuffer after) :
      Step conn after
  | onBodyError {after : Connection File} {request : Nat} {response : HttpResponse (Body File)}
      {rest : List (BackgroundTask File)}
      (hQueue : conn.backgroundQueue = .onBodyError request response :: rest)
      (hAfter : Connection.onBodyError { conn with backgroundQueue := rest } request response =
        some after) : Step conn after
  | onMessageCompleteComplete {after : Connection File} {request : Nat}
      {response : Option (HttpResponse (Body File))} {rest : List (BackgroundTask File)}
      (hQueue : conn.backgroundQueue = .onMessageCompleteComplete request response :: rest)
      (hAfter : Connection.onMessageCompleteComplete { conn with backgroundQueue := rest } request
        response = some after) : Step conn after
  | decided {request : Nat} {rest : List MainTask}
      (hQueue : conn.mainQueue = .onHeaders request :: rest)
      (response : Option (HttpResponse (Body File))) : Step conn { conn with
        mainQueue := rest
        responseScheduled := conn.responseScheduled || response.isSome
        log := conn.log ++ .onHeaders request :: response.toList.map (.answeredInHeaders request)
        backgroundQueue := conn.backgroundQueue ++ [.onHeadersCompleteComplete request response] }
  | undecided {request : Nat} {rest : List MainTask}
      (hQueue : conn.mainQueue = .onHeaders request :: rest) :
      Step conn ({ conn with mainQueue := rest }.observe (.onHeaders request))
  | bodySkipped {request : Nat} {data : Bytes} {rest : List MainTask}
      (hQueue : conn.mainQueue = .onBodyData request data :: rest)
      (hScheduled : conn.responseScheduled = true) : Step conn { conn with mainQueue := rest }
  | bodyTaken {request : Nat} {data : Bytes} {rest : List MainTask}
      (hQueue : conn.mainQueue = .onBodyData request data :: rest)
      (hScheduled : conn.responseScheduled = false) :
      Step conn ({ conn with mainQueue := rest }.observe (.onBodyData request false))
  | bodyFailed {request : Nat} {data : Bytes} {rest : List MainTask}
      (hQueue : conn.mainQueue = .onBodyData request data :: rest)
      (hScheduled : conn.responseScheduled = false) (now : Tm) :
      Step conn ({ conn with mainQueue := rest, responseScheduled := true }.observe
        (.onBodyData request true) |>.push (.onBodyError request (AppAnswer.errorResponse now)))
  | callSkipped {request : Nat} {rest : List MainTask}
      (hQueue : conn.mainQueue = .getResponse request :: rest)
      (hScheduled : conn.responseScheduled = true) :
      Step conn ({ conn with mainQueue := rest, responseScheduled := true }.push
        (.onMessageCompleteComplete request none))
  | called {request : Nat} {rest : List MainTask}
      (hQueue : conn.mainQueue = .getResponse request :: rest)
      (hScheduled : conn.responseScheduled = false) (response : Option (HttpResponse (Body File))) :
      Step conn ({ conn with mainQueue := rest, responseScheduled := true }.observe
        (.call request) |>.push (.onMessageCompleteComplete request response))
  | promised {request : Nat} {rest : List MainTask}
      (hQueue : conn.mainQueue = .getResponse request :: rest)
      (hScheduled : conn.responseScheduled = false) :
      Step conn ({ conn with mainQueue := rest, promises := conn.promises ++ [request] }.observe
        (.call request))
  | settled {index request : Nat} (hPromise : conn.promises[index]? = some request)
      (response : Option (HttpResponse (Body File))) :
      Step conn ({ conn with
        promises := conn.promises.eraseIdx index
        responseScheduled := true }.push (.onMessageCompleteComplete request response))
  | rejected {index request : Nat} (hPromise : conn.promises[index]? = some request) :
      Step conn { conn with promises := conn.promises.eraseIdx index }

/-- Data are parsed, or they are for the WebSocket or for nobody. -/
theorem onRead_cases {conn after : Connection File} {static : Option (HttpResponse (Body File))}
    {now : Tm} {data : Bytes} (h : conn.onRead static now data = some after) :
    conn.ignoreNewData = false ∧ conn.protocol = .http ∧
      Parsed (conn.observe (.read data)) static now data after ∨
    Quiet conn after ∧ KeepsEnding conn after := by
  have hObserved : KeepsEnding conn (conn.observe (.read data)) := .same rfl rfl id
  unfold onRead at h
  dsimp only at h
  by_cases hIgnore : conn.ignoreNewData = true
  · rw [if_pos (show (conn.observe (.read data)).ignoreNewData = true from hIgnore)] at h
    obtain rfl := Option.some.inj h
    exact Or.inr ⟨(Quiet.refl conn).observe _ (Or.inr hIgnore), hObserved⟩
  · rw [if_neg (show ¬ (conn.observe (.read data)).ignoreNewData = true from hIgnore)] at h
    cases hProtocol : (conn.observe (.read data)).protocol with
    | http =>
        rw [hProtocol] at h
        exact Or.inl ⟨by simpa using hIgnore, hProtocol, parsed h⟩
    | webSockets =>
        rw [hProtocol] at h
        have hRead : Quiet conn (conn.observe (.read data)) :=
          (Quiet.refl conn).observe _ (Or.inl (Or.inl hProtocol))
        dsimp only at h
        by_cases hOpen : (conn.observe (.read data)).pWebSocketConnection = true
        · rw [if_pos hOpen] at h
          exact Or.inr ⟨hRead.wsRead (Or.inl hProtocol) h, hObserved.trans (keepsEnding_wsRead h)⟩
        · rw [if_neg hOpen] at h
          obtain rfl := Option.some.inj h
          exact Or.inr ⟨hRead, hObserved⟩

theorem step_onRead {conn after : Connection File} {static : Option (HttpResponse (Body File))}
    {now : Tm} {data : Bytes} (hReading : conn.reading = true)
    (h : conn.onRead static now data = some after) : Step conn after := by
  rcases onRead_cases h with ⟨hIgnore, hProtocol, hParsed⟩ | ⟨hQuiet, hEnding⟩
  · exact .read static now data hReading hIgnore hProtocol hParsed
  · exact .quiet hQuiet (fun _ => hEnding)

/-- What the first task of the background queue makes of the connection. -/
inductive Ran (conn : Connection File) (static : Option (HttpResponse (Body File))) (now : Tm)
    (freed : Bytes) (rest : List (BackgroundTask File)) :
    BackgroundTask File → Connection File → Prop
  | onHeadersCompleteComplete {request : Nat} {response : Option (HttpResponse (Body File))}
      {middle after : Connection File}
      (hMiddle : { conn with backgroundQueue := rest }.headersCompleted now request response =
        some middle)
      (hAfter : middle.parseHttpDataFromBuffer static now = some after) :
      Ran conn static now freed rest (.onHeadersCompleteComplete request response) after
  | onBodyError {request : Nat} {response : HttpResponse (Body File)} {after : Connection File}
      (hAfter : { conn with backgroundQueue := rest }.onBodyError request response = some after) :
      Ran conn static now freed rest (.onBodyError request response) after
  | onMessageCompleteComplete {request : Nat} {response : Option (HttpResponse (Body File))}
      {after : Connection File}
      (hAfter : { conn with backgroundQueue := rest }.onMessageCompleteComplete request response =
        some after) :
      Ran conn static now freed rest (.onMessageCompleteComplete request response) after
  | close : Ran conn static now freed rest .close { conn with backgroundQueue := rest }.close
  | read {after : Connection File}
      (hAfter : { conn with backgroundQueue := rest }.wsRead freed = some after) :
      Ran conn static now freed rest (.read freed.length) after
  | websocket {task : WSTask} {after : Connection File}
      (hAfter : { conn with backgroundQueue := rest }.runWSTask task = some after) :
      Ran conn static now freed rest (.websocket task) after

theorem runBackground_cases {conn after : Connection File}
    {static : Option (HttpResponse (Body File))} {now : Tm} {freed : Bytes}
    (h : conn.runBackground static now freed = some after) :
    ∃ task rest, conn.backgroundQueue = task :: rest ∧ Ran conn static now freed rest task after := by
  unfold runBackground at h
  cases hQueue : conn.backgroundQueue with
  | nil =>
      rw [hQueue] at h
      cases h
  | cons task rest =>
      rw [hQueue] at h
      refine ⟨task, rest, rfl, ?_⟩
      cases task with
      | onHeadersCompleteComplete request response =>
          simp only [Option.bind_eq_bind, Option.bind_eq_some_iff] at h
          obtain ⟨middle, hMiddle, hAfter⟩ := h
          exact .onHeadersCompleteComplete hMiddle hAfter
      | onBodyError request response => exact .onBodyError h
      | onMessageCompleteComplete request response => exact .onMessageCompleteComplete h
      | close =>
          obtain rfl := Option.some.inj h
          exact .close
      | read size =>
          simp only [Option.ite_none_right_eq_some] at h
          obtain ⟨rfl, hAfter⟩ := h
          exact .read hAfter
      | websocket task => exact .websocket h

theorem step_runBackground {conn after : Connection File}
    {static : Option (HttpResponse (Body File))} {now : Tm} {freed : Bytes}
    (h : conn.runBackground static now freed = some after) : Step conn after := by
  obtain ⟨task, rest, hQueue, hRan⟩ := runBackground_cases h
  have hPopped : KeepsEnding conn { conn with backgroundQueue := rest } := .same rfl rfl id
  cases hRan with
  | onHeadersCompleteComplete hMiddle hAfter =>
      exact .onHeadersCompleteComplete static now hQueue hMiddle (parsed hAfter)
  | onBodyError hAfter => exact .onBodyError hQueue hAfter
  | onMessageCompleteComplete hAfter => exact .onMessageCompleteComplete hQueue hAfter
  | close =>
      exact .quiet ((quiet_popBackground hQueue rfl).trans (quiet_close _))
        (fun _ => hPopped.trans (.close _))
  | read hAfter =>
      have hUses : conn.UsesWebSocket :=
        Or.inr (Or.inr (Or.inl ⟨freed.length, by simp [hQueue]⟩))
      exact .quiet ((quiet_popBackground hQueue rfl).wsRead hUses hAfter)
        (fun _ => hPopped.trans (keepsEnding_wsRead hAfter))
  | websocket hAfter =>
      exact .quiet ((quiet_popBackground hQueue rfl).trans (quiet_runWSTask hAfter))
        (fun _ => hPopped.trans (keepsEnding_runWSTask hAfter))

theorem step_onHeaders {conn : Connection File} {request : Nat} {rest : List MainTask}
    (hQueue : conn.mainQueue = .onHeaders request :: rest) (outcome : AppOutcome File) (now : Tm) :
    Step conn (onHeaders { conn with mainQueue := rest } request outcome now) := by
  cases outcome with
  | returned answer =>
      have hDecided := Step.decided hQueue (answer.map (AppAnswer.toResponse now))
      cases answer <;> simpa [onHeaders, scheduleHeadersCompleteComplete, push, observe] using hDecided
  | failed =>
      have hDecided := Step.decided hQueue (some (AppAnswer.errorResponse now))
      simpa [onHeaders, scheduleHeadersCompleteComplete, push, observe] using hDecided
  | malformed => exact .undecided hQueue
  | promise => exact .undecided hQueue

theorem step_onBodyData {conn : Connection File} {request : Nat} {data : Bytes}
    {rest : List MainTask} (hQueue : conn.mainQueue = .onBodyData request data :: rest)
    (outcome : AppOutcome File) (now : Tm) :
    Step conn (onBodyData { conn with mainQueue := rest } request outcome now) := by
  unfold onBodyData
  split_ifs with hScheduled
  · exact .bodySkipped hQueue hScheduled
  · have hNone : conn.responseScheduled = false := by simpa using hScheduled
    cases outcome with
    | failed => exact .bodyFailed hQueue hNone now
    | returned answer => exact .bodyTaken hQueue hNone
    | malformed => exact .bodyTaken hQueue hNone
    | promise => exact .bodyTaken hQueue hNone

theorem step_getResponse {conn : Connection File} {request : Nat} {rest : List MainTask}
    (hQueue : conn.mainQueue = .getResponse request :: rest) (outcome : AppOutcome File)
    (now : Tm) : Step conn (getResponse { conn with mainQueue := rest } request outcome now) := by
  unfold getResponse
  split_ifs with hScheduled
  · exact .callSkipped hQueue hScheduled
  · have hNone : conn.responseScheduled = false := by simpa using hScheduled
    cases outcome with
    | promise => exact .promised hQueue hNone
    | returned answer => exact .called hQueue hNone _
    | malformed => exact .called hQueue hNone _
    | failed => exact .called hQueue hNone _

/-- What a callback on the main thread makes of the connection. -/
def performed (conn : Connection File) (outcome : AppOutcome File) (calls : List WSCall)
    (now : Tm) : MainTask → Connection File
  | .initializeEnv => conn
  | .onHeaders request => conn.onHeaders request outcome now
  | .onBodyData request _ => conn.onBodyData request outcome now
  | .getResponse request => conn.getResponse request outcome now
  | .callROnWSOpen => conn.callROnWSOpen outcome calls
  | .onWSMessage binary data => (conn.observe (.onWSMessage binary data)).closeIfFailed outcome
  | .onWSClose => { conn with wsHandle := false }.observe .onWSClose

omit [DataSource File] [Host] [Digests] in
/-- A callback is taken from the queue. -/
theorem runMain_cases {conn after : Connection File} {outcome : AppOutcome File}
    {calls : List WSCall} {now : Tm} (h : conn.runMain outcome calls now = some after) :
    ∃ task rest, conn.mainQueue = task :: rest ∧
      after = performed { conn with mainQueue := rest } outcome calls now task := by
  unfold runMain at h
  cases hQueue : conn.mainQueue with
  | nil =>
      rw [hQueue] at h
      cases h
  | cons task rest =>
      rw [hQueue] at h
      refine ⟨task, rest, rfl, ?_⟩
      cases task <;> exact (Option.some.inj h).symm

theorem step_runMain {conn after : Connection File} {outcome : AppOutcome File}
    {calls : List WSCall} {now : Tm} (h : conn.runMain outcome calls now = some after) :
    Step conn after := by
  obtain ⟨task, rest, hQueue, rfl⟩ := runMain_cases h
  have hPopped : KeepsEnding conn { conn with mainQueue := rest } := .same rfl rfl id
  cases task with
  | initializeEnv =>
      exact .quiet (quiet_popMain hQueue rfl) (fun _ => hPopped)
  | onHeaders request =>
      exact step_onHeaders hQueue outcome now
  | onBodyData request data =>
      exact step_onBodyData hQueue outcome now
  | getResponse request =>
      exact step_getResponse hQueue outcome now
  | callROnWSOpen =>
      have hUses : conn.UsesWebSocket := Or.inr (Or.inl (by simp [hQueue]))
      exact .quiet ((quiet_popMain hQueue rfl).callROnWSOpen hUses outcome calls)
        (fun _ => hPopped.trans (keepsEnding_callROnWSOpen _ outcome calls))
  | onWSMessage binary data =>
      have hCalled := (quiet_popMain hQueue rfl).observe (.onWSMessage binary data) trivial
      have hSame : KeepsEnding conn
          ({ conn with mainQueue := rest }.observe (.onWSMessage binary data)) := .same rfl rfl id
      exact .quiet (hCalled.trans (quiet_closeIfFailed _ outcome))
        (fun _ => hSame.trans (keepsEnding_closeIfFailed _ outcome))
  | onWSClose =>
      have hGone := (quiet_popMain hQueue rfl).trans (quiet_members _ conn.websocket false)
      exact .quiet (hGone.observe .onWSClose trivial) (fun _ => .same rfl rfl id)

theorem step {conn after : Connection File} {action : ConnectionAction File}
    (h : conn.next action = some after) : Step conn after := by
  cases action with
  | read data static now =>
      simp only [next, Option.ite_none_right_eq_some, Bool.and_eq_true] at h
      exact step_onRead h.1.1 h.2
  | readError =>
      simp only [next, Option.ite_none_right_eq_some, Option.some.injEq] at h
      obtain ⟨-, rfl⟩ := h
      exact .quiet (quiet_close conn) (fun _ => .close conn)
  | written status queueEmpty =>
      exact .quiet (quiet_onWritten h) (fun hWriting => keepsEnding_onWritten hWriting h)
  | onClosed => exact .quiet (quiet_onClosed h) (fun _ => keepsEnding_onClosed h)
  | pingTimer =>
      simp only [next, Option.bind_eq_bind, Option.bind_eq_some_iff, Option.pure_def,
        Option.some.injEq] at h
      obtain ⟨callbacks, hPing, rfl⟩ := h
      refine .quiet (quiet_runWebSocket _ _ _) (fun _ => keepsEnding_runWebSocket id ?_)
      intro hNone
      simp [WebSocketConnection.sendPing, hNone] at hPing
  | stop =>
      obtain rfl := Option.some.inj h
      exact .quiet (quiet_close conn) (fun _ => .close conn)
  | runBackground static now freed => exact step_runBackground h
  | runMain outcome calls now => exact step_runMain h
  | settle index outcome now =>
      simp only [next, settle, Option.bind_eq_bind, Option.bind_eq_some_iff] at h
      obtain ⟨request, hPromise, h⟩ := h
      cases outcome with
      | returned answer =>
          obtain rfl := Option.some.inj h
          exact .settled hPromise _
      | malformed =>
          obtain rfl := Option.some.inj h
          exact .rejected hPromise
      | promise =>
          obtain rfl := Option.some.inj h
          exact .rejected hPromise
      | failed =>
          obtain rfl := Option.some.inj h
          exact .rejected hPromise
  | wsCall call =>
      obtain rfl := Option.some.inj h
      exact .quiet (quiet_wsCall conn call) (fun _ => keepsEnding_wsCall conn call)

/-! The log only grows. -/

omit [Host] [Digests] in
theorem Quiet.log_grows {conn after : Connection File} (h : Quiet conn after) :
    conn.log <+: after.log := by
  obtain ⟨entries, hLog, -⟩ := h.log
  exact ⟨entries, hLog.symm⟩

omit [Host] [Digests] in
theorem Wrote.log_grows {conn after : Connection File} {request : Nat} {kind : ResponseKind}
    {response : HttpResponse (Body File)} {entries : List (Observation File)}
    (h : Wrote conn after request kind response entries) : conn.log <+: after.log := by
  obtain ⟨writes, rfl⟩ := h.same
  exact List.prefix_append _ _

omit [Host] [Digests] in
theorem onEvent_log (conn : Connection File) (static : Option (HttpResponse (Body File)))
    (event : ParserEvent) : conn.log <+: (conn.onEvent static event).log := by
  cases event with
  | onMessageBegin =>
      have hBegun : conn.log <+: conn.begun.log := List.prefix_append _ _
      exact hBegun.trans (quiet_newRequest conn).log_grows
  | onHeadersComplete upgrade =>
      simp only [onEvent, onHeadersComplete]
      split
      · simp only [push, observe, List.append_assoc]
        exact List.prefix_append _ _
      · exact List.prefix_append _ _
  | onMessageComplete =>
      simp only [onEvent, onMessageComplete]
      split_ifs
      · exact List.prefix_refl _
      · exact List.prefix_refl _
  | _ => exact List.prefix_refl _

omit [Host] [Digests] in
theorem feed_log (conn : Connection File) (static : Option (HttpResponse (Body File)))
    (buffer : Bytes) : conn.log <+: (conn.feed static buffer).log := by
  have hEvents : ∀ (events : List ParserEvent) (conn : Connection File),
      conn.log <+: (events.foldl (onEvent static) conn).log := by
    intro events
    induction events with
    | nil => exact fun conn => List.prefix_refl _
    | cons event events ih => exact fun conn => (onEvent_log conn static event).trans (ih _)
  exact List.IsPrefix.trans (List.prefix_append conn.log _)
    (hEvents _ ({ conn with parser := (HttpParser.execute conn.parser buffer).parser }.observe
      (.execute (buffer.take (HttpParser.execute conn.parser buffer).parsed))))

theorem Upgraded.log_grows {conn after : Connection File} {now : Tm} {pData : Bytes}
    (h : Upgraded conn now pData after) : conn.log <+: after.log := by
  cases h with
  | gone hGone => exact List.prefix_refl _
  | refused hRefused hQuiet hClosed => exact (List.prefix_append _ _).trans hQuiet.log_grows
  | @accepted parser answered handshake hOpen hAccepted hHandshake hAnswered =>
      obtain ⟨entries, hWrote⟩ := wrote hAnswered
      have hAccept : conn.log <+: (conn.accept parser handshake).log := by
        simp only [accept, observe, List.append_assoc]
        exact List.prefix_append _ _
      exact hAccept.trans hWrote.log_grows

theorem Parsed.log_after_feed {conn after : Connection File}
    {static : Option (HttpResponse (Body File))} {now : Tm} {buffer : Bytes}
    (h : Parsed conn static now buffer after) : (conn.feed static buffer).log <+: after.log := by
  cases h with
  | waiting hWaiting => exact List.prefix_refl _
  | upgrade hWaiting hUpgrade hAfter => exact hAfter.log_grows
  | quiet hWaiting hUpgrade hQuiet hRest => exact hQuiet.log_grows

theorem Parsed.log_grows {conn after : Connection File}
    {static : Option (HttpResponse (Body File))} {now : Tm} {buffer : Bytes}
    (h : Parsed conn static now buffer after) : conn.log <+: after.log :=
  (feed_log conn static buffer).trans h.log_after_feed

omit [Host] [Digests] in
theorem Finishes.log_grows {conn after : Connection File} {request : Nat}
    {response : HttpResponse (Body File)} {closing : Bool}
    (h : Finishes conn request response closing after) : conn.log <+: after.log := by
  obtain ⟨entries, hWrote⟩ := wrote h
  exact hWrote.log_grows

omit [Host] [Digests] in
theorem headersCompleted_log {conn middle : Connection File} {now : Tm} {request : Nat}
    {response : Option (HttpResponse (Body File))}
    (h : conn.headersCompleted now request response = some middle) : conn.log <+: middle.log := by
  cases response with
  | some answer =>
      obtain ⟨closing, answered, hFinishes, rfl⟩ := headersCompleted_some h
      exact hFinishes.log_grows
  | none =>
      obtain ⟨continued, rfl | hContinued, rfl⟩ := headersCompleted_none h
      · exact List.prefix_refl _
      · exact (wrote hContinued).choose_spec.log_grows

theorem Step.log_grows {conn after : Connection File} (h : Step conn after) :
    conn.log <+: after.log := by
  cases h with
  | quiet hQuiet => exact hQuiet.log_grows
  | read static now data hReading hIgnore hProtocol hParsed =>
      exact (List.prefix_append _ _).trans hParsed.log_grows
  | onHeadersCompleteComplete static now hQueue hMiddle hParsed =>
      exact (headersCompleted_log hMiddle).trans hParsed.log_grows
  | onBodyError hQueue hAfter => exact (onBodyError_finishes hAfter).log_grows
  | onMessageCompleteComplete hQueue hAfter =>
      rcases onMessageCompleteComplete_cases hAfter with ⟨rfl, -⟩ | ⟨-, answer, -, hFinishes⟩
      · exact List.prefix_refl _
      · exact hFinishes.log_grows
  | decided hQueue response => exact List.prefix_append _ _
  | undecided hQueue => exact List.prefix_append _ _
  | bodySkipped hQueue hScheduled => exact List.prefix_refl _
  | bodyTaken hQueue hScheduled => exact List.prefix_append _ _
  | bodyFailed hQueue hScheduled now => exact List.prefix_append _ _
  | callSkipped hQueue hScheduled => exact List.prefix_refl _
  | called hQueue hScheduled response => exact List.prefix_append _ _
  | promised hQueue hScheduled => exact List.prefix_append _ _
  | settled hPromise response => exact List.prefix_refl _
  | rejected hPromise => exact List.prefix_refl _

end Connection

end Httpuv
