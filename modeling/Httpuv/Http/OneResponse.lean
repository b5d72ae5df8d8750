import Httpuv.Http.Exchange
import Httpuv.Http.ResponseFraming
import Httpuv.Http.Writes

/-! Where the requests of a client that waits for each response stand. -/
namespace Httpuv

open Semantics

/-- A request begins when the one before it has a response. -/
def Sequential {File : Type} (log : List (Observation File)) : Prop :=
  AtEach (fun before entry => ∀ request flag, entry = .onMessageBegin (request + 1) flag →
    request = 0 ∨ ∃ serial response, .writeResponse request serial .final response ∈ before) log

theorem mem_history_final {File : Type} {request serial : Nat} {response : HttpResponse (Body File)}
    {log : List (Observation File)} :
    .final serial response ∈ history request log ↔
      .writeResponse request serial .final response ∈ log := by
  rw [history, List.mem_filterMap]
  constructor
  · rintro ⟨entry, hMem, hEvent⟩
    cases entry with
    | writeResponse owner number kind answer =>
        cases kind with
        | final =>
            simp only [Observation.requestEvent, Option.ite_none_right_eq_some,
              Option.some.injEq, RequestEvent.final.injEq] at hEvent
            obtain ⟨rfl, rfl, rfl⟩ := hEvent
            exact hMem
        | _ => simp [Observation.requestEvent] at hEvent
    | _ => simp [Observation.requestEvent] at hEvent
  · intro hMem
    exact ⟨_, hMem, by simp [Observation.requestEvent]⟩

namespace Connection

variable {File : Type} [HttpParser] [Zlib]

def exchange (phase : ParserPhase) (conn : Connection File) : Exchange File where
  phase
  mainTasks := conn.mainTasks
  backgroundTasks := conn.backgroundTasks
  promises := conn.promises
  responseScheduled := conn.responseScheduled
  ignoreNewData := conn.ignoreNewData
  isUpgrade := conn.isUpgrade
  history := history conn.current conn.log

/-- After an upgrade, whether it was accepted or not, only body data is left. -/
structure Abandoned (phase : ParserPhase) (conn : Connection File) : Prop where
  phase : phase ≠ .head ∧ phase ≠ .waiting
  isUpgrade : conn.isUpgrade = true
  stopped : conn.protocol = .webSockets ∨ conn.isClosing = true
  main : ∀ task ∈ conn.mainTasks, ∃ data, task = .onBodyData conn.current data
  background : conn.backgroundTasks = [] ∨ conn.responseScheduled = true ∧
    ∃ now, conn.backgroundTasks = [.onBodyError conn.current (AppAnswer.errorResponse now)]
  promises : conn.promises = []

/-- An upgrade whose parser has just returned. Nothing of its body has been looked
at. -/
structure Cut (phase : ParserPhase) (conn : Connection File) : Prop where
  current : 0 < conn.current
  isUpgrade : conn.isUpgrade = true
  phase : phase = .body ∨ phase = .between
  main : ∀ task ∈ conn.mainTasks, ∃ data, task = .onBodyData conn.current data
  background : conn.backgroundTasks = []
  promises : conn.promises = []
  history : history conn.current conn.log = []

/-- Where the current request is. -/
inductive Standing (phase : ParserPhase) (conn : Connection File) : Prop
  | unused (hCurrent : conn.current = 0)
      (hExchange : conn.exchange phase = ⟨.between, [], [], [], false, false, false, []⟩)
  | stage (hCurrent : 0 < conn.current) (hStage : Stage conn.current (conn.exchange phase))

/-- The requests before the current one are over, without an error in their bodies, and
none has been thought of yet that comes after it. -/
structure Courses (conn : Connection File) : Prop where
  past : ∀ request < conn.current, Course (history request conn.log) ∧
    .onBodyData true ∉ history request conn.log
  future : ∀ request, conn.current < request → history request conn.log = []
  flagged : conn.isUpgrade = true → .onHeadersComplete conn.current true ∈ conn.log

def Staged (phase : ParserPhase) (conn : Connection File) : Prop :=
  (Standing phase conn ∨ Abandoned phase conn) ∧ conn.Courses

/-- While the parser runs. -/
def Parsing (phase : ParserPhase) (conn : Connection File) : Prop :=
  (Standing phase conn ∨ Cut phase conn) ∧ conn.ignoreNewData = false ∧ conn.Courses

variable {phase : ParserPhase} {conn after : Connection File}

theorem Courses.congr (h : conn.Courses) (hCurrent : after.current = conn.current)
    (hUpgrade : after.isUpgrade = conn.isUpgrade) (hLog : conn.log <+: after.log)
    (hOther : ∀ request ≠ conn.current, history request after.log = history request conn.log) :
    after.Courses where
  past := by
    intro request hBefore
    rw [hCurrent] at hBefore
    rw [hOther request (by omega)]
    exact h.past request hBefore
  future := by
    intro request hAfter
    rw [hCurrent] at hAfter
    rw [hOther request (by omega)]
    exact h.future request hAfter
  flagged := by
    rw [hCurrent, hUpgrade]
    exact fun hUpgraded => hLog.subset (h.flagged hUpgraded)

theorem Courses.extend {entries : List (Observation File)} (h : conn.Courses)
    (hCurrent : after.current = conn.current) (hUpgrade : after.isUpgrade = conn.isUpgrade)
    (hLog : after.log = conn.log ++ entries)
    (hOther : ∀ request ≠ conn.current, history request entries = []) : after.Courses := by
  apply h.congr hCurrent hUpgrade
  · exact ⟨entries, hLog.symm⟩
  · intro request hRequest
    rw [hLog, history_append, hOther request hRequest, List.append_nil]

/-- The exchange of a connection, given by its parts. -/
theorem Standing.intro {request : Nat} {tasks : List MainTask} {rest : List (BackgroundTask File)}
    {promises : List Nat} {scheduled ignore upgrade : Bool} {events : List (RequestEvent File)}
    (hPositive : 0 < request) (hCurrent : after.current = request)
    (hMain : after.mainTasks = tasks) (hBackground : after.backgroundTasks = rest)
    (hPromises : after.promises = promises) (hScheduled : after.responseScheduled = scheduled)
    (hIgnore : after.ignoreNewData = ignore) (hUpgrade : after.isUpgrade = upgrade)
    (hHistory : history request after.log = events)
    (hStage : Stage request ⟨phase, tasks, rest, promises, scheduled, ignore, upgrade, events⟩) :
    Standing phase after := by
  subst hCurrent hMain hBackground hPromises hScheduled hIgnore hUpgrade hHistory
  exact .stage hPositive hStage

theorem Standing.congr (h : Standing phase conn) (hCurrent : after.current = conn.current)
    (hExchange : after.exchange phase = conn.exchange phase) : Standing phase after := by
  cases h with
  | unused hUnused hNothing => exact .unused (hCurrent.trans hUnused) (hExchange.trans hNothing)
  | stage hPositive hStage =>
      rw [← hCurrent] at hPositive hStage
      rw [← hExchange] at hStage
      exact .stage hPositive hStage

section Quiet

variable [DataSource File]

theorem Quiet.exchange (h : Quiet conn after) : after.exchange phase = conn.exchange phase := by
  obtain ⟨entries, hLog, hEntries, -⟩ := h.log
  simp only [Connection.exchange, h.mainTasks, h.backgroundTasks, h.promises, h.responseScheduled,
    h.ignoreNewData, h.isUpgrade, h.current, hLog, history_append, history_quiet hEntries,
    List.append_nil]

theorem Quiet.courses (h : Quiet conn after) (hCourses : conn.Courses) : after.Courses := by
  obtain ⟨entries, hLog, hEntries, -⟩ := h.log
  exact hCourses.extend h.current h.isUpgrade hLog (fun request _ => history_quiet hEntries)

theorem Abandoned.quiet (h : Abandoned phase conn) (hQuiet : Quiet conn after) :
    Abandoned phase after where
  phase := h.phase
  isUpgrade := hQuiet.isUpgrade.trans h.isUpgrade
  stopped := h.stopped.imp hQuiet.protocol.trans hQuiet.isClosing
  main := by
    rw [hQuiet.mainTasks, hQuiet.current]
    exact h.main
  background := by
    rw [hQuiet.backgroundTasks, hQuiet.current, hQuiet.responseScheduled]
    exact h.background
  promises := hQuiet.promises.trans h.promises

theorem Standing.quiet (h : Standing phase conn) (hQuiet : Quiet conn after) :
    Standing phase after :=
  h.congr hQuiet.current hQuiet.exchange

theorem Staged.quiet (h : Staged phase conn) (hQuiet : Quiet conn after) : Staged phase after :=
  ⟨h.1.imp (fun hStanding => hStanding.quiet hQuiet)
    (fun hAbandoned => hAbandoned.quiet hQuiet), hQuiet.courses h.2⟩

end Quiet

section Feed

theorem pushed {task : BackgroundTask File} {rest : List (BackgroundTask File)} {request : Nat}
    (hTask : task.ofRequest = some request) (hRest : conn.backgroundTasks = rest) :
    (conn.push task).backgroundTasks = rest ++ [task] :=
  hRest ▸ backgroundTasks_push hTask

theorem invoked {task : MainTask} {tasks : List MainTask} {request : Nat}
    (hTask : task.ofRequest = some request) (hTasks : conn.mainTasks = tasks) :
    (conn.invokeLater task).mainTasks = tasks ++ [task] :=
  hTasks ▸ mainTasks_invokeLater hTask

/-- The text of the head and the parser itself do not matter. -/
theorem Parsing.congr (h : Parsing phase conn) (parser : HttpParser.Parser) (head : RequestHead) :
    Parsing phase { conn with parser, head } := by
  refine ⟨h.1.imp (fun hStanding => hStanding.congr rfl rfl) (fun hCut => { hCut with }), h.2.1, ?_⟩
  exact h.2.2.extend rfl rfl (List.append_nil _).symm (fun _ _ => rfl)

/-- Entries that belong to no request. -/
theorem Parsing.observe (h : Parsing phase conn) (entry : Observation File)
    (hEntry : ∀ request, history request [entry] = []) : Parsing phase (conn.observe entry) := by
  have hLog : history conn.current (conn.observe entry).log = history conn.current conn.log := by
    rw [Connection.observe, history_append, hEntry, List.append_nil]
  refine ⟨?_, h.2.1, h.2.2.extend rfl rfl rfl (fun request _ => hEntry request)⟩
  rcases h.1 with hStanding | hCut
  · left
    have hExchange : (conn.observe entry).exchange phase = conn.exchange phase := by
      rw [exchange, exchange, ← hLog]
      rfl
    exact hStanding.congr rfl hExchange
  · exact Or.inr { hCut with history := hLog.trans hCut.history }

theorem Parsing.dropped (h : Parsing .refused conn) : Parsing .between conn := by
  refine ⟨?_, h.2⟩
  rcases h.1 with hStanding | hCut
  · cases hStanding with
    | unused hCurrent hExchange => simp [exchange] at hExchange
    | stage hCurrent hStage => exact Or.inl (.stage hCurrent hStage.dropped)
  · simpa using hCut.phase

variable [DataSource File]

/-- A request begins when nothing is left of the one before it. -/
theorem Parsing.onMessageBegin (h : Parsing .between conn) (hSequential : Sequential conn.begun.log) :
    Parsing .head conn.newRequest := by
  obtain ⟨hStanding, hIgnore, hCourses⟩ := h
  have hBefore := (AtEach.concat_iff.1 hSequential).2 conn.current conn.handlingRequest rfl
  have hFinal : 0 < conn.current →
      ∃ serial response, .final serial response ∈ history conn.current conn.log := by
    intro hCurrent
    obtain ⟨serial, response, hMem⟩ := hBefore.resolve_left (by omega)
    exact ⟨serial, response, mem_history_final.2 hMem⟩
  have hNone : conn.mainTasks = [] ∧ conn.backgroundTasks = [] ∧ conn.promises = [] ∧
      conn.isUpgrade = false ∧ Course (history conn.current conn.log) ∧
      .onBodyData true ∉ history conn.current conn.log := by
    rcases hStanding with hStanding | hCut
    · cases hStanding with
      | unused hCurrent hExchange =>
          simp only [exchange, Exchange.mk.injEq] at hExchange
          obtain ⟨-, hMain, hBackground, hPromises, -, -, hUpgrade, hHistory⟩ := hExchange
          rw [hHistory]
          exact ⟨hMain, hBackground, hPromises, hUpgrade, .unanswered (by simp [Taken]), by simp⟩
      | stage hCurrent hStage =>
          have hCourse := hStage.course
          rw [exchange, hIgnore] at hStage
          obtain ⟨hMain, hBackground, hPromises, hUpgrade, hUnfailed⟩ :=
            hStage.onMessageBegin (hFinal hCurrent)
          exact ⟨hMain, hBackground, hPromises, hUpgrade, hCourse, hUnfailed⟩
    · obtain ⟨serial, response, hMem⟩ := hFinal hCut.current
      simp [hCut.history] at hMem
  obtain ⟨hMain, hBackground, hPromises, hUpgrade, hCourse⟩ := hNone
  have hLog : ∀ request, history request conn.begun.log = history request conn.log := by
    intro request
    simp [begun, Connection.observe, history, Observation.requestEvent]
  have hBegun : conn.begun.Courses := {
    past := by
      intro request hPast
      rw [hLog]
      rcases Nat.lt_succ_iff_lt_or_eq.1 hPast with hPast | rfl
      · exact hCourses.past request hPast
      · exact hCourse
    future := by
      intro request hFuture
      rw [hLog]
      exact hCourses.future request (Nat.lt_of_succ_lt hFuture)
    flagged := by
      intro hUpgraded
      rw [show conn.begun.isUpgrade = false from hUpgrade] at hUpgraded
      cases hUpgraded }
  have hStage : Standing .head conn.begun := by
    have hHistory : history (conn.current + 1) conn.begun.log = [] :=
      (hLog _).trans (hCourses.future _ (Nat.lt_succ_self _))
    exact .intro (Nat.succ_pos _) rfl hMain hBackground hPromises rfl hIgnore hUpgrade hHistory .head
  have hQuiet := quiet_newRequest conn
  exact ⟨Or.inl (hStage.quiet hQuiet), hQuiet.ignoreNewData.trans hIgnore, hQuiet.courses hBegun⟩

omit [DataSource File] in
/-- Static serving or the main thread decides about the headers. -/
theorem Parsing.onHeadersComplete (h : Parsing .head conn)
    (static : Option (HttpResponse (Body File))) (upgrade : Bool) :
    Parsing .waiting (conn.onHeadersComplete static upgrade) := by
  obtain ⟨hStanding, hIgnore, hCourses⟩ := h
  have hStage : 0 < conn.current ∧ Stage conn.current (conn.exchange .head) := by
    rcases hStanding with hStanding | hCut
    · cases hStanding with
      | unused hCurrent hExchange => simp [exchange] at hExchange
      | stage hCurrent hStage => exact ⟨hCurrent, hStage⟩
    · simpa using hCut.phase
  obtain ⟨hCurrent, hStage⟩ := hStage
  obtain ⟨hMain, hBackground, hPromises, hScheduled, -, hUpgrade, hHistory⟩ :=
    hStage.onHeadersComplete
  let flagged : Connection File := { conn with isUpgrade := conn.isUpgrade || upgrade }.observe
    (.onHeadersComplete conn.current upgrade)
  have hLog : ∀ request, history request flagged.log = history request conn.log := by
    intro request
    simp [flagged, Connection.observe, history, Observation.requestEvent]
  have hFlagged : flagged.Courses := {
    past := fun request hPast => hLog request ▸ hCourses.past request hPast
    future := fun request hFuture => (hLog request).trans (hCourses.future request hFuture)
    flagged := by
      intro hUpgraded
      have hFlag : upgrade = true := by simpa [flagged, Connection.observe, hUpgrade] using hUpgraded
      subst hFlag
      simp [flagged, Connection.observe] }
  have hEmpty : history flagged.current flagged.log = [] := (hLog _).trans hHistory
  unfold Connection.onHeadersComplete
  dsimp only
  split
  case h_1 response hSome =>
      have hOther : ∀ request ≠ flagged.current,
          history request [.answeredInHeaders flagged.current response] = [] := by
        intro request hRequest
        simp [history, Observation.requestEvent, hRequest.symm]
      refine ⟨Or.inl ?_, hIgnore, hFlagged.extend rfl rfl rfl hOther⟩
      have hAnswered : history flagged.current (flagged.log ++
          [.answeredInHeaders flagged.current response]) = [.answered response] := by
        rw [history_append, hEmpty]
        simp [history, Observation.requestEvent]
      exact .intro hCurrent rfl hMain (pushed rfl hBackground) hPromises hScheduled hIgnore rfl
        hAnswered .answered
  case h_2 hNone =>
      refine ⟨Or.inl ?_, hIgnore, hFlagged.extend rfl rfl (List.append_nil _).symm (fun _ _ => rfl)⟩
      exact .intro hCurrent rfl (invoked rfl hMain) hBackground hPromises hScheduled hIgnore rfl
        hEmpty .deciding

omit [DataSource File] in
/-- What the parser reports in the body of a request. -/
theorem Parsing.onBody (h : Parsing .body conn) (data : Bytes) :
    Parsing .body (conn.invokeLater (.onBodyData conn.current data)) := by
  obtain ⟨hStanding, hIgnore, hCourses⟩ := h
  refine ⟨?_, hIgnore, hCourses.extend rfl rfl (List.append_nil _).symm (fun _ _ => rfl)⟩
  rcases hStanding with hStanding | hCut
  · left
    cases hStanding with
    | unused hCurrent hExchange => simp [exchange] at hExchange
    | stage hCurrent hStage =>
        exact .intro hCurrent rfl (invoked rfl rfl) rfl rfl rfl rfl rfl rfl (hStage.onBody data)
  · right
    refine { hCut with main := ?_ }
    intro task hMem
    rw [mainTasks_invokeLater rfl] at hMem
    rcases List.mem_append.1 hMem with hMem | hMem
    · exact hCut.main task hMem
    · exact ⟨data, List.mem_singleton.1 hMem⟩

omit [DataSource File] in
theorem Parsing.onMessageComplete (h : Parsing .body conn) :
    Parsing .between conn.onMessageComplete := by
  obtain ⟨hStanding, hIgnore, hCourses⟩ := h
  unfold Connection.onMessageComplete
  rcases hStanding with hStanding | hCut
  · cases hStanding with
    | unused hCurrent hExchange => simp [exchange] at hExchange
    | stage hCurrent hStage =>
        obtain ⟨hUpgrade, hComplete⟩ := hStage.onMessageComplete
        rw [if_neg (by rw [hUpgrade]; simp)]
        refine ⟨Or.inl ?_, hIgnore,
          hCourses.extend rfl rfl (List.append_nil _).symm (fun _ _ => rfl)⟩
        exact .intro hCurrent rfl (invoked rfl rfl) rfl rfl rfl rfl rfl rfl hComplete
  · rw [if_pos hCut.isUpgrade]
    exact ⟨Or.inr { hCut with phase := Or.inr rfl }, hIgnore, hCourses⟩

theorem Parsing.onEvent {next : ParserPhase} {event : ParserEvent} (h : Parsing phase conn)
    (static : Option (HttpResponse (Body File))) (hNext : phase.next event = some next)
    (hSequential : Sequential (conn.onEvent static event).log) :
    Parsing next (conn.onEvent static event) := by
  cases event with
  | onMessageBegin =>
      have hPhase : phase = .between ∧ next = .head := by
        cases phase <;> simp_all [ParserPhase.next]
      obtain ⟨rfl, rfl⟩ := hPhase
      exact h.onMessageBegin (hSequential.of_prefix (quiet_newRequest conn).log_grows)
  | onHeadersComplete upgrade =>
      have hPhase : phase = .head ∧ next = .waiting := by
        cases phase <;> simp_all [ParserPhase.next]
      obtain ⟨rfl, rfl⟩ := hPhase
      exact h.onHeadersComplete static upgrade
  | onBody data =>
      have hPhase : phase = .body ∧ next = .body := by
        cases phase <;> simp_all [ParserPhase.next]
      obtain ⟨rfl, rfl⟩ := hPhase
      exact h.onBody data
  | onMessageComplete =>
      have hPhase : phase = .body ∧ next = .between := by
        cases phase <;> simp_all [ParserPhase.next]
      obtain ⟨rfl, rfl⟩ := hPhase
      exact h.onMessageComplete
  | _ =>
      have hPhase : phase = next := by
        cases phase <;> simp_all [ParserPhase.next]
      rw [← hPhase]
      exact h.congr conn.parser _

theorem Parsing.feed (contract : HttpParserContract)
    (h : Parsing (contract.phase conn.parser) conn) (static : Option (HttpResponse (Body File)))
    (buffer : Bytes) (hSequential : Sequential (conn.feed static buffer).log) :
    Parsing (contract.phase (conn.feed static buffer).parser) (conn.feed static buffer) := by
  suffices hFed : Sequential (conn.feed static buffer).log →
      Parsing (contract.phase (conn.feed static buffer).parser) (conn.feed static buffer) from
    hFed hSequential
  apply feed_invariant contract (I := fun phase conn => Sequential conn.log → Parsing phase conn)
  · intro _
    have hParser := h.congr (HttpParser.execute conn.parser buffer).parser conn.head
    exact hParser.observe _ (fun request => rfl)
  · intro conn hRefused hSequential
    exact (hRefused hSequential).dropped
  · intro phase event next conn hNext hParsing hSequential
    have hBefore := hSequential.of_prefix (onEvent_log conn static event)
    exact (hParsing hBefore).onEvent static hNext hSequential

/-- What a response adds to the history of a request. -/
theorem Wrote.history_log {owner : Nat} {kind : ResponseKind} {response : HttpResponse (Body File)}
    {entries : List (Observation File)} (h : Wrote conn after owner kind response entries)
    (request : Nat) : history request after.log =
      history request conn.log ++ history request [.writeResponse owner conn.serial kind response] := by
  have hEntries : history request entries = [] := by
    apply history_quiet
    rcases h.entries with ⟨-, rfl⟩ | ⟨-, written, -, rfl⟩
    · simp [Observation.IsQuiet]
    · cases written.drained <;> simp [pieces, Observation.IsQuiet]
  obtain ⟨writes, rfl⟩ := h.same
  rw [List.append_cons, history_append, history_append, hEntries, List.append_nil]

/-- Writing a response for the current request. -/
theorem Wrote.courses {kind : ResponseKind} {response : HttpResponse (Body File)}
    {entries : List (Observation File)}
    (h : Wrote conn after conn.current kind response entries) (hCourses : conn.Courses) :
    after.Courses := by
  have hSame : after.current = conn.current ∧ after.isUpgrade = conn.isUpgrade := by
    obtain ⟨writes, rfl⟩ := h.same
    exact ⟨rfl, rfl⟩
  apply hCourses.congr hSame.1 hSame.2 h.log_grows
  intro request hRequest
  have hOther : history request [.writeResponse conn.current conn.serial kind response] = [] := by
    cases kind <;> simp [history, Observation.requestEvent, hRequest.symm]
  rw [h.history_log, hOther, List.append_nil]

variable [Host] [Digests]

/-- Both ways out of an upgrade leave nothing but body data. -/
theorem Upgraded.abandoned {now : Tm} {pData : Bytes} (h : Upgraded conn now pData after)
    (hPhase : phase ≠ .head ∧ phase ≠ .waiting)
    (hClosing : conn.pWebSocketConnection = false → conn.isClosing = true)
    (hUpgrade : conn.isUpgrade = true)
    (hMain : ∀ task ∈ conn.mainTasks, ∃ data, task = .onBodyData conn.current data)
    (hBackground : conn.backgroundTasks = []) (hPromises : conn.promises = []) :
    Abandoned phase after := by
  cases h with
  | gone hGone =>
      exact ⟨hPhase, hUpgrade, Or.inr (hClosing hGone), hMain, Or.inl hBackground, hPromises⟩
  | refused hRefused hQuiet hClosed =>
      refine ⟨hPhase, hQuiet.isUpgrade.trans hUpgrade, ?_, ?_, Or.inl ?_,
        hQuiet.promises.trans hPromises⟩
      · exact hClosed.imp hQuiet.protocol.trans id
      · rw [hQuiet.mainTasks, hQuiet.current]
        exact hMain
      · exact hQuiet.backgroundTasks.trans hBackground
  | accepted hOpen hAccepted hHandshake hAnswered =>
      obtain ⟨entries, hWrote⟩ := Connection.wrote hAnswered
      obtain ⟨writes, rfl⟩ := hWrote.same
      refine ⟨hPhase, hUpgrade, Or.inl rfl, ?_, Or.inl hBackground, hPromises⟩
      simpa [mainTasks, switchProtocol, Connection.invokeLater, List.filter_append,
        MainTask.ofRequest, accept, Connection.observe] using hMain

theorem Upgraded.courses {now : Tm} {pData : Bytes} (h : Upgraded conn now pData after)
    (hCourses : conn.Courses) : after.Courses := by
  cases h with
  | gone hGone => exact hCourses
  | refused hRefused hQuiet hClosed =>
      exact hQuiet.courses (hCourses.extend rfl rfl rfl (fun request _ => rfl))
  | @accepted parser answered handshake hOpen hAccepted hHandshake hAnswered =>
      obtain ⟨entries, hWrote⟩ := Connection.wrote hAnswered
      have hAccept : (conn.accept parser handshake).Courses := by
        have hObserved : (conn.observe (.accept conn.current true)).Courses :=
          hCourses.extend rfl rfl rfl (fun request _ => rfl)
        exact hObserved.extend rfl rfl rfl (fun request _ => rfl)
      have hAnswered := hWrote.courses hAccept
      exact hAnswered.extend rfl rfl (List.append_nil _).symm (fun request _ => rfl)

theorem Parsing.parsed (contract : HttpParserContract) {static : Option (HttpResponse (Body File))}
    {now : Tm} {buffer : Bytes} (h : Parsing (contract.phase conn.parser) conn)
    (hFeeding : Feeding (contract.phase conn.parser) conn)
    (hParsed : Parsed conn static now buffer after) (hSequential : Sequential after.log) :
    Staged (contract.phase after.parser) after := by
  have hFed := h.feed contract static buffer (hSequential.of_prefix hParsed.log_after_feed)
  have hFedFeeding := hFeeding.feed contract static buffer
  have hBusy : HttpParser.waitingForHeadersCompleted (conn.feed static buffer).parser = false →
      contract.phase (conn.feed static buffer).parser ≠ .waiting := by
    intro hWaiting hPhase
    rw [(contract.waiting_iff _).2 hPhase] at hWaiting
    cases hWaiting
  cases hParsed with
  | waiting hWaiting =>
      have hPhase := (contract.waiting_iff _).1 hWaiting
      rcases hFed.1 with hStanding | hCut
      · refine ⟨Or.inl (hStanding.congr rfl rfl), ?_⟩
        exact hFed.2.2.extend rfl rfl (List.append_nil _).symm (fun _ _ => rfl)
      · have hCutPhase := hCut.phase
        rw [hPhase] at hCutPhase
        simp at hCutPhase
  | upgrade hWaiting hUpgrade hAfter =>
      have hCourses := hAfter.courses hFed.2.2
      rcases hFed.1 with hStanding | hCut
      · cases hStanding with
        | unused hCurrent hExchange =>
            simp [exchange, hUpgrade] at hExchange
        | stage hCurrent hStage =>
            rw [exchange, hUpgrade] at hStage
            exact absurd hStage.upgrade_waiting (hBusy hWaiting)
      · rw [hAfter.parser]
        have hPhase : contract.phase (conn.feed static buffer).parser ≠ .head ∧
            contract.phase (conn.feed static buffer).parser ≠ .waiting := by
          rcases hCut.phase with hBody | hBetween
          · simp [hBody]
          · simp [hBetween]
        exact ⟨Or.inr (hAfter.abandoned hPhase hFedFeeding.1.websocket hUpgrade hCut.main
          hCut.background hCut.promises), hCourses⟩
  | quiet hWaiting hUpgrade hQuiet hRest =>
      rw [hQuiet.parser]
      rcases hFed.1 with hStanding | hCut
      · exact ⟨Or.inl (hStanding.quiet hQuiet), hQuiet.courses hFed.2.2⟩
      · rw [hCut.isUpgrade] at hUpgrade
        cases hUpgrade

end Feed

section Tasks

/-- The task at the front of the main queue. Of an abandoned request it can only
be body data. -/
theorem Staged.main {task : MainTask} {rest : List MainTask} {request : Nat}
    (h : Staged phase conn) (hQueue : conn.mainQueue = task :: rest)
    (hTask : task.ofRequest = some request) :
    (0 < conn.current ∧ Stage conn.current ⟨phase,
      task :: ({ conn with mainQueue := rest } : Connection File).mainTasks, conn.backgroundTasks,
      conn.promises, conn.responseScheduled, conn.ignoreNewData, conn.isUpgrade,
      history conn.current conn.log⟩) ∨
    (Abandoned phase { conn with mainQueue := rest } ∧
      ∃ data, task = .onBodyData conn.current data) := by
  have hTasks := mainTasks_cons hTask hQueue
  rcases h.1 with hStanding | hAbandoned
  · cases hStanding with
    | unused hCurrent hExchange => simp [exchange, hTasks] at hExchange
    | stage hCurrent hStage =>
        rw [exchange, hTasks] at hStage
        exact Or.inl ⟨hCurrent, hStage⟩
  · refine Or.inr ⟨{ hAbandoned with main := ?_ }, hAbandoned.main task (by simp [hTasks])⟩
    intro other hMem
    exact hAbandoned.main other (by rw [hTasks]; exact List.mem_cons_of_mem _ hMem)

/-- The task at the front of the background queue. -/
theorem Staged.background {task : BackgroundTask File} {rest : List (BackgroundTask File)}
    {request : Nat} (h : Staged phase conn) (hQueue : conn.backgroundQueue = task :: rest)
    (hTask : task.ofRequest = some request) :
    (0 < conn.current ∧ Stage conn.current ⟨phase, conn.mainTasks,
      task :: ({ conn with backgroundQueue := rest } : Connection File).backgroundTasks,
      conn.promises, conn.responseScheduled, conn.ignoreNewData, conn.isUpgrade,
      history conn.current conn.log⟩) ∨
    (Abandoned phase { conn with backgroundQueue := rest } ∧
      ∃ now, task = .onBodyError conn.current (AppAnswer.errorResponse now)) := by
  have hTasks := backgroundTasks_cons hTask hQueue
  rcases h.1 with hStanding | hAbandoned
  · cases hStanding with
    | unused hCurrent hExchange => simp [exchange, hTasks] at hExchange
    | stage hCurrent hStage =>
        rw [exchange, hTasks] at hStage
        exact Or.inl ⟨hCurrent, hStage⟩
  · rcases hAbandoned.background with hNone | ⟨hScheduled, now, hOne⟩
    · rw [hNone] at hTasks
      cases hTasks
    · rw [hOne, List.cons.injEq] at hTasks
      exact Or.inr ⟨{ hAbandoned with background := Or.inl hTasks.2.symm }, now, hTasks.1.symm⟩

end Tasks

section Steps

theorem Staged.onHeaders {request : Nat} {rest : List MainTask} (h : Staged phase conn)
    (hQueue : conn.mainQueue = .onHeaders request :: rest)
    (response : Option (HttpResponse (Body File))) :
    Staged phase { conn with
      mainQueue := rest
      responseScheduled := conn.responseScheduled || response.isSome
      log := conn.log ++ .onHeaders request :: response.toList.map (.answeredInHeaders request)
      backgroundQueue := conn.backgroundQueue ++ [.onHeadersCompleteComplete request response] } ∧
    Staged phase ({ conn with mainQueue := rest }.observe (.onHeaders request)) := by
  rcases h.main hQueue rfl with ⟨hCurrent, hStage⟩ | ⟨-, data, hTask⟩
  · obtain ⟨rfl, hUndecided, hDecided⟩ := hStage.onHeaders
    have hOther : ∀ request ≠ conn.current, history request
        (.onHeaders conn.current :: response.toList.map (.answeredInHeaders conn.current)) = [] := by
      intro request hRequest
      cases response <;> simp [history, Observation.requestEvent, hRequest.symm]
    have hHistory : history conn.current (conn.log ++ .onHeaders conn.current ::
        response.toList.map (.answeredInHeaders conn.current)) =
        history conn.current conn.log ++ response.toList.map RequestEvent.answered := by
      rw [List.append_cons, history_append, history_concat_none rfl]
      cases response <;> simp [history, Observation.requestEvent]
    exact ⟨⟨Or.inl (.intro hCurrent rfl rfl (List.filter_append _ _) rfl rfl rfl rfl hHistory
        (hDecided response)), h.2.extend rfl rfl rfl hOther⟩,
      Or.inl (.intro hCurrent rfl rfl rfl rfl rfl rfl rfl (history_concat_none rfl) hUndecided),
      h.2.extend rfl rfl rfl (fun request _ => rfl)⟩
  · cases hTask

/-- Data that nobody looks at any more. -/
theorem Staged.bodySkipped {request : Nat} {data : Bytes} {rest : List MainTask}
    (h : Staged phase conn) (hQueue : conn.mainQueue = .onBodyData request data :: rest)
    (hScheduled : conn.responseScheduled = true) :
    Staged phase { conn with mainQueue := rest } := by
  have hCourses : ({ conn with mainQueue := rest } : Connection File).Courses :=
    h.2.extend rfl rfl (List.append_nil _).symm (fun _ _ => rfl)
  rcases h.main hQueue rfl with ⟨hCurrent, hStage⟩ | ⟨hAbandoned, -⟩
  · rw [hScheduled] at hStage
    exact ⟨Or.inl (.intro hCurrent rfl rfl rfl rfl hScheduled rfl rfl rfl hStage.bodySkipped),
      hCourses⟩
  · exact ⟨Or.inr hAbandoned, hCourses⟩

/-- The data is that of the current request. -/
theorem Staged.bodyOwner {request : Nat} {data : Bytes} {rest : List MainTask}
    (h : Staged phase conn) (hQueue : conn.mainQueue = .onBodyData request data :: rest)
    (hScheduled : conn.responseScheduled = false) : request = conn.current := by
  rcases h.main hQueue rfl with ⟨-, hStage⟩ | ⟨-, other, hTask⟩
  · rw [hScheduled] at hStage
    exact hStage.onBodyData.1
  · cases hTask
    rfl

theorem Staged.bodyTaken {request : Nat} {data : Bytes} {rest : List MainTask}
    (h : Staged phase conn) (hQueue : conn.mainQueue = .onBodyData request data :: rest)
    (hScheduled : conn.responseScheduled = false) :
    Staged phase ({ conn with mainQueue := rest }.observe (.onBodyData request false)) := by
  obtain rfl := h.bodyOwner hQueue hScheduled
  have hCourses : ({ conn with mainQueue := rest }.observe
      (.onBodyData conn.current false)).Courses := by
    refine h.2.extend rfl rfl rfl ?_
    intro request hRequest
    simp [history, Observation.requestEvent, hRequest.symm]
  rcases h.main hQueue rfl with ⟨hCurrent, hStage⟩ | ⟨hAbandoned, -⟩
  · rw [hScheduled] at hStage
    exact ⟨Or.inl (.intro hCurrent rfl rfl rfl rfl hScheduled rfl rfl
      (history_concat (if_pos rfl)) hStage.onBodyData.2.1), hCourses⟩
  · exact ⟨Or.inr { hAbandoned with }, hCourses⟩

theorem Staged.bodyFailed {request : Nat} {data : Bytes} {rest : List MainTask}
    (h : Staged phase conn) (hQueue : conn.mainQueue = .onBodyData request data :: rest)
    (hScheduled : conn.responseScheduled = false) (now : Tm) :
    Staged phase ({ conn with mainQueue := rest, responseScheduled := true }.observe
      (.onBodyData request true) |>.push (.onBodyError request (AppAnswer.errorResponse now))) := by
  obtain rfl := h.bodyOwner hQueue hScheduled
  have hCourses : ({ conn with mainQueue := rest, responseScheduled := true }.observe
      (.onBodyData conn.current true) |>.push
        (.onBodyError conn.current (AppAnswer.errorResponse now))).Courses := by
    refine h.2.extend rfl rfl rfl ?_
    intro request hRequest
    simp [history, Observation.requestEvent, hRequest.symm]
  rcases h.main hQueue rfl with ⟨hCurrent, hStage⟩ | ⟨hAbandoned, -⟩
  · rw [hScheduled] at hStage
    exact ⟨Or.inl (.intro hCurrent rfl rfl (pushed rfl rfl) rfl rfl rfl rfl
      (history_concat (if_pos rfl)) (hStage.onBodyData.2.2 now)), hCourses⟩
  · have hNone : ({ conn with mainQueue := rest } : Connection File).backgroundTasks = [] := by
      rcases hAbandoned.background with hNone | ⟨hOther, -⟩
      · exact hNone
      · rw [hScheduled] at hOther
        cases hOther
    refine ⟨Or.inr { hAbandoned with background := Or.inr ⟨rfl, now, ?_⟩ }, hCourses⟩
    exact pushed rfl hNone

theorem Staged.callSkipped {request : Nat} {rest : List MainTask} (h : Staged phase conn)
    (hQueue : conn.mainQueue = .getResponse request :: rest)
    (hScheduled : conn.responseScheduled = true) :
    Staged phase ({ conn with mainQueue := rest, responseScheduled := true }.push
      (.onMessageCompleteComplete request none)) := by
  rcases h.main hQueue rfl with ⟨hCurrent, hStage⟩ | ⟨-, data, hTask⟩
  · rw [hScheduled] at hStage
    exact ⟨Or.inl (.intro hCurrent rfl rfl (pushed rfl rfl) rfl rfl rfl rfl rfl hStage.callSkipped),
      h.2.extend rfl rfl (List.append_nil _).symm (fun _ _ => rfl)⟩
  · cases hTask

theorem Staged.getResponse {request : Nat} {rest : List MainTask} (h : Staged phase conn)
    (hQueue : conn.mainQueue = .getResponse request :: rest)
    (hScheduled : conn.responseScheduled = false) :
    Staged phase ({ conn with mainQueue := rest, promises := conn.promises ++ [request] }.observe
      (.call request)) ∧
    ∀ response, Staged phase ({ conn with mainQueue := rest, responseScheduled := true }.observe
      (.call request) |>.push (.onMessageCompleteComplete request response)) := by
  rcases h.main hQueue rfl with ⟨hCurrent, hStage⟩ | ⟨-, data, hTask⟩
  · rw [hScheduled] at hStage
    obtain ⟨rfl, hPromised, hCalled⟩ := hStage.getResponse
    have hOther : ∀ request ≠ conn.current,
        history request [(.call conn.current : Observation File)] = [] := by
      intro request hRequest
      simp [history, Observation.requestEvent, hRequest.symm]
    refine ⟨⟨Or.inl ?_, h.2.extend rfl rfl rfl hOther⟩,
      fun response => ⟨Or.inl ?_, h.2.extend rfl rfl rfl hOther⟩⟩
    · exact .intro hCurrent rfl rfl rfl rfl hScheduled rfl rfl (history_concat (if_pos rfl)) hPromised
    · exact .intro hCurrent rfl rfl (pushed rfl rfl) rfl rfl rfl rfl (history_concat (if_pos rfl))
        (hCalled response)
  · cases hTask

theorem Staged.settle {index request : Nat} (h : Staged phase conn)
    (hPromise : conn.promises[index]? = some request) :
    Staged phase { conn with promises := conn.promises.eraseIdx index } ∧
    ∀ response, Staged phase ({ conn with
      promises := conn.promises.eraseIdx index
      responseScheduled := true }.push (.onMessageCompleteComplete request response)) := by
  have hSome : conn.promises ≠ [] := by
    intro hNone
    simp [hNone] at hPromise
  rcases h.1 with hStanding | hAbandoned
  · cases hStanding with
    | unused hCurrent hExchange =>
        simp only [exchange, Exchange.mk.injEq] at hExchange
        exact absurd hExchange.2.2.2.1 hSome
    | stage hCurrent hStage =>
        obtain ⟨rfl, hRejected, hSettled⟩ := hStage.settle hPromise
        refine ⟨⟨Or.inl ?_, ?_⟩, fun response => ⟨Or.inl ?_, ?_⟩⟩
        · exact .intro hCurrent rfl rfl rfl rfl rfl rfl rfl rfl hRejected
        · exact h.2.extend rfl rfl (List.append_nil _).symm (fun _ _ => rfl)
        · exact .intro hCurrent rfl rfl (pushed rfl rfl) rfl rfl rfl rfl rfl (hSettled response)
        · exact h.2.extend rfl rfl (List.append_nil _).symm (fun _ _ => rfl)
  · exact absurd hAbandoned.promises hSome

variable [DataSource File]

/-- A final response to the current request. -/
theorem Finishes.history_log {response : HttpResponse (Body File)} {closing : Bool}
    (h : Finishes conn conn.current response closing after) :
    history conn.current after.log = history conn.current conn.log ++ [.final conn.serial
      (if closing then response.requestClose else response)] := by
  obtain ⟨entries, hWrote⟩ := Connection.wrote h
  rw [hWrote.history_log]
  exact congrArg _ (List.filterMap_cons_some (if_pos rfl))

theorem Finishes.courses {response : HttpResponse (Body File)} {closing : Bool}
    (h : Finishes conn conn.current response closing after) (hCourses : conn.Courses) :
    after.Courses := by
  obtain ⟨entries, hWrote⟩ := Connection.wrote h
  have hStopped : (conn.stopIf closing).Courses :=
    hCourses.extend rfl rfl (List.append_nil _).symm (fun _ _ => rfl)
  exact hWrote.courses hStopped

/-- What a response leaves alone. -/
theorem Wrote.same_fields {request : Nat} {kind : ResponseKind} {response : HttpResponse (Body File)}
    {entries : List (Observation File)} (h : Wrote conn after request kind response entries) :
    after.current = conn.current ∧ after.mainTasks = conn.mainTasks ∧
      after.backgroundTasks = conn.backgroundTasks ∧ after.promises = conn.promises ∧
      after.responseScheduled = conn.responseScheduled ∧
      after.ignoreNewData = conn.ignoreNewData ∧ after.isUpgrade = conn.isUpgrade ∧
      after.protocol = conn.protocol ∧ after.isClosing = conn.isClosing := by
  obtain ⟨writes, rfl⟩ := h.same
  exact ⟨rfl, rfl, rfl, rfl, rfl, rfl, rfl, rfl, rfl⟩

theorem Finishes.same_fields {request : Nat} {response : HttpResponse (Body File)} {closing : Bool}
    (h : Finishes conn request response closing after) :
    after.current = conn.current ∧ after.mainTasks = conn.mainTasks ∧
      after.backgroundTasks = conn.backgroundTasks ∧ after.promises = conn.promises ∧
      after.responseScheduled = conn.responseScheduled ∧
      after.ignoreNewData = (conn.ignoreNewData || closing) ∧ after.isUpgrade = conn.isUpgrade ∧
      after.protocol = conn.protocol ∧ after.isClosing = conn.isClosing := by
  obtain ⟨entries, hWrote⟩ := Connection.wrote h
  exact hWrote.same_fields

theorem Staged.onBodyError {request : Nat} {response : HttpResponse (Body File)}
    {rest : List (BackgroundTask File)} (h : Staged phase conn)
    (hQueue : conn.backgroundQueue = .onBodyError request response :: rest)
    (hAfter : Connection.onBodyError { conn with backgroundQueue := rest } request response =
      some after) : Staged phase after := by
  have hFinishes := onBodyError_finishes hAfter
  have hOwner : request = conn.current := by
    rcases h.background hQueue rfl with ⟨-, hStage⟩ | ⟨-, now, hTask⟩
    · exact (hStage.onBodyError 0).1
    · cases hTask
      rfl
  subst hOwner
  have hCourses := hFinishes.courses
    (h.2.extend rfl rfl (List.append_nil _).symm (fun _ _ => rfl))
  obtain ⟨hCurrent', hMain, hBackground, hPromises, hScheduled, hIgnore, hUpgrade, hProtocol,
    hClosing⟩ := hFinishes.same_fields
  rcases h.background hQueue rfl with ⟨hCurrent, hStage⟩ | ⟨hAbandoned, -⟩
  · obtain ⟨-, -, hFailed⟩ := hStage.onBodyError conn.serial
    refine ⟨Or.inl ?_, hCourses⟩
    exact .intro hCurrent hCurrent' hMain hBackground hPromises hScheduled
      (hIgnore.trans (Bool.or_true _)) hUpgrade hFinishes.history_log hFailed
  · refine ⟨Or.inr ⟨hAbandoned.phase, hUpgrade.trans hAbandoned.isUpgrade, ?_, ?_, ?_, ?_⟩,
      hCourses⟩
    · rw [hProtocol, hClosing]
      exact hAbandoned.stopped
    · rw [hMain, hCurrent']
      exact hAbandoned.main
    · rw [hBackground, hCurrent', hScheduled]
      exact hAbandoned.background
    · exact hPromises.trans hAbandoned.promises

theorem Staged.onMessageCompleteComplete {request : Nat}
    {response : Option (HttpResponse (Body File))} {rest : List (BackgroundTask File)}
    (h : Staged phase conn)
    (hQueue : conn.backgroundQueue = .onMessageCompleteComplete request response :: rest)
    (hAfter : Connection.onMessageCompleteComplete { conn with backgroundQueue := rest } request
      response = some after) : Staged phase after := by
  rcases h.background hQueue rfl with ⟨hCurrent, hStage⟩ | ⟨-, now, hTask⟩
  · obtain ⟨rfl, hNone, hSome⟩ := hStage.onMessageCompleteComplete
    have hCourses : ({ conn with backgroundQueue := rest } : Connection File).Courses :=
      h.2.extend rfl rfl (List.append_nil _).symm (fun _ _ => rfl)
    rcases onMessageCompleteComplete_cases hAfter with ⟨rfl, -⟩ | ⟨-, answer, rfl, hFinishes⟩
    · exact ⟨Or.inl (.intro hCurrent rfl rfl rfl rfl rfl rfl rfl rfl hNone), hCourses⟩
    · obtain ⟨hCurrent', hMain, hBackground, hPromises, hScheduled, hIgnore, hUpgrade, -⟩ :=
        hFinishes.same_fields
      refine ⟨Or.inl ?_, hFinishes.courses hCourses⟩
      exact .intro hCurrent hCurrent' hMain hBackground hPromises hScheduled hIgnore hUpgrade
        hFinishes.history_log (hSome _ _ _ rfl)
  · cases hTask

/-- `100 Continue` does nothing for the request itself. -/
theorem headersCompleted_exchange {middle : Connection File} {now : Tm}
    (hMiddle : conn.headersCompleted now conn.current none = some middle)
    (hCourses : conn.Courses) :
    middle.current = conn.current ∧
      (∀ phase, middle.exchange phase = conn.exchange phase) ∧ middle.Courses := by
  obtain ⟨continued, hContinued, rfl⟩ := headersCompleted_none hMiddle
  rcases hContinued with hSame | hWritten
  · rw [hSame]
    exact ⟨rfl, fun _ => rfl, hCourses.extend rfl rfl (List.append_nil _).symm (fun _ _ => rfl)⟩
  · obtain ⟨entries, hWrote⟩ := Connection.wrote hWritten
    have hHistory : history conn.current continued.log = history conn.current conn.log :=
      (hWrote.history_log _).trans (List.append_nil _)
    have hContinued := hWrote.courses hCourses
    obtain ⟨writes, rfl⟩ := hWrote.same
    refine ⟨rfl, fun phase => ?_, ?_⟩
    · rw [exchange, exchange, ← hHistory]
      rfl
    · exact hContinued.extend rfl rfl (List.append_nil _).symm (fun _ _ => rfl)

variable [Host] [Digests]

omit [Host] [Digests] in
/-- The parser goes on without a response. -/
theorem Staged.proceeds (contract : HttpParserContract) {middle : Connection File} {request : Nat}
    {rest : List (BackgroundTask File)} {now : Tm} (h : Staged (contract.phase conn.parser) conn)
    (hWaiting : contract.phase conn.parser = .waiting)
    (hQueue : conn.backgroundQueue = .onHeadersCompleteComplete request none :: rest)
    (hMiddle : { conn with backgroundQueue := rest }.headersCompleted now request none =
      some middle) :
    contract.phase middle.parser = .body ∧ Parsing .body { middle with requestBuffer := [] } := by
  rcases h.background hQueue rfl with ⟨hCurrent, hStage⟩ | ⟨-, now, hTask⟩
  · obtain ⟨rfl, -, hMain, hBackground, hPromises, hIgnore, hScheduled, hHistory⟩ :=
      hStage.headersCompleted
    have hCourses : ({ conn with backgroundQueue := rest } : Connection File).Courses :=
      h.2.extend rfl rfl (List.append_nil _).symm (fun _ _ => rfl)
    have hMiddleFacts := headersCompleted_exchange hMiddle hCourses
    obtain ⟨hCurrent', hExchange, hMiddleCourses⟩ := hMiddleFacts
    have hBody := hExchange .body
    simp only [exchange, Exchange.mk.injEq] at hBody
    obtain ⟨-, hMain', hBackground', hPromises', hScheduled', hIgnore', hUpgrade', hHistory'⟩ := hBody
    have hPhase : contract.phase middle.parser = .body := by
      rw [parser_headersCompleted hMiddle]
      exact contract.proceed _ hWaiting
    have hNone : history conn.current middle.log = [] := by
      rw [hCurrent'] at hHistory'
      exact hHistory'.trans hHistory
    refine ⟨hPhase, ?_, hIgnore'.trans hIgnore,
      hMiddleCourses.extend rfl rfl (List.append_nil _).symm (fun _ _ => rfl)⟩
    cases hUpgrade : conn.isUpgrade with
    | false =>
        exact Or.inl (.intro hCurrent hCurrent' (hMain'.trans hMain)
          (hBackground'.trans hBackground) (hPromises'.trans hPromises)
          (hScheduled'.trans (hScheduled rfl)) (hIgnore'.trans hIgnore)
          (hUpgrade'.trans hUpgrade) hNone (.body .receiving (by simp [Taken])))
    | true =>
        right
        exact {
          current := hCurrent'.symm ▸ hCurrent
          isUpgrade := hUpgrade'.trans hUpgrade
          phase := Or.inl rfl
          main := by
            intro task hMem
            rw [show ({ middle with requestBuffer := [] } : Connection File).mainTasks = [] from
              hMain'.trans hMain] at hMem
            cases hMem
          background := hBackground'.trans hBackground
          promises := hPromises'.trans hPromises
          history := hCurrent'.symm ▸ hNone }
  · cases hTask

theorem Staged.proceed (contract : HttpParserContract) {middle : Connection File} {request : Nat}
    {rest : List (BackgroundTask File)} {static : Option (HttpResponse (Body File))} {now : Tm}
    (h : Staged (contract.phase conn.parser) conn)
    (hSound : Sound (contract.phase conn.parser) conn)
    (hQueue : conn.backgroundQueue = .onHeadersCompleteComplete request none :: rest)
    (hMiddle : { conn with backgroundQueue := rest }.headersCompleted now request none = some middle)
    (hParsed : Parsed { middle with requestBuffer := [] } static now middle.requestBuffer after)
    (hSequential : Sequential after.log) : Staged (contract.phase after.parser) after := by
  obtain ⟨hWaiting, -, hPopped⟩ := hSound.front hQueue
  obtain ⟨hPhase, hParsing⟩ := h.proceeds contract hWaiting hQueue hMiddle
  have hFeeding := (hPopped .body).headersCompleted hMiddle
  rw [← hPhase] at hParsing hFeeding
  exact hParsing.parsed contract hFeeding hParsed hSequential

/-- The rest of a refused request is dropped. -/
theorem Staged.dropped (contract : HttpParserContract) {static : Option (HttpResponse (Body File))}
    {now : Tm} {buffer : Bytes} (hPhase : contract.phase conn.parser = .refused)
    (hFeeding : Feeding (contract.phase conn.parser) conn) (hCurrent : 0 < conn.current)
    (hMain : conn.mainTasks = []) (hBackground : conn.backgroundTasks = [])
    (hPromises : conn.promises = []) (hCourse : Course (history conn.current conn.log))
    (hUnfailed : .onBodyData true ∉ history conn.current conn.log)
    (hCourses : conn.Courses) (hParsed : Parsed conn static now buffer after) :
    Staged (contract.phase after.parser) after ∧
      (after.isUpgrade = false → .onBodyData true ∉ history after.current after.log) := by
  have hFed := @feed_silent _ _ _ conn static contract (Or.inr hPhase) buffer
  have hFedSound := (hFeeding.feed contract static buffer).1
  have hFedPhase : contract.phase (conn.feed static buffer).parser = .between ∨
      contract.phase (conn.feed static buffer).parser = .refused := by
    rw [parser_feed]
    rcases (contract.silent (Or.inr hPhase) buffer).2 with hSame | ⟨-, hBetween⟩
    · exact Or.inr (hSame.trans hPhase)
    · exact Or.inl hBetween
  have hFedCourses : (conn.feed static buffer).Courses := by
    rw [hFed]
    exact hCourses.extend rfl rfl rfl (fun _ _ => rfl)
  have hFedHistory : history conn.current (conn.feed static buffer).log =
      history conn.current conn.log := by
    rw [hFed]
    exact history_concat_none rfl
  have hFedTasks : (conn.feed static buffer).current = conn.current ∧
      (conn.feed static buffer).mainTasks = [] ∧ (conn.feed static buffer).backgroundTasks = [] ∧
      (conn.feed static buffer).promises = [] := by
    rw [hFed]
    exact ⟨rfl, hMain, hBackground, hPromises⟩
  obtain ⟨hFedCurrent, hFedMain, hFedBackground, hFedPromises⟩ := hFedTasks
  cases hParsed with
  | waiting hWaiting =>
      have hBusy := (contract.waiting_iff _).1 hWaiting
      rw [hBusy] at hFedPhase
      simp at hFedPhase
  | upgrade hWaiting hUpgrade hAfter =>
      rw [hAfter.parser]
      have hNotHead : contract.phase (conn.feed static buffer).parser ≠ .head ∧
          contract.phase (conn.feed static buffer).parser ≠ .waiting := by
        rcases hFedPhase with hBetween | hRefused
        · simp [hBetween]
        · simp [hRefused]
      have hAbandoned := hAfter.abandoned hNotHead hFedSound.websocket hUpgrade
        (by simp [hFedMain]) hFedBackground hFedPromises
      refine ⟨⟨Or.inr hAbandoned, hAfter.courses hFedCourses⟩, ?_⟩
      simp [hAbandoned.isUpgrade]
  | quiet hWaiting hUpgrade hQuiet hRest =>
      rw [hQuiet.parser]
      have hStanding : Standing (contract.phase (conn.feed static buffer).parser)
          (conn.feed static buffer) :=
        .intro hCurrent hFedCurrent hFedMain hFedBackground hFedPromises rfl rfl hUpgrade
          hFedHistory (.idle hFedPhase hCourse hUnfailed)
      have hHistory : history after.current after.log = history conn.current conn.log := by
        have hSame : after.exchange .between = Connection.exchange .between _ := hQuiet.exchange
        simp only [exchange, Exchange.mk.injEq] at hSame
        rw [hSame.2.2.2.2.2.2.2, hFedCurrent, hFedHistory]
      refine ⟨⟨Or.inl (hStanding.quiet hQuiet), hQuiet.courses hFedCourses⟩, fun _ => ?_⟩
      rw [hHistory]
      exact hUnfailed

/-- The request is refused in its headers. -/
theorem Staged.refuse (contract : HttpParserContract) {middle : Connection File} {request : Nat}
    {answer : HttpResponse (Body File)} {rest : List (BackgroundTask File)}
    {static : Option (HttpResponse (Body File))} {now : Tm}
    (h : Staged (contract.phase conn.parser) conn)
    (hSound : Sound (contract.phase conn.parser) conn)
    (hQueue : conn.backgroundQueue = .onHeadersCompleteComplete request (some answer) :: rest)
    (hMiddle : { conn with backgroundQueue := rest }.headersCompleted now request (some answer) =
      some middle)
    (hParsed : Parsed { middle with requestBuffer := [] } static now middle.requestBuffer after) :
    Staged (contract.phase after.parser) after ∧
      (after.isUpgrade = false → .onBodyData true ∉ history after.current after.log) := by
  obtain ⟨hWaiting, -, hPopped⟩ := hSound.front hQueue
  rcases h.background hQueue rfl with ⟨hCurrent, hStage⟩ | ⟨-, now, hTask⟩
  · obtain ⟨rfl, -, hMain, hBackground, hPromises, hIgnore, -, hHistory⟩ :=
      hStage.headersCompleted
    have hFeeding := (hPopped (contract.phase middle.parser)).headersCompleted hMiddle
    obtain ⟨closing, answered, hFinishes, rfl⟩ := headersCompleted_some hMiddle
    obtain ⟨hCurrent', hMain', hBackground', hPromises', -⟩ := hFinishes.same_fields
    have hCourses : ({ conn with backgroundQueue := rest } : Connection File).Courses :=
      h.2.extend rfl rfl (List.append_nil _).symm (fun _ _ => rfl)
    have hAnsweredCourses := hFinishes.courses hCourses
    have hAnsweredHistory := hFinishes.history_log
    have hAll : history answered.current answered.log = [.answered answer, .final conn.serial
        (if closing then answer.requestClose else answer)] := by
      rw [hCurrent', hAnsweredHistory]
      exact congrArg (fun events => events ++ _) hHistory
    refine Staged.dropped contract ?_ hFeeding ?_ ?_ ?_ ?_ ?_ ?_ ?_ hParsed
    · change contract.phase (HttpParser.headersCompleted answered.parser 3) = .refused
      rw [hFinishes.parser]
      exact contract.refuse _ hWaiting
    · exact hCurrent'.symm ▸ hCurrent
    · exact hMain'.trans hMain
    · exact hBackground'.trans hBackground
    · exact hPromises'.trans hPromises
    · exact hAll ▸ Course.refused answer _ conn.serial
    · rw [show history _ _ = _ from hAll]
      simp
    · exact hAnsweredCourses.extend rfl rfl (List.append_nil _).symm (fun _ _ => rfl)
  · cases hTask

omit [Host] [Digests] [DataSource File] in
/-- What is read goes to the parser. -/
theorem Staged.reads (h : Staged phase conn) (hSound : Sound phase conn)
    (hReading : conn.reading = true) (hIgnore : conn.ignoreNewData = false)
    (hProtocol : conn.protocol = .http) (data : Bytes) :
    Parsing phase (conn.observe (.read data)) := by
  have hStanding : Standing phase conn := by
    rcases h.1 with hStanding | hAbandoned
    · exact hStanding
    · rcases hAbandoned.stopped with hSwitched | hClosing
      · rw [hSwitched] at hProtocol
        cases hProtocol
      · rw [hSound.reading hReading] at hClosing
        cases hClosing
  have hParsing : Parsing phase conn := ⟨Or.inl hStanding, hIgnore, h.2⟩
  exact hParsing.observe _ (fun _ => rfl)

/-- One step. -/
theorem Staged.step (contract : HttpParserContract)
    (h : Staged (contract.phase conn.parser) conn)
    (hSound : Sound (contract.phase conn.parser) conn) (hStep : Step conn after)
    (hSequential : Sequential after.log) : Staged (contract.phase after.parser) after := by
  cases hStep with
  | quiet hQuiet =>
      rw [hQuiet.parser]
      exact h.quiet hQuiet
  | read static now data hReading hIgnore hProtocol hParsed =>
      have hHttp : ¬ conn.UsesWebSocket := hSound.http hProtocol
      have hFeeding : Feeding (contract.phase conn.parser) (conn.observe (.read data)) :=
        Feeding.observe ⟨hSound, hHttp⟩ _ (by simp) (by simp)
      have hParsing := h.reads hSound hReading hIgnore hProtocol data
      exact hParsing.parsed contract hFeeding hParsed hSequential
  | @onHeadersCompleteComplete middle _ request response rest static now hQueue hMiddle hParsed =>
      cases response with
      | none => exact h.proceed contract hSound hQueue hMiddle hParsed hSequential
      | some answer => exact (h.refuse contract hSound hQueue hMiddle hParsed).1
  | onBodyError hQueue hAfter =>
      have hFinishes := onBodyError_finishes hAfter
      rw [hFinishes.parser, contract.pause]
      exact h.onBodyError hQueue hAfter
  | onMessageCompleteComplete hQueue hAfter =>
      have hParser : after.parser = conn.parser := by
        rcases onMessageCompleteComplete_cases hAfter with ⟨rfl, -⟩ | ⟨-, answer, -, hFinishes⟩
        · rfl
        · exact hFinishes.parser
      rw [hParser]
      exact h.onMessageCompleteComplete hQueue hAfter
  | decided hQueue response => exact (h.onHeaders hQueue response).1
  | undecided hQueue => exact (h.onHeaders hQueue none).2
  | bodySkipped hQueue hScheduled => exact h.bodySkipped hQueue hScheduled
  | bodyTaken hQueue hScheduled => exact h.bodyTaken hQueue hScheduled
  | bodyFailed hQueue hScheduled now => exact h.bodyFailed hQueue hScheduled now
  | callSkipped hQueue hScheduled => exact h.callSkipped hQueue hScheduled
  | called hQueue hScheduled response => exact (h.getResponse hQueue hScheduled).2 response
  | promised hQueue hScheduled => exact (h.getResponse hQueue hScheduled).1
  | settled hPromise response => exact (h.settle hPromise).2 response
  | rejected hPromise => exact (h.settle hPromise).1

omit [Host] [Digests] [DataSource File] in
theorem Initial.staged (contract : HttpParserContract) (h : Initial conn) :
    Staged (contract.phase conn.parser) conn := by
  obtain ⟨incompleteContentHeader, header, rfl⟩ := h
  refine ⟨Or.inl (.unused rfl ?_), ⟨?_, ?_, ?_⟩⟩
  · simp [exchange, mainTasks, backgroundTasks, fresh, history, contract.init]
  · simp [fresh]
  · simp [fresh, history]
  · simp [fresh]

omit [DataSource File] [Host] [Digests] in
/-- What has been done for a request that is no upgrade. -/
theorem Staged.course {request : Nat} (h : Staged phase conn)
    (hPlain : .onHeadersComplete request true ∉ conn.log) : Course (history request conn.log) := by
  have hNone : Taken ([] : List (RequestEvent File)) := by simp [Taken]
  obtain ⟨hStanding, hCourses⟩ := h
  rcases Nat.lt_trichotomy request conn.current with hPast | rfl | hFuture
  · exact (hCourses.past request hPast).1
  · rcases hStanding with hStanding | hAbandoned
    · cases hStanding with
      | unused hCurrent hExchange =>
          simp only [exchange, Exchange.mk.injEq] at hExchange
          rw [hExchange.2.2.2.2.2.2.2]
          exact .unanswered hNone
      | stage hCurrent hStage => exact hStage.course
    · exact absurd (hCourses.flagged hAbandoned.isUpgrade) hPlain
  · rw [hCourses.future request hFuture]
    exact .unanswered hNone

end Steps

end Connection

end Httpuv
