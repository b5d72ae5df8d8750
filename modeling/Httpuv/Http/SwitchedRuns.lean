import Httpuv.Http.ResponseFraming
import Httpuv.Http.Switching
import Httpuv.Parser.Contract

/-! What the client and the application see of a connection that is switched. -/
namespace Httpuv

open Semantics

namespace Connection

variable {File : Type} [HttpParser] [Zlib] [DataSource File] [Host] [Digests]

/-- A run in which every step is checked. Evaluating it decides the condition of each step
along with the step itself. -/
theorem guarded_of_foldlM {condition : Connection File → ConnectionAction File → Prop}
    [∀ conn action, Decidable (condition conn action)] {start finish : Connection File}
    {actions : List (ConnectionAction File)}
    (h : actions.foldlM (fun conn action =>
      if condition conn action then conn.next action else none) start = some finish) :
    (system.guarded condition).Run start actions finish [] := by
  induction actions generalizing start with
  | nil =>
      obtain rfl := Option.some.inj h
      exact .nil
  | cons action actions ih =>
      simp only [List.foldlM_cons, Option.bind_eq_bind, Option.bind_eq_some_iff,
        Option.ite_none_right_eq_some] at h
      obtain ⟨middle, ⟨hCondition, hNext⟩, hRest⟩ := h
      have hStep : system.step start action middle [] := by simp [system, System.ofStep, hNext]
      exact (System.Run.single (S := system.guarded condition) ⟨hCondition, hStep⟩).trans (ih hRest)

/-- The head of an upgrade request as clients send it, with the line feed that ends it. -/
def sampleUpgrade : Bytes :=
  ascii "GET / HTTP/1.1\r\nHost: localhost\r\nUpgrade: websocket\r\nConnection: Upgrade\r\n" ++
    ascii "Sec-WebSocket-Key: dGhlIHNhbXBsZSBub25jZQ==\r\nSec-WebSocket-Version: 13\r\n\r\n"

/-! ## The bytes of the client -/

/-- Bytes from the socket go to the WebSocket when none that came with the handshake
are on their way there, and none of those is ever read: their buffer is gone by then. -/
def BytesInTurn (conn : Connection File) : ConnectionAction File → Prop
  | .read _ _ _ => conn.protocol = .webSockets → conn.ignoreNewData = false →
      conn.pWebSocketConnection = true →
        conn.requestBuffer = [] ∧
          ∀ size ∈ conn.backgroundQueue.filterMap BackgroundTask.returned, size = 0
  | .runBackground _ _ _ => ∀ size ∈ conn.backgroundQueue.head?.bind BackgroundTask.returned,
      size = 0
  | _ => True

instance (conn : Connection File) : ∀ action, Decidable (conn.BytesInTurn action)
  | .read _ _ _ => inferInstanceAs (Decidable (conn.protocol = .webSockets →
      conn.ignoreNewData = false → conn.pWebSocketConnection = true → conn.requestBuffer = [] ∧
        ∀ size ∈ conn.backgroundQueue.filterMap BackgroundTask.returned, size = 0))
  | .runBackground _ _ _ => inferInstanceAs (Decidable
      (∀ size ∈ conn.backgroundQueue.head?.bind BackgroundTask.returned, size = 0))
  | .readError => .isTrue trivial
  | .written _ _ => .isTrue trivial
  | .onClosed => .isTrue trivial
  | .pingTimer => .isTrue trivial
  | .stop => .isTrue trivial
  | .runMain _ _ _ => .isTrue trivial
  | .settle _ _ _ => .isTrue trivial
  | .wsCall _ => .isTrue trivial

/-- What the WebSocket has read are the first bytes that the client has sent
behind the handshake, as long as none of them come with it. -/
theorem passed_in_order (contract : HttpParserContract) {start finish : Connection File}
    {actions : List (ConnectionAction File)} {outputs : List Unit} (hInitial : Initial start)
    (run : (system.guarded BytesInTurn).Run start actions finish outputs) :
    passedToWebSocket finish.log <+: (sentSinceHandshake finish.log).getD [] := by
  have hLenient : Lenient Channel.InOrder := by
    refine ⟨fun channel event hPlain => ?_, fun channel leftover hKept => hKept⟩
    cases event <;> trivial
  have hMoves : Relation.ReflTransGen (Channel.Move Channel.InOrder) Channel.fresh finish.channel := by
    apply run_moves contract hLenient run hInitial
    intro conn action after hSound hChannel hCondition hNext
    refine ⟨?_, ?_, fun _ _ _ _ _ _ _ => trivial, fun _ _ _ _ _ _ _ _ => trivial⟩
    · rintro data static now rfl hProtocol hIgnore hOpen
      exact hCondition hProtocol hIgnore hOpen
    · rintro static now freed rfl rest hQueue
      apply List.length_eq_zero_iff.1
      exact hCondition freed.length (by simp [hQueue, BackgroundTask.returned])
  exact Channel.passed_prefix hMoves

omit [HttpParser] [Zlib] [DataSource File] [Host] [Digests] in
/-- A ping comes behind the handshake, and a pong when the main thread has opened the
WebSocket. -/
theorem passed_in_order_ping :
    let _ : HttpParser := httpParser
    let _ : Zlib := HttpResponse.SampleStream.zlib
    let _ : Host := littleEndianHost
    let _ : Digests := sampleDigests
    ∃ finish : Connection InMemoryDataSource,
      (system.guarded BytesInTurn).Run (fresh WSHixie76Parser.textInfo WSHixie76Parser.textInfo)
        [.read sampleUpgrade none .epoch, .runMain (.returned none) [] .epoch,
          .runMain (.returned none) [] .epoch, .runBackground none .epoch [],
          .read [0x89, 0x00] none .epoch, .runMain (.returned none) [] .epoch,
          .runBackground none .epoch [], .read [0x8A, 0x00] none .epoch] finish [] ∧
      passedToWebSocket finish.log = [0x89, 0x00, 0x8A, 0x00] ∧
      passedToWebSocket finish.log <+: (sentSinceHandshake finish.log).getD [] := by
  intro parser zlib host digests
  obtain ⟨finish, hRun, hPassed⟩ : ∃ finish,
      [ConnectionAction.read sampleUpgrade none .epoch,
        .runMain (.returned none) [] .epoch, .runMain (.returned none) [] .epoch,
        .runBackground none .epoch [], .read [0x89, 0x00] none .epoch,
        .runMain (.returned none) [] .epoch, .runBackground none .epoch [],
        .read [0x8A, 0x00] none .epoch].foldlM
          (fun (conn : Connection InMemoryDataSource) action =>
            if conn.BytesInTurn action then conn.next action else none)
          (fresh WSHixie76Parser.textInfo WSHixie76Parser.textInfo) = some finish ∧
      passedToWebSocket finish.log = [0x89, 0x00, 0x8A, 0x00] :=
    Option.map_eq_some_iff.1 (by decide +kernel)
  have hGuarded := guarded_of_foldlM hRun
  exact ⟨finish, hGuarded, hPassed,
    passed_in_order httpParserContract ⟨_, _, rfl⟩ hGuarded⟩

omit [HttpParser] [Zlib] [DataSource File] [Host] [Digests] in
/-- A pong overtakes the ping that has come with the handshake. Without the pong, two
zero bytes are read for the ping when its memory holds them by then. -/
theorem bytes_overtake :
    let _ : HttpParser := httpParser
    let _ : Zlib := HttpResponse.SampleStream.zlib
    let _ : Host := littleEndianHost
    let _ : Digests := sampleDigests
    (∃ finish : Connection InMemoryDataSource,
      system.Run (fresh WSHixie76Parser.textInfo WSHixie76Parser.textInfo)
        [.read (sampleUpgrade ++ [0x89, 0x00]) none .epoch, .runMain (.returned none) [] .epoch,
          .runMain (.returned none) [] .epoch, .runBackground none .epoch [],
          .read [0x8A, 0x00] none .epoch] finish [] ∧
      ¬ passedToWebSocket finish.log <+: (sentSinceHandshake finish.log).getD []) ∧
    ∃ finish : Connection InMemoryDataSource,
      system.Run (fresh WSHixie76Parser.textInfo WSHixie76Parser.textInfo)
        [.read (sampleUpgrade ++ [0x89, 0x00]) none .epoch, .runMain (.returned none) [] .epoch,
          .runMain (.returned none) [] .epoch, .runBackground none .epoch [],
          .runMain (.returned none) [] .epoch, .runBackground none .epoch [0x00, 0x00]] finish [] ∧
      ¬ passedToWebSocket finish.log <+: (sentSinceHandshake finish.log).getD [] := by
  intro parser zlib host digests
  have hPassed : ∀ (actions : List (ConnectionAction InMemoryDataSource)) (passed sent : Bytes),
      ((actions.foldlM next (fresh WSHixie76Parser.textInfo WSHixie76Parser.textInfo)).map
        (fun finish => (passedToWebSocket finish.log, sentSinceHandshake finish.log))) =
          some (passed, some sent) →
      ¬ passed <+: sent →
      ∃ finish, system.Run (fresh WSHixie76Parser.textInfo WSHixie76Parser.textInfo) actions
        finish [] ∧ ¬ passedToWebSocket finish.log <+: (sentSinceHandshake finish.log).getD [] := by
    intro actions passed sent hRuns hWrong
    obtain ⟨finish, hRun, hFacts⟩ := Option.map_eq_some_iff.1 hRuns
    obtain ⟨hBytes, hSent⟩ := Prod.mk.inj hFacts
    refine ⟨finish, run_of_foldlM hRun, ?_⟩
    rw [hBytes, hSent]
    exact hWrong
  constructor
  · exact hPassed _ [0x8A, 0x00] [0x89, 0x00, 0x8A, 0x00] (by decide +kernel) (by decide)
  · exact hPassed _ [0x00, 0x00] [0x89, 0x00] (by decide +kernel) (by decide)

/-! ## The callbacks of the application -/

/-- `onWSOpen` is left out only if nothing comes behind it, and what is read in place
of the bytes that came with the handshake completes no message after `onWSClose`. -/
def CallsInTurn (conn : Connection File) : ConnectionAction File → Prop
  | .runMain _ _ _ => conn.mainQueue.head? = some .callROnWSOpen →
      conn.pWebSocketConnection = false → conn.mainQueue.tail.filterMap MainTask.notice = []
  | .runBackground _ _ freed => (conn.backgroundQueue.head?.bind BackgroundTask.returned).isSome →
      conn.websocket.completes freed = true →
        .onWSClose ∉ conn.mainQueue ∧ .onWSClose ∉ wsCallbacks conn.log
  | _ => True

instance (conn : Connection File) : ∀ action, Decidable (conn.CallsInTurn action)
  | .runMain _ _ _ => inferInstanceAs (Decidable (conn.mainQueue.head? = some .callROnWSOpen →
      conn.pWebSocketConnection = false → conn.mainQueue.tail.filterMap MainTask.notice = []))
  | .runBackground _ _ freed => inferInstanceAs (Decidable
      ((conn.backgroundQueue.head?.bind BackgroundTask.returned).isSome →
        conn.websocket.completes freed = true →
          .onWSClose ∉ conn.mainQueue ∧ .onWSClose ∉ wsCallbacks conn.log))
  | .read _ _ _ => .isTrue trivial
  | .readError => .isTrue trivial
  | .written _ _ => .isTrue trivial
  | .onClosed => .isTrue trivial
  | .pingTimer => .isTrue trivial
  | .stop => .isTrue trivial
  | .settle _ _ _ => .isTrue trivial
  | .wsCall _ => .isTrue trivial

/-- The application's callbacks come in their order: `onWSOpen`, the messages and
`onWSClose`. -/
theorem calls_in_order (contract : HttpParserContract) {start finish : Connection File}
    {actions : List (ConnectionAction File)} {outputs : List Unit} (hInitial : Initial start)
    (run : (system.guarded CallsInTurn).Run start actions finish outputs) :
    ∃ messages, wsCallbacks finish.log <+: Channel.opening messages ++ [.onWSClose] := by
  have hLenient : Lenient Channel.Announced := by
    refine ⟨fun channel event hPlain => ?_, fun channel leftover hKept => trivial⟩
    cases event <;> trivial
  have hMoves : Relation.ReflTransGen (Channel.Move Channel.Announced) Channel.fresh
      finish.channel := by
    apply run_moves contract hLenient run hInitial
    intro conn action after hSound hChannel hCondition hNext
    refine ⟨fun _ _ _ _ _ _ _ => trivial, fun _ _ _ _ _ _ => trivial, ?_, ?_⟩
    · intro data hGives hCompletes channel binary message hSame hNotice
      have hClosed := hSame hNotice
      cases hGives with
      | read hProtocol =>
          -- nothing is read any more when `onWSClose` has been scheduled
          simp only [next, Option.ite_none_right_eq_some, Bool.and_eq_true] at hNext
          have hOpen := hSound.reading hNext.1.1
          have hClosing : conn.isClosing = true := Channel.closing_of_onWSClose hChannel hClosed
          rw [hOpen] at hClosing
          cases hClosing
      | task hQueue =>
          obtain ⟨hQueued, hCalled⟩ :=
            hCondition (by simp [hQueue, BackgroundTask.returned]) hCompletes
          rcases List.mem_append.1 hClosed with hMem | hMem
          · exact hCalled hMem
          · obtain ⟨task, hTask, hSome⟩ := List.mem_filterMap.1 hMem
            cases task <;> simp_all [MainTask.notice]
    · rintro outcome calls now rfl task rest hQueue hTask notices hNotices
      have hFirst : (task :: rest).filterMap MainTask.notice = .onWSOpen :: notices := by
        rw [← hQueue]
        exact hNotices
      cases hPresent : conn.pWebSocketConnection with
      | true => exact Or.inl hPresent
      | false =>
          right
          cases task with
          | callROnWSOpen =>
              have hAlone := hCondition (by simp [hQueue]) hPresent
              rw [hQueue] at hAlone
              have hSame : rest.filterMap MainTask.notice = notices := by
                simpa [MainTask.notice] using hFirst
              exact hSame.symm.trans hAlone
          | onWSMessage binary data => cases (List.cons.inj hFirst).1
          | onWSClose => cases (List.cons.inj hFirst).1
          | initializeEnv => exact absurd rfl hTask
          | onHeaders request => exact absurd rfl hTask
          | onBodyData request data => exact absurd rfl hTask
          | getResponse request => exact absurd rfl hTask
  exact Channel.calls_prefix hMoves

omit [HttpParser] [Zlib] [DataSource File] [Host] [Digests] in
/-- The WebSocket is opened, gets a text message and is closed by the client. Each callback
is called before the next one is scheduled. -/
theorem calls_in_order_message :
    let _ : HttpParser := httpParser
    let _ : Zlib := HttpResponse.SampleStream.zlib
    let _ : Host := littleEndianHost
    let _ : Digests := sampleDigests
    ∃ finish : Connection InMemoryDataSource,
      (system.guarded CallsInTurn).Run (fresh WSHixie76Parser.textInfo WSHixie76Parser.textInfo)
        [.read sampleUpgrade none .epoch, .runMain (.returned none) [] .epoch,
          .runMain (.returned none) [] .epoch, .runBackground none .epoch [],
          .runMain (.returned none) [] .epoch, .runBackground none .epoch [],
          .read [0x81, 0x01, 0x68] none .epoch, .readError, .runMain (.returned none) [] .epoch,
          .runMain (.returned none) [] .epoch] finish [] ∧
      wsCallbacks finish.log = [.onWSOpen, .onWSMessage false [0x68], .onWSClose] ∧
      ∃ messages, wsCallbacks finish.log <+: Channel.opening messages ++ [.onWSClose] := by
  intro parser zlib host digests
  obtain ⟨finish, hRun, hCalls⟩ : ∃ finish,
      [ConnectionAction.read sampleUpgrade none .epoch, .runMain (.returned none) [] .epoch,
        .runMain (.returned none) [] .epoch, .runBackground none .epoch [],
        .runMain (.returned none) [] .epoch, .runBackground none .epoch [],
        .read [0x81, 0x01, 0x68] none .epoch, .readError, .runMain (.returned none) [] .epoch,
        .runMain (.returned none) [] .epoch].foldlM
          (fun (conn : Connection InMemoryDataSource) action =>
            if conn.CallsInTurn action then conn.next action else none)
          (fresh WSHixie76Parser.textInfo WSHixie76Parser.textInfo) = some finish ∧
      wsCallbacks finish.log = [.onWSOpen, .onWSMessage false [0x68], .onWSClose] :=
    Option.map_eq_some_iff.1 (by decide +kernel)
  have hGuarded := guarded_of_foldlM hRun
  exact ⟨finish, hGuarded, hCalls,
    calls_in_order httpParserContract ⟨_, _, rfl⟩ hGuarded⟩

omit [HttpParser] [Zlib] [DataSource File] [Host] [Digests] in
/-- The client goes away before the main thread has come to `onWSOpen`. The callback for the
end has a pointer of its own and is called. -/
theorem closed_unopened :
    let _ : HttpParser := httpParser
    let _ : Zlib := HttpResponse.SampleStream.zlib
    let _ : Host := littleEndianHost
    let _ : Digests := sampleDigests
    ∃ finish : Connection InMemoryDataSource,
      system.Run (fresh WSHixie76Parser.textInfo WSHixie76Parser.textInfo)
        [.read sampleUpgrade none .epoch, .runMain (.returned none) [] .epoch,
          .runMain (.returned none) [] .epoch, .runBackground none .epoch [], .readError,
          .written 0 true, .onClosed, .runMain (.returned none) [] .epoch,
          .runMain (.returned none) [] .epoch] finish [] ∧
      wsCallbacks finish.log = [.onWSClose] ∧
      ¬ ∃ messages, wsCallbacks finish.log <+: Channel.opening messages ++ [.onWSClose] := by
  intro parser zlib host digests
  obtain ⟨finish, hRun, hCalls⟩ : ∃ finish,
      [ConnectionAction.read sampleUpgrade none .epoch, .runMain (.returned none) [] .epoch,
        .runMain (.returned none) [] .epoch, .runBackground none .epoch [], .readError,
        .written 0 true, .onClosed, .runMain (.returned none) [] .epoch,
        .runMain (.returned none) [] .epoch].foldlM next
          (fresh WSHixie76Parser.textInfo WSHixie76Parser.textInfo :
            Connection InMemoryDataSource) = some finish ∧
      wsCallbacks finish.log = [.onWSClose] :=
    Option.map_eq_some_iff.1 (by decide +kernel)
  refine ⟨finish, run_of_foldlM hRun, hCalls, ?_⟩
  rintro ⟨messages, hPrefix⟩
  rw [hCalls, Channel.opening, List.cons_append, List.cons_prefix_cons] at hPrefix
  cases hPrefix.1

end Connection

end Httpuv
