import Httpuv.Http.OneResponse
import Httpuv.Parser.Contract

/-! When the next request of a connection begins, nothing is being done for the
ones before it. -/
namespace Httpuv

open Semantics

section Log

variable {File : Type} {request : Nat} {log entries : List (Observation File)}

/-- `uv_write` has been given the beginning of a final response. -/
def Answered (request : Nat) (log : List (Observation File)) : Prop :=
  ∃ serial response, .writeResponse request serial .final response ∈ log ∧ HasPiece serial log

/-- `uv_write` has been given `100 Continue`. -/
def Continued (request : Nat) (log : List (Observation File)) : Prop :=
  ∃ serial response, .writeResponse request serial .interim response ∈ log ∧ HasPiece serial log

/-- A request begins when all earlier ones have been answered, or while one is
being handled, which closes the connection. -/
def OneAtATime (log : List (Observation File)) : Prop :=
  AtEach (fun before entry => ∀ request handling, entry = .onMessageBegin (request + 1) handling →
    handling = true ∨ ∀ earlier, 0 < earlier → earlier ≤ request → Answered earlier before) log

/-- A request that has been told to continue is answered before the next one
begins. -/
def ContinueAwaited (log : List (Observation File)) : Prop :=
  AtEach (fun before entry => ∀ request handling, entry = .onMessageBegin (request + 1) handling →
    Continued request before → Answered request before) log

/-- Entries that neither begin a request nor respond to one. -/
def Observation.IsMinor : Observation File → Prop
  | .onMessageBegin _ _ | .writeResponse _ _ _ _ => False
  | _ => True

theorem Answered.append (h : Answered request log) : Answered request (log ++ entries) := by
  obtain ⟨serial, response, hMem, hPiece⟩ := h
  exact ⟨serial, response, List.mem_append_left _ hMem, hPiece.append⟩

theorem Continued.append (h : Continued request log) : Continued request (log ++ entries) := by
  obtain ⟨serial, response, hMem, hPiece⟩ := h
  exact ⟨serial, response, List.mem_append_left _ hMem, hPiece.append⟩

/-- A property of the beginning of requests only looks at those. -/
theorem atEach_begins {P : List (Observation File) → Nat → Bool → Prop}
    (h : AtEach (fun before entry => ∀ request handling,
      entry = .onMessageBegin (request + 1) handling → P before request handling) log)
    (hEntries : ∀ request handling, .onMessageBegin request handling ∉ entries) :
    AtEach (fun before entry => ∀ request handling,
      entry = .onMessageBegin (request + 1) handling → P before request handling)
      (log ++ entries) := by
  apply h.append
  rintro entry hMem before request handling rfl
  exact absurd hMem (hEntries _ _)

end Log

namespace Connection

variable {File : Type} [HttpParser] [Zlib] {phase next : ParserPhase} {conn after : Connection File}

/-- What the flag `_handling_request` tells of an open connection. -/
structure Guarded (phase : ParserPhase) (conn : Connection File) : Prop where
  used : phase = .head ∨ phase = .waiting → 0 < conn.current
  earlier : ∀ request, 0 < request → request < conn.current → Answered request conn.log
  sequential : Sequential conn.log
  handling : conn.handlingRequest = false → 0 < conn.current → Answered conn.current conn.log ∨
    Continued conn.current conn.log ∨
    ∃ serial response, .writeResponse conn.current serial .switching response ∈ conn.log
  unwritten : ∀ request serial kind response,
    .writeResponse request serial kind response ∈ conn.log →
    request ≤ conn.current ∧ (request = conn.current → phase ≠ .head ∧ phase ≠ .waiting)

theorem Guarded.extend {entries : List (Observation File)} (h : Guarded phase conn)
    (hCurrent : after.current = conn.current)
    (hHandling : after.handlingRequest = conn.handlingRequest)
    (hLog : after.log = conn.log ++ entries) (hMinor : ∀ entry ∈ entries, entry.IsMinor)
    (hPhase : phase ≠ .head → phase ≠ .waiting → next ≠ .head ∧ next ≠ .waiting) :
    Guarded next after where
  used := by
    intro hNext
    rw [hCurrent]
    by_contra hUnused
    have hBefore : ¬ (phase = .head ∨ phase = .waiting) := fun hUsed => hUnused (h.used hUsed)
    obtain ⟨hHead, hWaiting⟩ := hPhase (fun hSame => hBefore (Or.inl hSame))
      (fun hSame => hBefore (Or.inr hSame))
    exact hNext.elim hHead hWaiting
  earlier := by
    intro request hPositive hEarlier
    rw [hLog]
    exact (h.earlier request hPositive (hCurrent ▸ hEarlier)).append
  sequential := by
    rw [hLog]
    apply atEach_begins h.sequential
    exact fun request handling hMem => hMinor _ hMem
  handling := by
    rw [hHandling, hCurrent, hLog]
    intro hDone hPositive
    rcases h.handling hDone hPositive with hAnswered | hContinued | ⟨serial, response, hMem⟩
    · exact Or.inl hAnswered.append
    · exact Or.inr (Or.inl hContinued.append)
    · exact Or.inr (Or.inr ⟨serial, response, List.mem_append_left _ hMem⟩)
  unwritten := by
    intro request serial kind response hMem
    rw [hLog] at hMem
    rw [hCurrent]
    rcases List.mem_append.1 hMem with hMem | hMem
    · obtain ⟨hBefore, hSame⟩ := h.unwritten request serial kind response hMem
      exact ⟨hBefore, fun hRequest => hPhase (hSame hRequest).1 (hSame hRequest).2⟩
    · exact (hMinor _ hMem).elim

/-- The parser waits for a decision only about a request that is being handled. -/
theorem Guarded.handles (h : Guarded .waiting conn) : conn.handlingRequest = true := by
  by_contra hHandling
  rw [Bool.not_eq_true] at hHandling
  have hPositive := h.used (Or.inr rfl)
  have hWritten : ∀ serial kind response,
      .writeResponse conn.current serial kind response ∉ conn.log :=
    fun serial kind response hMem => ((h.unwritten _ _ _ _ hMem).2 rfl).2 rfl
  rcases h.handling hHandling hPositive with ⟨serial, response, hMem, -⟩ |
    ⟨serial, response, hMem, -⟩ | ⟨serial, response, hMem⟩
  · exact hWritten _ _ _ hMem
  · exact hWritten _ _ _ hMem
  · exact hWritten _ _ _ hMem

/-- The connection is closing, with the flag set. -/
def Latched (conn : Connection File) : Prop :=
  conn.isClosing = true ∧ conn.handlingRequest = true

/-- What is kept while the parser runs. -/
structure Ordered (phase : ParserPhase) (conn : Connection File) : Prop where
  oneAtATime : OneAtATime conn.log
  closes : ∀ request, .onMessageBegin request true ∈ conn.log → conn.isClosing = true
  guard : conn.Latched ∨ conn.isClosing = false ∧ Guarded phase conn

theorem Ordered.extend {entries : List (Observation File)} (h : Ordered phase conn)
    (hCurrent : after.current = conn.current)
    (hHandling : after.handlingRequest = conn.handlingRequest)
    (hClosing : after.isClosing = conn.isClosing)
    (hLog : after.log = conn.log ++ entries) (hMinor : ∀ entry ∈ entries, entry.IsMinor)
    (hPhase : phase ≠ .head → phase ≠ .waiting → next ≠ .head ∧ next ≠ .waiting) :
    Ordered next after where
  oneAtATime := by
    rw [hLog]
    apply atEach_begins h.oneAtATime
    exact fun request handling hMem => hMinor _ hMem
  closes := by
    intro request hMem
    rw [hLog] at hMem
    rw [hClosing]
    rcases List.mem_append.1 hMem with hMem | hMem
    · exact h.closes request hMem
    · exact (hMinor _ hMem).elim
  guard := by
    rw [Latched, hClosing, hHandling]
    exact h.guard.imp id (fun hGuard =>
      ⟨hGuard.1, hGuard.2.extend hCurrent hHandling hLog hMinor hPhase⟩)

theorem Ordered.same (h : Ordered phase conn) (hCurrent : after.current = conn.current)
    (hHandling : after.handlingRequest = conn.handlingRequest)
    (hClosing : after.isClosing = conn.isClosing) (hLog : after.log = conn.log) :
    Ordered phase after :=
  h.extend hCurrent hHandling hClosing (hLog.trans (List.append_nil _).symm) (by simp)
    (fun hHead hWaiting => ⟨hHead, hWaiting⟩)

/-- A request whose parser is running has not been switched. -/
theorem Parsing.not_switching (h : Parsing phase conn) (hPositive : 0 < conn.current)
    (serial : Nat) (response : HttpResponse (Body File)) :
    .writeResponse conn.current serial .switching response ∉ conn.log := by
  intro hMem
  have hEvent : .switching ∈ history conn.current conn.log :=
    List.mem_filterMap.2 ⟨_, hMem, if_pos rfl⟩
  rcases h.1 with hStanding | hCut
  · cases hStanding with
    | unused hCurrent hExchange => omega
    | stage hCurrent hStage => exact hStage.course.not_switching hEvent
  · rw [hCut.history] at hEvent
    cases hEvent

variable [DataSource File]

theorem Quiet.minor (h : Quiet conn after) :
    ∃ entries, after.log = conn.log ++ entries ∧ ∀ entry ∈ entries, entry.IsMinor := by
  obtain ⟨entries, hLog, hEntries, -⟩ := h.log
  refine ⟨entries, hLog, fun entry hMem => ?_⟩
  have hQuiet := hEntries entry hMem
  cases entry <;> trivial

/-- A request begins. -/
theorem Ordered.onMessageBegin (h : Ordered .between conn)
    (hParsing : Sequential conn.log → Parsing .between conn)
    (hAwaited : ContinueAwaited conn.begun.log) : Ordered .head conn.newRequest := by
  have hQuiet := quiet_newRequest conn
  obtain ⟨entries, hLog, hMinor⟩ := hQuiet.minor
  have hFlag : conn.handlingRequest = true ∨ ∀ earlier, 0 < earlier → earlier ≤ conn.current →
      Answered earlier conn.log := by
    by_cases hHandling : conn.handlingRequest = true
    · exact Or.inl hHandling
    · right
      rcases h.guard with hLatched | ⟨-, hGuard⟩
      · exact absurd hLatched.2 hHandling
      · intro earlier hPositive hEarlier
        rcases Nat.lt_or_eq_of_le hEarlier with hEarlier | rfl
        · exact hGuard.earlier earlier hPositive hEarlier
        · rcases hGuard.handling (by simpa using hHandling) hPositive with
            hAnswered | hContinued | ⟨serial, response, hSwitching⟩
          · exact hAnswered
          · exact (AtEach.concat_iff.1 hAwaited).2 _ _ rfl hContinued
          · exact absurd hSwitching
              ((hParsing hGuard.sequential).not_switching hPositive serial response)
  have hBegun : OneAtATime conn.begun.log := by
    refine AtEach.concat_iff.2 ⟨h.oneAtATime, ?_⟩
    rintro request handling hEntry
    cases hEntry
    exact hFlag
  refine ⟨?_, ?_, ?_⟩
  · rw [hLog]
    exact atEach_begins hBegun (fun request handling hMem => hMinor _ hMem)
  · intro request hMem
    rw [hLog] at hMem
    rcases List.mem_append.1 hMem with hMem | hMem
    · rcases List.mem_append.1 hMem with hMem | hMem
      · exact hQuiet.isClosing (h.closes request hMem)
      · obtain ⟨-, hHandling⟩ : request = conn.current + 1 ∧ true = conn.handlingRequest := by
          simpa using hMem
        exact newRequest_isClosing hHandling.symm
    · exact (hMinor _ hMem).elim
  · by_cases hHandling : conn.handlingRequest = true
    · exact Or.inl ⟨newRequest_isClosing hHandling, hQuiet.handlingRequest⟩
    · obtain ⟨hOpen, hGuard⟩ := h.guard.resolve_left (fun hLatched => hHandling hLatched.2)
      have hAll := hFlag.resolve_left hHandling
      have hSame : conn.newRequest.isClosing = conn.isClosing := by
        rw [newRequest_eq, if_neg hHandling]
        rfl
      refine Or.inr ⟨hSame.trans hOpen, ?_⟩
      suffices hStart : Guarded .head conn.begun from
        hStart.extend hQuiet.current hQuiet.handlingRequest hLog hMinor
          (fun hHead _ => absurd rfl hHead)
      refine ⟨fun _ => Nat.succ_pos _, ?_, ?_, ?_, ?_⟩
      · intro request hPositive hEarlier
        exact (hAll request hPositive (Nat.le_of_lt_succ hEarlier)).append
      · refine AtEach.concat_iff.2 ⟨hGuard.sequential, ?_⟩
        rintro request handling hEntry
        cases hEntry
        rcases Nat.eq_zero_or_pos conn.current with hZero | hPositive
        · exact Or.inl hZero
        · obtain ⟨serial, response, hMem, -⟩ := hAll _ hPositive le_rfl
          exact Or.inr ⟨serial, response, hMem⟩
      · exact fun hDone => Bool.noConfusion hDone
      · intro request serial kind response hMem
        have hBefore : .writeResponse request serial kind response ∈ conn.log := by
          simpa [begun, Connection.observe] using hMem
        have hEarlier := (hGuard.unwritten _ _ _ _ hBefore).1
        exact ⟨Nat.le_succ_of_le hEarlier, fun hSame => absurd hSame (by
          change request ≠ conn.current + 1
          omega)⟩

omit [DataSource File] in
/-- The other callbacks neither begin a request nor write. -/
theorem Ordered.onEvent {event : ParserEvent} (h : Ordered phase conn)
    (static : Option (HttpResponse (Body File))) (hNext : phase.next event = some next)
    (hBegin : event ≠ .onMessageBegin) : Ordered next (conn.onEvent static event) := by
  have hPhase : phase ≠ .head → phase ≠ .waiting → next ≠ .head ∧ next ≠ .waiting := by
    cases phase <;> cases event <;> simp_all [ParserPhase.next]
    all_goals simp [← hNext]
  cases event with
  | onMessageBegin => exact absurd rfl hBegin
  | onHeadersComplete upgrade =>
      simp only [Connection.onEvent, Connection.onHeadersComplete]
      split
      case h_1 response hSome =>
          have hLog : conn.log ++ [.onHeadersComplete conn.current upgrade] ++
              [.answeredInHeaders conn.current response] =
              conn.log ++ [.onHeadersComplete conn.current upgrade,
                .answeredInHeaders conn.current response] :=
            List.append_assoc _ _ _
          exact h.extend rfl rfl rfl hLog (by simp [Observation.IsMinor]) hPhase
      case h_2 hNone =>
          exact h.extend rfl rfl rfl rfl (by simp [Observation.IsMinor]) hPhase
  | onMessageComplete =>
      simp only [Connection.onEvent, Connection.onMessageComplete]
      split_ifs
      · exact h.extend rfl rfl rfl (List.append_nil _).symm (by simp) hPhase
      · exact h.extend rfl rfl rfl (List.append_nil _).symm (by simp) hPhase
  | _ => exact h.extend rfl rfl rfl (List.append_nil _).symm (by simp) hPhase

theorem Ordered.feed (contract : HttpParserContract)
    (h : Ordered (contract.phase conn.parser) conn)
    (hParsing : Sequential conn.log → Parsing (contract.phase conn.parser) conn)
    (static : Option (HttpResponse (Body File))) (buffer : Bytes)
    (hAwaited : ContinueAwaited (conn.feed static buffer).log) :
    Ordered (contract.phase (conn.feed static buffer).parser) (conn.feed static buffer) ∧
      (Sequential (conn.feed static buffer).log →
        Parsing (contract.phase (conn.feed static buffer).parser) (conn.feed static buffer)) := by
  suffices hFed : ContinueAwaited (conn.feed static buffer).log →
      Ordered (contract.phase (conn.feed static buffer).parser) (conn.feed static buffer) ∧
      (Sequential (conn.feed static buffer).log →
        Parsing (contract.phase (conn.feed static buffer).parser) (conn.feed static buffer)) from
    hFed hAwaited
  apply feed_invariant contract (I := fun phase conn => ContinueAwaited conn.log →
    Ordered phase conn ∧ (Sequential conn.log → Parsing phase conn))
  · intro _
    have hMinor : ∀ entry ∈ [(.execute (buffer.take (HttpParser.execute conn.parser buffer).parsed) :
        Observation File)], entry.IsMinor := by simp [Observation.IsMinor]
    refine ⟨h.extend rfl rfl rfl rfl hMinor (fun hHead hWaiting => ⟨hHead, hWaiting⟩), ?_⟩
    intro hSequential
    have hParser := (hParsing hSequential.of_append).congr
      (HttpParser.execute conn.parser buffer).parser conn.head
    exact hParser.observe _ (fun request => rfl)
  · intro conn hRefused hAwaited
    obtain ⟨hOrdered, hParsing⟩ := hRefused hAwaited
    refine ⟨hOrdered.extend rfl rfl rfl (List.append_nil _).symm (by simp) (by simp), ?_⟩
    exact fun hSequential => (hParsing hSequential).dropped
  · intro phase event next conn hNext hBefore hAwaited
    obtain ⟨hOrdered, hParsing⟩ := hBefore (hAwaited.of_prefix (onEvent_log conn static event))
    constructor
    · by_cases hBegin : event = .onMessageBegin
      · subst hBegin
        have hPhase : phase = .between ∧ next = .head := by
          cases phase <;> simp_all [ParserPhase.next]
        obtain ⟨rfl, rfl⟩ := hPhase
        exact hOrdered.onMessageBegin hParsing
          (hAwaited.of_prefix (quiet_newRequest conn).log_grows)
      · exact hOrdered.onEvent static hNext hBegin
    · intro hSequential
      exact (hParsing (hSequential.of_prefix (onEvent_log conn static event))).onEvent static hNext
        hSequential

/-- What is kept between two steps. -/
structure Kept (phase : ParserPhase) (conn : Connection File) : Prop where
  oneAtATime : OneAtATime conn.log
  closes : ∀ request, .onMessageBegin request true ∈ conn.log → conn.isClosing = true
  guard : conn.isClosing = true ∧ (conn.decisions = [] ∨ conn.handlingRequest = true) ∨
    conn.isClosing = false ∧ Guarded phase conn

omit [DataSource File] in
theorem Ordered.kept (h : Ordered phase conn) : Kept phase conn where
  oneAtATime := h.oneAtATime
  closes := h.closes
  guard := h.guard.imp (fun hLatched => ⟨hLatched.1, Or.inr hLatched.2⟩) id

omit [DataSource File] in
/-- Steps that neither begin a request nor write. The connection may be closed. -/
theorem Kept.extend {entries : List (Observation File)} (h : Kept phase conn)
    (hSound : Sound phase conn) (hCurrent : after.current = conn.current)
    (hHandling : after.handlingRequest = conn.handlingRequest)
    (hClosing : conn.isClosing = true → after.isClosing = true)
    (hDecisions : after.decisions = [] ∨ conn.decisions ≠ [])
    (hLog : after.log = conn.log ++ entries) (hMinor : ∀ entry ∈ entries, entry.IsMinor) :
    Kept phase after where
  oneAtATime := by
    rw [hLog]
    apply atEach_begins h.oneAtATime
    exact fun request handling hMem => hMinor _ hMem
  closes := by
    intro request hMem
    rw [hLog] at hMem
    rcases List.mem_append.1 hMem with hMem | hMem
    · exact hClosing (h.closes request hMem)
    · exact (hMinor _ hMem).elim
  guard := by
    rw [hHandling]
    rcases h.guard with ⟨hClosed, hLatched⟩ | ⟨hOpen, hGuard⟩
    · refine Or.inl ⟨hClosing hClosed, ?_⟩
      rcases hDecisions with hNone | hSome
      · exact Or.inl hNone
      · exact Or.inr (hLatched.resolve_left hSome)
    · cases hAfter : after.isClosing with
      | false =>
          exact Or.inr ⟨rfl, hGuard.extend hCurrent hHandling hLog hMinor
            (fun hHead hWaiting => ⟨hHead, hWaiting⟩)⟩
      | true =>
          refine Or.inl ⟨rfl, ?_⟩
          rcases hDecisions with hNone | hSome
          · exact Or.inl hNone
          · obtain ⟨rfl, -⟩ := hSound.deciding.resolve_left hSome
            exact Or.inr hGuard.handles

omit [DataSource File] in
/-- The decisions that are under way stay what they are. -/
theorem Kept.keep {entries : List (Observation File)} (h : Kept phase conn)
    (hSound : Sound phase conn) (hCurrent : after.current = conn.current)
    (hHandling : after.handlingRequest = conn.handlingRequest)
    (hClosing : conn.isClosing = true → after.isClosing = true)
    (hDecisions : after.decisions = conn.decisions)
    (hLog : after.log = conn.log ++ entries) (hMinor : ∀ entry ∈ entries, entry.IsMinor) :
    Kept phase after := by
  refine h.extend hSound hCurrent hHandling hClosing ?_ hLog hMinor
  rw [hDecisions]
  exact Classical.em _

theorem Kept.quiet (h : Kept phase conn) (hSound : Sound phase conn) (hQuiet : Quiet conn after) :
    Kept phase after := by
  obtain ⟨entries, hLog, hMinor⟩ := hQuiet.minor
  apply h.keep hSound hQuiet.current hQuiet.handlingRequest hQuiet.isClosing ?_ hLog hMinor
  rw [decisions, hQuiet.mainTasks, hQuiet.backgroundTasks, decisions]

section Wrote

variable {request : Nat} {kind : ResponseKind} {response : HttpResponse (Body File)}
  {entries : List (Observation File)}

theorem Wrote.begins (h : Wrote conn after request kind response entries) (owner : Nat)
    (handling : Bool) : .onMessageBegin owner handling ∉
      .writeResponse request conn.serial kind response :: entries := by
  rcases h.entries with ⟨-, rfl⟩ | ⟨-, written, -, rfl⟩
  · simp
  · cases written.drained <;> simp [pieces]

theorem Wrote.log (h : Wrote conn after request kind response entries) :
    after.log = conn.log ++ .writeResponse request conn.serial kind response :: entries := by
  obtain ⟨writes, rfl⟩ := h.same
  rfl

/-- A response to the current request. -/
theorem Guarded.wrote (h : Guarded phase conn) (hOpen : conn.isClosing = false)
    (hWrote : Wrote conn after conn.current kind response entries)
    (hPhase : next ≠ .head ∧ next ≠ .waiting) : Guarded next after where
  used := fun hNext => (hNext.elim hPhase.1 hPhase.2).elim
  earlier := by
    intro request hPositive hEarlier
    rw [hWrote.log]
    rw [hWrote.same_fields.1] at hEarlier
    exact (h.earlier request hPositive hEarlier).append
  sequential := by
    rw [hWrote.log]
    exact atEach_begins h.sequential hWrote.begins
  handling := by
    intro _ _
    rw [hWrote.log, hWrote.same_fields.1]
    have hMem : .writeResponse conn.current conn.serial kind response ∈
        conn.log ++ .writeResponse conn.current conn.serial kind response :: entries := by simp
    have hPiece : HasPiece conn.serial
        (conn.log ++ .writeResponse conn.current conn.serial kind response :: entries) := by
      obtain ⟨-, written, -, rfl⟩ := hWrote.entries.resolve_left (by simp [hOpen])
      exact ⟨written.responseHeader, by simp [pieces]⟩
    cases kind with
    | interim => exact Or.inr (Or.inl ⟨_, _, hMem, hPiece⟩)
    | switching => exact Or.inr (Or.inr ⟨_, _, hMem⟩)
    | final => exact Or.inl ⟨_, _, hMem, hPiece⟩
  unwritten := by
    intro owner serial kind answer hMem
    refine ⟨?_, fun _ => hPhase⟩
    rw [hWrote.log] at hMem
    rw [hWrote.same_fields.1]
    rcases List.mem_append.1 hMem with hMem | hMem
    · exact (h.unwritten _ _ _ _ hMem).1
    · rcases hWrote.entries with ⟨-, rfl⟩ | ⟨-, written, -, rfl⟩
      · obtain ⟨rfl, -⟩ : owner = conn.current ∧ _ := by simpa using hMem
        exact le_rfl
      · have hOwner : owner = conn.current := by
          cases written.drained <;> simp_all [pieces]
        exact hOwner.le

/-- The two halves of what is kept that a response does not change. -/
theorem Wrote.oneAtATime (hWrote : Wrote conn after request kind response entries)
    (hOne : OneAtATime conn.log)
    (hCloses : ∀ request, .onMessageBegin request true ∈ conn.log → conn.isClosing = true) :
    OneAtATime after.log ∧
      ∀ request, .onMessageBegin request true ∈ after.log → after.isClosing = true := by
  rw [hWrote.log]
  refine ⟨atEach_begins hOne hWrote.begins, ?_⟩
  intro owner hMem
  rw [hWrote.same_fields.2.2.2.2.2.2.2.2]
  rcases List.mem_append.1 hMem with hMem | hMem
  · exact hCloses owner hMem
  · exact absurd hMem (hWrote.begins _ _)

theorem Wrote.handlingRequest (h : Wrote conn after request kind response entries)
    (hClosing : conn.isClosing = true) : after.handlingRequest = conn.handlingRequest := by
  obtain ⟨writes, rfl⟩ := h.same
  simp [hClosing]

theorem Ordered.wrote (h : Ordered phase conn)
    (hWrote : Wrote conn after conn.current kind response entries)
    (hPhase : conn.isClosing = false → next ≠ .head ∧ next ≠ .waiting) : Ordered next after := by
  obtain ⟨hOne, hCloses⟩ := hWrote.oneAtATime h.oneAtATime h.closes
  refine ⟨hOne, hCloses, ?_⟩
  have hSame : after.isClosing = conn.isClosing := hWrote.same_fields.2.2.2.2.2.2.2.2
  rcases h.guard with ⟨hClosing, hHandling⟩ | ⟨hOpen, hGuard⟩
  · exact Or.inl ⟨hSame.trans hClosing, (hWrote.handlingRequest hClosing).trans hHandling⟩
  · exact Or.inr ⟨hSame.trans hOpen, hGuard.wrote hOpen hWrote (hPhase hOpen)⟩

theorem Kept.wrote (h : Kept phase conn) (hWrote : Wrote conn after request kind response entries)
    (hPhase : conn.isClosing = false →
      request = conn.current ∧ phase ≠ .head ∧ phase ≠ .waiting) : Kept phase after := by
  obtain ⟨hOne, hCloses⟩ := hWrote.oneAtATime h.oneAtATime h.closes
  refine ⟨hOne, hCloses, ?_⟩
  obtain ⟨-, hMain, hBackground, -, -, -, -, -, hSame⟩ := hWrote.same_fields
  rcases h.guard with ⟨hClosing, hLatched⟩ | ⟨hOpen, hGuard⟩
  · refine Or.inl ⟨hSame.trans hClosing, ?_⟩
    rw [decisions, hMain, hBackground, hWrote.handlingRequest hClosing]
    exact hLatched
  · obtain ⟨rfl, hBehind⟩ := hPhase hOpen
    exact Or.inr ⟨hSame.trans hOpen, hGuard.wrote hOpen hWrote hBehind⟩

end Wrote

omit [DataSource File] in
/-- Reading is stopped, or nothing is changed. -/
theorem Ordered.stopIf (h : Ordered phase conn) (closing : Bool) :
    Ordered phase (conn.stopIf closing) :=
  h.extend rfl rfl rfl (List.append_nil _).symm (by simp) (fun hHead hWaiting => ⟨hHead, hWaiting⟩)

variable [Host] [Digests]

theorem Ordered.upgraded {now : Tm} {pData : Bytes} (h : Ordered phase conn)
    (hSound : Sound phase conn) (hPhase : conn.isClosing = false → phase ≠ .head)
    (hWaiting : phase ≠ .waiting) (hUpgraded : Upgraded conn now pData after) :
    Kept phase after := by
  cases hUpgraded with
  | gone hGone => exact h.kept
  | refused hRefused hQuiet hClosed =>
      have hObserved : Ordered phase (conn.observe (.accept conn.current false)) :=
        h.extend rfl rfl rfl rfl (by simp [Observation.IsMinor])
          (fun hHead hWaiting => ⟨hHead, hWaiting⟩)
      exact hObserved.kept.quiet (hSound.observe _ (by simp) (by simp)) hQuiet
  | @accepted parser answered handshake hOpen hAccepted hHandshake hAnswered =>
      obtain ⟨entries, hWrote⟩ := Connection.wrote hAnswered
      have hAccept : Ordered phase (conn.accept parser handshake) := by
        have hObserved : Ordered phase (conn.observe (.accept conn.current true)) :=
          h.extend rfl rfl rfl rfl (by simp [Observation.IsMinor])
            (fun hHead hWaiting => ⟨hHead, hWaiting⟩)
        exact hObserved.extend rfl rfl rfl rfl (by simp [Observation.IsMinor])
          (fun hHead hWaiting => ⟨hHead, hWaiting⟩)
      have hWritten : Ordered phase answered :=
        hAccept.wrote hWrote (fun hOpen => ⟨hPhase hOpen, hWaiting⟩)
      have hSwitched : Ordered phase (answered.switchProtocol handshake) :=
        hWritten.extend rfl rfl rfl (List.append_nil _).symm (by simp)
          (fun hHead hWaiting => ⟨hHead, hWaiting⟩)
      exact hSwitched.kept

/-- The parser has returned. -/
theorem Ordered.parsed (contract : HttpParserContract) {static : Option (HttpResponse (Body File))}
    {now : Tm} {buffer : Bytes}
    (h : Ordered (contract.phase (conn.feed static buffer).parser) (conn.feed static buffer))
    (hHead : (conn.feed static buffer).isClosing = false →
      (conn.feed static buffer).isUpgrade = true →
        contract.phase (conn.feed static buffer).parser ≠ .head)
    (hSound : Sound (contract.phase (conn.feed static buffer).parser) (conn.feed static buffer))
    (hParsed : Parsed conn static now buffer after) : Kept (contract.phase after.parser) after := by
  cases hParsed with
  | waiting hWaiting =>
      have hBuffer : Ordered (contract.phase (conn.feed static buffer).parser)
          { conn.feed static buffer with
            requestBuffer := (conn.feed static buffer).requestBuffer ++
              buffer.drop (HttpParser.execute conn.parser buffer).parsed } :=
        h.extend rfl rfl rfl (List.append_nil _).symm (by simp)
          (fun hHead hWaiting => ⟨hHead, hWaiting⟩)
      exact hBuffer.kept
  | upgrade hWaiting hUpgrade hAfter =>
      rw [hAfter.parser]
      refine h.upgraded hSound (fun hOpen => hHead hOpen hUpgrade) ?_ hAfter
      intro hPhase
      rw [(contract.waiting_iff _).2 hPhase] at hWaiting
      cases hWaiting
  | quiet hWaiting hUpgrade hQuiet hRest =>
      rw [hQuiet.parser]
      exact h.kept.quiet hSound hQuiet

omit [Host] [Digests] [DataSource File] in
/-- An upgrade is past its headers while the parser runs. -/
theorem Parsing.upgrade_not_head (h : Parsing phase conn) (hUpgrade : conn.isUpgrade = true) :
    phase ≠ .head := by
  rintro rfl
  rcases h.1 with hStanding | hCut
  · cases hStanding with
    | unused hCurrent hExchange => simp [exchange] at hExchange
    | stage hCurrent hStage =>
        rw [exchange, hUpgrade] at hStage
        cases hStage.upgrade_waiting
  · simpa using hCut.phase

/-- The parser is given bytes. -/
theorem Ordered.feeds (contract : HttpParserContract) {static : Option (HttpResponse (Body File))}
    {now : Tm} {buffer : Bytes} (h : Ordered (contract.phase conn.parser) conn)
    (hParsing : Sequential conn.log → Parsing (contract.phase conn.parser) conn)
    (hFeeding : Feeding (contract.phase conn.parser) conn)
    (hParsed : Parsed conn static now buffer after) (hAwaited : ContinueAwaited after.log) :
    Kept (contract.phase after.parser) after := by
  obtain ⟨hOrdered, hStill⟩ :=
    h.feed contract hParsing static buffer (hAwaited.of_prefix hParsed.log_after_feed)
  refine hOrdered.parsed contract ?_ (hFeeding.feed contract static buffer).1 hParsed
  intro hOpen hUpgrade
  rcases hOrdered.guard with ⟨hClosing, -⟩ | ⟨-, hGuard⟩
  · rw [hClosing] at hOpen
    cases hOpen
  · exact (hStill hGuard.sequential).upgrade_not_head hUpgrade

/-- The rest of a refused request is dropped. -/
theorem Ordered.dropped (contract : HttpParserContract) {static : Option (HttpResponse (Body File))}
    {now : Tm} {buffer : Bytes} (h : Ordered (contract.phase conn.parser) conn)
    (hPhase : contract.phase conn.parser = .refused)
    (hFeeding : Feeding (contract.phase conn.parser) conn)
    (hParsed : Parsed conn static now buffer after) : Kept (contract.phase after.parser) after := by
  have hFedPhase : contract.phase (conn.feed static buffer).parser = .refused ∨
      contract.phase (conn.feed static buffer).parser = .between := by
    rw [parser_feed]
    rcases (contract.silent (Or.inr hPhase) buffer).2 with hSame | ⟨-, hBetween⟩
    · exact Or.inl (hSame.trans hPhase)
    · exact Or.inr hBetween
  have hBehind : contract.phase (conn.feed static buffer).parser ≠ .head ∧
      contract.phase (conn.feed static buffer).parser ≠ .waiting := by
    rcases hFedPhase with hRefused | hBetween
    · simp [hRefused]
    · simp [hBetween]
  have hFed : Ordered (contract.phase (conn.feed static buffer).parser)
      (conn.feed static buffer) := by
    generalize contract.phase (conn.feed static buffer).parser = other at hBehind
    rw [feed_silent contract (Or.inr hPhase) buffer]
    exact h.extend rfl rfl rfl rfl (by simp [Observation.IsMinor]) (fun _ _ => hBehind)
  exact hFed.parsed contract (fun _ _ => hBehind.1) (hFeeding.feed contract static buffer).1 hParsed

omit [Host] [Digests] in
theorem Ordered.headersCompleted {middle : Connection File} {now : Tm}
    {response : Option (HttpResponse (Body File))} (h : Ordered phase conn)
    (hMiddle : conn.headersCompleted now conn.current response = some middle)
    (hPhase : next ≠ .head ∧ next ≠ .waiting) : Ordered next { middle with requestBuffer := [] } := by
  have hWritten : Ordered next middle := by
    cases response with
    | some answer =>
        obtain ⟨closing, answered, hFinishes, rfl⟩ := headersCompleted_some hMiddle
        obtain ⟨entries, hWrote⟩ := Connection.wrote hFinishes
        have hAnswered : Ordered next answered :=
          (h.stopIf closing).wrote hWrote (fun _ => hPhase)
        exact hAnswered.same rfl rfl rfl rfl
    | none =>
        obtain ⟨continued, rfl | hContinued, rfl⟩ := headersCompleted_none hMiddle
        · exact h.extend rfl rfl rfl (List.append_nil _).symm (by simp) (fun _ _ => hPhase)
        · obtain ⟨entries, hWrote⟩ := Connection.wrote hContinued
          have hContinued : Ordered next continued := h.wrote hWrote (fun _ => hPhase)
          exact hContinued.same rfl rfl rfl rfl
  exact hWritten.same rfl rfl rfl rfl

omit [DataSource File] [Host] [Digests] in
theorem Kept.guarded (h : Kept phase conn) (hOpen : conn.isClosing = false) :
    Guarded phase conn := by
  rcases h.guard with ⟨hClosing, -⟩ | ⟨-, hGuard⟩
  · rw [hOpen] at hClosing
    cases hClosing
  · exact hGuard

omit [DataSource File] [Host] [Digests] in
/-- A decision of the parser is taken off the queue. -/
theorem Kept.ordered {request : Nat} {response : Option (HttpResponse (Body File))}
    {rest : List (BackgroundTask File)} (h : Kept phase conn)
    (hQueue : conn.backgroundQueue = .onHeadersCompleteComplete request response :: rest) :
    Ordered phase { conn with backgroundQueue := rest } := by
  refine ⟨h.oneAtATime, h.closes, ?_⟩
  rcases h.guard with ⟨hClosing, hLatched⟩ | ⟨hOpen, hGuard⟩
  · have hSome : conn.decisions ≠ [] := by
      simp [decisions_eq, hQueue, BackgroundTask.decision]
    exact Or.inl ⟨hClosing, hLatched.resolve_left hSome⟩
  · exact Or.inr ⟨hOpen, hGuard.extend rfl rfl (List.append_nil _).symm (by simp)
      (fun hHead hWaiting => ⟨hHead, hWaiting⟩)⟩

omit [Host] [Digests] in
/-- A response that comes back is one to the current request. -/
theorem Kept.finishes {request : Nat} {task : BackgroundTask File}
    {rest : List (BackgroundTask File)} {response : HttpResponse (Body File)} {closing : Bool}
    {parser : HttpParser.Parser} (h : Kept phase conn) (hSound : Sound phase conn)
    (hQueue : conn.backgroundQueue = task :: rest) (hTask : task.decision = none)
    (hFinishes : Finishes { conn with backgroundQueue := rest, parser } request response closing
      after)
    (hOwner : Guarded phase conn → request = conn.current ∧ (phase = .body ∨ phase = .between ∨
      phase ≠ .head ∧ phase ≠ .waiting)) : Kept phase after := by
  obtain ⟨entries, hWrote⟩ := Connection.wrote hFinishes
  have hDecisions : (stopIf { conn with backgroundQueue := rest, parser } closing).decisions =
      conn.decisions := decisions_popBackground hTask hQueue
  have hStopped : Kept phase (stopIf { conn with backgroundQueue := rest, parser } closing) :=
    h.keep hSound rfl rfl id hDecisions (List.append_nil _).symm (List.forall_mem_nil _)
  refine hStopped.wrote hWrote (fun hOpen => ?_)
  obtain ⟨hCurrent, hPhase⟩ := hOwner (h.guarded hOpen)
  refine ⟨hCurrent, ?_⟩
  rcases hPhase with rfl | rfl | hPhase
  · simp
  · simp
  · exact hPhase

/-- One step. -/
theorem Kept.step (contract : HttpParserContract) (h : Kept (contract.phase conn.parser) conn)
    (hStaged : Sequential conn.log → Staged (contract.phase conn.parser) conn)
    (hSound : Sound (contract.phase conn.parser) conn) (hStep : Step conn after)
    (hAwaited : ContinueAwaited after.log) : Kept (contract.phase after.parser) after := by
  cases hStep with
  | quiet hQuiet =>
      rw [hQuiet.parser]
      exact h.quiet hSound hQuiet
  | read static now data hReading hIgnore hProtocol hParsed =>
      have hHttp : ¬ conn.UsesWebSocket := hSound.http hProtocol
      have hFeeding : Feeding (contract.phase conn.parser) (conn.observe (.read data)) :=
        Feeding.observe ⟨hSound, hHttp⟩ _ (by simp) (by simp)
      have hOpen := hSound.reading hReading
      have hGuard := h.guarded hOpen
      have hOrdered : Ordered (contract.phase conn.parser) conn :=
        ⟨h.oneAtATime, h.closes, Or.inr ⟨hOpen, hGuard⟩⟩
      have hRead : Ordered (contract.phase conn.parser) (conn.observe (.read data)) :=
        hOrdered.extend rfl rfl rfl rfl (by simp [Observation.IsMinor])
          (fun hHead hWaiting => ⟨hHead, hWaiting⟩)
      refine hRead.feeds contract (fun _ => ?_) hFeeding hParsed hAwaited
      exact (hStaged hGuard.sequential).reads hSound hReading hIgnore hProtocol data
  | @onHeadersCompleteComplete middle _ request response rest static now hQueue hMiddle hParsed =>
      obtain ⟨hWaiting, rfl, hPopped⟩ := hSound.front hQueue
      have hOrdered := h.ordered hQueue
      have hFeeding := (hPopped (contract.phase middle.parser)).headersCompleted hMiddle
      have hParser := parser_headersCompleted hMiddle
      cases response with
      | none =>
          have hPhase : contract.phase middle.parser = .body := by
            rw [hParser]
            exact contract.proceed _ hWaiting
          have hBehind : contract.phase middle.parser ≠ .head ∧
              contract.phase middle.parser ≠ .waiting := by simp [hPhase]
          have hStart := hOrdered.headersCompleted hMiddle hBehind
          have hGrows := headersCompleted_log hMiddle
          refine hStart.feeds contract (fun hSequential => ?_) hFeeding hParsed hAwaited
          have hBefore := hStaged (hSequential.of_prefix hGrows)
          rw [hPhase]
          exact (hBefore.proceeds contract hWaiting hQueue hMiddle).2
      | some answer =>
          have hPhase : contract.phase middle.parser = .refused := by
            rw [hParser]
            exact contract.refuse _ hWaiting
          have hBehind : contract.phase middle.parser ≠ .head ∧
              contract.phase middle.parser ≠ .waiting := by simp [hPhase]
          have hStart := hOrdered.headersCompleted hMiddle hBehind
          refine hStart.dropped contract ?_ hFeeding hParsed
          exact hPhase
  | @onBodyError _ request response rest hQueue hAfter =>
      have hFinishes := onBodyError_finishes hAfter
      rw [hFinishes.parser, contract.pause]
      refine h.finishes hSound hQueue rfl hFinishes (fun hGuard => ?_)
      rcases (hStaged hGuard.sequential).background hQueue rfl with
        ⟨-, hStage⟩ | ⟨hAbandoned, time, hTask⟩
      · exact ⟨(hStage.onBodyError 0).1, hStage.onBodyError_phase.imp id Or.inl⟩
      · cases hTask
        exact ⟨rfl, Or.inr (Or.inr hAbandoned.phase)⟩
  | @onMessageCompleteComplete _ request response rest hQueue hAfter =>
      rcases onMessageCompleteComplete_cases hAfter with ⟨rfl, -⟩ | ⟨-, answer, -, hFinishes⟩
      · have hDecisions : ({ conn with backgroundQueue := rest } : Connection File).decisions =
            conn.decisions := decisions_popBackground rfl hQueue
        exact h.keep hSound rfl rfl id hDecisions (List.append_nil _).symm (List.forall_mem_nil _)
      · rw [hFinishes.parser]
        refine h.finishes hSound hQueue rfl hFinishes (fun hGuard => ?_)
        rcases (hStaged hGuard.sequential).background hQueue rfl with
          ⟨-, hStage⟩ | ⟨-, time, hTask⟩
        · exact ⟨hStage.onMessageCompleteComplete.1,
            hStage.onMessageCompleteComplete_phase.imp id Or.inl⟩
        · cases hTask
  | decided hQueue response =>
      refine h.extend hSound rfl rfl id (Or.inr ?_) rfl ?_
      · simp [decisions_eq, hQueue, MainTask.decision]
      · cases response <;> simp [Observation.IsMinor]
  | undecided hQueue =>
      refine h.extend hSound rfl rfl id (Or.inr ?_) rfl (by simp [Observation.IsMinor])
      simp [decisions_eq, hQueue, MainTask.decision]
  | @bodySkipped _ data rest hQueue hScheduled =>
      exact h.keep hSound rfl rfl id (decisions_popMain rfl hQueue) (List.append_nil _).symm
        (List.forall_mem_nil _)
  | @bodyTaken request data rest hQueue hScheduled =>
      have hDecisions : ({ conn with mainQueue := rest }.observe
          (.onBodyData request false)).decisions = conn.decisions := decisions_popMain rfl hQueue
      exact h.keep hSound rfl rfl id hDecisions rfl (by simp [Observation.IsMinor])
  | @bodyFailed request data rest hQueue hScheduled now =>
      have hDecisions : ({ conn with mainQueue := rest, responseScheduled := true }.observe
          (.onBodyData request true)).decisions = conn.decisions := decisions_popMain rfl hQueue
      exact h.keep hSound rfl rfl id ((decisions_push rfl).trans hDecisions) rfl
        (by simp [Observation.IsMinor])
  | @callSkipped request rest hQueue hScheduled =>
      have hDecisions : ({ conn with mainQueue := rest, responseScheduled := true } :
          Connection File).decisions = conn.decisions := decisions_popMain rfl hQueue
      exact h.keep hSound rfl rfl id ((decisions_push rfl).trans hDecisions)
        (List.append_nil _).symm (List.forall_mem_nil _)
  | @called request rest hQueue hScheduled response =>
      have hDecisions : ({ conn with mainQueue := rest, responseScheduled := true }.observe
          (.call request)).decisions = conn.decisions := decisions_popMain rfl hQueue
      exact h.keep hSound rfl rfl id ((decisions_push rfl).trans hDecisions) rfl
        (by simp [Observation.IsMinor])
  | @promised request rest hQueue hScheduled =>
      have hDecisions : ({ conn with
          mainQueue := rest
          promises := conn.promises ++ [request] }.observe (.call request)).decisions =
          conn.decisions := decisions_popMain rfl hQueue
      exact h.keep hSound rfl rfl id hDecisions rfl (by simp [Observation.IsMinor])
  | settled hPromise response =>
      exact h.keep hSound rfl rfl id (decisions_push rfl) (List.append_nil _).symm
        (List.forall_mem_nil _)
  | rejected hPromise =>
      exact h.keep hSound rfl rfl id rfl (List.append_nil _).symm (List.forall_mem_nil _)

omit [DataSource File] [Host] [Digests] in
theorem Initial.kept (contract : HttpParserContract) (h : Initial conn) :
    Kept (contract.phase conn.parser) conn := by
  obtain ⟨incompleteContentHeader, header, rfl⟩ := h
  refine ⟨AtEach.nil, by simp [fresh], Or.inr ⟨rfl, ?_⟩⟩
  exact {
    used := by simp [fresh, contract.init]
    earlier := by simp [fresh]
    sequential := AtEach.nil
    handling := by simp [fresh]
    unwritten := by simp [fresh] }

/-- A run in which nobody goes on with a request after `100 Continue` handles one
request at a time. -/
theorem requests_one_at_a_time (contract : HttpParserContract) {start finish : Connection File}
    {actions : List (ConnectionAction File)} {outputs : List Unit}
    (hInitial : Initial start) (run : system.Run start actions finish outputs)
    (hAwaited : ContinueAwaited finish.log) :
    OneAtATime finish.log ∧
      ∀ request, .onMessageBegin request true ∈ finish.log → finish.isClosing = true := by
  have hRun := run_invariant contract (I := fun conn =>
    (Sequential conn.log → Staged (contract.phase conn.parser) conn) ∧
    (ContinueAwaited conn.log → Kept (contract.phase conn.parser) conn)) run hInitial
    ⟨fun _ => hInitial.staged contract, fun _ => hInitial.kept contract⟩ ?_
  · obtain ⟨-, -, hKept⟩ := hRun
    exact ⟨(hKept hAwaited).oneAtATime, (hKept hAwaited).closes⟩
  · rintro conn after hSound hStep ⟨hStaged, hKept⟩
    refine ⟨fun hSequential => ?_, fun hAwaited => ?_⟩
    · have hBefore := hStaged (hSequential.of_prefix hStep.log_grows)
      exact hBefore.step contract hSound hStep hSequential
    · have hBefore := hKept (hAwaited.of_prefix hStep.log_grows)
      exact hBefore.step contract hStaged hSound hStep hAwaited

omit [HttpParser] [Zlib] [DataSource File] [Host] [Digests] in
/-- The second request begins when the first has been answered. -/
theorem requests_one_at_a_time_answered :
    let head := ascii "GET / HTTP/1.1\r\n\r\n"
    let _ : HttpParser := httpParser
    let _ : Zlib := HttpResponse.SampleStream.zlib
    let _ : Host := littleEndianHost
    let _ : Digests := sampleDigests
    ∃ finish : Connection InMemoryDataSource,
      system.Run (fresh WSHixie76Parser.textInfo WSHixie76Parser.textInfo)
        [.read head none .epoch, .runMain (.returned none) [] .epoch,
          .runMain (.returned none) [] .epoch, .runBackground none .epoch [],
          .runMain (.returned (some (.response 200 [] none))) [] .epoch,
          .runBackground none .epoch [], .read head none .epoch] finish [] ∧
      .onMessageBegin 2 false ∈ finish.log ∧ OneAtATime finish.log ∧
      ∀ request, .onMessageBegin request true ∈ finish.log → finish.isClosing = true := by
  intro head parser zlib host digests
  let fact : Observation InMemoryDataSource → Option (Nat × Bool) := fun entry => match entry with
    | .onMessageBegin request handling => some (request, handling)
    | .writeResponse request _ .interim _ => some (request, true)
    | _ => none
  obtain ⟨finish, hRun, hFacts⟩ : ∃ finish,
      [ConnectionAction.read head none .epoch, .runMain (.returned none) [] .epoch,
        .runMain (.returned none) [] .epoch, .runBackground none .epoch [],
        .runMain (.returned (some (.response 200 [] none))) [] .epoch,
        .runBackground none .epoch [], .read head none .epoch].foldlM next
          (fresh WSHixie76Parser.textInfo WSHixie76Parser.textInfo) = some finish ∧
      finish.log.filterMap fact = [(1, false), (2, false)] :=
    Option.map_eq_some_iff.1 (by decide +kernel)
  have hNone : ∀ request serial response,
      .writeResponse request serial .interim response ∉ finish.log := by
    intro request serial response hMem
    have hFact : (request, true) ∈ finish.log.filterMap fact := List.mem_filterMap.2 ⟨_, hMem, rfl⟩
    simp [hFacts] at hFact
  have hBegun : .onMessageBegin 2 false ∈ finish.log := by
    have hPair : (2, false) ∈ finish.log.filterMap fact := by simp [hFacts]
    obtain ⟨entry, hEntry, hFact⟩ := List.mem_filterMap.1 hPair
    cases entry with
    | onMessageBegin request handling =>
        cases hFact
        exact hEntry
    | writeResponse request serial kind response => cases kind <;> cases hFact
    | _ => cases hFact
  have hAwaited : ContinueAwaited finish.log := by
    rintro before entry ⟨after, hLog⟩ request handling rfl ⟨serial, response, hMem, -⟩
    refine absurd ?_ (hNone request serial response)
    rw [← hLog]
    simp [hMem]
  exact ⟨finish, run_of_foldlM hRun, hBegun, requests_one_at_a_time httpParserContract
    ⟨_, _, rfl⟩ (run_of_foldlM hRun) hAwaited⟩

omit [HttpParser] [Zlib] [DataSource File] [Host] [Digests] in
/-- `100 Continue` clears the flag, and the request that comes with the body is
let through. -/
theorem request_begins_after_continue :
    let head := ascii "POST / HTTP/1.1\r\nExpect: 100-continue\r\nContent-Length: 2\r\n\r\n"
    let rest := ascii "hiGET / HTTP/1.1\r\n\r\n"
    let _ : HttpParser := httpParser
    let _ : Zlib := HttpResponse.SampleStream.zlib
    let _ : Host := littleEndianHost
    let _ : Digests := sampleDigests
    ∃ finish : Connection InMemoryDataSource,
      system.Run (fresh WSHixie76Parser.textInfo WSHixie76Parser.textInfo)
        [.read head none .epoch, .runMain (.returned none) [] .epoch,
          .runMain (.returned none) [] .epoch, .runBackground none .epoch [],
          .read rest none .epoch] finish [] ∧
      .onMessageBegin 2 false ∈ finish.log ∧ ¬ Answered 1 finish.log ∧
      ¬ OneAtATime finish.log ∧ finish.isClosing = false := by
  intro head rest parser zlib host digests
  let fact : Observation InMemoryDataSource → Option (Nat × Bool) := fun entry => match entry with
    | .onMessageBegin request handling => some (request, handling)
    | .writeResponse request _ .final _ => some (request, true)
    | _ => none
  obtain ⟨finish, hRun, hFacts⟩ : ∃ finish,
      [ConnectionAction.read head none .epoch, .runMain (.returned none) [] .epoch,
        .runMain (.returned none) [] .epoch, .runBackground none .epoch [],
        .read rest none .epoch].foldlM next
          (fresh WSHixie76Parser.textInfo WSHixie76Parser.textInfo) = some finish ∧
      (finish.log.filterMap fact, finish.isClosing) = ([(1, false), (2, false)], false) :=
    Option.map_eq_some_iff.1 (by decide +kernel)
  rw [Prod.mk.injEq] at hFacts
  obtain ⟨hFacts, hOpen⟩ := hFacts
  have hUnanswered : ¬ Answered 1 finish.log := by
    rintro ⟨serial, response, hMem, -⟩
    have hFact : (1, true) ∈ finish.log.filterMap fact := List.mem_filterMap.2 ⟨_, hMem, rfl⟩
    simp [hFacts] at hFact
  have hBegun : .onMessageBegin 2 false ∈ finish.log := by
    have hPair : (2, false) ∈ finish.log.filterMap fact := by simp [hFacts]
    obtain ⟨entry, hEntry, hFact⟩ := List.mem_filterMap.1 hPair
    cases entry with
    | onMessageBegin request handling =>
        cases hFact
        exact hEntry
    | writeResponse request serial kind response => cases kind <;> cases hFact
    | _ => cases hFact
  refine ⟨finish, run_of_foldlM hRun, hBegun, hUnanswered, fun hOne => ?_, hOpen⟩
  obtain ⟨before, ⟨after, hLog⟩, hEarlier⟩ := AtEach.of_mem hOne hBegun
  have hAnswered := (hEarlier 1 false rfl).resolve_left (by simp) 1 one_pos le_rfl
  have hFinally : Answered 1 (before ++ [.onMessageBegin 2 false] ++ after) :=
    hAnswered.append.append
  rw [hLog] at hFinally
  exact hUnanswered hFinally

end Connection

end Httpuv
