import Httpuv.Parser.Executions

/-! What the caller of `http_parser` relies on, for `http_parser` itself. -/
namespace Httpuv

open Semantics

namespace RequestParser

/-- What holds of a parser between two calls. -/
structure Idle (parser : RequestParser) : Prop where
  sound : parser.Sound
  nread : parser.httpErrno = .ok → parser.nread ≤ HTTP_MAX_HEADER_SIZE

theorem init_idle : init.Idle := ⟨init_sound, fun _ => by decide⟩

section Execute

variable {parser : RequestParser} {data : Bytes}

/-- A failure can be seen in the error number. -/
theorem Context.Halted.idle {context : Context} {events : List ParserEvent} {scanner : Scanner}
    {exec : Execution} {p rest : Bytes} (hSound : scanner.Sound)
    (hHalted : context.Halted events scanner p exec rest) :
    exec.parser.Idle ∧ context.Ordered exec.events exec.parser := by
  cases hHalted with
  | @stopped read rest ch after more exec n consumed hScan hRead hControl hParser hCount hOrder hSame =>
      have hAfter := (Scanner.scan_sound hSound hScan).1
      have hLegal := @Scanner.effect_legal after ch hAfter
      refine ⟨⟨?_, fun _ => ?_⟩, hOrder⟩
      · rw [hParser]
        exact ⟨hLegal.sound.contentLength, hLegal.sound.atState⟩
      · rw [hParser]
        exact hCount.limit
  | @error read rest ch after more exec pending hScan hRead hControl hErrno hExec hOrder hAgree =>
      have hLegal := @Scanner.effect_legal after ch (Scanner.scan_sound hSound hScan).1
      refine ⟨⟨hExec, fun hOk => ?_⟩, hOrder⟩
      rw [hErrno] at hOk
      exact absurd hOk (hLegal.error hControl)
  | overflow hScan hRead hErrno hExec hOrder hPast hAgree =>
      exact ⟨⟨hExec, fun hOk => by rw [hErrno] at hOk; cases hOk⟩, hOrder⟩
  | control hScan hRead hState hControl hErrno hExec hOrder hAgree =>
      exact ⟨⟨hExec, fun hOk => by rw [hErrno] at hOk; cases hOk⟩, hOrder⟩

theorem Context.Finished.idle {context : Context} {events : List ParserEvent} {scanner : Scanner}
    {exec : Execution} {p rest : Bytes} (hSound : scanner.Sound)
    (hFinished : context.Finished events scanner p exec rest) :
    exec.parser.Idle ∧ context.Ordered exec.events exec.parser := by
  cases hFinished with
  | ended hScan hRead hErrno hParser hCount hOrder hSame =>
      have hAfter := (Scanner.scan_sound hSound hScan).1
      refine ⟨⟨?_, fun _ => ?_⟩, Or.inl hOrder⟩
      · rw [hParser]
        exact ⟨hAfter.parser.contentLength, hAfter.parser.atState⟩
      · rw [hParser]
        exact hCount.limit
  | halted hHalted => exact hHalted.idle hSound

/-- The scanner that starts where a parser is. -/
def scanner (parser : RequestParser) : Scanner where
  parser := parser
  pending := parser.state.open.map (fun callback => (callback, []))

theorem scanner_sound (hSound : parser.Sound) : parser.scanner.Sound where
  parser := hSound
  slot := by
    unfold scanner
    cases parser.state.open <;> rfl

/-- Every execution keeps the order of the callbacks, for every parser that other
calls have left behind and for all data. -/
theorem execute_idle (hIdle : parser.Idle) (data : Bytes) :
    (execute parser data).parser.Idle ∧
      (parser.phase.after (execute parser data).events = some (execute parser data).parser.phase ∨
        parser.phase = .refused ∧ (execute parser data).events = [] ∧
          (execute parser data).parser.phase = .between) := by
  have hKept : ∀ {other : RequestParser}, other.Sound →
      (other.httpErrno = .ok → other.nread ≤ HTTP_MAX_HEADER_SIZE) →
      other.phase = parser.phase → other.Idle ∧
        (parser.phase.after [] = some other.phase ∨
          parser.phase = .refused ∧ ([] : List ParserEvent) = [] ∧ other.phase = .between) := by
    intro other hSound hNread hPhase
    refine ⟨⟨hSound, hNread⟩, Or.inl ?_⟩
    rw [hPhase]
    rfl
  have hSound := hIdle.sound
  by_cases hRunning : parser.isRunning = true
  · rw [execute, if_pos hRunning]
    exact hKept ⟨hSound.contentLength, hSound.atState⟩ Errno.noConfusion rfl
  by_cases hErrno : parser.httpErrno = .ok
  swap
  · rw [execute, if_neg hRunning]
    dsimp only
    rw [if_pos hErrno]
    exact hKept ⟨hSound.contentLength, hSound.atState⟩ hIdle.nread rfl
  by_cases hEmpty : data = []
  · rw [execute, if_neg hRunning]
    dsimp only
    rw [if_neg (not_not.2 hErrno), if_pos hEmpty]
    split_ifs
    · exact hKept ⟨hSound.contentLength, hSound.atState⟩ hIdle.nread rfl
    · exact hKept ⟨hSound.contentLength, hSound.atState⟩ Errno.noConfusion rfl
  · have hParser : parser = parser.scanner.parser.recount parser.nread false := by
      rw [Bool.not_eq_true] at hRunning
      rw [← hRunning]
      rfl
    have hFollowed : Followed False 0 [] [] parser.scanner parser.nread parser :=
      ⟨scanner_sound hSound, hErrno, hParser, ⟨hIdle.nread hErrno, False.elim⟩, False.elim⟩
    obtain ⟨exec, p, hFinished, hResult⟩ := hFollowed.execute hEmpty False.elim
    obtain ⟨hExec, hOrder⟩ := hFinished.idle (scanner_sound hSound)
    rw [hResult]
    exact ⟨⟨⟨hExec.sound.contentLength, hExec.sound.atState⟩, hExec.nread⟩, hOrder⟩

theorem state_of_waiting (hPhase : parser.phase = .waiting) :
    parser.state = .waitForOnHeadersCompleted := by
  unfold phase at hPhase
  cases hState : parser.state <;> rw [hState] at hPhase <;> first
    | rfl
    | (simp only at hPhase; split_ifs at hPhase)
    | cases hPhase

theorem waiting_iff : parser.waitingForHeadersCompleted = true ↔ parser.phase = .waiting := by
  constructor
  · intro hWaiting
    have hState : parser.state = .waitForOnHeadersCompleted := by
      simpa [waitingForHeadersCompleted] using hWaiting
    simp [phase, hState]
  · intro hPhase
    simp [waitingForHeadersCompleted, state_of_waiting hPhase]

theorem loop_waiting {exec : Execution} (hState : exec.parser.state = .waitForOnHeadersCompleted)
    (ch : UInt8) (rest : Bytes) : loop exec (ch :: rest) =
      ({ exec with parser := exec.parser.countHeaderSize 1 }, ch :: rest) := by
  have hCounted : (exec.parser.countHeaderSize 1).state = .waitForOnHeadersCompleted := by
    rw [countHeaderSize_eq]
    exact hState
  have hIterate : exec.iterate ch rest =
      .stop { exec with parser := exec.parser.countHeaderSize 1 } (ch :: rest) := by
    unfold Execution.iterate
    rw [hState]
    simp only [State.parsingHeader, if_true, byteSwitch, hCounted]
    split_ifs
    · rfl
    · rfl
  rw [loop, hIterate]

/-- A parser that waits counts one byte of what it is given, and consumes none. -/
theorem execute_of_waiting (hState : parser.state = .waitForOnHeadersCompleted)
    (hRunning : parser.isRunning = false) (hErrno : parser.httpErrno = .ok) (hNonempty : data ≠ []) :
    parser.execute data = ⟨parser.countHeaderSize 1, 0, []⟩ := by
  cases data with
  | nil => exact absurd rfl hNonempty
  | cons ch rest =>
      have hLoop := @loop_waiting (entry { parser with isRunning := true } (ch :: rest)) hState ch rest
      have hIdle : { ({ parser with isRunning := true } : RequestParser).countHeaderSize 1 with
          isRunning := false } = parser.countHeaderSize 1 := by
        rw [countHeaderSize_eq, countHeaderSize_eq, ← hRunning]
      rw [execute, if_neg (by rw [hRunning]; decide)]
      dsimp only
      rw [if_neg (not_not.2 hErrno), if_neg (List.cons_ne_nil ch rest), hLoop]
      simp only [Nat.sub_self]
      exact congrArg (fun counted => ExecuteResult.mk counted 0 []) hIdle

/-- Nothing is consumed while a decision is awaited. -/
theorem parsed_of_waiting (hPhase : parser.phase = .waiting) (hNonempty : data ≠ []) :
    (execute parser data).parsed = 0 := by
  have hState := state_of_waiting hPhase
  by_cases hRunning : parser.isRunning = true
  · simp [execute, hRunning]
  · by_cases hErrno : parser.httpErrno = .ok
    · rw [execute_of_waiting hState (Bool.eq_false_iff.2 hRunning) hErrno hNonempty]
    · simp [execute, hRunning, hErrno]

theorem headersCompleted_idle (hIdle : parser.Idle) {status : Int} (hStatus : status ≠ -1) :
    (parser.headersCompleted status).Idle where
  sound := ⟨hIdle.sound.contentLength, hStatus⟩
  nread := hIdle.nread

theorem pause_idle (hIdle : parser.Idle) : parser.pause.Idle ∧ parser.pause.phase = parser.phase := by
  unfold pause
  split_ifs with hErrno
  · exact ⟨⟨⟨hIdle.sound.contentLength, hIdle.sound.atState⟩, Errno.noConfusion⟩, rfl⟩
  · exact ⟨hIdle, rfl⟩

end Execute

/-- A parser as its caller holds it. -/
abbrev Held := { parser : RequestParser // parser.Idle }

end RequestParser

/-- `http_parser`. For no data at all it returns zero or one, which its caller does
not tell apart. -/
@[reducible] def httpParser : HttpParser where
  Parser := RequestParser.Held
  init := ⟨RequestParser.init, RequestParser.init_idle⟩
  execute parser data :=
    { parser := ⟨(parser.1.execute data).parser, (RequestParser.execute_idle parser.2 data).1⟩
      parsed := min (parser.1.execute data).parsed data.length
      events := (parser.1.execute data).events }
  waitingForHeadersCompleted parser := parser.1.waitingForHeadersCompleted
  headersCompleted parser status :=
    ⟨parser.1.headersCompleted status, RequestParser.headersCompleted_idle parser.2 (by omega)⟩
  shouldKeepAlive parser := parser.1.shouldKeepAlive
  pause parser := ⟨parser.1.pause, (RequestParser.pause_idle parser.2).1⟩

/-- `http_parser` behaves as its caller relies on. -/
@[reducible] def httpParserContract : @HttpParserContract httpParser :=
  let _ : HttpParser := httpParser
  { phase := fun parser : RequestParser.Held => parser.1.phase
    init := rfl
    waiting_iff := fun _ => RequestParser.waiting_iff
    execute := fun (parser : RequestParser.Held) data => by
      rcases (RequestParser.execute_idle parser.2 data).2 with hAfter | hRefused
      · exact Or.inl (ParserPhase.follows_of_after hAfter)
      · exact Or.inr hRefused
    proceed := fun _ _ => rfl
    refuse := fun _ _ => rfl
    pause := fun (parser : RequestParser.Held) => (RequestParser.pause_idle parser.2).2
    idle := fun (parser : RequestParser.Held) data hPhase => by
      cases data with
      | nil => exact Nat.min_zero _
      | cons ch rest =>
          have hParsed := RequestParser.parsed_of_waiting hPhase (List.cons_ne_nil ch rest)
          change min (parser.1.execute (ch :: rest)).parsed _ = 0
          rw [hParsed]
          exact Nat.zero_min _ }

end Httpuv
