import Httpuv.Parser.Decisions
import Httpuv.Parser.RequestReader

/-! What a connection has been told of its requests depends on the bytes it has read
and on the decisions that have been made, and not on how the bytes came in. -/
namespace Httpuv

open Semantics

namespace RequestParser

/-- What an execution has done for its caller, told by the scanner. -/
inductive Executed (past events : List ParserEvent) (scanner : Scanner) (data : Bytes)
    (result : ExecuteResult RequestParser) : Prop
  | passed {after : Scanner} {more : List ParserEvent} {slack n : Nat}
      (hRead : Scanner.read (scanner, 0) data = some ((after, 0), more))
      (hParsed : result.parsed = data.length)
      (hFollowed : Followed True slack (past ++ result.events) (events ++ more) after n
        result.parser)
  | stopped {read rest : Bytes} {ch : UInt8} {after : Scanner} {more : List ParserEvent}
      {slack n : Nat}
      (hData : data = read ++ ch :: rest)
      (hRead : Scanner.read (scanner, 0) read = some ((after, 0), more))
      (hControl : (after.effect ch).control = .stop false)
      (hParsed : result.parsed = read.length)
      (hFollowed : Followed True slack (past ++ result.events) (events ++ (more ++ after.told ch))
        (after.stopped ch) n result.parser)
  | left (hWaiting : result.parser.waitingForHeadersCompleted = false)
      (hParsed : result.parsed < data.length)
  | failed (hErrno : result.parser.httpErrno ≠ .ok)

section Execute

variable {slack n : Nat} {past events : List ParserEvent} {scanner : Scanner}
  {parser : RequestParser} {data : Bytes}

/-- Nothing is under way where an execution stops. -/
theorem Scanner.nothing_open {ch : UInt8} {consumed : Bool} (hSound : scanner.Sound)
    (hControl : (scanner.effect ch).control = .stop consumed) :
    (scanner.pending.reportAll (scanner.effect ch).calls).1 = none ∧
      (scanner.effect ch).parser.state.open = none := by
  have hLegal := @Scanner.effect_legal scanner ch hSound
  refine ⟨?_, (hLegal.stop consumed hControl).1⟩
  obtain ⟨place, hPath, -, -, hStop⟩ := hLegal.macros (Or.inl hSound.slot)
  obtain ⟨-, hSlot⟩ := @reportAll_after scanner.pending _ _ _ rfl hPath
  rwa [hStop consumed hControl, eq_comm, Option.map_eq_none_iff] at hSlot

theorem Scanner.stopped_sound {ch : UInt8} {consumed : Bool} (hSound : scanner.Sound)
    (hControl : (scanner.effect ch).control = .stop consumed) : (scanner.stopped ch).Sound where
  parser := (@Scanner.effect_legal scanner ch hSound).sound
  slot := (scanner.nothing_open hSound hControl).2.symm

theorem Scanner.follow_of_stop {ch : UInt8} {consumed : Bool} (hSound : scanner.Sound)
    (hControl : (scanner.effect ch).control = .stop consumed) :
    scanner.follow ch = scanner.stopped ch := by
  rw [follow, (scanner.nothing_open hSound hControl).1]
  rfl

theorem Followed.executed (hFollowed : Followed True slack past events scanner n parser)
    (hNonempty : data ≠ []) (hFits : data.length + HTTP_MAX_HEADER_SIZE < 2 ^ 32) :
    Executed past events scanner data (parser.execute data) := by
  obtain ⟨exec, p, hFinished, hResult⟩ := hFollowed.execute hNonempty (fun _ => hFits)
  rw [hResult]
  cases hFinished with
  | @ended read after more exec n hScan hRead hErrno hParser hCount hOrder hSame =>
      obtain rfl := hRead trivial
      refine .passed (Scanner.read_of_scan hScan 0) rfl ⟨(Scanner.scan_sound hFollowed.sound hScan).1,
        hErrno, ?_, hCount, fun hFits => ?_⟩
      · rw [hParser]
        rfl
      · rw [List.append_assoc]
        exact hSame hFits
  | halted hHalted =>
      cases hHalted with
      | @stopped read rest ch after more exec n consumed hScan hRead hControl hParser hCount hOrder
          hSame =>
          obtain rfl := hRead trivial
          have hAfter := (Scanner.scan_sound hFollowed.sound hScan).1
          have hScanned := Scanner.read_of_scan hScan 0
          by_cases hErrno : (after.effect ch).parser.httpErrno = .ok
          swap
          · refine .failed ?_
            rw [hParser]
            exact hErrno
          have hFollows : Followed True slack (past ++ exec.events) (events ++ (more ++ after.told ch))
              (after.stopped ch) n { exec.parser with isRunning := false } := by
            refine ⟨Scanner.stopped_sound hAfter hControl, hErrno, ?_, hCount, fun hFits => ?_⟩
            · rw [hParser]
              rfl
            · refine (hSame hFits).trans ?_
              simp [Scanner.stopped, Scanner.told, Pending.events]
          cases consumed with
          | false =>
              refine .stopped rfl hScanned hControl ?_ hFollows
              simp
          | true =>
              by_cases hRest : rest = []
              · subst hRest
                refine .passed ?_ rfl hFollows
                rw [Scanner.read_append hScanned, Scanner.read_singleton,
                  Scanner.consume_of_lead (Scanner.lead_of_stop hControl),
                  Scanner.follow_of_stop hAfter hControl]
                rfl
              · refine .left ?_ ?_
                · rw [Bool.eq_false_iff, ne_eq, waiting_iff, hParser]
                  have hBetween := ((@Scanner.effect_legal after ch hAfter).stop true hControl).2 rfl
                  change ¬(after.effect ch).parser.phase = .waiting
                  rw [hBetween]
                  exact ParserPhase.noConfusion
                · have hSome := List.length_pos_iff.2 hRest
                  simp only [if_true, List.length_append, List.length_cons]
                  omega
      | @error read rest ch after more exec pending hScan hRead hControl hErrno hSound hOrder hAgree =>
          refine .failed ?_
          have hLegal := @Scanner.effect_legal after ch (Scanner.scan_sound hFollowed.sound hScan).1
          change exec.parser.httpErrno ≠ .ok
          rw [hErrno]
          exact hLegal.error hControl
      | overflow hScan hRead hErrno hSound hOrder hPast hAgree =>
          refine .failed ?_
          change exec.parser.httpErrno ≠ .ok
          rw [hErrno]
          exact Errno.noConfusion
      | control hScan hRead hState hControl hErrno hSound hOrder hAgree =>
          refine .failed ?_
          change exec.parser.httpErrno ≠ .ok
          rw [hErrno]
          exact Errno.noConfusion

/-- A parser that has failed stays so. -/
theorem execute_failed (hErrno : parser.httpErrno ≠ .ok) (data : Bytes) :
    (parser.execute data).parser.httpErrno ≠ .ok := by
  by_cases hRunning : parser.isRunning = true
  · rw [execute, if_pos hRunning]
    exact Errno.noConfusion
  · rw [execute, if_neg hRunning]
    dsimp only
    rwa [if_pos hErrno]

/-- The scanner of a parser that waits stays where it is. -/
theorem Followed.wait (hFollowed : Followed True slack past events scanner n parser)
    (hState : scanner.parser.state = .waitForOnHeadersCompleted) (hNonempty : data ≠ []) :
    (parser.execute data).parsed = 0 ∧ (parser.execute data).events = [] ∧
      ((parser.execute data).parser.httpErrno ≠ .ok ∨
        ∃ m, Followed True (slack + 1) past events scanner m (parser.execute data).parser) := by
  have hParser := hFollowed.parser
  have hErrno : parser.httpErrno = .ok := by
    rw [hParser]
    exact hFollowed.errno
  rw [execute_of_waiting (by rw [hParser]; exact hState) (by rw [hParser]; rfl) hErrno hNonempty]
  refine ⟨rfl, rfl, ?_⟩
  by_cases hOverflow : (parser.countHeaderSize 1).httpErrno = .headerOverflow
  · left
    dsimp only
    rw [hOverflow]
    exact Errno.noConfusion
  · right
    obtain ⟨hLimit, hCounted⟩ := count_of_not_overflow hErrno hOverflow
    refine ⟨(n + 1) % 2 ^ 32, hFollowed.sound, hFollowed.errno, ?_, ?_, hFollowed.same⟩
    · rw [hCounted, hParser]
      rfl
    · rw [hParser] at hLimit
      exact hFollowed.count.wait hLimit

/-- The decision to go on. -/
theorem Followed.resumed {ch : UInt8}
    (hFollowed : Followed True slack past events (scanner.stopped ch) n parser) :
    Followed True slack past events (scanner.resumed ch) n (parser.headersCompleted 0) where
  sound := ⟨⟨hFollowed.sound.parser.contentLength, by simp [AtState, Scanner.resumed,
    headersCompleted]⟩, rfl⟩
  errno := hFollowed.errno
  parser := by
    rw [hFollowed.parser]
    rfl
  count := hFollowed.count
  same := hFollowed.same

/-- A request that goes on consumes the byte that it has waited at. -/
theorem Scanner.resumed_control (scanner : Scanner) (ch ch' : UInt8) :
    ((scanner.resumed ch).effect ch').control ≠ .stop false := by
  have hEffect : (scanner.resumed ch).effect ch' =
      ({ (scanner.resumed ch).parser.counted with state := .headersDone } :
        RequestParser).headersDone ch' := rfl
  rw [hEffect]
  unfold headersDone strictCheck
  dsimp only
  split_ifs <;> simp [go, fail]

end Execute

end RequestParser

namespace RequestReader

open RequestParser

/-- What the bytes, the decisions and the events so far say of a reader. One that
waits has stored everything from the line feed behind the headers on. -/
inductive Tracked (bytes : Bytes) (decisions : Nat) (events : List ParserEvent)
    (reader : RequestReader) : Prop
  | flowing {scanner : Scanner} {told : List ParserEvent} {slack n : Nat}
      (hRead : Scanner.read (init.scanner, decisions) bytes = some ((scanner, 0), told))
      (hBuffer : reader.requestBuffer = [])
      (hFollowed : Followed True slack events told scanner n reader.parser)
  | waiting {scanner : Scanner} {told : List ParserEvent} {read rest : Bytes} {ch : UInt8}
      {slack n : Nat}
      (hBytes : bytes = read ++ ch :: rest)
      (hRead : Scanner.read (init.scanner, decisions) read = some ((scanner, 0), told))
      (hControl : (scanner.effect ch).control = .stop false)
      (hState : (scanner.effect ch).parser.state = .waitForOnHeadersCompleted)
      (hBuffer : reader.requestBuffer = ch :: rest)
      (hFollowed : Followed True slack events (told ++ scanner.told ch) (scanner.stopped ch) n
        reader.parser)
  | failed (hErrno : reader.parser.httpErrno ≠ .ok)

variable {reader reader' : RequestReader} {buffer bytes : Bytes} {events emitted : List ParserEvent}
  {decisions : Nat}

theorem parseHttpData_eq (hParse : reader.parseHttpData buffer = some (reader', emitted)) :
    reader'.parser = (reader.parser.execute buffer).parser ∧
      emitted = (reader.parser.execute buffer).events ∧
      reader'.isUpgrade = (reader.isUpgrade || emitted.contains (.onHeadersComplete true)) ∧
      (reader'.parser.waitingForHeadersCompleted = true ∧ reader'.requestBuffer =
          reader.requestBuffer ++ buffer.drop (reader.parser.execute buffer).parsed ∨
        reader'.parser.waitingForHeadersCompleted = false ∧
          reader'.requestBuffer = reader.requestBuffer ∧
          buffer.length ≤ (reader.parser.execute buffer).parsed) := by
  unfold parseHttpData at hParse
  simp only [Option.bind_eq_bind, Option.bind_eq_some_iff] at hParse
  obtain ⟨handlingRequest, -, hParse⟩ := hParse
  split_ifs at hParse with hWaiting hEnd
  · simp only [Option.some.injEq, Prod.mk.injEq] at hParse
    obtain ⟨rfl, rfl⟩ := hParse
    exact ⟨rfl, rfl, rfl, Or.inl ⟨hWaiting, rfl⟩⟩
  · simp only [Option.some.injEq, Prod.mk.injEq] at hParse
    obtain ⟨rfl, rfl⟩ := hParse
    refine ⟨rfl, rfl, rfl, Or.inr ⟨by simpa using hWaiting, rfl, ?_⟩⟩
    by_contra hLess
    exact hEnd (Or.inr (Nat.lt_of_not_le hLess))

/-- An execution goes on where the reader is. -/
theorem tracked_of_executed {scanner : Scanner} {told : List ParserEvent}
    (hBuffer : reader.requestBuffer = [])
    (hParse : reader.parseHttpData buffer = some (reader', emitted))
    (hExecuted : Executed events told scanner buffer (reader.parser.execute buffer))
    (hPassed : ∀ {part rest : Bytes} {after : Scanner} {more : List ParserEvent},
      buffer = part ++ rest → part ≠ [] →
      Scanner.read (scanner, 0) part = some ((after, 0), more) →
      Scanner.read (init.scanner, decisions) (bytes ++ part) = some ((after, 0), told ++ more))
    (hStart : ∀ {ch : UInt8} {rest : Bytes}, buffer = ch :: rest →
      (scanner.effect ch).control = .stop false →
      Scanner.read (init.scanner, decisions) bytes = some ((scanner, 0), told))
    (hNonempty : buffer ≠ []) :
    Tracked (bytes ++ buffer) decisions (events ++ emitted) reader' := by
  obtain ⟨hParser, rfl, -, hRest⟩ := parseHttpData_eq hParse
  cases hExecuted with
  | passed hRead hParsed hFollowed =>
      rw [← hParser] at hFollowed
      refine .flowing (hPassed (List.append_nil buffer).symm hNonempty hRead) ?_ hFollowed
      rcases hRest with ⟨-, hKept⟩ | ⟨-, hKept, -⟩
      · rw [hKept, hBuffer, hParsed, List.drop_length]
        rfl
      · rw [hKept, hBuffer]
  | @stopped read rest ch after more slack n hData hRead hControl hParsed hFollowed =>
      rw [← hParser] at hFollowed
      rcases hRest with ⟨hWaiting, hKept⟩ | ⟨-, -, hLength⟩
      · have hState : (after.effect ch).parser.state = .waitForOnHeadersCompleted := by
          rw [hFollowed.parser] at hWaiting
          exact of_decide_eq_true hWaiting
        have hStored : reader'.requestBuffer = ch :: rest := by
          rw [hKept, hBuffer, hParsed, hData, List.drop_left]
          rfl
        rw [← List.append_assoc] at hFollowed
        by_cases hNothing : read = []
        · subst hNothing
          obtain ⟨rfl, rfl⟩ : after = scanner ∧ more = [] := by
            simpa [Scanner.read, System.exec, eq_comm] using hRead
          rw [List.append_nil] at hFollowed
          exact .waiting (by rw [hData]; rfl) (hStart hData hControl) hControl hState hStored
            hFollowed
        · exact .waiting (by rw [hData, List.append_assoc]) (hPassed hData hNothing hRead) hControl
            hState hStored hFollowed
      · rw [hParsed, hData, List.length_append, List.length_cons] at hLength
        omega
  | left hWaiting hParsed =>
      rcases hRest with ⟨hWaits, -⟩ | ⟨-, -, hLength⟩
      · rw [hParser, hWaiting] at hWaits
        cases hWaits
      · omega
  | failed hErrno =>
      rw [← hParser] at hErrno
      exact .failed hErrno

theorem step_eq {action : ReaderAction} (hStep : reader.step action = some (reader', emitted)) :
    (reader.buffer action).length + HTTP_MAX_HEADER_SIZE < 2 ^ 32 ∧
      reader.next action = some (reader', emitted) := by
  unfold step at hStep
  split_ifs at hStep with hFits
  exact ⟨hFits, hStep⟩

theorem next_isUpgrade {action : ReaderAction}
    (hNext : reader.next action = some (reader', emitted)) :
    reader'.isUpgrade = (reader.isUpgrade || emitted.contains (.onHeadersComplete true)) := by
  cases action with
  | read data =>
      simp only [next] at hNext
      split_ifs at hNext
      exact (parseHttpData_eq hNext).2.2.1
  | headersCompleted =>
      simp only [next] at hNext
      split_ifs at hNext
      exact (parseHttpData_eq hNext).2.2.1
  | requestCompleted =>
      obtain ⟨rfl, rfl⟩ := Prod.mk.inj (Option.some.inj hNext)
      exact (Bool.or_false _).symm

/-- A reader is tracked by its parser and by what it stores. -/
theorem Tracked.of_eq (hTracked : Tracked bytes decisions events reader)
    (hParser : reader'.parser = reader.parser)
    (hBuffer : reader'.requestBuffer = reader.requestBuffer) :
    Tracked bytes decisions events reader' := by
  cases hTracked with
  | flowing hRead hEmpty hFollowed =>
      exact .flowing hRead (hBuffer.trans hEmpty) (by rwa [hParser])
  | waiting hBytes hRead hControl hState hStored hFollowed =>
      exact .waiting hBytes hRead hControl hState (hBuffer.trans hStored) (by rwa [hParser])
  | failed hErrno => exact .failed (by rwa [hParser])

/-- One action of a reader. -/
theorem Tracked.next {action : ReaderAction} (hTracked : Tracked bytes decisions events reader)
    (hFits : (reader.buffer action).length + HTTP_MAX_HEADER_SIZE < 2 ^ 32)
    (hNext : reader.next action = some (reader', emitted)) :
    Tracked (bytes ++ action.data) (decisions + ReaderAction.decisions [action])
      (events ++ emitted) reader' := by
  cases action with
  | read data =>
      simp only [RequestReader.next] at hNext
      split_ifs at hNext with hEmpty
      change Tracked (bytes ++ data) decisions (events ++ emitted) reader'
      cases hTracked with
      | @flowing scanner told slack n hRead hBuffer hFollowed =>
          refine tracked_of_executed hBuffer hNext (hFollowed.executed hEmpty hFits) ?_
            (fun _ _ => hRead) hEmpty
          intro part rest after more _ _ hPart
          rw [Scanner.read_append hRead, hPart]
          rfl
      | @waiting scanner told read rest ch slack n hBytes hRead hControl hState hBuffer hFollowed =>
          obtain ⟨hParsed, hEvents, hOutcome⟩ := hFollowed.wait hState hEmpty
          obtain ⟨hParser, rfl, -, hRest⟩ := parseHttpData_eq hNext
          rw [hEvents, List.append_nil]
          rw [← hParser] at hOutcome
          rcases hOutcome with hErrno | ⟨m, hWaits⟩
          · exact .failed hErrno
          · have hStored : reader'.requestBuffer = ch :: (rest ++ data) := by
              rcases hRest with ⟨-, hKept⟩ | ⟨-, -, hLength⟩
              · rw [hKept, hBuffer, hParsed]
                rfl
              · rw [hParsed, Nat.le_zero, List.length_eq_zero_iff] at hLength
                exact absurd hLength hEmpty
            exact .waiting (by rw [hBytes]; simp) hRead hControl hState hStored hWaits
      | failed hErrno =>
          have hFailed := execute_failed hErrno data
          rw [← (parseHttpData_eq hNext).1] at hFailed
          exact .failed hFailed
  | headersCompleted =>
      simp only [RequestReader.next] at hNext
      split_ifs at hNext with hWaits
      change Tracked (bytes ++ []) (decisions + 1) (events ++ emitted) reader'
      rw [List.append_nil]
      cases hTracked with
      | @flowing scanner told slack n hRead hBuffer hFollowed =>
          -- no line feed is there to go on with
          rw [hBuffer] at hNext
          refine .failed ?_
          rw [(parseHttpData_eq hNext).1]
          have hErrno : reader.parser.httpErrno = .ok := by
            rw [hFollowed.parser]
            exact hFollowed.errno
          have hRunning : reader.parser.isRunning = false := by rw [hFollowed.parser]; rfl
          simp [resume, execute, RequestParser.headersCompleted, hErrno, hRunning]
      | @waiting scanner told read rest ch slack n hBytes hRead hControl hState hBuffer hFollowed =>
          rw [hBuffer] at hNext
          have hResumed := hFollowed.resumed
          have hFits' : (ch :: rest).length + HTTP_MAX_HEADER_SIZE < 2 ^ 32 := by
            rw [← hBuffer]
            exact hFits
          rw [hBytes]
          refine tracked_of_executed rfl hNext (hResumed.executed (List.cons_ne_nil ch rest) hFits') ?_ ?_
            (List.cons_ne_nil ch rest)
          · intro part rest' after more hSplit hNonempty hPart
            obtain ⟨first, tail, rfl⟩ := List.exists_cons_of_ne_nil hNonempty
            obtain ⟨rfl, -⟩ := List.cons.inj hSplit
            rw [Scanner.read_append (Scanner.read_succ hRead), Scanner.read_resumed hControl hPart]
            simp
          · intro first rest' _ hStopped
            exact absurd hStopped (Scanner.resumed_control scanner ch first)
      | failed hErrno =>
          have hKept : (reader.parser.headersCompleted 0).httpErrno ≠ .ok := hErrno
          refine .failed ?_
          rw [(parseHttpData_eq hNext).1]
          exact execute_failed hKept _
  | requestCompleted =>
      obtain ⟨rfl, rfl⟩ := Prod.mk.inj (Option.some.inj hNext)
      change Tracked (bytes ++ []) decisions (events ++ []) _
      rw [List.append_nil, List.append_nil]
      exact hTracked.of_eq rfl rfl

theorem fresh_tracked : Tracked [] 0 [] fresh := by
  have hCount : Counted True 0 0 0 := ⟨Nat.zero_le _, fun _ => ⟨le_rfl, le_rfl⟩⟩
  exact .flowing rfl rfl ⟨scanner_sound init_sound, rfl, rfl, hCount, fun _ => rfl⟩

/-- Every run keeps the reader where the scanner is. -/
theorem run_tracked {actions : List ReaderAction}
    (run : system.Run fresh actions reader events) :
    Tracked (ReaderAction.bytes actions) (ReaderAction.decisions actions) events reader := by
  induction run with
  | nil => exact fresh_tracked
  | snoc prior last ih =>
      obtain ⟨hFits, hNext⟩ := step_eq last
      have hTracked := ih.next hFits hNext
      simpa [ReaderAction.bytes, ReaderAction.decisions] using hTracked

/-- A reader knows of an upgrade that it has been told of. -/
theorem run_isUpgrade {actions : List ReaderAction}
    (run : system.Run fresh actions reader events) :
    reader.isUpgrade = events.contains (.onHeadersComplete true) := by
  induction run with
  | nil => rfl
  | snoc prior last ih =>
      rw [next_isUpgrade (step_eq last).2, ih, List.contains_eq_any_beq,
        List.contains_eq_any_beq, List.contains_eq_any_beq, List.any_append]

/-- Two readers of the same bytes that have not failed are in the same place. -/
theorem Tracked.agree {events' : List ParserEvent}
    (hTracked : Tracked bytes decisions events reader)
    (hTracked' : Tracked bytes decisions events' reader')
    (hErrno : reader.parser.httpErrno = .ok) (hErrno' : reader'.parser.httpErrno = .ok) :
    ParserEvent.joining.coalesce events = ParserEvent.joining.coalesce events' ∧
      reader.requestBuffer = reader'.requestBuffer ∧
      reader.parser.recount 0 false = reader'.parser.recount 0 false := by
  cases hTracked with
  | @flowing scanner told slack n hRead hBuffer hFollowed =>
      cases hTracked' with
      | @flowing scanner' told' slack' n' hRead' hBuffer' hFollowed' =>
          obtain ⟨rfl, rfl⟩ : scanner = scanner' ∧ told = told' := by
            simpa using hRead.symm.trans hRead'
          refine ⟨(hFollowed.same trivial).trans (hFollowed'.same trivial).symm, ?_, ?_⟩
          · rw [hBuffer, hBuffer']
          · rw [hFollowed.parser, hFollowed'.parser]
            rfl
      | waiting hBytes hRead' hControl hState hBuffer' hFollowed' =>
          rw [hBytes, Scanner.read_stopped hRead' hControl] at hRead
          cases hRead
      | failed hFailed => exact absurd hErrno' hFailed
  | @waiting scanner told read rest ch slack n hBytes hRead hControl hState hBuffer hFollowed =>
      cases hTracked' with
      | flowing hRead' hBuffer' hFollowed' =>
          rw [hBytes, Scanner.read_stopped hRead hControl] at hRead'
          cases hRead'
      | @waiting scanner' told' read' rest' ch' slack' n' hBytes' hRead' hControl' hState' hBuffer'
          hFollowed' =>
          have hSame : read ++ ch :: rest = read' ++ ch' :: rest' := hBytes.symm.trans hBytes'
          have hShort := Scanner.stopped_unique hRead hControl hRead' hSame
          have hLong := Scanner.stopped_unique hRead' hControl' hRead hSame.symm
          obtain ⟨rfl, hRest⟩ := List.append_inj hSame (Nat.le_antisymm hLong hShort)
          obtain ⟨rfl, rfl⟩ := List.cons.inj hRest
          obtain ⟨rfl, rfl⟩ : scanner = scanner' ∧ told = told' := by
            simpa using hRead.symm.trans hRead'
          refine ⟨(hFollowed.same trivial).trans (hFollowed'.same trivial).symm, ?_, ?_⟩
          · rw [hBuffer, hBuffer']
          · rw [hFollowed.parser, hFollowed'.parser]
            rfl
      | failed hFailed => exact absurd hErrno' hFailed
  | failed hFailed => exact absurd hErrno hFailed

theorem mem_coalesce_complete {upgrade : Bool} :
    .onHeadersComplete upgrade ∈ ParserEvent.joining.coalesce events ↔
      .onHeadersComplete upgrade ∈ events := by
  apply Joining.mem_coalesce
  · intro other
    cases other <;> exact ⟨rfl, rfl⟩
  · intro first second
    cases first <;> cases second <;> simp [ParserEvent.joining, ParserEvent.join]

/-- How the bytes of a connection are cut into reads, and when the decisions and the
responses come, does not change what is reported, what is stored and where the parser
is. Both connections are still open, and neither has come to an upgrade. -/
theorem reads_agree {actions actions' : List ReaderAction} {events' : List ParserEvent}
    (hRun : system.Run fresh actions reader events)
    (hRun' : system.Run fresh actions' reader' events')
    (hBytes : ReaderAction.bytes actions = ReaderAction.bytes actions')
    (hDecisions : ReaderAction.decisions actions = ReaderAction.decisions actions')
    (hErrno : reader.parser.httpErrno = .ok) (hErrno' : reader'.parser.httpErrno = .ok) :
    ParserEvent.joining.coalesce events = ParserEvent.joining.coalesce events' ∧
      reader.requestBuffer = reader'.requestBuffer ∧ reader.isUpgrade = reader'.isUpgrade ∧
      reader.parser.recount 0 false = reader'.parser.recount 0 false := by
  have hTracked' := run_tracked hRun'
  rw [← hBytes, ← hDecisions] at hTracked'
  obtain ⟨hEvents, hBuffer, hParser⟩ := (run_tracked hRun).agree hTracked' hErrno hErrno'
  have hUpgrade : events.contains (.onHeadersComplete true) =
      events'.contains (.onHeadersComplete true) := by
    rw [Bool.eq_iff_iff, List.contains_iff_mem, List.contains_iff_mem, ← mem_coalesce_complete,
      hEvents, mem_coalesce_complete]
  rw [← run_isUpgrade hRun, ← run_isUpgrade hRun'] at hUpgrade
  exact ⟨hEvents, hBuffer, hUpgrade, hParser⟩

/-- A request in one read, and in three with the decision before the last one. -/
theorem reads_agree_body :
    ∃ reader reader' events events',
      System.exec step fresh [.read (ascii "PUT /a HTTP/1.1\r\nContent-Length: 2\r\n\r\nhi"),
        .headersCompleted] = some (reader, events) ∧
      System.exec step fresh [.read (ascii "PUT /a HT"),
        .read (ascii "TP/1.1\r\nContent-Length: 2\r\n\r\n"), .headersCompleted,
        .read (ascii "hi")] = some (reader', events') ∧
      ParserEvent.joining.coalesce events = ParserEvent.joining.coalesce events' := by
  have hWhole : ((System.exec step fresh
      [.read (ascii "PUT /a HTTP/1.1\r\nContent-Length: 2\r\n\r\nhi"), .headersCompleted]).map
      (fun result => result.1.parser.httpErrno)) = some .ok := by decide +kernel
  have hParts : ((System.exec step fresh [.read (ascii "PUT /a HT"),
      .read (ascii "TP/1.1\r\nContent-Length: 2\r\n\r\n"), .headersCompleted,
      .read (ascii "hi")]).map (fun result => result.1.parser.httpErrno)) = some .ok := by
    decide +kernel
  obtain ⟨⟨reader, events⟩, hRun, hErrno⟩ := Option.map_eq_some_iff.1 hWhole
  obtain ⟨⟨reader', events'⟩, hRun', hErrno'⟩ := Option.map_eq_some_iff.1 hParts
  exact ⟨reader, reader', events, events', hRun, hRun', (reads_agree (System.run_of_exec hRun)
    (System.run_of_exec hRun') (by decide) (by decide) hErrno hErrno').1⟩

end RequestReader

end Httpuv
