import Httpuv.Parser.HeaderLines
import Httpuv.Parser.SmoothReads

/-! A head that the parser reads at once, read in pieces: up to the line feed that ends
it, at which the parser waits. -/
namespace Httpuv.RequestParser

namespace Scanner

/-- A scanner goes smoothly through what is left of a head, up to the line feed at which
the parser waits. -/
structure Stops (scanner : Scanner) (head : Bytes) (place : Scanner) (told : List ParserEvent) :
    Prop where
  smooth : Scanner.Smooth (scanner, 0) head (place, 0) told
  control : (place.effect LF).control = .stop false
  state : (place.effect LF).parser.state = .waitForOnHeadersCompleted
  errno : (place.effect LF).parser.httpErrno = .ok

variable {scanner after place : Scanner} {head read tail rest : Bytes}
  {told more : List ParserEvent} {ch : UInt8}

theorem Smooth.scan (hSmooth : Scanner.Smooth (scanner, 0) head (place, 0) told) :
    scanner.scan head = some (place, told) := by
  induction head generalizing scanner told with
  | nil =>
      cases hSmooth
      rfl
  | cons ch head ih =>
      cases hSmooth with
      | byte hCalm hControl hRest => exact Context.scan_append (scan_of_next hControl) (ih hRest)

/-- The scanner does not get past the line feed. At that byte the parser stops for the
decision, so that scanning it has no result. -/
theorem Stops.no_scan (hStops : Stops scanner head place told) (rest : Bytes) :
    scanner.scan (head ++ LF :: rest) = none := by
  refine (Semantics.System.exec_append scanner head (LF :: rest)).trans ?_
  rw [show Semantics.System.exec Scanner.step scanner head = some (place, told) from
    hStops.smooth.scan]
  simp [Semantics.System.exec, step, hStops.control]

/-- What is left behind some bytes that have been scanned still leads smoothly to the same
line feed, with the rest of the reports. -/
theorem Stops.of_scan (hStops : Stops scanner head place told)
    (hScan : scanner.scan read = some (after, more)) (hSplit : head ++ LF :: rest = read ++ tail) :
    ∃ left last, Stops after left place last ∧ told = more ++ last ∧ head = read ++ left ∧
      tail = left ++ LF :: rest := by
  obtain ⟨left, hHead, hTail⟩ : ∃ left, head = read ++ left ∧ tail = left ++ LF :: rest := by
    rcases List.append_eq_append_iff.1 hSplit with ⟨past, rfl, hPast⟩ | ⟨left, hHead, hTail⟩
    · cases past with
      | nil => exact ⟨[], by simp, hPast.symm⟩
      | cons ch past =>
          rw [List.cons_append, List.cons.injEq] at hPast
          obtain ⟨rfl, rfl⟩ := hPast
          rw [hStops.no_scan] at hScan
          cases hScan
    · exact ⟨left, hHead, hTail⟩
  subst hHead
  obtain ⟨last, hLast, hTold⟩ := hStops.smooth.of_scan hScan
  exact ⟨left, last, { hStops with smooth := hLast }, hTold, rfl, hTail⟩

/-- The next byte is one of the head, or the line feed, and it is read in the same way
whatever comes behind it. -/
theorem Stops.next_byte (hStops : Stops scanner head place told)
    (hSplit : ch :: tail = head ++ LF :: rest) :
    (head = [] ∧ ch = LF ∧ tail = rest ∧ scanner = place ∧ told = []) ∨
      scanner.Calm ch ∧ (scanner.effect ch).control = .next := by
  cases head with
  | nil =>
      obtain ⟨rfl, rfl⟩ := List.cons.inj hSplit
      cases hStops.smooth
      exact Or.inl ⟨rfl, rfl, rfl, rfl, rfl⟩
  | cons first head =>
      obtain ⟨rfl, -⟩ := List.cons.inj hSplit
      cases hStops.smooth with
      | byte hCalm hNext => exact Or.inr ⟨hCalm, hNext⟩

/-- A byte adds one to the count at most. Between messages it adds none, and some states
set the count back to zero. -/
theorem follow_nread (scanner : Scanner) (ch : UInt8) :
    (scanner.follow ch).parser.nread ≤ scanner.parser.nread + 1 := by
  have hCounted : scanner.parser.counted.nread ≤ scanner.parser.nread + 1 := by
    unfold counted
    split_ifs
    · exact le_refl _
    · exact Nat.le_succ _
  rw [follow, effect_nread]
  split_ifs
  · exact Nat.zero_le _
  · exact hCounted

/-- So the count behind some bytes is bounded by their number, whatever the parser has done
with it on the way. -/
theorem scan_nread (hScan : scanner.scan head = some (place, told)) :
    place.parser.nread ≤ scanner.parser.nread + head.length := by
  induction head generalizing scanner told with
  | nil =>
      obtain ⟨rfl, rfl⟩ := Prod.mk.inj (Option.some.inj hScan)
      exact le_refl _
  | cons ch head ih =>
      obtain ⟨-, last, hRest, -⟩ := scan_cons hScan
      have hFirst := scanner.follow_nread ch
      have hLater := ih hRest
      rw [List.length_cons]
      omega

/-- The line feed that ends the head is counted like its other bytes. -/
theorem Stops.nread_le (hStops : Stops scanner head place told) :
    (place.effect LF).parser.nread ≤ scanner.parser.nread + head.length + 1 := by
  have hScan := scan_nread hStops.smooth.scan
  have hStep := place.follow_nread LF
  change (place.effect LF).parser.nread ≤ _ at hStep
  omega

/-- A short head without control characters is gone through smoothly. With half of the
limit there is room for every byte to be counted twice. -/
theorem smooth_of_scan (hScan : scanner.scan head = some (place, told))
    (hChars : ∀ ch ∈ head, isHeaderChar ch = true)
    (hShort : 2 * (scanner.parser.nread + head.length) < HTTP_MAX_HEADER_SIZE) :
    Scanner.Smooth (scanner, 0) head (place, 0) told := by
  induction head generalizing scanner told with
  | nil =>
      obtain ⟨rfl, rfl⟩ := Prod.mk.inj (Option.some.inj hScan)
      exact .nil hShort
  | cons ch head ih =>
      obtain ⟨hNext, last, hRest, rfl⟩ := scan_cons hScan
      rw [List.length_cons] at hShort
      have hRoomy : scanner.Roomy := by
        unfold Roomy
        omega
      have hCount := scanner.follow_nread ch
      exact .byte ⟨hRoomy, fun _ => hChars ch List.mem_cons_self⟩ hNext
        (ih hRest (fun other hMem => hChars other (List.mem_cons_of_mem _ hMem)) (by omega))

end Scanner

section Execute

variable {past events told : List ParserEvent} {scanner place : Scanner} {parser : RequestParser}
  {head data rest : Bytes} {n : Nat}

/-- A piece of the head is consumed. The parser is followed by the scanner behind the
piece, and the rest of the head leads from there to the same place. -/
theorem Followed.arriving (hFollowed : Followed True 0 past events scanner n parser)
    (hStops : scanner.Stops (data ++ rest) place told) (hNonempty : data ≠ [])
    (hFits : data.length + HTTP_MAX_HEADER_SIZE < 2 ^ 32) :
    (parser.execute data).parsed = data.length ∧ ∃ after more last n',
      after.Stops rest place last ∧ told = more ++ last ∧
        after.parser.state ≠ .waitForOnHeadersCompleted ∧
        Followed True 0 (past ++ (parser.execute data).events) (events ++ more) after n'
          (parser.execute data).parser := by
  cases hFollowed.smooth hStops.smooth hNonempty hFits with
  | @passed after more last n' hSmooth hAll hMoving hParsed hAfter =>
      exact ⟨hParsed, after, more, last, n', { hStops with smooth := hSmooth }, hAll, hMoving, hAfter⟩
  | waits hData hSmooth hAll hControl =>
      cases hSmooth with
      | byte hCalm hNext =>
          rw [hControl] at hNext
          cases hNext

/-- The rest of the head is consumed up to the line feed, at which the parser waits. What
comes with it in the same buffer is left to the caller. -/
theorem Followed.stops (hFollowed : Followed True 0 past events scanner n parser)
    (hStops : scanner.Stops head place told)
    (hFits : (head ++ LF :: rest).length + HTTP_MAX_HEADER_SIZE < 2 ^ 32) :
    (parser.execute (head ++ LF :: rest)).parsed = head.length ∧ ∃ n',
      Followed True 0 (past ++ (parser.execute (head ++ LF :: rest)).events)
        (events ++ (told ++ place.told LF)) (place.stopped LF) n'
        (parser.execute (head ++ LF :: rest)).parser := by
  obtain ⟨exec, p, hFinished, hResult⟩ := hFollowed.execute (by simp) (fun _ => hFits)
  rw [hResult]
  cases hFinished with
  | @ended read after more exec n hScan hRead =>
      rw [← hRead trivial, hStops.no_scan] at hScan
      cases hScan
  | halted hHalted =>
      cases hHalted with
      | @stopped read stored ch after more exec n consumed hScan hRead hControl hParser hCount hOrder
          hSame =>
          have hAfter := (Scanner.scan_sound hFollowed.sound hScan).1
          obtain ⟨left, last, hLeft, rfl, rfl, hTail⟩ := hStops.of_scan hScan (hRead trivial)
          rcases hLeft.next_byte hTail with ⟨rfl, rfl, rfl, rfl, rfl⟩ | ⟨-, hNext⟩
          · obtain rfl : consumed = false := Control.stop.inj (hControl.symm.trans hStops.control)
            refine ⟨by simp, n, Scanner.stopped_sound hAfter hControl, hStops.errno, ?_, hCount,
              fun hFits => ?_⟩
            · rw [hParser]
              rfl
            · refine (hSame hFits).trans ?_
              simp [Scanner.stopped, Scanner.told, Pending.events]
          · rw [hControl] at hNext
            cases hNext
      | error hScan hRead hControl =>
          obtain ⟨left, last, hLeft, -, -, hTail⟩ := hStops.of_scan hScan (hRead trivial)
          rcases hLeft.next_byte hTail with ⟨-, rfl, -, rfl, -⟩ | ⟨-, hNext⟩
          · rw [hStops.control] at hControl
            cases hControl
          · rw [hControl] at hNext
            cases hNext
      | overflow hScan hRead hErrno hSound hOrder hPast =>
          obtain ⟨left, last, hLeft, -⟩ := hStops.of_scan hScan (hRead trivial)
          have hRoomy : 2 * _ < HTTP_MAX_HEADER_SIZE := hLeft.smooth.roomy
          exact absurd (hPast trivial) (Nat.not_le_of_lt hRoomy)
      | control hScan hRead hState hControl =>
          obtain ⟨left, last, hLeft, -, -, hTail⟩ := hStops.of_scan hScan (hRead trivial)
          rcases hLeft.next_byte hTail with ⟨-, rfl, -⟩ | ⟨hCalm, -⟩
          · cases hControl
          · rw [hCalm.value hState] at hControl
            cases hControl

theorem state_of_between (hPhase : parser.phase = .between) :
    parser.state = .dead ∨ parser.state = .startReq := by
  unfold phase at hPhase
  cases hState : parser.state <;> rw [hState] at hPhase <;> first
    | exact Or.inl rfl
    | exact Or.inr rfl
    | cases hPhase
    | (simp only at hPhase; split_ifs at hPhase)

/-- A parser between two requests has nothing under way, so that it is followed by the
scanner with its own members and no data pending. -/
theorem Followed.of_between (hIdle : parser.Idle) (hPhase : parser.phase = .between)
    (hErrno : parser.httpErrno = .ok) (hRunning : parser.isRunning = false) :
    Followed True 0 [] [] parser.scanner parser.nread parser where
  sound := scanner_sound hIdle.sound
  errno := hErrno
  parser := by
    rw [← hRunning]
    rfl
  count := ⟨hIdle.nread hErrno, fun _ => by
    change parser.nread ≤ parser.nread ∧ parser.nread ≤ 2 * parser.nread + 0
    omega⟩
  same := by
    intro _
    have hOpen : parser.state.open = none := by
      rcases state_of_between hPhase with hState | hState <;> rw [hState] <;> rfl
    rw [RequestParser.scanner, hOpen]
    rfl

/-- A parser that reads a head at once stops at its end in every reading of it: from the
one execution, in which no error and no other stop has come up, the scanner is seen to
go smoothly through the same bytes. -/
theorem stops_of_execute (hFollowed : Followed True 0 [] [] parser.scanner parser.nread parser)
    (hChars : ∀ ch ∈ head, isHeaderChar ch = true)
    (hShort : 2 * (parser.nread + head.length) < HTTP_MAX_HEADER_SIZE)
    (hParsed : (parser.execute (head ++ [LF])).parsed = head.length)
    (hWaits : (parser.execute (head ++ [LF])).parser.waitingForHeadersCompleted = true)
    (hErrno : (parser.execute (head ++ [LF])).parser.httpErrno = .ok) :
    ∃ place told n, parser.scanner.Stops head place told ∧
      (parser.execute (head ++ [LF])).parser = (place.effect LF).parser.recount n false ∧
      n ≤ 2 * (place.effect LF).parser.nread ∧
      ParserEvent.joining.coalesce (parser.execute (head ++ [LF])).events =
        ParserEvent.joining.coalesce (told ++ place.told LF) := by
  have hFits : (head ++ [LF]).length + HTTP_MAX_HEADER_SIZE < 2 ^ 32 := by
    rw [List.length_append, List.length_singleton]
    unfold HTTP_MAX_HEADER_SIZE at hShort ⊢
    omega
  obtain ⟨exec, p, hFinished, hResult⟩ := hFollowed.execute (by simp) (fun _ => hFits)
  rw [hResult] at hParsed hWaits hErrno ⊢
  cases hFinished with
  | ended => simp at hParsed
  | halted hHalted =>
      cases hHalted with
      | @stopped read stored ch after more exec n consumed hScan hRead hControl hParser hCount hOrder
          hSame =>
          have hSplit := hRead trivial
          have hSound := (Scanner.scan_sound hFollowed.sound hScan).1
          have hState : (after.effect ch).parser.state = .waitForOnHeadersCompleted := by
            rw [hParser] at hWaits
            exact of_decide_eq_true hWaits
          cases consumed with
          | true =>
              have hBetween := ((@Scanner.effect_legal after ch hSound).stop true hControl).2 rfl
              simp [phase, hState] at hBetween
          | false =>
              have hLength := congrArg List.length hSplit
              simp only [List.length_append, List.length_cons, List.length_nil] at hLength
              simp only [List.length_append, List.length_cons, List.length_nil, Bool.false_eq_true,
                if_false] at hParsed
              obtain rfl : stored = [] := List.length_eq_zero_iff.1 (by omega)
              obtain ⟨rfl, hByte⟩ := List.append_inj' hSplit rfl
              obtain rfl : LF = ch := (List.cons.inj hByte).1
              refine ⟨after, more, n, ⟨Scanner.smooth_of_scan hScan hChars hShort, hControl, hState, ?_⟩,
                ?_, (hCount.bounds trivial).2, hSame trivial⟩
              · rw [hParser] at hErrno
                exact hErrno
              · rw [hParser]
                rfl
      | @error read stored ch after more exec pending hScan hRead hControl hSet =>
          have hLegal := @Scanner.effect_legal after ch (Scanner.scan_sound hFollowed.sound hScan).1
          exact absurd (hSet.symm.trans hErrno) (hLegal.error hControl)
      | overflow hScan hRead hSet => exact Errno.noConfusion (hSet.symm.trans hErrno)
      | control hScan hRead hState hControl hSet => exact Errno.noConfusion (hSet.symm.trans hErrno)

end Execute

section Waiting

variable {parser : RequestParser} {data rest : Bytes} {n : Nat}

/-- What comes while the parser waits is left to its caller, and counted as one byte: the
parser looks at the first byte only, and does not consume it. -/
theorem execute_stored (hState : parser.state = .waitForOnHeadersCompleted)
    (hErrno : parser.httpErrno = .ok) (hRoom : n < HTTP_MAX_HEADER_SIZE) (hNonempty : data ≠ []) :
    (parser.recount n false).execute data = ⟨parser.recount (n + 1) false, 0, []⟩ := by
  have hStored := @execute_of_waiting (parser.recount n false) data hState rfl hErrno hNonempty
  rwa [countHeaderSize_recount hErrno hRoom] at hStored

/-- An upgrade without a body ends with the line feed of its head. What follows is not
looked at, so the two flags and the length in front of it are all that matters. -/
theorem execute_upgraded (hErrno : parser.httpErrno = .ok) (hRunning : parser.isRunning = false)
    (hRoom : parser.nread < HTTP_MAX_HEADER_SIZE) (hUpgrade : parser.upgrade = true)
    (hChunked : parser.flags.chunked = false)
    (hLength : parser.contentLength = 0 ∨ parser.contentLength = ULLONG_MAX) (rest : Bytes) :
    ((parser.headersCompleted 0).execute (LF :: rest)).parsed = 1 ∧
      ((parser.headersCompleted 0).execute (LF :: rest)).events = [.onMessageComplete] := by
  have hDone : (parser.headersCompleted 0).onHeadersCompleted LF =
      ⟨{ parser with
        headersStatus := 0
        nread := 0
        state := parser.newMessage }, [.notify .onMessageComplete], .stop true⟩ := by
    change ({ parser with headersStatus := 0, state := .headersDone } : RequestParser).headersDone LF = _
    unfold headersDone strictCheck
    rw [if_neg (not_not.2 rfl)]
    exact if_pos ⟨hUpgrade, Or.inr (Or.inr (by simpa using ⟨hChunked, hLength⟩))⟩
  have hStart : parser.headersCompleted 0 = (parser.headersCompleted 0).recount parser.nread false := by
    rw [← hRunning]
    rfl
  have hErrno' : (parser.headersCompleted 0).httpErrno = .ok := hErrno
  rw [hStart, execute_recount hErrno', loop, entry, iterate_resumed rfl rfl hErrno' hRoom, hDone]
  simp [Execution.apply, Execution.callAll, Execution.call, Effect.recount]

end Waiting

end Httpuv.RequestParser
