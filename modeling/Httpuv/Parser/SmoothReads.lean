import Httpuv.Parser.ReaderRuns
import Httpuv.Parser.Transitions

/-! Bytes that are read to their end however they are cut: the parser has room for
twice their headers, and no value has a control character in it. -/
namespace Httpuv.RequestParser

open Semantics

namespace Scanner

/-- A scanner whose parser has room to count every byte of the headers twice. A byte is
counted twice where a read ends inside of a name or a value. -/
def Roomy (scanner : Scanner) : Prop := 2 * scanner.parser.nread < HTTP_MAX_HEADER_SIZE

/-- A byte that the parser takes wherever it is cut off. In a value no control character is
looked for unless it is the first byte of a read, so that there must be none. -/
structure Calm (scanner : Scanner) (ch : UInt8) : Prop where
  roomy : scanner.Roomy
  value : scanner.parser.state = .headerValue → isHeaderChar ch = true

/-- Bytes that are read from one place to another one. A decision is used where the
scanner has to wait. -/
inductive Smooth : Scanner × Nat → Bytes → Scanner × Nat → List ParserEvent → Prop
  | nil {scanner : Scanner} {decisions : Nat} (hRoomy : scanner.Roomy) :
      Smooth (scanner, decisions) [] (scanner, decisions) []
  | byte {scanner : Scanner} {decisions : Nat} {ch : UInt8} {rest : Bytes}
      {finish : Scanner × Nat} {events : List ParserEvent}
      (hCalm : scanner.Calm ch) (hControl : (scanner.effect ch).control = .next)
      (hRest : Smooth (scanner.follow ch, decisions) rest finish events) :
      Smooth (scanner, decisions) (ch :: rest) finish (scanner.told ch ++ events)
  | decided {scanner : Scanner} {decisions : Nat} {ch : UInt8} {rest : Bytes}
      {finish : Scanner × Nat} {events : List ParserEvent}
      (hCalm : scanner.Calm ch) (hControl : (scanner.effect ch).control = .stop false)
      (hState : (scanner.effect ch).parser.state = .waitForOnHeadersCompleted)
      (hErrno : (scanner.effect ch).parser.httpErrno = .ok)
      (hRoomy : (scanner.resumed ch).Roomy)
      (hResumed : ((scanner.resumed ch).effect ch).control = .next)
      (hRest : Smooth ((scanner.resumed ch).follow ch, decisions) rest finish events) :
      Smooth (scanner, decisions + 1) (ch :: rest) finish
        (scanner.told ch ++ ((scanner.resumed ch).told ch ++ events))

instance (scanner : Scanner) : Decidable scanner.Roomy :=
  inferInstanceAs (Decidable (_ < _))

/-- Smooth bytes are read, with what is asked of them checked on the way. This is the form
in which a concrete request is shown to be smooth. -/
def smoothly : Scanner × Nat → Bytes → Option ((Scanner × Nat) × List ParserEvent)
  | place, [] => if place.1.Roomy then some (place, []) else none
  | (scanner, decisions), ch :: rest =>
      if scanner.Roomy ∧ (scanner.parser.state = .headerValue → isHeaderChar ch = true) then
        match (scanner.effect ch).control, decisions with
        | .next, decisions =>
            (smoothly (scanner.follow ch, decisions) rest).map (fun result =>
              (result.1, scanner.told ch ++ result.2))
        | .stop false, left + 1 =>
            if (scanner.effect ch).parser.state = .waitForOnHeadersCompleted ∧
                (scanner.effect ch).parser.httpErrno = .ok ∧ (scanner.resumed ch).Roomy ∧
                ((scanner.resumed ch).effect ch).control = .next then
              (smoothly ((scanner.resumed ch).follow ch, left) rest).map (fun result =>
                (result.1, scanner.told ch ++ ((scanner.resumed ch).told ch ++ result.2)))
            else none
        | _, _ => none
      else none

variable {scanner after : Scanner} {ch : UInt8} {events more : List ParserEvent} {decisions : Nat}
  {bytes rest : Bytes} {place middle finish : Scanner × Nat}

theorem smooth_of_smoothly (hSmoothly : smoothly place bytes = some (finish, events)) :
    Smooth place bytes finish events := by
  induction bytes generalizing place events with
  | nil =>
      unfold smoothly at hSmoothly
      split_ifs at hSmoothly with hRoomy
      obtain ⟨rfl, rfl⟩ := Prod.mk.inj (Option.some.inj hSmoothly)
      exact .nil hRoomy
  | cons ch bytes ih =>
      obtain ⟨scanner, decisions⟩ := place
      unfold smoothly at hSmoothly
      by_cases hAsked : scanner.Roomy ∧
          (scanner.parser.state = .headerValue → isHeaderChar ch = true)
      swap
      · rw [if_neg hAsked] at hSmoothly
        cases hSmoothly
      rw [if_pos hAsked] at hSmoothly
      have hCalm : scanner.Calm ch := ⟨hAsked.1, hAsked.2⟩
      cases hControl : (scanner.effect ch).control with
      | next =>
          simp only [hControl, Option.map_eq_some_iff, Prod.mk.injEq, Prod.exists] at hSmoothly
          obtain ⟨last, left, told, hRest, rfl, rfl⟩ := hSmoothly
          exact .byte hCalm hControl (ih hRest)
      | error => simp [hControl] at hSmoothly
      | stop consumed =>
          cases consumed with
          | true => simp [hControl] at hSmoothly
          | false =>
              cases decisions with
              | zero => simp [hControl] at hSmoothly
              | succ decisions =>
                  simp only [hControl] at hSmoothly
                  split_ifs at hSmoothly with hDecided
                  obtain ⟨hState, hErrno, hRoomy, hResumed⟩ := hDecided
                  simp only [Option.map_eq_some_iff, Prod.mk.injEq, Prod.exists] at hSmoothly
                  obtain ⟨last, left, told, hRest, rfl, rfl⟩ := hSmoothly
                  exact .decided hCalm hControl hState hErrno hRoomy hResumed (ih hRest)

theorem Smooth.roomy (hSmooth : Smooth place bytes finish events) : place.1.Roomy := by
  cases hSmooth with
  | nil hRoomy => exact hRoomy
  | byte hCalm => exact hCalm.roomy
  | decided hCalm => exact hCalm.roomy

theorem Smooth.calm (hSmooth : Smooth place (ch :: rest) finish events) : place.1.Calm ch := by
  cases hSmooth with
  | byte hCalm => exact hCalm
  | decided hCalm => exact hCalm

theorem Smooth.read (hSmooth : Smooth place bytes finish events) :
    Scanner.read place bytes = some (finish, events) := by
  induction hSmooth with
  | nil => rfl
  | @byte scanner decisions ch rest finish events hCalm hControl _ ih =>
      have hFirst := consume_of_lead (lead_of_next hControl) decisions
      rw [← read_singleton] at hFirst
      change Scanner.read (scanner, decisions) ([ch] ++ rest) = _
      rw [read_append hFirst, ih]
      rfl
  | @decided scanner decisions ch rest finish events hCalm hControl hState hErrno hRoomy hResumed _ ih =>
      have hFirst := consume_resumed hControl (lead_of_next hResumed) decisions
      rw [← read_singleton] at hFirst
      change Scanner.read (scanner, decisions + 1) ([ch] ++ rest) = _
      rw [read_append hFirst, ih, Option.map_some, List.append_assoc]

/-- What is left behind some bytes that have been scanned is smooth as well, with the reports
that have not been told yet. -/
theorem Smooth.of_scan (hSmooth : Smooth (scanner, decisions) (bytes ++ rest) finish events)
    (hScan : scanner.scan bytes = some (after, more)) :
    ∃ last, Smooth (after, decisions) rest finish last ∧ events = more ++ last := by
  induction bytes generalizing scanner events more with
  | nil =>
      simp only [scan, System.exec, Option.some.injEq, Prod.mk.injEq] at hScan
      obtain ⟨rfl, rfl⟩ := hScan
      exact ⟨events, hSmooth, rfl⟩
  | cons ch bytes ih =>
      obtain ⟨hNext, tail, hTail, rfl⟩ := scan_cons hScan
      cases hSmooth with
      | byte hCalm hControl hRest =>
          obtain ⟨last, hLast, rfl⟩ := ih hRest hTail
          exact ⟨last, hLast, (List.append_assoc _ _ _).symm⟩
      | decided hCalm hControl =>
          rw [hNext] at hControl
          cases hControl

end Scanner

section Execute

variable {n decisions : Nat} {past events all : List ParserEvent} {scanner : Scanner}
  {parser : RequestParser} {data rest : Bytes} {finish : Scanner × Nat}

/-- What an execution does to smooth bytes: it consumes them, or stops to wait. In the second
case the byte that it waits at is left with the rest. -/
inductive Passed (past events all : List ParserEvent) (data rest : Bytes) (decisions : Nat)
    (finish : Scanner × Nat) (result : ExecuteResult RequestParser) : Prop
  | passed {after : Scanner} {more last : List ParserEvent} {n : Nat}
      (hSmooth : Scanner.Smooth (after, decisions) rest finish last)
      (hAll : all = more ++ last)
      (hMoving : after.parser.state ≠ .waitForOnHeadersCompleted)
      (hParsed : result.parsed = data.length)
      (hFollowed : Followed True 0 (past ++ result.events) (events ++ more) after n result.parser)
  | waits {after : Scanner} {more last : List ParserEvent} {n : Nat} {read stored : Bytes}
      {ch : UInt8}
      (hData : data = read ++ ch :: stored)
      (hSmooth : Scanner.Smooth (after, decisions) (ch :: (stored ++ rest)) finish last)
      (hAll : all = more ++ last)
      (hControl : (after.effect ch).control = .stop false)
      (hState : (after.effect ch).parser.state = .waitForOnHeadersCompleted)
      (hParsed : result.parsed = read.length)
      (hFollowed : Followed True 0 (past ++ result.events) (events ++ (more ++ after.told ch))
        (after.stopped ch) n result.parser)

/-- An execution of smooth bytes does not fail. Its iterations are those of the scanner, and
the count stays below the limit for the room that there is. -/
theorem Followed.smooth (hFollowed : Followed True 0 past events scanner n parser)
    (hSmooth : Scanner.Smooth (scanner, decisions) (data ++ rest) finish all) (hNonempty : data ≠ [])
    (hFits : data.length + HTTP_MAX_HEADER_SIZE < 2 ^ 32) :
    Passed past events all data rest decisions finish (parser.execute data) := by
  obtain ⟨exec, p, hFinished, hResult⟩ := hFollowed.execute hNonempty (fun _ => hFits)
  rw [hResult]
  cases hFinished with
  | @ended read after more exec n hScan hRead hErrno hParser hCount hOrder hSame =>
      obtain rfl := hRead trivial
      obtain ⟨last, hLast, hAll⟩ := hSmooth.of_scan hScan
      have hAfter := (Scanner.scan_sound hFollowed.sound hScan).1
      refine .passed hLast hAll (Scanner.scan_moves hScan hNonempty) rfl
        ⟨hAfter, hErrno, ?_, hCount, fun hFits => ?_⟩
      · rw [hParser]
        rfl
      · rw [List.append_assoc]
        exact hSame hFits
  | halted hHalted =>
      cases hHalted with
      | @stopped read stored ch after more exec n consumed hScan hRead hControl hParser hCount hOrder
          hSame =>
          obtain rfl := hRead trivial
          have hAfter := (Scanner.scan_sound hFollowed.sound hScan).1
          rw [List.append_assoc] at hSmooth
          obtain ⟨last, hLast, hAll⟩ := hSmooth.of_scan hScan
          have hLate := hLast
          cases hLast with
          | byte hCalm hNext =>
              rw [hControl] at hNext
              cases hNext
          | decided hCalm hStop hState hErrno hRoomy hResumed hRest =>
              obtain rfl : consumed = false := Control.stop.inj (hControl.symm.trans hStop)
              refine .waits rfl hLate hAll hControl hState (by simp)
                ⟨Scanner.stopped_sound hAfter hControl, hErrno, ?_, hCount, fun hFits => ?_⟩
              · rw [hParser]
                rfl
              · refine (hSame hFits).trans ?_
                simp [Scanner.stopped, Scanner.told, Pending.events]
      | error hScan hRead hControl =>
          obtain rfl := hRead trivial
          rw [List.append_assoc] at hSmooth
          obtain ⟨last, hLast, -⟩ := hSmooth.of_scan hScan
          cases hLast with
          | byte hCalm hNext =>
              rw [hControl] at hNext
              cases hNext
          | decided hCalm hStop =>
              rw [hControl] at hStop
              cases hStop
      | overflow hScan hRead hErrno hSound hOrder hPast =>
          obtain rfl := hRead trivial
          rw [List.append_assoc] at hSmooth
          obtain ⟨last, hLast, -⟩ := hSmooth.of_scan hScan
          have hRoomy : 2 * _ < HTTP_MAX_HEADER_SIZE := hLast.roomy
          exact absurd (hPast trivial) (Nat.not_le_of_lt hRoomy)
      | control hScan hRead hState hControl =>
          obtain rfl := hRead trivial
          rw [List.append_assoc] at hSmooth
          obtain ⟨last, hLast, -⟩ := hSmooth.of_scan hScan
          have hChar := hLast.calm.value hState
          rw [hControl] at hChar
          cases hChar

/-- One byte is counted, from whatever count the parser has. Only the limit can make a
difference, which is not reached. -/
theorem countHeaderSize_recount (hErrno : parser.httpErrno = .ok) (hRoom : n < HTTP_MAX_HEADER_SIZE)
    (isRunning : Bool) : (parser.recount n isRunning).countHeaderSize 1 =
      parser.recount (n + 1) isRunning := by
  have hMod : (n + 1) % 2 ^ 32 = n + 1 := by
    unfold HTTP_MAX_HEADER_SIZE at hRoom
    exact Nat.mod_eq_of_lt (by omega)
  have hKept : ¬((parser.recount n isRunning).countHeaderSize 1).httpErrno = .headerOverflow := by
    rw [countHeaderSize_eq]
    change ¬(if HTTP_MAX_HEADER_SIZE < (n + 1) % 2 ^ 32 then _ else parser.httpErrno) = _
    rw [hMod, if_neg (by omega), hErrno]
    exact Errno.noConfusion
  rw [(@count_of_not_overflow (parser.recount n isRunning) 1 hErrno hKept).2]
  change parser.recount ((n + 1) % 2 ^ 32) isRunning = _
  rw [hMod]

/-- The byte that a request goes on with starts the count anew, so that it does not
matter how far the parser has counted while it waited. -/
theorem iterate_resumed {ch : UInt8} (hState : parser.state = .onHeadersCompleted)
    (hResets : parser.resets ch = true) (hErrno : parser.httpErrno = .ok)
    (hRoom : n < HTTP_MAX_HEADER_SIZE) (marks : DataCallback → Option Bytes) (rest : Bytes) :
    Execution.iterate ⟨parser.recount n true, marks, []⟩ ch rest =
      Execution.apply ⟨parser, marks, []⟩ (ch :: rest)
        ((parser.onHeadersCompleted ch).recount 0 true) := by
  have hCounted := countHeaderSize_recount hErrno hRoom true
  have hKept : ¬(parser.recount (n + 1) true).httpErrno = .headerOverflow := by
    change ¬parser.httpErrno = _
    rw [hErrno]
    exact Errno.noConfusion
  have hHeader : (parser.recount n true).state.parsingHeader = true := by
    change parser.state.parsingHeader = true
    rw [hState]
    rfl
  have hSwitch : (parser.recount (n + 1) true).byteSwitch ch =
      some ((parser.onHeadersCompleted ch).recount 0 true) := by
    have hSome := @onHeadersCompleted_recount parser ch (n + 1) true hState
    rw [hResets, if_pos rfl] at hSome
    rw [← hSome]
    unfold byteSwitch
    rw [show (parser.recount (n + 1) true).state = .onHeadersCompleted from hState]
  unfold Execution.iterate
  dsimp only
  rw [if_pos hHeader, hCounted, if_neg hKept, hSwitch]
  rfl

theorem execute_recount {ch : UInt8} (hErrno : parser.httpErrno = .ok) (n : Nat) (rest : Bytes) :
    (parser.recount n false).execute (ch :: rest) =
      let result := loop ((parser.recount n true).entry (ch :: rest)) (ch :: rest)
      ⟨{ result.1.parser with isRunning := false }, (ch :: rest).length - result.2.length,
        result.1.events⟩ := by
  simp [execute, recount, hErrno]

theorem execute_resumed {ch : UInt8} {m : Nat} (hState : parser.state = .onHeadersCompleted)
    (hResets : parser.resets ch = true) (hErrno : parser.httpErrno = .ok)
    (hRoom : n < HTTP_MAX_HEADER_SIZE) (hRoom' : m < HTTP_MAX_HEADER_SIZE) (rest : Bytes) :
    (parser.recount n false).execute (ch :: rest) =
      (parser.recount m false).execute (ch :: rest) := by
  have hLoop : loop ((parser.recount n true).entry (ch :: rest)) (ch :: rest) =
      loop ((parser.recount m true).entry (ch :: rest)) (ch :: rest) := by
    rw [loop, loop, entry, entry, iterate_resumed hState hResets hErrno hRoom,
      iterate_resumed hState hResets hErrno hRoom']
    rfl
  rw [execute_recount hErrno, execute_recount hErrno, hLoop]

end Execute

/-- A request goes on with a line feed only, and at that byte the count begins anew. -/
theorem Scanner.resumed_resets {scanner : Scanner} {ch : UInt8}
    (hControl : ((scanner.resumed ch).effect ch).control = .next) :
    (scanner.resumed ch).parser.resets ch = true := by
  have hEffect : (scanner.resumed ch).effect ch =
      ({ (scanner.resumed ch).parser.counted with state := .headersDone } :
        RequestParser).headersDone ch := rfl
  rw [hEffect] at hControl
  unfold headersDone strictCheck at hControl
  by_cases hLF : ch = LF
  · subst hLF
    rfl
  · rw [if_pos hLF] at hControl
    cases hControl

theorem not_mem_pending {pending : Pending} {upgrade : Bool} :
    .onHeadersComplete upgrade ∉ pending.events := by
  unfold Pending.events
  cases pending with
  | none => simp
  | some piece =>
      obtain ⟨callback, piece⟩ := piece
      cases callback <;> simp [DataCallback.event]

/-- What has been reported is no upgrade when the scanner has told of none: the flag of the
last callback is the one of `updateUpgradeStatus`. -/
theorem Followed.plain {slack n : Nat} {past told : List ParserEvent} {scanner : Scanner}
    {parser : RequestParser} (hFollowed : Followed True slack past told scanner n parser)
    (hPlain : .onHeadersComplete true ∉ told) : .onHeadersComplete true ∉ past := by
  rw [← RequestReader.mem_coalesce_complete, hFollowed.same trivial,
    RequestReader.mem_coalesce_complete, List.mem_append, not_or]
  exact ⟨hPlain, not_mem_pending⟩

end Httpuv.RequestParser

namespace Httpuv.RequestReader

open Semantics RequestParser

/-- No request begins in a buffer while the one before it is still handled. Otherwise
`_newRequest` closes the connection. -/
def Apart (reader : RequestReader) (buffer : Bytes) : Prop :=
  ((reader.parser.execute buffer).events.foldlM newRequest reader.handlingRequest).isSome = true

instance (reader : RequestReader) (buffer : Bytes) : Decidable (reader.Apart buffer) :=
  inferInstanceAs (Decidable (_ = true))

theorem apart_of_parse {reader reader' : RequestReader} {buffer : Bytes}
    {emitted : List ParserEvent} (hParse : reader.parseHttpData buffer = some (reader', emitted)) :
    reader.Apart buffer := by
  unfold parseHttpData at hParse
  simp only [Option.bind_eq_bind, Option.bind_eq_some_iff] at hParse
  obtain ⟨handlingRequest, hHandling, -⟩ := hParse
  exact Option.isSome_iff_exists.2 ⟨handlingRequest, hHandling⟩

theorem apart_of_read {reader : RequestReader} {data : Bytes}
    (hSome : (reader.next (.read data)).isSome = true) : reader.Apart data := by
  obtain ⟨⟨reader', emitted⟩, hNext⟩ := Option.isSome_iff_exists.1 hSome
  simp only [next] at hNext
  split_ifs at hNext
  exact apart_of_parse hNext

theorem apart_of_headersCompleted {reader : RequestReader}
    (hSome : (reader.next .headersCompleted).isSome = true) :
    reader.resume.Apart reader.requestBuffer := by
  obtain ⟨⟨reader', emitted⟩, hNext⟩ := Option.isSome_iff_exists.1 hSome
  simp only [next] at hNext
  split_ifs at hNext
  exact apart_of_parse hNext

/-- A reader that will get on with what is left of smooth bytes. It is followed by the
scanner, and what it keeps is the beginning of what is left. -/
inductive Steady (rest : Bytes) (decisions : Nat) (finish : Scanner × Nat)
    (events : List ParserEvent) (reader : RequestReader) : Prop
  | flowing {scanner : Scanner} {told last : List ParserEvent} {n : Nat}
      (hSmooth : Scanner.Smooth (scanner, decisions) rest finish last)
      (hPlain : .onHeadersComplete true ∉ told ++ last)
      (hMoving : scanner.parser.state ≠ .waitForOnHeadersCompleted)
      (hBuffer : reader.requestBuffer = [])
      (hFollowed : Followed True 0 events told scanner n reader.parser)
  | waiting {scanner : Scanner} {told last : List ParserEvent} {stored : Bytes} {ch : UInt8}
      {slack n : Nat}
      (hSmooth : Scanner.Smooth (scanner, decisions) (ch :: (stored ++ rest)) finish last)
      (hPlain : .onHeadersComplete true ∉ told ++ last)
      (hControl : (scanner.effect ch).control = .stop false)
      (hState : (scanner.effect ch).parser.state = .waitForOnHeadersCompleted)
      (hBuffer : reader.requestBuffer = ch :: stored)
      (hFollowed : Followed True slack events (told ++ scanner.told ch) (scanner.stopped ch) n
        reader.parser)

variable {reader : RequestReader} {data rest : Bytes} {events : List ParserEvent} {decisions : Nat}
  {finish : Scanner × Nat}

theorem Steady.of_eq {reader' : RequestReader}
    (hSteady : Steady rest decisions finish events reader)
    (hParser : reader'.parser = reader.parser)
    (hBuffer : reader'.requestBuffer = reader.requestBuffer) :
    Steady rest decisions finish events reader' := by
  cases hSteady with
  | flowing hSmooth hPlain hMoving hEmpty hFollowed =>
      exact .flowing hSmooth hPlain hMoving (hBuffer.trans hEmpty) (by rwa [hParser])
  | waiting hSmooth hPlain hControl hState hStored hFollowed =>
      exact .waiting hSmooth hPlain hControl hState (hBuffer.trans hStored) (by rwa [hParser])

/-- A reader hands over smooth bytes, and is steady again with what the parser has not
consumed. -/
theorem steady_of_passed {told all : List ParserEvent}
    (hBuffer : reader.requestBuffer = []) (hUpgrade : reader.isUpgrade = false)
    (hPlain : .onHeadersComplete true ∉ told ++ all) (hApart : reader.Apart data)
    (hPassed : Passed events told all data rest decisions finish (reader.parser.execute data)) :
    ∃ reader' emitted, reader.parseHttpData data = some (reader', emitted) ∧
      reader'.isUpgrade = false ∧ Steady rest decisions finish (events ++ emitted) reader' := by
  have hNone : .onHeadersComplete true ∉ events ++ (reader.parser.execute data).events := by
    cases hPassed with
    | passed hSmooth hAll hMoving hParsed hFollowed =>
        refine hFollowed.plain ?_
        rw [hAll, ← List.append_assoc, List.mem_append, not_or] at hPlain
        exact hPlain.1
    | waits hData hSmooth hAll hControl hState hParsed hFollowed =>
        refine hFollowed.plain ?_
        cases hSmooth with
        | byte hCalm hNext =>
            rw [hControl] at hNext
            cases hNext
        | decided =>
            rw [hAll, ← List.append_assoc, ← List.append_assoc, List.mem_append, not_or,
              List.append_assoc] at hPlain
            exact hPlain.1
  have hFlag : (reader.isUpgrade ||
      (reader.parser.execute data).events.contains (.onHeadersComplete true)) = false := by
    rw [List.mem_append, not_or] at hNone
    rw [hUpgrade, Bool.false_or, Bool.eq_false_iff, ne_eq, List.contains_iff_mem]
    exact hNone.2
  obtain ⟨handlingRequest, hHandling⟩ := Option.isSome_iff_exists.1 hApart
  unfold parseHttpData
  simp only [hFlag, hHandling, Option.bind_eq_bind, Option.bind_some]
  cases hPassed with
  | passed hSmooth hAll hMoving hParsed hFollowed =>
      have hWaiting : ¬(reader.parser.execute data).parser.waitingForHeadersCompleted = true := by
        rw [hFollowed.parser]
        exact fun hWaits => hMoving (of_decide_eq_true hWaits)
      rw [hAll, ← List.append_assoc] at hPlain
      rw [if_neg hWaiting, if_neg (by simp [hParsed])]
      exact ⟨_, _, rfl, rfl, .flowing hSmooth hPlain hMoving hBuffer hFollowed⟩
  | @waits after more last n read stored ch hData hSmooth hAll hControl hState hParsed hFollowed =>
      have hWaiting : (reader.parser.execute data).parser.waitingForHeadersCompleted = true := by
        rw [hFollowed.parser]
        exact decide_eq_true hState
      rw [hAll, ← List.append_assoc] at hPlain
      rw [← List.append_assoc] at hFollowed
      rw [if_pos hWaiting]
      refine ⟨_, _, rfl, rfl, .waiting hSmooth hPlain hControl hState ?_ hFollowed⟩
      rw [hBuffer, hParsed, hData, List.drop_left]
      rfl

/-- A reader that waits has room to count one more byte, since each read adds one to the
count while it waits. -/
def Room (reader : RequestReader) : Prop :=
  reader.parser.waitingForHeadersCompleted = true → reader.parser.nread < HTTP_MAX_HEADER_SIZE

/-- Smooth bytes can be read, exactly if no request begins too early among them. -/
theorem Steady.read (hSteady : Steady (data ++ rest) decisions finish events reader)
    (hUpgrade : reader.isUpgrade = false) (hRoom : reader.Room) (hNonempty : data ≠ [])
    (hFits : data.length + HTTP_MAX_HEADER_SIZE < 2 ^ 32) (hApart : reader.Apart data) :
    ∃ reader' emitted, reader.next (.read data) = some (reader', emitted) ∧
      reader'.isUpgrade = false ∧ Steady rest decisions finish (events ++ emitted) reader' := by
  simp only [next, if_neg hNonempty]
  cases hSteady with
  | flowing hSmooth hPlain hMoving hBuffer hFollowed =>
      exact steady_of_passed hBuffer hUpgrade hPlain hApart
        (hFollowed.smooth hSmooth hNonempty hFits)
  | @waiting scanner told last stored ch slack n hSmooth hPlain hControl hState hBuffer hFollowed =>
      have hParser := hFollowed.parser
      have hWaits : reader.parser.waitingForHeadersCompleted = true := by
        rw [hParser]
        exact decide_eq_true hState
      have hLess := hRoom hWaits
      obtain ⟨hParsed, hEvents, hOutcome⟩ := hFollowed.wait hState hNonempty
      have hOk : (reader.parser.execute data).parser.httpErrno = .ok := by
        have hErrno : reader.parser.httpErrno = .ok := by
          rw [hParser]
          exact hFollowed.errno
        rw [execute_of_waiting (by rw [hParser]; exact hState) (by rw [hParser]; rfl) hErrno
          hNonempty, countHeaderSize_eq]
        change (if _ then _ else reader.parser.httpErrno) = Errno.ok
        rw [Nat.mod_eq_of_lt (by unfold HTTP_MAX_HEADER_SIZE at hLess; omega), if_neg (by omega),
          hErrno]
      rcases hOutcome with hErrno | ⟨m, hKept⟩
      · exact absurd hOk hErrno
      · have hStill : (reader.parser.execute data).parser.waitingForHeadersCompleted = true := by
          rw [hKept.parser]
          exact decide_eq_true hState
        unfold parseHttpData
        simp only [hEvents, hUpgrade, List.contains_nil, Bool.or_false, List.foldlM_nil,
          Option.pure_def, Option.bind_eq_bind, Option.bind_some]
        rw [if_pos hStill]
        have hTail : Scanner.Smooth (scanner, decisions) (ch :: ((stored ++ data) ++ rest)) finish
            last := by rwa [List.append_assoc]
        refine ⟨_, _, rfl, rfl, .waiting hTail hPlain hControl hState ?_
          (by rwa [List.append_nil])⟩
        rw [hBuffer, hParsed]
        rfl

/-- There is a decision left for a request that waits, because smooth bytes come with one for
each request. -/
theorem Steady.decision (hSteady : Steady rest decisions finish events reader)
    (hWaiting : reader.parser.waitingForHeadersCompleted = true) : 0 < decisions := by
  cases hSteady with
  | flowing hSmooth hPlain hMoving hBuffer hFollowed =>
      rw [hFollowed.parser] at hWaiting
      exact absurd (of_decide_eq_true hWaiting) hMoving
  | waiting hSmooth hPlain hControl hState hBuffer hFollowed =>
      cases hSmooth with
      | byte hCalm hNext =>
          rw [hControl] at hNext
          cases hNext
      | decided => exact Nat.succ_pos _

/-- A request that waits can go on, with a decision that is left, unless another one begins
too early in what has been kept. -/
theorem Steady.goOn (hSteady : Steady rest decisions finish events reader)
    (hUpgrade : reader.isUpgrade = false) (hRoom : reader.Room)
    (hWaiting : reader.parser.waitingForHeadersCompleted = true)
    (hFits : reader.requestBuffer.length + HTTP_MAX_HEADER_SIZE < 2 ^ 32)
    (hApart : reader.resume.Apart reader.requestBuffer) :
    ∃ reader' emitted left, decisions = left + 1 ∧
      reader.next .headersCompleted = some (reader', emitted) ∧
      reader'.isUpgrade = false ∧ Steady rest left finish (events ++ emitted) reader' := by
  cases hSteady with
  | flowing hSmooth hPlain hMoving hBuffer hFollowed =>
      rw [hFollowed.parser] at hWaiting
      exact absurd (of_decide_eq_true hWaiting) hMoving
  | @waiting scanner told last stored ch slack n hSmooth hPlain hControl hState hBuffer hFollowed =>
      cases hSmooth with
      | byte hCalm hNext =>
          rw [hControl] at hNext
          cases hNext
      | @decided _ left _ _ _ more hCalm hStop hState' hErrno hRoomy hResumed hRest =>
          have hLess : n < HTTP_MAX_HEADER_SIZE := by
            have hCount := hRoom hWaiting
            rw [hFollowed.parser] at hCount
            exact hCount
          have hFew : (scanner.resumed ch).parser.nread < HTTP_MAX_HEADER_SIZE := by
            unfold Scanner.Roomy at hRoomy
            omega
          -- the count starts anew, whatever has been counted while the reader waited
          have hSame := @execute_resumed n (scanner.resumed ch).parser ch
            (scanner.resumed ch).parser.nread rfl (Scanner.resumed_resets hResumed) hErrno hLess hFew
            stored
          have hExact : Followed True 0 events (told ++ scanner.told ch) (scanner.resumed ch)
              (scanner.resumed ch).parser.nread
              ((scanner.resumed ch).parser.recount (scanner.resumed ch).parser.nread false) := by
            have hSound := hFollowed.resumed
            exact ⟨hSound.sound, hSound.errno, rfl, ⟨hFew.le, fun _ => ⟨le_rfl, by omega⟩⟩,
              hSound.same⟩
          have hCalm' : (scanner.resumed ch).Calm ch := ⟨hRoomy, State.noConfusion⟩
          have hOn : Scanner.Smooth (scanner.resumed ch, left) ((ch :: stored) ++ rest) finish
              ((scanner.resumed ch).told ch ++ more) := .byte hCalm' hResumed hRest
          have hFits' : (ch :: stored).length + HTTP_MAX_HEADER_SIZE < 2 ^ 32 := by
            rw [← hBuffer]
            exact hFits
          have hPassed := hExact.smooth hOn (List.cons_ne_nil ch stored) hFits'
          have hStart : reader.parser.headersCompleted 0 = (scanner.resumed ch).parser.recount n false := by
            rw [hFollowed.parser]
            rfl
          rw [← hSame, ← hStart] at hPassed
          simp only [next, if_pos hWaiting]
          rw [hBuffer] at hApart ⊢
          have hNone : .onHeadersComplete true ∉
              told ++ scanner.told ch ++ ((scanner.resumed ch).told ch ++ more) := by
            rwa [List.append_assoc]
          have hOpen : reader.resume.isUpgrade = false := hUpgrade
          obtain ⟨reader', emitted, hParse, hKept, hSteady⟩ :=
            steady_of_passed rfl hOpen hNone hApart hPassed
          exact ⟨reader', emitted, left, rfl, hParse, hKept, hSteady⟩

/-- The runs in which a reader that waits has room to count. How many reads come in while a
request waits is up to the client. -/
def roomy : System RequestReader ReaderAction ParserEvent :=
  system.guarded (fun reader _ => reader.Room)

instance (reader : RequestReader) : Decidable reader.Room :=
  inferInstanceAs (Decidable (_ → _))

def roomyStep (reader : RequestReader) (action : ReaderAction) :
    Option (RequestReader × List ParserEvent) :=
  if reader.Room then step reader action else none

/-- Evaluating the steps with room gives a run. -/
theorem roomy_of_exec {start : RequestReader} {actions : List ReaderAction}
    (hExec : System.exec roomyStep start actions = some (reader, events)) :
    roomy.Run start actions reader events := by
  have hRun : (System.ofStep (fun reader => reader = fresh) roomyStep).Run start actions reader
      events := System.run_of_exec hExec
  induction hRun with
  | nil => exact .nil
  | @snoc actions middle finish outputs emitted action prior last ih =>
      have hLast : roomyStep middle action = some (finish, emitted) := last
      unfold roomyStep at hLast
      split_ifs at hLast with hRoom
      exact (ih (System.exec_of_run prior)).snoc ⟨hRoom, hLast⟩

section Runs

variable {actions : List ReaderAction} {scanner : Scanner} {total : Bytes} {told : List ParserEvent}

/-- Every run over smooth bytes is steady, by induction on its steps: what has been read is
the first part of the bytes, and the decisions are those that have been used. -/
theorem steady_run (hSmooth : Scanner.Smooth (init.scanner, decisions) total finish told)
    (hPlain : .onHeadersComplete true ∉ told) (hRun : roomy.Run fresh actions reader events)
    (hBytes : total = ReaderAction.bytes actions ++ rest) :
    reader.isUpgrade = false ∧ ∃ left, decisions = ReaderAction.decisions actions + left ∧
      Steady rest left finish events reader := by
  induction hRun generalizing rest with
  | nil =>
      have hCount : Counted True 0 0 0 := ⟨Nat.zero_le _, fun _ => ⟨le_rfl, le_rfl⟩⟩
      refine ⟨rfl, decisions, (Nat.zero_add decisions).symm, ?_⟩
      rw [hBytes] at hSmooth
      have hFollowed : Followed True 0 [] [] init.scanner 0 fresh.parser :=
        ⟨scanner_sound init_sound, rfl, rfl, hCount, fun _ => rfl⟩
      exact .flowing hSmooth hPlain State.noConfusion rfl hFollowed
  | @snoc actions middle finish' past emitted action prior last ih =>
      obtain ⟨hRoom, hLast⟩ := last
      obtain ⟨hFits, hNext⟩ := step_eq hLast
      have hSplit : total = ReaderAction.bytes actions ++ (action.data ++ rest) := by
        rw [hBytes]
        simp [ReaderAction.bytes]
      obtain ⟨hUpgrade, left, hLeft, hSteady⟩ := ih hSplit
      cases action with
      | read data =>
          have hNonempty : data ≠ [] := by
            rintro rfl
            simp [next] at hNext
          obtain ⟨reader', emitted', hThere, hKept, hAfter⟩ :=
            hSteady.read hUpgrade hRoom hNonempty hFits
              (apart_of_read (Option.isSome_iff_exists.2 ⟨_, hNext⟩))
          obtain ⟨rfl, rfl⟩ : finish' = reader' ∧ emitted = emitted' := by
            simpa using hNext.symm.trans hThere
          exact ⟨hKept, left, by rw [hLeft]; simp [ReaderAction.decisions], hAfter⟩
      | headersCompleted =>
          have hWaiting : middle.parser.waitingForHeadersCompleted = true := by
            by_contra hNot
            simp [next, hNot] at hNext
          obtain ⟨reader', emitted', left', hUsed, hThere, hKept, hAfter⟩ :=
            hSteady.goOn hUpgrade hRoom hWaiting hFits
              (apart_of_headersCompleted (Option.isSome_iff_exists.2 ⟨_, hNext⟩))
          obtain ⟨rfl, rfl⟩ : finish' = reader' ∧ emitted = emitted' := by
            simpa using hNext.symm.trans hThere
          refine ⟨hKept, left', ?_, hAfter⟩
          rw [hLeft, hUsed]
          simp [ReaderAction.decisions]
          omega
      | requestCompleted =>
          obtain ⟨rfl, rfl⟩ := Prod.mk.inj (Option.some.inj hNext)
          rw [List.append_nil]
          refine ⟨hUpgrade, left, ?_, hSteady.of_eq rfl rfl⟩
          rw [hLeft]
          simp [ReaderAction.decisions]

theorem run_of_roomy (hRun : roomy.Run fresh actions reader events) :
    system.Run fresh actions reader events := hRun.of_guarded

/-- A run that has read all of smooth bytes has reported what the scanner has, with pieces of
the same data joined, and ends without an error. -/
theorem smooth_run
    (hSmooth : Scanner.Smooth (init.scanner, ReaderAction.decisions actions)
      (ReaderAction.bytes actions) (scanner, 0) told)
    (hPlain : .onHeadersComplete true ∉ told) (hRun : roomy.Run fresh actions reader events) :
    reader.parser.httpErrno = .ok ∧ reader.requestBuffer = [] ∧
      ParserEvent.joining.coalesce events =
        ParserEvent.joining.coalesce (told ++ scanner.pending.events) ∧
      reader.parser.recount 0 false = scanner.parser.recount 0 false := by
  have hOk : reader.parser.httpErrno = .ok := by
    obtain ⟨-, left, -, hSteady⟩ := steady_run hSmooth hPlain hRun (List.append_nil _).symm
    cases hSteady with
    | flowing hSmooth' hPlain' hMoving hBuffer hFollowed =>
        rw [hFollowed.parser]
        exact hFollowed.errno
    | waiting hSmooth' hPlain' hControl hState hBuffer hFollowed =>
        rw [hFollowed.parser]
        exact hFollowed.errno
  have hRead := hSmooth.read
  cases run_tracked (run_of_roomy hRun) with
  | flowing hRead' hBuffer hFollowed =>
      rw [hRead] at hRead'
      obtain ⟨rfl, rfl⟩ : scanner = _ ∧ told = _ := by simpa using hRead'
      refine ⟨hOk, hBuffer, hFollowed.same trivial, ?_⟩
      rw [hFollowed.parser]
      rfl
  | waiting hBytes hRead' hControl hState hBuffer hFollowed =>
      rw [hBytes, Scanner.read_stopped hRead' hControl] at hRead
      cases hRead
  | failed hErrno => exact absurd hOk hErrno

/-- A request with a body is smooth, with one decision. -/
theorem smooth_body : ∃ scanner told, Scanner.Smooth (init.scanner, 1)
    (ascii "PUT /a HTTP/1.1\r\nContent-Length: 2\r\n\r\nhi") (scanner, 0) told ∧
      .onHeadersComplete true ∉ told := by
  have hBytes : ((Scanner.smoothly (init.scanner, 1)
      (ascii "PUT /a HTTP/1.1\r\nContent-Length: 2\r\n\r\nhi")).map (fun result =>
        (result.1.2, result.2.contains (.onHeadersComplete true)))) = some (0, false) := by
    decide +kernel
  obtain ⟨⟨⟨scanner, left⟩, told⟩, hSmoothly, hEnd⟩ := Option.map_eq_some_iff.1 hBytes
  obtain ⟨rfl, hPlain⟩ := Prod.mk.inj hEnd
  refine ⟨scanner, told, Scanner.smooth_of_smoothly hSmoothly, fun hMem => ?_⟩
  rw [List.contains_iff_mem.2 hMem] at hPlain
  cases hPlain

/-- The request in three reads, with the decision before the last one. It has a body of two
bytes, which come by themselves. -/
theorem smooth_run_body : ∃ reader events told,
    System.exec roomyStep fresh [.read (ascii "PUT /a HT"),
      .read (ascii "TP/1.1\r\nContent-Length: 2\r\n\r\n"), .headersCompleted,
      .read (ascii "hi")] = some (reader, events) ∧
    reader.parser.httpErrno = .ok ∧ reader.requestBuffer = [] ∧
    ParserEvent.joining.coalesce events = ParserEvent.joining.coalesce told := by
  have hRuns : (System.exec roomyStep fresh [.read (ascii "PUT /a HT"),
      .read (ascii "TP/1.1\r\nContent-Length: 2\r\n\r\n"), .headersCompleted,
      .read (ascii "hi")]).isSome = true := by decide +kernel
  obtain ⟨scanner, told, hSmooth, hPlain⟩ := smooth_body
  obtain ⟨⟨reader, events⟩, hRun⟩ := Option.isSome_iff_exists.1 hRuns
  obtain ⟨hErrno, hBuffer, hEvents, -⟩ :=
    smooth_run (by exact hSmooth) hPlain (roomy_of_exec hRun)
  exact ⟨reader, events, told ++ scanner.pending.events, hRun, hErrno, hBuffer, hEvents⟩

/-- No run over smooth bytes without an upgrade gets stuck. What comes in closes the
connection only when a request begins in it before the one ahead of it has been
responded to, and so does the decision to go on with a request that waits. -/
theorem smooth_progress (hSmooth : Scanner.Smooth (init.scanner, decisions) total finish told)
    (hPlain : .onHeadersComplete true ∉ told) (hRun : roomy.Run fresh actions reader events)
    (hBytes : total = ReaderAction.bytes actions ++ rest) (hRoom : reader.Room) :
    (∀ data tail, data ≠ [] → rest = data ++ tail →
        data.length + HTTP_MAX_HEADER_SIZE < 2 ^ 32 →
        ((reader.next (.read data)).isSome = true ↔ reader.Apart data)) ∧
      (reader.parser.waitingForHeadersCompleted = true →
        reader.requestBuffer.length + HTTP_MAX_HEADER_SIZE < 2 ^ 32 →
        ((reader.next .headersCompleted).isSome = true ↔
            reader.resume.Apart reader.requestBuffer) ∧
          ReaderAction.decisions actions < decisions) := by
  obtain ⟨hUpgrade, left, hLeft, hSteady⟩ := steady_run hSmooth hPlain hRun hBytes
  constructor
  · intro data tail hNonempty hRest hFits
    rw [hRest] at hSteady
    refine ⟨apart_of_read, fun hApart => ?_⟩
    obtain ⟨reader', emitted, hNext, -⟩ := hSteady.read hUpgrade hRoom hNonempty hFits hApart
    rw [hNext]
    rfl
  · intro hWaiting hFits
    have hGoOn := hSteady.goOn hUpgrade hRoom hWaiting hFits
    refine ⟨⟨apart_of_headersCompleted, fun hApart => ?_⟩, ?_⟩
    · obtain ⟨reader', emitted, left', -, hNext, -⟩ := hGoOn hApart
      rw [hNext]
      rfl
    · have hDecision := hSteady.decision hWaiting
      omega

/-- Behind its head the request waits, and goes on. -/
theorem smooth_progress_body : ∃ reader events,
    System.exec roomyStep fresh [.read (ascii "PUT /a HTTP/1.1\r\nContent-Length: 2\r\n\r\n")] =
      some (reader, events) ∧
    (reader.next (.read (ascii "hi"))).isSome = true ∧
    (reader.next .headersCompleted).isSome = true := by
  have hRuns : ((System.exec roomyStep fresh
      [.read (ascii "PUT /a HTTP/1.1\r\nContent-Length: 2\r\n\r\n")]).map (fun result =>
        (result.1.parser.waitingForHeadersCompleted, decide result.1.Room,
          result.1.requestBuffer.length, decide (result.1.Apart (ascii "hi")),
          decide (result.1.resume.Apart result.1.requestBuffer)))) =
      some (true, true, 1, true, true) := by decide +kernel
  obtain ⟨scanner, told, hSmooth, hPlain⟩ := smooth_body
  obtain ⟨⟨reader, events⟩, hRun, hEnd⟩ := Option.map_eq_some_iff.1 hRuns
  simp only [Prod.mk.injEq, decide_eq_true_eq] at hEnd
  obtain ⟨hWaiting, hRoom, hLength, hApart, hApart'⟩ := hEnd
  obtain ⟨hRead, hGoOn⟩ := smooth_progress hSmooth hPlain (roomy_of_exec hRun)
    (show _ = _ ++ ascii "hi" from rfl) hRoom
  refine ⟨reader, events, hRun, ?_, ?_⟩
  · exact (hRead (ascii "hi") [] (by decide) rfl (by decide)).2 hApart
  · exact (hGoOn hWaiting (by rw [hLength]; decide)).1.2 hApart'

end Runs

end Httpuv.RequestReader
