import Httpuv.Parser.Agreement
import Mathlib.Data.List.TakeWhile

/-! `http_parser_execute` follows the scanner: every iteration of its loop does
what the scanner does for the bytes that it goes through. -/
namespace Httpuv.RequestParser

open Semantics

section Counts

variable {fits : Prop} {slack nread n : Nat}

theorem scanByte_nread (parser : RequestParser) (ch : UInt8) :
    (parser.scanByte ch).parser.nread = if parser.resets ch then 0 else parser.nread :=
  congrArg (fun effect : Effect => effect.parser.nread)
    (@scanByte_recount parser ch parser.nread parser.isRunning)

/-- The scanner consumes the byte. -/
theorem CountedByte.counted (hCount : CountedByte fits slack nread n) :
    Counted fits slack (nread + 1) n where
  limit := hCount.limit
  bounds := by
    intro hFits
    have hBounds := hCount.bounds hFits
    omega

section Add

variable {length : Nat} (hLength : fits → length + HTTP_MAX_HEADER_SIZE < 2 ^ 32)
  (hLimit : (n + length) % 2 ^ 32 ≤ HTTP_MAX_HEADER_SIZE)

include hLength hLimit

/-- Counting some bytes up to one that is not consumed. -/
theorem CountedByte.add (hCount : CountedByte fits slack nread n) :
    CountedByte fits slack (nread + length) ((n + length) % 2 ^ 32) where
  limit := hLimit
  bounds := by
    intro hFits
    have hNoWrap := hLength hFits
    have hBounds := hCount.bounds hFits
    have hLimit := hCount.limit
    rw [Nat.mod_eq_of_lt (by omega)]
    omega

/-- Counting some bytes up to the end of the buffer. -/
theorem CountedByte.cut (hCount : CountedByte fits slack nread n) (hPos : 0 < length) :
    Counted fits slack (nread + length) ((n + length) % 2 ^ 32) where
  limit := hLimit
  bounds := by
    intro hFits
    have hNoWrap := hLength hFits
    have hBounds := hCount.bounds hFits
    have hLimit := hCount.limit
    rw [Nat.mod_eq_of_lt (by omega)]
    omega

end Add

/-- Counting a byte that the scanner does not consume. -/
theorem Counted.wait (hCount : Counted fits slack nread n)
    (hLimit : (n + 1) % 2 ^ 32 ≤ HTTP_MAX_HEADER_SIZE) :
    Counted fits (slack + 1) nread ((n + 1) % 2 ^ 32) where
  limit := hLimit
  bounds := by
    intro hFits
    have hBounds := hCount.bounds hFits
    have hLimit := hCount.limit
    unfold HTTP_MAX_HEADER_SIZE at hLimit
    rw [Nat.mod_eq_of_lt (by omega)]
    omega

/-- `COUNT_HEADER_SIZE` sets the count, and an error when it is too large. -/
theorem countHeaderSize_eq (parser : RequestParser) (count : Nat) :
    parser.countHeaderSize count = { parser with
      nread := (parser.nread + count) % 2 ^ 32
      httpErrno :=
        if HTTP_MAX_HEADER_SIZE < (parser.nread + count) % 2 ^ 32 then .headerOverflow
        else parser.httpErrno } := by
  unfold countHeaderSize
  dsimp only
  split_ifs <;> rfl

/-- An overflow is an error and nothing else. -/
theorem overflow_of_count {parser : RequestParser} {count : Nat} (hSound : parser.Sound)
    (hErrno : parser.httpErrno = .ok)
    (hOverflow : (parser.countHeaderSize count).httpErrno = .headerOverflow) :
    HTTP_MAX_HEADER_SIZE < (parser.nread + count) % 2 ^ 32 ∧
      (parser.countHeaderSize count).Sound ∧
      (parser.countHeaderSize count).phase = parser.phase := by
  rw [countHeaderSize_eq] at hOverflow ⊢
  simp only [hErrno] at hOverflow
  split_ifs at hOverflow with hPast
  exact ⟨hPast, ⟨hSound.contentLength, hSound.atState⟩, rfl⟩

theorem count_of_not_overflow {parser : RequestParser} {count : Nat}
    (hErrno : parser.httpErrno = .ok)
    (hKept : ¬(parser.countHeaderSize count).httpErrno = .headerOverflow) :
    (parser.nread + count) % 2 ^ 32 ≤ HTTP_MAX_HEADER_SIZE ∧
      parser.countHeaderSize count = { parser with nread := (parser.nread + count) % 2 ^ 32 } := by
  rw [countHeaderSize_eq] at hKept ⊢
  simp only [hErrno] at hKept ⊢
  split_ifs at hKept ⊢ with hPast
  · exact absurd rfl hKept
  · exact ⟨Nat.le_of_not_lt hPast, by rw [← hErrno]⟩

end Counts

theorem state_of_refused {parser : RequestParser} (hPhase : parser.phase = .refused) :
    parser.state = .onHeadersCompleted := by
  unfold phase at hPhase
  cases hState : parser.state <;> rw [hState] at hPhase <;> first
    | rfl
    | (simp only at hPhase; split_ifs at hPhase)
    | cases hPhase

/-- The macros of a case are in order, also of the one that drops a refused message. -/
theorem Effect.Legal.macros {parser : RequestParser} {slot : Option DataCallback} {effect : Effect}
    (hLegal : effect.Legal parser slot) (hMarks : parser.state.Marks slot) :
    ∃ place : ParserPhase × Option DataCallback,
      effect.calls.foldlM Call.next (parser.phase, slot) = some place ∧
      (place.1 = effect.parser.phase ∨
        place.1 = .refused ∧ effect.control = .stop true ∧ effect.parser.phase = .between) ∧
      (effect.control = .next → place.2 = effect.parser.state.open) ∧
      (∀ consumed, effect.control = .stop consumed → place.2 = none) := by
  rcases hLegal.path with ⟨slot', hPath, hNext, hStop⟩ | ⟨hPhase, hCalls, hBetween, hControl⟩
  · exact ⟨_, hPath, Or.inl rfl, hNext, hStop⟩
  · refine ⟨(parser.phase, slot), by rw [hCalls]; rfl, Or.inr ⟨hPhase, hControl, hBetween⟩,
      by simp [hControl], ?_⟩
    intro _ _
    have hState := state_of_refused hPhase
    simpa [State.Marks, hState, State.open] using hMarks

namespace Scanner

variable {scanner : Scanner} {ch : UInt8}

/-- The scanner behind a byte that leads on. -/
def follow (scanner : Scanner) (ch : UInt8) : Scanner where
  parser := (scanner.effect ch).parser
  pending := ((scanner.pending.reportAll (scanner.effect ch).calls).1).advance [ch]

theorem scan_nil (scanner : Scanner) : scanner.scan [] = some (scanner, []) := rfl

theorem step_of_next (hControl : (scanner.effect ch).control = .next) :
    scanner.step ch =
      some (scanner.follow ch, (scanner.pending.reportAll (scanner.effect ch).calls).2) := by
  simp only [step, hControl, follow]

theorem scan_of_next (hControl : (scanner.effect ch).control = .next) :
    scanner.scan [ch] =
      some (scanner.follow ch, (scanner.pending.reportAll (scanner.effect ch).calls).2) :=
  (System.exec_singleton scanner ch).trans (step_of_next hControl)

/-- What is scanned leads on at its first byte. -/
theorem scan_cons {bytes : Bytes} {after : Scanner} {events : List ParserEvent}
    (hScan : scanner.scan (ch :: bytes) = some (after, events)) :
    (scanner.effect ch).control = .next ∧
      ∃ last, (scanner.follow ch).scan bytes = some (after, last) ∧
        events = (scanner.pending.reportAll (scanner.effect ch).calls).2 ++ last := by
  obtain ⟨middle, first, last, hStep, hRest, rfl⟩ := System.exec_cons_eq_some.1 hScan
  have hNext : (scanner.effect ch).control = .next := by
    unfold step at hStep
    cases hControl : (scanner.effect ch).control <;> simp [hControl] at hStep
    rfl
  rw [step_of_next hNext] at hStep
  obtain ⟨rfl, rfl⟩ := Prod.mk.inj (Option.some.inj hStep)
  exact ⟨hNext, last, hRest, rfl⟩

theorem effect_nread : (scanner.effect ch).parser.nread =
    if scanner.parser.counted.resets ch then 0 else scanner.parser.counted.nread :=
  scanByte_nread scanner.parser.counted ch

end Scanner

theorem has_with {exec : Execution} {p : Bytes} {pending : Pending} (hHas : exec.Has p pending)
    (parser : RequestParser) : Execution.Has { exec with parser } p pending := hHas

theorem has_advance {exec : Execution} {read p : Bytes} {pending : Pending}
    (hHas : exec.Has (read ++ p) pending) : exec.Has p (pending.advance read) := by
  unfold Execution.Has at hHas ⊢
  rw [hHas, Pending.marks_advance]

namespace Context

variable {context : Context} {events : List ParserEvent} {scanner : Scanner} {exec : Execution}
  {ch : UInt8} {read rest p : Bytes} {pending : Pending}

namespace Told

/-- The data callback under way is that of the scanner, apart from a body. -/
theorem slots (hTold : context.Told events scanner exec p pending)
    (hState : scanner.parser.state ≠ .chunkDataAlmostDone ∧ scanner.parser.state ≠ .chunkData ∧
      scanner.parser.state ≠ .bodyIdentity) : pending.map Prod.fst = scanner.pending.map Prod.fst := by
  rcases hTold.marks with hOpen | ⟨-, hBody⟩
  · rw [hOpen, hTold.sound.slot]
  · tauto

theorem congr (hTold : context.Told events scanner exec p pending) (parser : RequestParser) :
    context.Told events scanner { exec with parser } p pending :=
  ⟨hTold.sound, hTold.errno, hTold.marks, hTold.has, hTold.agree, hTold.order, hTold.length⟩

/-- The scanner moves on without a report. -/
theorem advance {bytes : Bytes} (hTold : context.Told events scanner exec (read ++ rest) pending)
    (hSlots : pending.map Prod.fst = scanner.pending.map Prod.fst) {parser : RequestParser}
    (hScan : scanner.scan bytes = some (⟨parser, scanner.pending.advance bytes⟩, []))
    (hRead : context.fits → read = bytes) :
    context.Told events ⟨parser, scanner.pending.advance bytes⟩ exec rest
      (pending.advance read) := by
  obtain ⟨hSound, hErrno, hPhase⟩ := Scanner.scan_sound hTold.sound hScan
  refine ⟨hSound, hErrno.trans hTold.errno, Or.inl ?_, has_advance hTold.has,
    hTold.agree.advance hSlots hRead, ?_, ?_⟩
  · rw [← hSound.slot, Pending.advance_slot, Pending.advance_slot, hSlots]
  · rw [hTold.order]
    exact hPhase
  · intro hFits
    have hLength := hTold.length hFits
    rw [List.length_append] at hLength
    omega

/-- The macros of a case report what they report to the scanner. -/
theorem calls (hTold : context.Told events scanner exec p pending) {effect : Effect}
    (hLegal : effect.Legal scanner.parser (pending.map Prod.fst)) (parser : RequestParser) :
    (Execution.callAll p { exec with parser } effect.calls).parser = parser ∧
      (Execution.callAll p { exec with parser } effect.calls).Has p
        (pending.reportAll effect.calls).1 ∧
      Agree context.fits
        (context.past ++ (Execution.callAll p { exec with parser } effect.calls).events)
        (pending.reportAll effect.calls).1 (events ++ (scanner.pending.reportAll effect.calls).2)
        (scanner.pending.reportAll effect.calls).1 ∧
      context.Ordered (Execution.callAll p { exec with parser } effect.calls).events
        effect.parser ∧
      (effect.control = .next →
        (pending.reportAll effect.calls).1.map Prod.fst = effect.parser.state.open ∧
        context.phase.after (Execution.callAll p { exec with parser } effect.calls).events =
          some effect.parser.phase) ∧
      (∀ consumed, effect.control = .stop consumed → (pending.reportAll effect.calls).1 = none) := by
  obtain ⟨place, hPath, hPlace, hNext, hStop⟩ := hLegal.macros hTold.marks
  have hAgree := hTold.agree.reportAll rfl hPath
  obtain ⟨hParser, hEvents, hHas, hSlot⟩ :=
    Execution.callAll_pending (has_with hTold.has parser) rfl hPath
  have hAfter : context.phase.after
      (Execution.callAll p { exec with parser } effect.calls).events = some place.1 := by
    rw [hEvents, after_append, hTold.order]
    exact (reportAll_after rfl hPath).1
  rw [List.append_assoc, ← hEvents] at hAgree
  refine ⟨hParser, hHas, hAgree, ?_, fun hControl => ⟨?_, ?_⟩, fun consumed hControl => ?_⟩
  · rcases hPlace with hPhase | ⟨hRefused, -, hBetween⟩
    · left
      rw [hAfter, hPhase]
    · obtain ⟨hNone, hStart⟩ := not_refused_of_after (hAfter.trans (congrArg some hRefused))
      exact Or.inr ⟨hStart, hNone, hBetween⟩
  · rw [← hSlot, hNext hControl]
  · rcases hPlace with hPhase | ⟨-, hDropped, -⟩
    · rw [hAfter, hPhase]
    · rw [hControl] at hDropped
      cases hDropped
  · have hNone := hStop consumed hControl
    rwa [hSlot, Option.map_eq_none_iff] at hNone

/-- The scanner and the execution move on past a byte. -/
theorem pass (hTold : context.Told events scanner exec (ch :: rest) pending)
    (hLegal : (scanner.effect ch).Legal scanner.parser (pending.map Prod.fst))
    (hControl : (scanner.effect ch).control = .next) (parser : RequestParser) :
    context.Told (events ++ (scanner.pending.reportAll (scanner.effect ch).calls).2)
      (scanner.follow ch)
      (Execution.callAll (ch :: rest) { exec with parser } (scanner.effect ch).calls) rest
      ((pending.reportAll (scanner.effect ch).calls).1.advance [ch]) := by
  obtain ⟨hParser, hHas, hAgree, -, hNext, -⟩ := hTold.calls hLegal parser
  obtain ⟨hOpen, hOrder⟩ := hNext hControl
  obtain ⟨hAfter, hErrno, -⟩ := Scanner.step_sound hTold.sound (Scanner.step_of_next hControl)
  have hSlots : (pending.reportAll (scanner.effect ch).calls).1.map Prod.fst =
      (scanner.pending.reportAll (scanner.effect ch).calls).1.map Prod.fst := by
    have hSlot := hAfter.slot
    rw [Scanner.follow, Pending.advance_slot] at hSlot
    rw [hSlot, hOpen]
  refine ⟨hAfter, hErrno.trans hTold.errno, Or.inl ?_, has_advance hHas,
    hAgree.advance hSlots (fun _ => rfl), hOrder, ?_⟩
  · rw [Pending.advance_slot, hOpen]
    rfl
  · intro hFits
    have hLength := hTold.length hFits
    rw [List.length_cons] at hLength
    omega

/-- The scanner and the execution move on past a byte that is counted. -/
theorem follow (hTold : context.Told events scanner exec (ch :: rest) pending)
    (hLegal : (scanner.effect ch).Legal scanner.parser (pending.map Prod.fst))
    (hControl : (scanner.effect ch).control = .next) {n : Nat}
    (hCount : Counted context.fits context.slack (scanner.effect ch).parser.nread n) :
    context.Related (events ++ (scanner.pending.reportAll (scanner.effect ch).calls).2)
      (scanner.follow ch)
      (Execution.callAll (ch :: rest)
        { exec with parser := (scanner.effect ch).parser.recount n true } (scanner.effect ch).calls)
      n rest ((pending.reportAll (scanner.effect ch).calls).1.advance [ch]) :=
  ⟨hTold.pass hLegal hControl _,
    (hTold.calls hLegal ((scanner.effect ch).parser.recount n true)).1, hCount⟩

/-- A case for one byte. -/
theorem apply_follows (hTold : context.Told events scanner exec (ch :: rest) pending) {n : Nat}
    (hLegal : (scanner.effect ch).Legal scanner.parser (pending.map Prod.fst))
    (hCount : Counted context.fits context.slack (scanner.effect ch).parser.nread n) :
    context.Follows events scanner (ch :: rest)
      (exec.apply (ch :: rest) ((scanner.effect ch).recount n true)) := by
  obtain ⟨hParser, -, hAgree, hOrder, -, hStop⟩ :=
    hTold.calls hLegal ((scanner.effect ch).parser.recount n true)
  unfold Execution.apply
  dsimp only [Effect.recount]
  cases hControl : (scanner.effect ch).control with
  | next =>
      exact .next (Scanner.scan_of_next hControl) (fun _ => rfl) rfl
        (hTold.follow hLegal hControl hCount)
  | error =>
      refine .stop (.error scanner.scan_nil (fun _ => rfl) hControl ?_ ?_ ?_ hAgree)
      · rw [hParser]
        rfl
      · rw [hParser]
        exact ⟨hLegal.sound.contentLength, hLegal.sound.atState⟩
      · rw [hParser]
        exact hOrder
  | stop consumed =>
      have hNone := hStop consumed hControl
      have hNone' : (scanner.pending.reportAll (scanner.effect ch).calls).1 = none := by
        simpa [hNone] using hAgree.slots
      have hSame := hAgree.same
      rw [hNone, hNone', Pending.events, Option.toList_none, List.map_nil, List.append_nil,
        List.append_nil] at hSame
      have hOrder' : context.Ordered (Execution.callAll (ch :: rest)
          ⟨(scanner.effect ch).parser.recount n true, exec.marks, exec.events⟩
          (scanner.effect ch).calls).events (Execution.callAll (ch :: rest)
          ⟨(scanner.effect ch).parser.recount n true, exec.marks, exec.events⟩
          (scanner.effect ch).calls).parser := by
        rw [hParser]
        exact hOrder
      have hHalted := Halted.stopped scanner.scan_nil
        (fun (_ : context.fits) => (rfl : ch :: rest = [] ++ ch :: rest)) hControl hParser hCount
        hOrder' hSame
      cases consumed with
      | false => exact .stop hHalted
      | true => exact .stop hHalted

/-- A byte that the parser has no room to count. -/
theorem overflow (hTold : context.Told events scanner exec p pending) {parser : RequestParser}
    {count : Nat} (hSound : parser.Sound) (hErrno : parser.httpErrno = .ok)
    (hPhase : parser.phase = scanner.parser.phase)
    (hOverflow : (parser.countHeaderSize count).httpErrno = .headerOverflow)
    (hPast : context.fits → HTTP_MAX_HEADER_SIZE < parser.nread + count →
      HTTP_MAX_HEADER_SIZE ≤ 2 * scanner.parser.nread + context.slack) (p' : Bytes) :
    context.Halted events scanner p { exec with parser := parser.countHeaderSize count } p' := by
  obtain ⟨hCount, hOverSound, hOverPhase⟩ := overflow_of_count hSound hErrno hOverflow
  refine .overflow scanner.scan_nil (fun _ => rfl) hOverflow hOverSound (Or.inl ?_) ?_
    (by simpa using hTold.agree) _
  · rw [hOverPhase, hPhase]
    exact hTold.order
  · intro hFits
    exact hPast hFits (hCount.trans_le (Nat.mod_le (parser.nread + count) (2 ^ 32)))

end Told

namespace Related

variable {n : Nat}

theorem exec_sound (hRelated : context.Related events scanner exec n p pending) :
    exec.parser.Sound := by
  rw [hRelated.parser]
  exact ⟨hRelated.sound.parser.contentLength, hRelated.sound.parser.atState⟩

theorem exec_errno (hRelated : context.Related events scanner exec n p pending) :
    exec.parser.httpErrno = .ok := by
  rw [hRelated.parser]
  exact hRelated.errno

/-- The byte is counted, or there is no room for it. -/
theorem count_byte (hRelated : context.Related events scanner exec n p pending) :
    (if exec.parser.state.parsingHeader then exec.parser.countHeaderSize 1 else exec.parser).httpErrno
        = .headerOverflow ∧ context.Halted events scanner p { exec with parser :=
            if exec.parser.state.parsingHeader then exec.parser.countHeaderSize 1
            else exec.parser } p ∨
      ∃ m, (if exec.parser.state.parsingHeader then exec.parser.countHeaderSize 1
          else exec.parser) = scanner.parser.recount m true ∧
        (scanner.parser.state.parsingHeader = true →
          CountedByte context.fits context.slack scanner.parser.nread m) ∧
        Counted context.fits context.slack scanner.parser.counted.nread m := by
  have hState : exec.parser.state = scanner.parser.state := by rw [hRelated.parser]; rfl
  have hPhase : exec.parser.phase = scanner.parser.phase := by rw [hRelated.parser]; rfl
  have hNread : exec.parser.nread = n := by rw [hRelated.parser]; rfl
  have hLimit : HTTP_MAX_HEADER_SIZE < 2 ^ 31 := by decide
  have hCount := hRelated.count
  by_cases hHeader : scanner.parser.state.parsingHeader = true
  · have hCounted : scanner.parser.counted.nread = scanner.parser.nread + 1 :=
      congrArg RequestParser.nread (if_pos hHeader)
    simp only [hState, hHeader, if_true]
    by_cases hOverflow : (exec.parser.countHeaderSize 1).httpErrno = .headerOverflow
    · refine Or.inl ⟨hOverflow, hRelated.overflow hRelated.exec_sound hRelated.exec_errno hPhase
        hOverflow ?_ p⟩
      intro hFits _
      have hBound := (hCount.bounds hFits).2
      omega
    · obtain ⟨hRoom, hSame⟩ := count_of_not_overflow hRelated.exec_errno hOverflow
      have hLess := hCount.limit
      rw [hNread, Nat.mod_eq_of_lt (by omega)] at hRoom
      have hByte : CountedByte context.fits context.slack scanner.parser.nread (n + 1) := by
        refine ⟨hRoom, fun hFits => ?_⟩
        have hBound := hCount.bounds hFits
        omega
      refine Or.inr ⟨n + 1, ?_, fun _ => hByte, ?_⟩
      · rw [hSame, hNread, hRelated.parser, Nat.mod_eq_of_lt (by omega)]
        rfl
      · rw [hCounted]
        exact hByte.counted
  · have hCounted : scanner.parser.counted = scanner.parser := if_neg hHeader
    simp only [hState, hHeader]
    refine Or.inr ⟨n, hRelated.parser, by simp, ?_⟩
    rw [hCounted]
    exact hCount

end Related

section Prepend

variable {events' told : List ParserEvent} {middle : Scanner} {first tail : Bytes}

theorem scan_append {second : Bytes} {after : Scanner} {more : List ParserEvent}
    (hFirst : scanner.scan first = some (middle, told))
    (hSecond : middle.scan second = some (after, more)) :
    scanner.scan (first ++ second) = some (after, told ++ more) := by
  refine (System.exec_append scanner first second).trans ?_
  rw [show System.exec Scanner.step scanner first = some (middle, told) from hFirst]
  change (middle.scan second).map _ = _
  rw [hSecond]
  rfl

theorem split_append {fits : Prop} (hSplit : fits → p = first ++ tail)
    (hRead : fits → tail = read ++ rest) : fits → p = first ++ read ++ rest := by
  intro hFits
  rw [hSplit hFits, hRead hFits, List.append_assoc]

/-- What is halted behind some bytes is halted. -/
theorem Halted.prepend (hFirst : scanner.scan first = some (middle, told))
    (hEvents : events ++ told = events') (hSplit : context.fits → p = first ++ tail)
    (hHalted : context.Halted events' middle tail exec rest) :
    context.Halted events scanner p exec rest := by
  subst hEvents
  cases hHalted with
  | stopped hScan hRead hControl hParser hCount hOrder hSame =>
      exact .stopped (scan_append hFirst hScan) (split_append hSplit hRead) hControl hParser hCount
        hOrder (by simpa using hSame)
  | error hScan hRead hControl hErrno hSound hOrder hAgree =>
      exact .error (scan_append hFirst hScan) (split_append hSplit hRead) hControl hErrno hSound
        hOrder (by simpa using hAgree)
  | overflow hScan hRead hErrno hSound hOrder hPast hAgree =>
      exact .overflow (scan_append hFirst hScan) (split_append hSplit hRead) hErrno hSound hOrder
        hPast (by simpa using hAgree) _
  | control hScan hRead hState hControl hErrno hSound hOrder hAgree =>
      exact .control (scan_append hFirst hScan) (split_append hSplit hRead) hState hControl hErrno hSound
        hOrder (by simpa using hAgree)

theorem Follows.prepend_stop (hFirst : scanner.scan first = some (middle, told))
    (hEvents : events ++ told = events')
    (hFollows : context.Follows events' middle tail (.stop exec rest)) :
    context.Follows events scanner (first ++ tail) (.stop exec rest) := by
  cases hFollows with
  | stop hHalted => exact .stop (hHalted.prepend hFirst hEvents (fun _ => rfl))

theorem Follows.prepend_next (hFirst : scanner.scan first = some (middle, told))
    (hEvents : events ++ told = events') {skipped : Nat}
    (hFollows : context.Follows events' middle tail (.next exec skipped)) :
    context.Follows events scanner (first ++ tail) (.next exec (first.length + skipped)) := by
  subst hEvents
  cases hFollows with
  | next hScan hRead hRest hRelated =>
      refine .next (scan_append hFirst hScan) (split_append (fun _ => rfl) hRead) ?_
        (by simpa using hRelated)
      rw [← hRest, Nat.add_assoc, List.drop_append]
      simp

theorem Follows.prepend_ite (hFirst : scanner.scan first = some (middle, told))
    (hEvents : events ++ told = events') {condition : Prop} [Decidable condition]
    {exec' : Execution} {skipped : Nat}
    (hFollows : context.Follows events' middle tail
      (if condition then .stop exec rest else .next exec' skipped)) :
    context.Follows events scanner (first ++ tail)
      (if condition then .stop exec rest else .next exec' (first.length + skipped)) := by
  by_cases hCondition : condition
  · rw [if_pos hCondition] at hFollows ⊢
    exact hFollows.prepend_stop hFirst hEvents
  · rw [if_neg hCondition] at hFollows ⊢
    exact hFollows.prepend_next hFirst hEvents

end Prepend

end Context

section HeaderField

theorem headerFieldChar_state (parser : RequestParser) (ch : UInt8) :
    (parser.headerFieldChar ch).state = parser.state := by
  unfold headerFieldChar
  cases parser.headerState <;> first
    | rfl
    | (dsimp only; split_ifs <;> rfl)

theorem foldl_headerFieldChar_recount (field : Bytes) (parser : RequestParser) (nread : Nat)
    (isRunning : Bool) : field.foldl headerFieldChar (parser.recount nread isRunning) =
      (field.foldl headerFieldChar parser).recount nread isRunning := by
  induction field generalizing parser with
  | nil => rfl
  | cons ch field ih =>
      rw [List.foldl_cons, List.foldl_cons, headerFieldChar_recount, ih]

theorem foldl_headerFieldChar_state (field : Bytes) (parser : RequestParser) :
    (field.foldl headerFieldChar parser).state = parser.state := by
  induction field generalizing parser with
  | nil => rfl
  | cons ch field ih => rw [List.foldl_cons, ih, headerFieldChar_state]

theorem counted_of_header {parser : RequestParser} (hHeader : parser.state.parsingHeader = true) :
    parser.counted = parser.recount (parser.nread + 1) parser.isRunning :=
  if_pos hHeader

namespace Scanner

theorem effect_field {scanner : Scanner} (hState : scanner.parser.state = .headerField)
    (ch : UInt8) : scanner.effect ch =
      (scanner.parser.scanField ch).recount (scanner.parser.nread + 1) scanner.parser.isRunning := by
  have hHeader : scanner.parser.state.parsingHeader = true := by rw [hState]; rfl
  have hResets : scanner.parser.resets ch = false := by simp [resets, hState]
  have hByte : scanner.parser.scanByte ch = scanner.parser.scanField ch := by
    simp [scanByte, byteSwitch, hState]
  rw [effect, counted_of_header hHeader, scanByte_recount, hByte, hResets]
  rfl

/-- The characters of a name. -/
theorem scan_field {field : Bytes} (hTokens : ∀ ch ∈ field, isToken ch = true) {scanner : Scanner}
    (hState : scanner.parser.state = .headerField) :
    scanner.scan field =
      some (⟨(field.foldl headerFieldChar scanner.parser).recount
        (scanner.parser.nread + field.length) scanner.parser.isRunning,
        scanner.pending.advance field⟩, []) := by
  induction field generalizing scanner with
  | nil =>
      rw [Pending.advance_nil]
      rfl
  | cons ch field ih =>
      have hEffect : scanner.effect ch = ((scanner.parser.headerFieldChar ch).recount
          (scanner.parser.nread + 1) scanner.parser.isRunning).go [] := by
        rw [effect_field hState, scanField, if_pos (hTokens ch (by simp))]
        rfl
      have hStep := @step_of_next scanner ch (by rw [hEffect]; rfl)
      rw [follow, hEffect] at hStep
      have hRest := @ih (fun other hOther => hTokens other (by simp [hOther]))
        ⟨(scanner.parser.headerFieldChar ch).recount (scanner.parser.nread + 1)
          scanner.parser.isRunning, scanner.pending.advance [ch]⟩
        ((headerFieldChar_state scanner.parser ch).trans hState)
      refine (System.exec_cons_silent hStep field).trans (hRest.trans ?_)
      rw [foldl_headerFieldChar_recount, Pending.advance_append]
      simp [recount, Nat.add_assoc, Nat.add_comm 1]

end Scanner

namespace Context

variable {context : Context} {events : List ParserEvent} {scanner : Scanner} {exec : Execution}
  {p : Bytes} {pending : Pending} {n : Nat}

/-- The byte behind a name. -/
theorem Told.fieldEnd {ch : UInt8} {rest : Bytes}
    (hTold : context.Told events scanner exec (ch :: rest) pending)
    (hState : scanner.parser.state = .headerField) (hEnd : isToken ch = false)
    (hParser : exec.parser = scanner.parser.recount n true)
    (hCount : Counted context.fits context.slack (scanner.parser.nread + 1) n) :
    context.Follows events scanner (ch :: rest)
      (if ch = chr ':' then
        .next (Execution.call (ch :: rest)
          { exec with parser := { exec.parser with state := .headerValueDiscardWs } }
          (.data .headerField)) 0
      else .stop { exec with parser := { exec.parser with httpErrno := .invalidHeaderToken } }
        (ch :: rest)) := by
  have hLegal := @Scanner.effect_legal scanner ch hTold.sound
  rw [← hTold.slots (by simp [hState])] at hLegal
  have hCount' : Counted context.fits context.slack (scanner.effect ch).parser.nread n := by
    rw [Scanner.effect_nread, counted_of_header (by rw [hState]; rfl)]
    simpa [resets, recount, hState] using hCount
  have hApply := hTold.apply_follows hLegal hCount'
  have hEffect := Scanner.effect_field hState ch
  rw [scanField, if_neg (by simp [hEnd])] at hEffect
  rw [hEffect] at hApply
  rw [hParser]
  split_ifs with hColon
  · rw [if_pos hColon] at hApply
    exact hApply
  · rw [if_neg hColon] at hApply
    exact hApply

/-- `s_header_field` goes through a name, and through the colon behind it. -/
theorem Told.headerField (hTold : context.Told events scanner exec p pending)
    (hState : scanner.parser.state = .headerField) (hNonempty : p ≠ [])
    (hParser : exec.parser = scanner.parser.recount n true)
    (hCount : CountedByte context.fits context.slack scanner.parser.nread n) :
    context.Follows events scanner p (headerField exec p) := by
  have hTokens : ∀ ch ∈ p.takeWhile isToken, isToken ch = true :=
    fun ch hMem => List.mem_takeWhile_imp hMem
  have hSplit := @List.takeWhile_append_dropWhile _ isToken p
  have hTail : p.drop (p.takeWhile isToken).length = p.dropWhile isToken := by
    have hDrop := @List.drop_left _ (p.takeWhile isToken) (p.dropWhile isToken)
    rwa [hSplit] at hDrop
  have hEnd := @List.head?_dropWhile_not _ isToken p
  unfold RequestParser.headerField
  simp only [hTail]
  generalize p.takeWhile isToken = field at hTokens hSplit
  generalize p.dropWhile isToken = tail at hSplit hEnd
  subst hSplit
  have hScan := Scanner.scan_field hTokens hState
  have hAfter := hTold.advance (hTold.slots (by simp [hState])) hScan (fun _ => rfl)
  have hFold : field.foldl headerFieldChar exec.parser =
      (field.foldl headerFieldChar scanner.parser).recount n true := by
    rw [hParser, foldl_headerFieldChar_recount]
  have hNamed : (field.foldl headerFieldChar scanner.parser).state = .headerField :=
    (foldl_headerFieldChar_state field scanner.parser).trans hState
  generalize field.foldl headerFieldChar scanner.parser = named at hScan hAfter hFold hNamed
  have hErrno : (named.recount n true).httpErrno = .ok := hAfter.errno
  have hSound : (named.recount n true).Sound :=
    ⟨hAfter.sound.parser.contentLength, hAfter.sound.parser.atState⟩
  rw [hFold]
  split_ifs with hOverflow
  · refine .stop ((hAfter.overflow hSound hErrno rfl hOverflow ?_ tail).prepend hScan
      (List.append_nil events) (fun _ => rfl))
    intro hFits hPast
    have hBound := (hCount.bounds hFits).2
    change _ < n + field.length at hPast
    change _ ≤ 2 * (scanner.parser.nread + field.length) + context.slack
    omega
  · obtain ⟨hRoom, hCounted⟩ := count_of_not_overflow hErrno hOverflow
    rw [hCounted]
    change (n + field.length) % 2 ^ 32 ≤ _ at hRoom
    have hLength : context.fits → field.length + HTTP_MAX_HEADER_SIZE < 2 ^ 32 := by
      intro hFits
      have hAll := hTold.length hFits
      rw [List.length_append] at hAll
      omega
    cases tail with
    | nil =>
        rw [List.append_nil] at hNonempty hTold ⊢
        have hPos := List.length_pos_iff.2 hNonempty
        refine .next hScan (fun _ => (List.append_nil field).symm) ?_
          ⟨by simpa using hAfter.congr _, rfl, hCount.cut hLength hRoom hPos⟩
        rw [Nat.sub_add_cancel hPos, List.drop_length]
    | cons ch rest =>
        have hMore := (hCount.add hLength hRoom).counted
        have hFollows := (hAfter.congr (named.recount ((n + field.length) % 2 ^ 32) true)).fieldEnd
          hNamed hEnd rfl (by simpa [recount, Nat.add_right_comm] using hMore)
        by_cases hColon : ch = chr ':'
        · simp only [hColon, if_true] at hFollows ⊢
          exact hFollows.prepend_next hScan (List.append_nil events)
        · simp only [hColon, if_false] at hFollows ⊢
          exact hFollows.prepend_stop hScan (List.append_nil events)

end Context

end HeaderField

end Httpuv.RequestParser
