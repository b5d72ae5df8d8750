import Httpuv.Parser.Refinement

/-! The value of a header. Its loop follows the scanner, with the exception of bytes
behind `memchr` and of lines that are longer than a header block may be. -/
namespace Httpuv.RequestParser

open Semantics

namespace ValueState

/-- The parser with the header state that the loop keeps in a variable. -/
def settled (value : ValueState) : RequestParser := { value.parser with headerState := value.hState }

def scanner (value : ValueState) (nread : Nat) (isRunning : Bool) (pending : Pending) : Scanner where
  parser := value.settled.recount nread isRunning
  pending := pending

end ValueState

theorem Scanner.effect_value {scanner : Scanner} (hState : scanner.parser.state = .headerValue)
    (ch : UInt8) : scanner.effect ch =
      (scanner.parser.scanValue ch).recount (scanner.parser.nread + 1) scanner.parser.isRunning := by
  have hHeader : scanner.parser.state.parsingHeader = true := by rw [hState]; rfl
  have hResets : scanner.parser.resets ch = false := by simp [resets, hState]
  have hByte : scanner.parser.scanByte ch = scanner.parser.scanValue ch := by
    simp [scanByte, byteSwitch, hState]
  rw [effect, counted_of_header hHeader, scanByte_recount, hByte, hResets]
  rfl

/-- The effect of an end of line on the scanner. -/
theorem Scanner.effect_of_end {scanner : Scanner} {ch : UInt8}
    (hState : scanner.parser.state = .headerValue) (hEnd : ch = CR ∨ ch = LF) :
    scanner.effect ch = ({ scanner.parser with
      state := if ch = CR then .headerAlmostDone else .headerValueLws
      nread := scanner.parser.nread + 1 } : RequestParser).go [.data .headerValue] := by
  rw [Scanner.effect_value hState, scanValue]
  rcases hEnd with rfl | rfl
  · rw [if_pos rfl, if_pos rfl]
    rfl
  · rw [if_neg (by decide), if_pos rfl, if_neg (by decide)]
    rfl

section Characters

variable {value value' : ValueState} {ch : UInt8}

/-- No character looks at the header state that the value started with. -/
theorem headerValueChar_settled (value : ValueState) (headerState : HeaderState) (ch : UInt8) :
    headerValueChar ⟨{ value.parser with headerState }, value.hState⟩ ch =
      (headerValueChar value ch).map (fun next =>
        ⟨{ next.parser with headerState }, next.hState⟩) := by
  obtain ⟨parser, hState⟩ := value
  unfold headerValueChar
  cases hState <;> first
    | rfl
    | (dsimp only; split_ifs <;> rfl)

theorem headerValueChar_kept (hState : value.parser.state = .headerValue)
    (hNext : headerValueChar value ch = some value') :
    value'.parser.state = .headerValue ∧ value'.parser.headerState = value.parser.headerState ∧
      value'.parser.nread = value.parser.nread ∧
      value'.parser.isRunning = value.parser.isRunning := by
  obtain ⟨parser, word⟩ := value
  unfold headerValueChar at hNext
  cases word <;> dsimp only at hNext <;> (try split_ifs at hNext) <;> cases hNext <;>
    first
      | exact ⟨hState, rfl, rfl, rfl⟩
      | exact ⟨rfl, rfl, rfl, rfl⟩

variable {parser : RequestParser}

theorem scanValue_general (hEnd : ¬(ch = CR ∨ ch = LF)) (hGeneral : parser.headerState = .general) :
    parser.scanValue ch = parser.go [] := by
  obtain ⟨hCR, hLF⟩ := not_or.1 hEnd
  rw [scanValue, if_neg hCR, if_neg hLF, if_pos hGeneral]

theorem scanValue_char (hEnd : ¬(ch = CR ∨ ch = LF)) (hChar : isHeaderChar ch = true)
    (hGeneral : ¬parser.headerState = .general)
    (hNext : headerValueChar ⟨parser, parser.headerState⟩ ch = some value') :
    parser.scanValue ch = value'.settled.go [] := by
  obtain ⟨hCR, hLF⟩ := not_or.1 hEnd
  rw [scanValue, if_neg hCR, if_neg hLF, if_neg hGeneral, if_neg (by simp [hChar]), hNext]
  rfl

theorem scanValue_number (hEnd : ¬(ch = CR ∨ ch = LF)) (hChar : isHeaderChar ch = true)
    (hGeneral : ¬parser.headerState = .general)
    (hNone : headerValueChar ⟨parser, parser.headerState⟩ ch = none) :
    parser.scanValue ch = parser.fail [] .invalidContentLength := by
  obtain ⟨hCR, hLF⟩ := not_or.1 hEnd
  rw [scanValue, if_neg hCR, if_neg hLF, if_neg hGeneral, if_neg (by simp [hChar]), hNone]

theorem scanValue_control (hEnd : ¬(ch = CR ∨ ch = LF)) (hChar : isHeaderChar ch = false)
    (hGeneral : ¬parser.headerState = .general) :
    parser.scanValue ch = parser.fail [] .invalidHeaderToken := by
  obtain ⟨hCR, hLF⟩ := not_or.1 hEnd
  rw [scanValue, if_neg hCR, if_neg hLF, if_neg hGeneral, if_pos (by simp [hChar])]

/-- What a character of a value does to the scanner in it. -/
theorem headerValueChar_scanner (value : ValueState) (ch : UInt8) (nread : Nat) (isRunning : Bool) :
    headerValueChar ⟨value.settled.recount nread isRunning, value.hState⟩ ch =
      (headerValueChar value ch).map (fun next =>
        ⟨({ next.parser with headerState := value.hState } : RequestParser).recount nread isRunning,
          next.hState⟩) := by
  have hSettled := headerValueChar_settled value value.hState ch
  rw [headerValueChar_recount, ValueState.settled, hSettled, Option.map_map]
  rfl

end Characters

/-- The bytes lead from one state of a value to another one. -/
structure Reads (value : ValueState) (bytes : Bytes) (value' : ValueState) : Prop where
  state : value'.parser.state = .headerValue
  headerState : value'.parser.headerState = value.parser.headerState
  nread : value'.parser.nread = value.parser.nread
  isRunning : value'.parser.isRunning = value.parser.isRunning
  scan : ∀ nread isRunning pending, (value.scanner nread isRunning pending).scan bytes =
    some (value'.scanner (nread + bytes.length) isRunning (pending.advance bytes), [])

namespace Reads

variable {value middle value' : ValueState} {ch : UInt8} {first second bytes : Bytes}

theorem nil (hState : value.parser.state = .headerValue) : Reads value [] value where
  state := hState
  headerState := rfl
  nread := rfl
  isRunning := rfl
  scan nread isRunning pending := by
    rw [Pending.advance_nil]
    rfl

theorem trans (hFirst : Reads value first middle) (hSecond : Reads middle second value') :
    Reads value (first ++ second) value' where
  state := hSecond.state
  headerState := hSecond.headerState.trans hFirst.headerState
  nread := hSecond.nread.trans hFirst.nread
  isRunning := hSecond.isRunning.trans hFirst.isRunning
  scan nread isRunning pending := by
    rw [Context.scan_append (hFirst.scan nread isRunning pending) (hSecond.scan _ _ _),
      Pending.advance_append, List.length_append, Nat.add_assoc]
    rfl

/-- A byte that is not looked at. -/
theorem general (hState : value.parser.state = .headerValue) (hGeneral : value.hState = .general)
    (hEnd : ∀ ch ∈ bytes, ¬(ch = CR ∨ ch = LF)) : Reads value bytes value := by
  induction bytes with
  | nil => exact nil hState
  | cons ch bytes ih =>
      have hFirst : Reads value [ch] value := by
        refine ⟨hState, rfl, rfl, rfl, fun nread isRunning pending => ?_⟩
        have hEffect := @Scanner.effect_value (value.scanner nread isRunning pending) hState ch
        rw [scanValue_general (hEnd ch (by simp)) hGeneral] at hEffect
        have hScan := @Scanner.scan_of_next (value.scanner nread isRunning pending) ch
          (by rw [hEffect]; rfl)
        rw [Scanner.follow, hEffect] at hScan
        exact hScan
      exact hFirst.trans (ih (fun other hOther => hEnd other (by simp [hOther])))

/-- A character that is looked at. -/
theorem char (hState : value.parser.state = .headerValue) (hEnd : ¬(ch = CR ∨ ch = LF))
    (hChar : isHeaderChar ch = true) (hGeneral : ¬value.hState = .general)
    (hNext : headerValueChar value ch = some value') : Reads value [ch] value' := by
  obtain ⟨hState', hHeaderState, hNread, hRunning⟩ := headerValueChar_kept hState hNext
  refine ⟨hState', hHeaderState, hNread, hRunning, fun nread isRunning pending => ?_⟩
  have hEffect := @Scanner.effect_value (value.scanner nread isRunning pending) hState ch
  have hStep := headerValueChar_scanner value ch nread isRunning
  rw [hNext] at hStep
  have hChange : (value.scanner nread isRunning pending).parser.scanValue ch =
      ((value'.settled.recount nread isRunning).go []) :=
    scanValue_char hEnd hChar hGeneral hStep
  rw [hChange] at hEffect
  have hScan := @Scanner.scan_of_next (value.scanner nread isRunning pending) ch
    (by rw [hEffect]; rfl)
  rw [Scanner.follow, hEffect] at hScan
  exact hScan

end Reads

/-- How the loop over a value ends. The search for the end of a line gives up behind
the size of a header block. -/
inductive ValueExit.Follows (value : ValueState) (p : Bytes) : ValueExit → Prop
  | finish {read : Bytes} {value' : ValueState} (hReads : Reads value read value')
      (hLength : read.length = p.length)
      (hRead : read = p ∨ ∃ long rest value'', p = long ++ rest ∧
        HTTP_MAX_HEADER_SIZE ≤ long.length ∧ Reads value long value'') :
      ValueExit.Follows value p (.finish value')
  | atEnd {read rest : Bytes} {ch : UInt8} {value' : ValueState} (hReads : Reads value read value')
      (hRead : p = read ++ ch :: rest) (hEnd : ch = CR ∨ ch = LF) :
      ValueExit.Follows value p (.atEnd value' (ch :: rest))
  | control {read rest : Bytes} {ch : UInt8} {value' : ValueState}
      (hReads : Reads value read value') (hRead : p = read ++ ch :: rest)
      (hEnd : ¬(ch = CR ∨ ch = LF)) (hChar : isHeaderChar ch = false) :
      ValueExit.Follows value p
        (.error { value'.parser with httpErrno := .invalidHeaderToken } (ch :: rest))
  | number {read rest : Bytes} {ch : UInt8} {value' : ValueState} (hReads : Reads value read value')
      (hRead : p = read ++ ch :: rest) (hEnd : ¬(ch = CR ∨ ch = LF))
      (hChar : isHeaderChar ch = true) (hGeneral : ¬value'.hState = .general)
      (hNone : headerValueChar value' ch = none) :
      ValueExit.Follows value p
        (.error { value'.parser with
          headerState := value'.hState
          httpErrno := .invalidContentLength } (ch :: rest))

section Loop

variable {value middle : ValueState} {first tail p : Bytes} {ch : UInt8} {exit : ValueExit}

theorem ValueExit.Follows.prepend (hFirst : Reads value first middle)
    (hFollows : exit.Follows middle tail) : exit.Follows value (first ++ tail) := by
  cases hFollows with
  | finish hReads hLength hRead =>
      refine .finish (hFirst.trans hReads) (by simp [hLength]) ?_
      rcases hRead with rfl | ⟨long, rest, value'', rfl, hLong, hLongReads⟩
      · exact Or.inl rfl
      · refine Or.inr ⟨first ++ long, rest, value'', (List.append_assoc _ _ _).symm, ?_,
          hFirst.trans hLongReads⟩
        rw [List.length_append]
        omega
  | atEnd hReads hRead hEnd =>
      exact .atEnd (hFirst.trans hReads) (by rw [hRead, List.append_assoc]) hEnd
  | control hReads hRead hEnd hChar =>
      exact .control (hFirst.trans hReads) (by rw [hRead, List.append_assoc]) hEnd hChar
  | number hReads hRead hEnd hChar hGeneral hNone =>
      exact .number (hFirst.trans hReads) (by rw [hRead, List.append_assoc]) hEnd hChar hGeneral hNone

/-- The two searches stop at the first end of line, or find none. -/
theorem generalLength_spec (p : Bytes) :
    (∀ ch ∈ p.take (generalLength p), ¬(ch = CR ∨ ch = LF)) ∨
      generalLength p = p.length ∧ HTTP_MAX_HEADER_SIZE ≤ p.length ∧
        ∀ ch ∈ p.take HTTP_MAX_HEADER_SIZE, ¬(ch = CR ∨ ch = LF) := by
  have hNot : ∀ ch : UInt8, (ch == CR || ch == LF) = false → ¬(ch = CR ∨ ch = LF) := by
    intro ch hNo
    simpa using hNo
  unfold generalLength
  dsimp only
  split_ifs with hAny
  · left
    intro ch hMem
    obtain ⟨i, hIndex, rfl⟩ := List.mem_take_iff_getElem.1 hMem
    exact hNot _ (by simpa using List.not_of_lt_findIdx (Nat.lt_min.1 hIndex).1)
  · have hClear : ∀ ch ∈ p.take HTTP_MAX_HEADER_SIZE, ¬(ch = CR ∨ ch = LF) := by
      intro ch hMem
      simp only [List.any_eq_true, not_exists, not_and] at hAny
      have hNo := hAny ch hMem
      exact hNot ch (by simpa using hNo)
    by_cases hLong : HTTP_MAX_HEADER_SIZE ≤ p.length
    · exact Or.inr ⟨rfl, hLong, hClear⟩
    · rw [List.take_of_length_le (by omega)] at hClear ⊢
      exact Or.inl (by simpa using hClear)

theorem generalLength_pos (hEnd : ¬(ch = CR ∨ ch = LF)) : 0 < generalLength (ch :: tail) := by
  have hNo : (ch == CR || ch == LF) = false := by simpa using hEnd
  unfold generalLength
  dsimp only
  split_ifs
  · rw [List.findIdx_cons, hNo]
    exact Nat.succ_pos _
  · exact Nat.succ_pos _

theorem headerValueLoop_follows (value : ValueState) (p : Bytes)
    (hState : value.parser.state = .headerValue) :
    (headerValueLoop value p).Follows value p := by
  induction value, p using headerValueLoop.induct with
  | case1 value =>
      rw [headerValueLoop]
      exact .finish (.nil hState) rfl (Or.inl rfl)
  | case2 value ch rest hEnd =>
      rw [headerValueLoop, if_pos hEnd]
      exact .atEnd (.nil hState) rfl hEnd
  | case3 value ch rest hEnd hChar =>
      rw [headerValueLoop, if_neg hEnd, if_pos hChar]
      exact .control (.nil hState) rfl hEnd (by simpa using hChar)
  | case4 value ch rest hEnd hChar hGeneral ih =>
      rw [headerValueLoop, if_neg hEnd, if_neg hChar, if_pos hGeneral]
      have hPos := @generalLength_pos rest ch hEnd
      have hDrop : rest.drop (generalLength (ch :: rest) - 1) =
          (ch :: rest).drop (generalLength (ch :: rest)) := by
        conv_rhs => rw [← Nat.sub_add_cancel hPos]
        rfl
      rcases generalLength_spec (ch :: rest) with hClear | ⟨hAll, hLong, hClear⟩
      · have hFollows := (ih hState).prepend (Reads.general hState hGeneral hClear)
        rw [hDrop, List.take_append_drop] at hFollows
        rwa [hDrop]
      · -- No end of line has been found, so that the rest of the buffer is taken for the value.
        rw [hDrop, hAll, List.drop_length, headerValueLoop]
        have hBlank : ∀ other ∈ List.replicate (ch :: rest).length (chr ' '),
            ¬(other = CR ∨ other = LF) := by
          intro other hMem
          rw [List.eq_of_mem_replicate hMem]
          decide
        refine .finish (.general hState hGeneral hBlank) List.length_replicate
          (Or.inr ⟨(ch :: rest).take HTTP_MAX_HEADER_SIZE, (ch :: rest).drop HTTP_MAX_HEADER_SIZE,
            value, (List.take_append_drop _ _).symm, ?_, .general hState hGeneral hClear⟩)
        rw [List.length_take]
        omega
  | case5 value ch rest hEnd hChar hGeneral hNone =>
      rw [headerValueLoop, if_neg hEnd, if_neg hChar, if_neg hGeneral, hNone]
      exact .number (.nil hState) rfl hEnd (by simpa using hChar) hGeneral hNone
  | case6 value ch rest hEnd hChar hGeneral value' hNext ih =>
      rw [headerValueLoop, if_neg hEnd, if_neg hChar, if_neg hGeneral, hNext]
      have hRead := Reads.char hState hEnd (by simpa using hChar) hGeneral hNext
      exact (ih hRead.state).prepend hRead

end Loop

namespace Execution

variable {exec : Execution} {p : Bytes} {call : Call}

theorem parser_of_call : (exec.call p call).parser = exec.parser := by
  cases call with
  | mark callback =>
      unfold Execution.call
      dsimp only
      split_ifs <;> rfl
  | data callback =>
      unfold Execution.call
      dsimp only
      cases exec.marks callback <;> rfl
  | notify event => rfl

/-- The macros leave the members alone. -/
theorem call_with (parser : RequestParser) :
    ({ exec.call p call with parser } : Execution) = Execution.call p { exec with parser } call := by
  cases call with
  | mark callback =>
      unfold Execution.call
      dsimp only
      split_ifs <;> rfl
  | data callback =>
      unfold Execution.call
      dsimp only
      cases exec.marks callback <;> rfl
  | notify event => rfl

theorem apply_go (parser : RequestParser) :
    exec.apply p (parser.go []) = .next { exec with parser } 0 := rfl

end Execution

theorem headerAlmostDone_LF (parser : RequestParser) :
    parser.headerAlmostDone LF = ({ parser with state := .headerValueLws } : RequestParser).go [] :=
  if_neg (not_not.2 rfl)

namespace Context.Told

variable {context : Context} {events : List ParserEvent} {scanner : Scanner} {exec : Execution}
  {rest p : Bytes} {ch : UInt8} {pending : Pending} {n count : Nat}

/-- The end of a value is reported and counted. -/
theorem valueEnd (hTold : context.Told events scanner exec (ch :: rest) pending)
    (hState : scanner.parser.state = .headerValue) (hEnd : ch = CR ∨ ch = LF)
    (hCount : Counted context.fits context.slack (scanner.parser.nread + 1) n) :
    context.Follows events scanner (ch :: rest)
      (.next (Execution.call (ch :: rest) { exec with parser := { scanner.parser with
        state := if ch = CR then .headerAlmostDone else .headerValueLws
        nread := n
        isRunning := true } } (.data .headerValue)) 0) := by
  have hEffect := Scanner.effect_of_end hState hEnd
  have hControl : (scanner.effect ch).control = .next := by rw [hEffect]; rfl
  have hLegal := @Scanner.effect_legal scanner ch hTold.sound
  rw [← hTold.slots (by simp [hState])] at hLegal
  have hNread : (scanner.effect ch).parser.nread = scanner.parser.nread + 1 := by rw [hEffect]; rfl
  have hFollow := hTold.follow hLegal hControl (by rwa [hNread])
  have hScan := Scanner.scan_of_next hControl
  rw [hEffect] at hFollow hScan
  exact .next hScan (fun _ => rfl) rfl hFollow

/-- The scanner and the execution behind some bytes of a value. -/
theorem reads {value value' : ValueState} {read : Bytes}
    (hTold : context.Told events scanner exec (read ++ rest) pending)
    (hState : scanner.parser.state = .headerValue)
    (hValue : value.scanner scanner.parser.nread scanner.parser.isRunning scanner.pending = scanner)
    (hReads : Reads value read value') :
    scanner.scan read = some (value'.scanner (scanner.parser.nread + read.length)
        scanner.parser.isRunning (scanner.pending.advance read), []) ∧
      context.Told events (value'.scanner (scanner.parser.nread + read.length)
        scanner.parser.isRunning (scanner.pending.advance read)) exec rest
        (pending.advance read) := by
  have hScan := hReads.scan scanner.parser.nread scanner.parser.isRunning scanner.pending
  rw [hValue] at hScan
  exact ⟨hScan, hTold.advance (hTold.slots (by simp [hState])) hScan (fun _ => rfl)⟩

/-- A value that the buffer does not hold to its end. -/
theorem valueFinish {value value' : ValueState} {read : Bytes}
    (hTold : context.Told events scanner exec p pending)
    (hState : scanner.parser.state = .headerValue) (hNonempty : p ≠ [])
    (hValue : value.scanner scanner.parser.nread scanner.parser.isRunning scanner.pending = scanner)
    (hNread : value.parser.nread = n) (hRunning : value.parser.isRunning = true)
    (hCount : CountedByte context.fits context.slack scanner.parser.nread n)
    (hReads : Reads value read value') (hLength : read.length = p.length)
    (hRead : read = p ∨ ∃ long rest value'', p = long ++ rest ∧
      HTTP_MAX_HEADER_SIZE ≤ long.length ∧ Reads value long value'') :
    context.Follows events scanner p
      (if (value'.settled.countHeaderSize p.length).httpErrno = .headerOverflow then
        .stop { exec with parser := value'.settled.countHeaderSize p.length } []
      else .next { exec with parser := value'.settled.countHeaderSize p.length }
        (p.length - 1)) := by
  have hScan := hReads.scan scanner.parser.nread scanner.parser.isRunning scanner.pending
  rw [hValue] at hScan
  obtain ⟨hSound, hErrno, hPhase⟩ := Scanner.scan_sound hTold.sound hScan
  have hSettled : value'.settled = value'.settled.recount n true := by
    rw [← hNread, ← hRunning, ← hReads.nread, ← hReads.isRunning]
    rfl
  have hSettledSound : value'.settled.Sound :=
    ⟨hSound.parser.contentLength, hSound.parser.atState⟩
  have hSettledErrno : value'.settled.httpErrno = .ok := hErrno.trans hTold.errno
  have hSettledPhase : value'.settled.phase = scanner.parser.phase := (Option.some.inj hPhase).symm
  have hCounted : value'.settled.nread = n := congrArg RequestParser.nread hSettled
  split_ifs with hOverflow
  · rcases hRead with rfl | ⟨long, rest, value'', rfl, hLong, hLongReads⟩
    · obtain ⟨-, hAfter⟩ := @reads context events scanner exec [] pending value value' read
        (by rwa [List.append_nil]) hState hValue hReads
      refine .stop ((hAfter.overflow hSettledSound hSettledErrno rfl hOverflow ?_ []).prepend hScan
        (List.append_nil events) (fun _ => (List.append_nil read).symm))
      intro hFits hPast
      have hBound := (hCount.bounds hFits).2
      change _ ≤ 2 * (scanner.parser.nread + read.length) + context.slack
      omega
    · obtain ⟨hLongScan, hAfter⟩ := reads hTold hState hValue hLongReads
      have hLongPhase := (Scanner.scan_sound hTold.sound hLongScan).2.2
      refine .stop ((hAfter.overflow hSettledSound hSettledErrno
        (hSettledPhase.trans (Option.some.inj hLongPhase)) hOverflow ?_ []).prepend hLongScan
        (List.append_nil events) (fun _ => rfl))
      intro _ _
      change _ ≤ 2 * (scanner.parser.nread + long.length) + context.slack
      omega
  · obtain ⟨hRoom, hSame⟩ := count_of_not_overflow hSettledErrno hOverflow
    rw [hCounted] at hRoom
    have hWhole : context.fits → p = read := by
      intro hFits
      have hLess := hTold.length hFits
      have hBound := (hCount.bounds hFits).1
      have hLimit := hCount.limit
      rcases hRead with rfl | ⟨long, rest, -, rfl, hLong, -⟩
      · rfl
      · rw [Nat.mod_eq_of_lt (by omega)] at hRoom
        rw [List.length_append] at hRoom
        omega
    have hPos := List.length_pos_iff.2 hNonempty
    have hAfter := Told.advance (by rwa [List.append_nil]) (hTold.slots (by simp [hState])) hScan
      hWhole
    have hParser : value'.settled.countHeaderSize p.length =
        value'.settled.recount ((n + p.length) % 2 ^ 32) true := by
      rw [hSame, hCounted, hSettled]
      rfl
    rw [hParser]
    refine .next hScan (fun hFits => (hWhole hFits).trans (List.append_nil read).symm) ?_
      ⟨by rw [List.append_nil]; exact hAfter.congr _, rfl, ?_⟩
    · rw [Nat.sub_add_cancel hPos, List.drop_length]
    · change Counted _ _ (scanner.parser.nread + read.length) _
      rw [hLength]
      exact hCount.cut hTold.length hRoom hPos

/-- A value that a carriage return ends. -/
theorem valueCR (hTold : context.Told events scanner exec (CR :: rest) pending)
    (hState : scanner.parser.state = .headerValue) {parser : RequestParser}
    (hParser : parser = ({ scanner.parser with
      state := .headerAlmostDone
      nread := n
      isRunning := true } : RequestParser))
    (hLength : context.fits → count + HTTP_MAX_HEADER_SIZE < 2 ^ 32)
    (hCount : n ≤ HTTP_MAX_HEADER_SIZE ∧ (context.fits → scanner.parser.nread + 1 ≤ n + count ∧
      n + count ≤ 2 * scanner.parser.nread + 1 + context.slack)) :
    context.Follows events scanner (CR :: rest)
      (if (parser.countHeaderSize count).httpErrno = .headerOverflow then
        .stop (Execution.call (CR :: rest) { exec with parser := parser.countHeaderSize count }
          (.data .headerValue)) (CR :: rest)
      else .next (Execution.call (CR :: rest) { exec with parser := parser.countHeaderSize count }
        (.data .headerValue)) 0) := by
  have hErrno : parser.httpErrno = .ok := by rw [hParser]; exact hTold.errno
  have hEffect := Scanner.effect_of_end hState (Or.inl (rfl : CR = CR))
  rw [if_pos rfl] at hEffect
  have hControl : (scanner.effect CR).control = .next := by rw [hEffect]; rfl
  have hLegal := @Scanner.effect_legal scanner CR hTold.sound
  rw [← hTold.slots (by simp [hState])] at hLegal
  split_ifs with hOverflow
  · have hSound : parser.Sound := by
      have hAfter := hLegal.sound
      rw [hEffect] at hAfter
      rw [hParser]
      exact ⟨hAfter.contentLength, hAfter.atState⟩
    have hPhase : parser.phase = (scanner.follow CR).parser.phase := by
      rw [Scanner.follow, hEffect, hParser]
      rfl
    have hPass := hTold.pass hLegal hControl parser
    have hNread : (scanner.follow CR).parser.nread = scanner.parser.nread + 1 := by
      rw [Scanner.follow, hEffect]
      rfl
    have hHalted := hPass.overflow hSound hErrno hPhase hOverflow (by
      intro hFits hPast
      have hBounds := hCount.2 hFits
      have hStart : parser.nread = n := by rw [hParser]
      omega) (CR :: rest)
    rw [hEffect] at hHalted
    have hScan := Scanner.scan_of_next hControl
    rw [hEffect] at hScan
    have hCall : Execution.call (CR :: rest) { exec with parser := parser.countHeaderSize count }
        (.data .headerValue) = { Execution.callAll (CR :: rest) { exec with parser }
          [.data .headerValue] with parser := parser.countHeaderSize count } :=
      (@Execution.call_with { exec with parser } (CR :: rest) (.data .headerValue)
        (parser.countHeaderSize count)).symm
    rw [hCall]
    exact .stop (hHalted.prepend hScan rfl (fun _ => rfl))
  · obtain ⟨hRoom, hSame⟩ := count_of_not_overflow hErrno hOverflow
    have hNread : parser.nread = n := by rw [hParser]
    rw [hNread] at hRoom hSame
    have hEnd := hTold.valueEnd (n := (n + count) % 2 ^ 32) hState (Or.inl rfl) ⟨hRoom, by
      intro hFits
      have hLess := hLength hFits
      have hBounds := hCount.2 hFits
      rw [Nat.mod_eq_of_lt (by omega)]
      omega⟩
    rw [if_pos rfl] at hEnd
    rw [hSame, hParser]
    exact hEnd

/-- A value that a line feed ends. -/
theorem valueLF (hTold : context.Told events scanner exec (LF :: rest) pending)
    (hState : scanner.parser.state = .headerValue) {parser : RequestParser}
    {headerState : HeaderState}
    (hParser : parser = ({ scanner.parser with
      state := .headerAlmostDone
      headerState
      nread := n
      isRunning := true } : RequestParser))
    (hLength : context.fits → count + HTTP_MAX_HEADER_SIZE < 2 ^ 32)
    (hCount : n ≤ HTTP_MAX_HEADER_SIZE ∧ (context.fits → scanner.parser.nread + 1 ≤ n + count ∧
      n + count ≤ 2 * scanner.parser.nread + 1 + context.slack)) :
    context.Follows events scanner (LF :: rest)
      (if (parser.countHeaderSize count).httpErrno = .headerOverflow then
        .stop { exec with parser := parser.countHeaderSize count } (LF :: rest)
      else .next (Execution.call (LF :: rest) { exec with parser :=
          { parser.countHeaderSize count with
            headerState := scanner.parser.headerState
            state := .headerValueLws } } (.data .headerValue)) 0) := by
  have hErrno : parser.httpErrno = .ok := by rw [hParser]; exact hTold.errno
  split_ifs with hOverflow
  · have hIn : scanner.parser.state.inHeaders = true := by rw [hState]; rfl
    have hSame : SameBlock scanner.parser parser := by
      rw [hParser]
      exact ⟨rfl, rfl, rfl, rfl, hTold.sound.parser.contentLength⟩
    have hSound := hSame.sound hTold.sound.parser hIn (by simp [hParser]) (by simp [hParser])
    refine .stop (hTold.overflow hSound hErrno (hSame.phase hIn) hOverflow ?_ _)
    intro hFits hPast
    have hBounds := hCount.2 hFits
    have hStart : parser.nread = n := by rw [hParser]
    omega
  · obtain ⟨hRoom, hSame⟩ := count_of_not_overflow hErrno hOverflow
    have hNread : parser.nread = n := by rw [hParser]
    rw [hNread] at hRoom hSame
    have hEnd := hTold.valueEnd hState (Or.inr rfl) ⟨hRoom, by
      intro hFits
      have hLess := hLength hFits
      have hBounds := hCount.2 hFits
      rw [Nat.mod_eq_of_lt (by omega)]
      omega⟩
    rw [if_neg (by decide)] at hEnd
    rw [hSame, hParser]
    exact hEnd

/-- A failure without a report. -/
theorem failure (hTold : context.Told events scanner exec (ch :: rest) pending)
    {parser : RequestParser} (hCalls : (scanner.effect ch).calls = [])
    (hControl : (scanner.effect ch).control = .error)
    (hErrno : parser.httpErrno = (scanner.effect ch).parser.httpErrno) (hSound : parser.Sound)
    (hPhase : parser.phase = scanner.parser.phase) :
    context.Halted events scanner (ch :: rest) { exec with parser } (ch :: rest) := by
  have hAgree : Agree context.fits (context.past ++ exec.events) pending
      (events ++ ([] ++ (scanner.pending.reportAll (scanner.effect ch).calls).2))
      (scanner.pending.reportAll (scanner.effect ch).calls).1 := by
    rw [hCalls]
    simpa [Pending.reportAll] using hTold.agree
  refine .error scanner.scan_nil (fun _ => rfl) hControl hErrno hSound (Or.inl ?_) hAgree
  rw [hPhase]
  exact hTold.order

variable {value : ValueState} {nread : Nat} {isRunning : Bool} {piece : Pending}

/-- A control character in a value. A value that is not looked at does not stop the scanner. -/
theorem valueControl (hTold : context.Told events (value.scanner nread isRunning piece) exec
      (ch :: rest) pending)
    (hState : value.parser.state = .headerValue) (hOld : value.parser.headerState.ofValue = true)
    (hEnd : ¬(ch = CR ∨ ch = LF)) (hChar : isHeaderChar ch = false) :
    context.Halted events (value.scanner nread isRunning piece) (ch :: rest)
      { exec with parser := { value.parser with httpErrno := .invalidHeaderToken } }
      (ch :: rest) := by
  have hIn : value.parser.state.inHeaders = true := by rw [hState]; rfl
  have hPhase : ({ value.parser with httpErrno := .invalidHeaderToken } : RequestParser).phase =
      value.settled.phase := rfl
  have hSound : ({ value.parser with httpErrno := .invalidHeaderToken } : RequestParser).Sound := by
    refine ⟨hTold.sound.parser.contentLength, atState_of_headers hIn ?_ (by simp [hState])
      (fun _ => hOld)⟩
    exact @trailing_of_headers (value.scanner nread isRunning piece).parser hIn hTold.sound.parser
  by_cases hGeneral : value.hState = .general
  · exact .control (Scanner.scan_nil _) (fun _ => rfl) hState hChar rfl hSound (Or.inl hTold.order)
      (by simpa using hTold.agree)
  · have hEffect := @Scanner.effect_value (value.scanner nread isRunning piece) hState ch
    have hChange : (value.scanner nread isRunning piece).parser.scanValue ch =
        (value.scanner nread isRunning piece).parser.fail [] .invalidHeaderToken :=
      scanValue_control hEnd hChar hGeneral
    rw [hChange] at hEffect
    exact hTold.failure (by rw [hEffect]; rfl) (by rw [hEffect]; rfl) (by rw [hEffect]; rfl) hSound
      rfl

/-- A character that is no digit in a content length, or one digit too many. -/
theorem valueNumber (hTold : context.Told events (value.scanner nread isRunning piece) exec
      (ch :: rest) pending)
    (hState : value.parser.state = .headerValue) (hEnd : ¬(ch = CR ∨ ch = LF))
    (hChar : isHeaderChar ch = true) (hGeneral : ¬value.hState = .general)
    (hNone : headerValueChar value ch = none) :
    context.Halted events (value.scanner nread isRunning piece) (ch :: rest)
      { exec with parser := { value.parser with
        headerState := value.hState
        httpErrno := .invalidContentLength } } (ch :: rest) := by
  have hSound : ({ value.parser with
      headerState := value.hState
      httpErrno := .invalidContentLength } : RequestParser).Sound :=
    ⟨hTold.sound.parser.contentLength, hTold.sound.parser.atState⟩
  have hStep := headerValueChar_scanner value ch nread isRunning
  rw [hNone] at hStep
  have hEffect := @Scanner.effect_value (value.scanner nread isRunning piece) hState ch
  have hChange : (value.scanner nread isRunning piece).parser.scanValue ch =
      (value.scanner nread isRunning piece).parser.fail [] .invalidContentLength :=
    scanValue_number hEnd hChar hGeneral hStep
  rw [hChange] at hEffect
  exact hTold.failure (by rw [hEffect]; rfl) (by rw [hEffect]; rfl) (by rw [hEffect]; rfl) hSound rfl

/-- `s_header_value` goes through a value, and through the end of the line behind it. -/
theorem headerValue (hTold : context.Told events scanner exec p pending)
    (hState : scanner.parser.state = .headerValue) (hNonempty : p ≠ [])
    (hParser : exec.parser = scanner.parser.recount n true)
    (hCount : CountedByte context.fits context.slack scanner.parser.nread n) :
    context.Follows events scanner p (headerValue exec p) := by
  have hStart : exec.parser.state = .headerValue := by rw [hParser]; exact hState
  have hNread : exec.parser.nread = n := by rw [hParser]; rfl
  have hRunning : exec.parser.isRunning = true := by rw [hParser]; rfl
  have hLoop := headerValueLoop_follows ⟨exec.parser, exec.parser.headerState⟩ p hStart
  have hValue : ValueState.scanner ⟨exec.parser, exec.parser.headerState⟩ scanner.parser.nread
      scanner.parser.isRunning scanner.pending = scanner := by
    rw [hParser]
    rfl
  unfold RequestParser.headerValue
  generalize headerValueLoop ⟨exec.parser, exec.parser.headerState⟩ p = exit at hLoop
  cases hLoop with
  | @finish read value' hReads hLength hRead =>
      exact hTold.valueFinish hState hNonempty hValue hNread hRunning hCount hReads hLength hRead
  | @atEnd read rest ch value' hReads hRead hEnd =>
      subst hRead
      obtain ⟨hScan, hAfter⟩ := hTold.reads hState hValue hReads
      have hLength : (read ++ ch :: rest).length - (ch :: rest).length = read.length := by simp
      have hRoom : context.fits → read.length + HTTP_MAX_HEADER_SIZE < 2 ^ 32 := by
        intro hFits
        have hLess := hTold.length hFits
        rw [List.length_append] at hLess
        omega
      have hBounds : n ≤ HTTP_MAX_HEADER_SIZE ∧ (context.fits →
          scanner.parser.nread + read.length + 1 ≤ n + read.length ∧
            n + read.length ≤ 2 * (scanner.parser.nread + read.length) + 1 + context.slack) := by
        refine ⟨hCount.limit, fun hFits => ?_⟩
        have hBound := hCount.bounds hFits
        omega
      dsimp only
      rw [hLength]
      have hNread' : value'.parser.nread = n := hReads.nread.trans hNread
      have hRunning' : value'.parser.isRunning = true := hReads.isRunning.trans hRunning
      rcases hEnd with rfl | rfl
      · have hParser' : ({ value'.settled with state := .headerAlmostDone } : RequestParser) =
            { (value'.scanner (scanner.parser.nread + read.length) scanner.parser.isRunning
              (scanner.pending.advance read)).parser with
                state := .headerAlmostDone
                nread := n
                isRunning := true } := by
          rw [← hNread', ← hRunning']
          rfl
        have hCR := hAfter.valueCR hReads.state hParser' hRoom hBounds
        simp only [List.head?_cons, if_true, Execution.parser_of_call, Execution.call_with]
        exact hCR.prepend_ite hScan (List.append_nil events)
      · have hParser' : ({ value'.parser with state := .headerAlmostDone } : RequestParser) =
            { (value'.scanner (scanner.parser.nread + read.length) scanner.parser.isRunning
              (scanner.pending.advance read)).parser with
                state := .headerAlmostDone
                headerState := value'.parser.headerState
                nread := n
                isRunning := true } := by
          rw [← hNread', ← hRunning']
          rfl
        have hLF := hAfter.valueLF hReads.state hParser' hRoom hBounds
        have hNot : ¬some LF = some CR := by decide
        simp only [List.head?_cons, hNot, if_false, Execution.parser_of_call, headerAlmostDone_LF,
          Execution.apply_go, Execution.call_with]
        exact hLF.prepend_ite hScan (List.append_nil events)
  | @control read rest ch value' hReads hRead hEnd hChar =>
      subst hRead
      obtain ⟨hScan, hAfter⟩ := hTold.reads hState hValue hReads
      refine .stop (Halted.prepend hScan (List.append_nil events) (fun _ => rfl) ?_)
      have hOld : value'.parser.headerState.ofValue = true := by
        rw [hReads.headerState, hParser]
        have hAt := hTold.sound.parser.atState
        simp only [AtState, hState] at hAt
        exact hAt.2
      exact hAfter.valueControl hReads.state hOld hEnd hChar
  | @number read rest ch value' hReads hRead hEnd hChar hGeneral hNone =>
      subst hRead
      obtain ⟨hScan, hAfter⟩ := hTold.reads hState hValue hReads
      refine .stop (Halted.prepend hScan (List.append_nil events) (fun _ => rfl) ?_)
      exact hAfter.valueNumber hReads.state hEnd hChar hGeneral hNone

end Context.Told

end Httpuv.RequestParser
