import Httpuv.Parser.HeaderValues

/-! Bodies, and the executions of `http_parser_execute` as a whole. -/
namespace Httpuv.RequestParser

open Semantics

/-- The states in a body of a known length. -/
def State.inBody : State → Bool
  | .bodyIdentity | .chunkData => true
  | _ => false

namespace Scanner

variable {scanner : Scanner} {ch : UInt8}

theorem effect_body (hState : scanner.parser.state.inBody = true)
    (hLength : 1 < scanner.parser.contentLength) (ch : UInt8) : scanner.effect ch =
      ({ scanner.parser with contentLength := scanner.parser.contentLength - 1 } :
        RequestParser).go [.notify (.onBody [ch])] := by
  have hMore : scanner.parser.contentLength - 1 ≠ 0 := by omega
  cases hBody : scanner.parser.state <;> rw [hBody] at hState <;> cases hState
  all_goals
    have hCounted : scanner.parser.counted = scanner.parser := if_neg (by rw [hBody]; decide)
    simp [effect, hCounted, scanByte, byteSwitch, hBody, scanIdentity, scanChunk, hMore]

theorem effect_identity (hState : scanner.parser.state = .bodyIdentity)
    (hLength : scanner.parser.contentLength = 1) (ch : UInt8) : scanner.effect ch =
      { RequestParser.messageDone { scanner.parser with contentLength := 0 } with
        calls := [.notify (.onBody [ch]), .notify .onMessageComplete] } := by
  have hCounted : scanner.parser.counted = scanner.parser := if_neg (by rw [hState]; decide)
  simp [effect, hCounted, scanByte, byteSwitch, hState, scanIdentity, hLength,
    RequestParser.messageDone]

theorem effect_chunk (hState : scanner.parser.state = .chunkData)
    (hLength : scanner.parser.contentLength = 1) (ch : UInt8) : scanner.effect ch =
      ({ scanner.parser with contentLength := 0, state := .chunkDataAlmostDone } :
        RequestParser).go [.notify (.onBody [ch])] := by
  have hCounted : scanner.parser.counted = scanner.parser := if_neg (by rw [hState]; decide)
  simp [effect, hCounted, scanByte, byteSwitch, hState, scanChunk, hLength]

/-- The bytes of a body, short of its last one. -/
theorem scan_body {bytes : Bytes} (hState : scanner.parser.state.inBody = true)
    (hPending : scanner.pending = none) (hLength : bytes.length < scanner.parser.contentLength) :
    scanner.scan bytes = some (⟨{ scanner.parser with
      contentLength := scanner.parser.contentLength - bytes.length }, none⟩,
      bytes.map (fun ch => .onBody [ch])) := by
  induction bytes generalizing scanner with
  | nil =>
      rw [scan_nil, ← hPending]
      rfl
  | cons ch bytes ih =>
      rw [List.length_cons] at hLength
      have hEffect := effect_body hState (by omega) ch
      have hStep := @scan_of_next scanner ch (by rw [hEffect]; rfl)
      rw [follow, hEffect, hPending] at hStep
      have hRest := @ih ⟨{ scanner.parser with
        contentLength := scanner.parser.contentLength - 1 }, none⟩ hState rfl (by
          dsimp only
          omega)
      have hScan := Context.scan_append hStep hRest
      rw [List.singleton_append] at hScan
      rw [hScan, List.length_cons, Nat.sub_sub, Nat.add_comm 1]
      rfl

/-- The data of a chunk. -/
theorem scan_chunk {bytes : Bytes} (hState : scanner.parser.state = .chunkData)
    (hPending : scanner.pending = none) (hLength : bytes.length + 1 = scanner.parser.contentLength) :
    scanner.scan (bytes ++ [ch]) = some (⟨{ scanner.parser with
      contentLength := 0
      state := .chunkDataAlmostDone }, none⟩,
      (bytes ++ [ch]).map (fun ch => .onBody [ch])) := by
  have hScan := @scan_body scanner bytes (by rw [hState]; rfl) hPending (by omega)
  have hEffect := @effect_chunk ⟨{ scanner.parser with
    contentLength := scanner.parser.contentLength - bytes.length }, none⟩ hState
    (show scanner.parser.contentLength - bytes.length = 1 by omega) ch
  have hLast := @scan_of_next ⟨{ scanner.parser with
    contentLength := scanner.parser.contentLength - bytes.length }, none⟩ ch (by rw [hEffect]; rfl)
  rw [follow, hEffect] at hLast
  rw [List.map_append]
  exact Context.scan_append hScan hLast

/-- A body up to its last byte. -/
theorem scan_identity {bytes : Bytes} (hState : scanner.parser.state = .bodyIdentity)
    (hPending : scanner.pending = none) (hLength : bytes.length + 1 = scanner.parser.contentLength)
    (ch : UInt8) : ∃ left : Scanner,
      scanner.scan bytes = some (left, bytes.map (fun ch => .onBody [ch])) ∧
      left.pending = none ∧ left.parser.state = .bodyIdentity ∧
      left.effect ch = { RequestParser.messageDone { scanner.parser with contentLength := 0 } with
        calls := [.notify (.onBody [ch]), .notify .onMessageComplete] } :=
  ⟨_, scan_body (by rw [hState]; rfl) hPending (by omega), rfl, hState,
    @effect_identity ⟨{ scanner.parser with
      contentLength := scanner.parser.contentLength - bytes.length }, none⟩ hState
      (show scanner.parser.contentLength - bytes.length = 1 by omega) ch⟩

end Scanner

theorem Execution.apply_messageDone (exec : Execution) (ch : UInt8) (rest : Bytes)
    (parser : RequestParser) : exec.apply (ch :: rest) parser.messageDone =
      if parser.upgrade then
        .stop { exec with
          parser := { parser with state := parser.newMessage }
          events := exec.events ++ [.onMessageComplete] } rest
      else .next { exec with
          parser := { parser with state := parser.newMessage }
          events := exec.events ++ [.onMessageComplete] } 0 := by
  unfold Execution.apply RequestParser.messageDone
  dsimp only
  split_ifs <;> rfl

namespace Context

variable {context : Context} {events : List ParserEvent} {scanner : Scanner} {exec : Execution}
  {ch : UInt8} {read rest p : Bytes} {pending : Pending} {n : Nat}

namespace Told

theorem pending_of_body (hTold : context.Told events scanner exec p pending)
    (hState : scanner.parser.state.inBody = true) : scanner.pending = none := by
  have hSlot := hTold.sound.slot
  cases hBody : scanner.parser.state <;> rw [hBody] at hState hSlot <;> cases hState <;>
    simpa [State.open] using hSlot

/-- The execution marks a body and moves on past some bytes of it. -/
theorem body (hTold : context.Told events scanner exec (read ++ rest) pending)
    (hState : scanner.parser.state.inBody = true) (hNonempty : read ≠ []) :
    (exec.call (read ++ rest) (.mark .body)).events = exec.events ∧
      (exec.call (read ++ rest) (.mark .body)).Has rest
        ((pending.report (.mark .body)).1.advance read) ∧
      ((pending.report (.mark .body)).1.advance read).map Prod.fst = some .body ∧
      Agree context.fits (context.past ++ exec.events)
        ((pending.report (.mark .body)).1.advance read)
        (events ++ read.map (fun ch => .onBody [ch])) none := by
  have hNone := hTold.pending_of_body hState
  have hAgree := hTold.agree
  have hHas := hTold.has
  rw [hNone] at hAgree
  have hMarked : (exec.call (read ++ rest) (.mark .body)).events = exec.events ∧
      (exec.call (read ++ rest) (.mark .body)).Has (read ++ rest)
        (pending.report (.mark .body)).1 ∧
      (pending.report (.mark .body)).1.map Prod.fst = some .body := by
    rcases hAgree.slots with hSlot | ⟨-, hSlot⟩
    · obtain rfl : pending = none := by simpa using hSlot
      obtain ⟨-, hEvents, hHas', -⟩ := @Execution.call_pending exec (read ++ rest) none hHas
        (.mark .body) (.body, none) (.body, some .body) rfl rfl
      exact ⟨hEvents.trans (List.append_nil _), hHas', rfl⟩
    · cases pending with
      | none => cases hSlot
      | some marked =>
          obtain ⟨callback, piece⟩ := marked
          obtain rfl : callback = .body := by simpa using hSlot
          have hSet : exec.marks .body = some (piece ++ (read ++ rest)) := by
            rw [hHas]
            simp [Pending.marks]
          have hSame : exec.call (read ++ rest) (.mark .body) = exec := by
            simp [Execution.call, hSet]
          rw [hSame]
          exact ⟨rfl, hHas, rfl⟩
  obtain ⟨hEvents, hHas', hSlot⟩ := hMarked
  exact ⟨hEvents, has_advance hHas', by rw [Pending.advance_slot, hSlot],
    hAgree.mark_body hNonempty⟩

/-- A body that goes on behind some bytes of it. -/
theorem body_next (hTold : context.Told events scanner exec (read ++ rest) pending)
    (hState : scanner.parser.state.inBody = true) (hNonempty : read ≠ []) {after : Scanner}
    (hScan : scanner.scan read = some (after, read.map (fun ch => .onBody [ch])))
    (hAfter : after.parser.state = .chunkDataAlmostDone ∨ after.parser.state = .chunkData ∨
      after.parser.state = .bodyIdentity)
    (hCount : Counted context.fits context.slack after.parser.nread n) :
    context.Follows events scanner (read ++ rest)
      (.next (Execution.call (read ++ rest) { exec with parser := after.parser.recount n true }
        (.mark .body)) (read.length - 1)) := by
  obtain ⟨hEvents, hHas, hSlot, hAgree⟩ :=
    (hTold.congr (after.parser.recount n true)).body hState hNonempty
  obtain ⟨hSound, hErrno, hPhase⟩ := Scanner.scan_sound hTold.sound hScan
  have hNone : after.pending = none := by
    have hOpen := hSound.slot
    rcases hAfter with h | h | h <;> rw [h] at hOpen <;> simpa [State.open] using hOpen
  have hSame : scanner.parser.phase = after.parser.phase := by
    have hBody : ∀ bytes : Bytes, ParserPhase.after .body
        (bytes.map (fun ch => ParserEvent.onBody [ch])) = some .body := by
      intro bytes
      induction bytes with
      | nil => rfl
      | cons ch bytes ih => exact ih
    have hStart : scanner.parser.phase = .body := by
      cases hBody : scanner.parser.state <;> rw [hBody] at hState <;> cases hState <;>
        simp [RequestParser.phase, hBody]
    rw [hStart, hBody] at hPhase
    rw [hStart]
    exact Option.some.inj hPhase
  have hSkipped : read.length - 1 + 1 = read.length :=
    Nat.sub_add_cancel (List.length_pos_iff.2 hNonempty)
  refine .next hScan (fun _ => rfl) (by rw [hSkipped, List.drop_left])
    ⟨⟨hSound, hErrno.trans hTold.errno, Or.inr ⟨hSlot, hAfter⟩, hHas, ?_, ?_, ?_⟩,
      Execution.parser_of_call, hCount⟩
  · rw [hEvents, hNone]
    exact hAgree
  · rw [hEvents, ← hSame]
    exact hTold.order
  · intro hFits
    have hLength := hTold.length hFits
    rw [List.length_append] at hLength
    omega

theorem toRead_split {parser : RequestParser} (hLength : parser.contentLength ≤ p.length)
    (hPos : 0 < parser.contentLength) :
    ∃ read ch rest, p = read ++ ch :: rest ∧ read.length + 1 = parser.contentLength := by
  have hLess : parser.contentLength - 1 < p.length := by omega
  refine ⟨p.take (parser.contentLength - 1), p[parser.contentLength - 1],
    p.drop (parser.contentLength - 1 + 1), ?_, ?_⟩
  · rw [← List.drop_eq_getElem_cons hLess, List.take_append_drop]
  · rw [List.length_take]
    omega

/-- `s_chunk_data` -/
theorem chunkData (hTold : context.Told events scanner exec p pending)
    (hState : scanner.parser.state = .chunkData) (hNonempty : p ≠ [])
    (hParser : exec.parser = scanner.parser.recount n true)
    (hCount : Counted context.fits context.slack scanner.parser.nread n) :
    context.Follows events scanner p (chunkData exec p) := by
  have hBody : scanner.parser.state.inBody = true := by rw [hState]; rfl
  have hNone := hTold.pending_of_body hBody
  have hPos : 0 < scanner.parser.contentLength := by
    have hAt := hTold.sound.parser.atState
    simp only [AtState, hState] at hAt
    omega
  have hLength : exec.parser.contentLength = scanner.parser.contentLength := by rw [hParser]; rfl
  unfold RequestParser.chunkData
  by_cases hLess : p.length < scanner.parser.contentLength
  · have hRead : exec.parser.toRead p = p.length := by
      rw [toRead, hLength]
      omega
    have hMore : ¬scanner.parser.contentLength - p.length = 0 := by omega
    have hScan := Scanner.scan_body hBody hNone hLess
    have hAll : context.Told events scanner exec (p ++ []) pending := by rwa [List.append_nil]
    have hNext := hAll.body_next hBody hNonempty hScan
      (Or.inr (Or.inl hState)) hCount
    dsimp only
    rw [hRead, hLength, if_neg hMore, hParser]
    rw [List.append_nil] at hNext
    exact hNext
  · obtain ⟨read, ch, rest, rfl, hSplit⟩ := toRead_split (Nat.le_of_not_lt hLess) hPos
    have hRead : exec.parser.toRead (read ++ ch :: rest) = scanner.parser.contentLength := by
      rw [toRead, hLength]
      omega
    have hScan := @Scanner.scan_chunk scanner ch read hState hNone hSplit
    have hTold' : context.Told events scanner exec ((read ++ [ch]) ++ rest) pending := by
      rwa [List.append_assoc, List.singleton_append]
    have hNext := hTold'.body_next hBody (by simp) hScan (Or.inl rfl) hCount
    rw [List.append_assoc, List.singleton_append, List.length_append, List.length_singleton,
      hSplit] at hNext
    dsimp only
    rw [hRead, hLength, Nat.sub_self, if_pos rfl, hParser]
    exact hNext

/-- What an execution has reported behind the last byte of a body. -/
theorem body_done (hTold : context.Told events scanner exec (read ++ rest) pending)
    (hState : scanner.parser.state.inBody = true) (hNonempty : read ≠ []) {done : Execution}
    (hDone : done = Execution.call rest (exec.call (read ++ rest) (.mark .body)) (.data .body)) :
    done.Has rest none ∧
      Agree context.fits (context.past ++ (done.events ++ [.onMessageComplete])) none
        (events ++ (read.map (fun ch => .onBody [ch]) ++ [.onMessageComplete])) none ∧
      context.phase.after (done.events ++ [.onMessageComplete]) = some .between := by
  obtain ⟨hEvents, hHas, hSlot, hAgree⟩ := hTold.body hState hNonempty
  have hStart : scanner.parser.phase = .body := by
    cases hBody : scanner.parser.state <;> rw [hBody] at hState <;> cases hState <;>
      simp [RequestParser.phase, hBody]
  generalize (pending.report (.mark .body)).1.advance read = marked at hHas hSlot hAgree
  have hData : Call.next (.body, some .body) (.data .body) = some (.body, none) := rfl
  have hComplete : Call.next (.body, none) (.notify .onMessageComplete) = some (.between, none) := rfl
  obtain ⟨-, hEvents', hHas', hNone⟩ := Execution.call_pending hHas hSlot.symm hData
  rw [← hDone, hEvents] at hEvents'
  rw [← hDone] at hHas'
  have hNone' : (marked.report (.data .body)).1 = none := by simpa using hNone.symm
  have hBoth := (hAgree.report hSlot.symm hData).report hNone hComplete
  refine ⟨by rwa [hNone'] at hHas', ?_, ?_⟩
  · rw [hNone'] at hBoth
    change Agree _ (_ ++ _ ++ [.onMessageComplete]) none
      (_ ++ _ ++ [] ++ [.onMessageComplete]) none at hBoth
    rw [hEvents']
    simpa using hBoth
  · rw [hEvents', after_append, after_append, hTold.order, hStart]
    have hBody := report_after hSlot.symm hData
    change ((ParserPhase.after .body (marked.report (.data .body)).2).bind _) = _
    rw [hBody]
    rfl

/-- The last byte of a body. The message is done, and the buffer too for an upgrade. -/
theorem identityEnd {bytes : Bytes}
    (hTold : context.Told events scanner exec (bytes ++ ch :: rest) pending)
    (hState : scanner.parser.state = .bodyIdentity)
    (hLength : bytes.length + 1 = scanner.parser.contentLength) {parser : RequestParser}
    (hParser : parser = RequestParser.recount { scanner.parser with
      contentLength := 0
      state := scanner.parser.newMessage } n true)
    (hCount : Counted context.fits context.slack scanner.parser.nread n) {done : Execution}
    (hDone : done = Execution.call rest (exec.call (bytes ++ ch :: rest) (.mark .body))
      (.data .body)) :
    context.Follows events scanner (bytes ++ ch :: rest)
      (if scanner.parser.upgrade then
        .stop { done with parser, events := done.events ++ [.onMessageComplete] } rest
      else .next { done with parser, events := done.events ++ [.onMessageComplete] }
        bytes.length) := by
  have hBody : scanner.parser.state.inBody = true := by rw [hState]; rfl
  have hNone := hTold.pending_of_body hBody
  have hTold' : context.Told events scanner exec ((bytes ++ [ch]) ++ rest) pending := by
    rwa [List.append_assoc, List.singleton_append]
  have hDone' : done = Execution.call rest (exec.call ((bytes ++ [ch]) ++ rest) (.mark .body))
      (.data .body) := by
    rwa [List.append_assoc, List.singleton_append]
  obtain ⟨hHas, hAgree, hOrder⟩ := hTold'.body_done hBody (by simp) hDone'
  obtain ⟨left, hScan, hLeft, hLeftState, hEffect⟩ :=
    Scanner.scan_identity hState hNone hLength ch
  obtain ⟨hLeftSound, hLeftErrno, -⟩ := Scanner.scan_sound hTold.sound hScan
  have hLegal := @Scanner.effect_legal left ch hLeftSound
  have hParser' : parser = (left.effect ch).parser.recount n true := by
    rw [hEffect, hParser]
    rfl
  have hPhase : parser.phase = .between := by
    have hStart : left.parser.phase = .body := by simp [RequestParser.phase, hLeftState]
    rcases hLegal.path with ⟨slot', hPath, -⟩ | ⟨hRefused, -⟩
    · rw [hStart, hLeft, hEffect] at hPath
      rw [hParser]
      exact (congrArg Prod.fst (Option.some.inj hPath)).symm
    · rw [hStart] at hRefused
      cases hRefused
  have hCount' : Counted context.fits context.slack (left.effect ch).parser.nread n := by
    rw [hEffect]
    exact hCount
  have hTold'' : (left.pending.reportAll (left.effect ch).calls) =
      (none, [.onBody [ch], .onMessageComplete]) := by
    rw [hEffect, hLeft]
    rfl
  by_cases hUpgrade : scanner.parser.upgrade = true
  · rw [if_pos hUpgrade]
    have hControl : (left.effect ch).control = .stop true := by
      rw [hEffect]
      exact if_pos hUpgrade
    have hSame := hAgree.same
    simp only [Pending.events, Option.toList_none, List.map_nil, List.append_nil] at hSame
    refine .stop (.stopped hScan (fun _ => rfl) hControl hParser' hCount'
      (Or.inl (by rw [hPhase]; exact hOrder)) ?_)
    rw [hTold'']
    simpa using hSame
  · rw [if_neg hUpgrade]
    have hControl : (left.effect ch).control = .next := by
      rw [hEffect]
      exact if_neg hUpgrade
    obtain ⟨hSound, hErrno, -⟩ := Scanner.step_sound hLeftSound (Scanner.step_of_next hControl)
    have hLast := Scanner.scan_of_next hControl
    rw [hTold''] at hLast
    have hPending : (left.follow ch).pending = none := by
      rw [Scanner.follow, hTold'']
      rfl
    have hAfter : context.Related
        (events ++ (bytes.map (fun ch => .onBody [ch]) ++ [.onBody [ch], .onMessageComplete]))
        (left.follow ch) { done with parser, events := done.events ++ [.onMessageComplete] } n rest
        none := by
      refine ⟨⟨hSound, (hErrno.trans hLeftErrno).trans hTold.errno, Or.inl ?_, hHas, ?_, ?_, ?_⟩,
        hParser', hCount'⟩
      · rw [← hSound.slot, hPending]
      · rw [hPending]
        simpa using hAgree
      · rw [hParser'] at hPhase
        exact hOrder.trans (congrArg some hPhase.symm)
      · intro hFits
        have hLess := hTold.length hFits
        rw [List.length_append, List.length_cons] at hLess
        omega
    refine .next (scan_append hScan hLast) (fun _ => by simp) ?_ hAfter
    rw [← List.drop_drop, List.drop_left]
    rfl

/-- `s_body_identity` -/
theorem bodyIdentity (hTold : context.Told events scanner exec p pending)
    (hState : scanner.parser.state = .bodyIdentity) (hNonempty : p ≠ [])
    (hParser : exec.parser = scanner.parser.recount n true)
    (hCount : Counted context.fits context.slack scanner.parser.nread n) :
    context.Follows events scanner p (bodyIdentity exec p) := by
  have hBody : scanner.parser.state.inBody = true := by rw [hState]; rfl
  have hNone := hTold.pending_of_body hBody
  have hPos : 0 < scanner.parser.contentLength := by
    have hAt := hTold.sound.parser.atState
    simp only [AtState, hState] at hAt
    omega
  have hLength : exec.parser.contentLength = scanner.parser.contentLength := by rw [hParser]; rfl
  unfold RequestParser.bodyIdentity
  by_cases hLess : p.length < scanner.parser.contentLength
  · have hRead : exec.parser.toRead p = p.length := by
      rw [toRead, hLength]
      omega
    have hMore : ¬scanner.parser.contentLength - p.length = 0 := by omega
    have hScan := Scanner.scan_body hBody hNone hLess
    have hAll : context.Told events scanner exec (p ++ []) pending := by rwa [List.append_nil]
    have hNext := hAll.body_next hBody hNonempty hScan
      (Or.inr (Or.inr hState)) hCount
    dsimp only
    rw [hRead, hLength, Execution.parser_of_call, if_neg hMore, hParser]
    rw [List.append_nil] at hNext
    exact hNext
  · obtain ⟨read, ch, rest, rfl, hSplit⟩ := toRead_split (Nat.le_of_not_lt hLess) hPos
    have hRead : exec.parser.toRead (read ++ ch :: rest) = read.length + 1 := by
      rw [toRead, hLength]
      omega
    have hZero : scanner.parser.contentLength - (read.length + 1) = 0 := by omega
    have hDrop : (read ++ ch :: rest).drop (read.length + 1) = rest := by
      rw [← List.drop_drop, List.drop_left]
      rfl
    have hBack : (read ++ ch :: rest).drop (read.length + 1 - 1) = ch :: rest := by
      rw [Nat.add_sub_cancel, List.drop_left]
    have hEnd := (hTold.congr { scanner.parser.recount n true with
      contentLength := 0
      state := .messageDone }).identityEnd hState hSplit rfl hCount rfl
    dsimp only
    rw [hRead, hLength, hZero, if_pos rfl, hDrop, hBack, hParser]
    simp only [Execution.parser_of_call, Execution.call_with, Execution.apply_messageDone]
    have hFlag : (scanner.parser.recount n true).upgrade = scanner.parser.upgrade := rfl
    rw [hFlag]
    by_cases hUpgrade : scanner.parser.upgrade = true
    · rw [if_pos hUpgrade] at hEnd ⊢
      exact hEnd
    · rw [if_neg hUpgrade] at hEnd ⊢
      exact hEnd

/-- A case for one byte, when the byte has been counted. -/
theorem byte_follows (hTold : context.Told events scanner exec (ch :: rest) pending)
    (hCount : Counted context.fits context.slack scanner.parser.counted.nread n) {effect : Effect}
    (hEffect : (scanner.parser.recount n true).byteSwitch ch = some effect) :
    context.Follows events scanner (ch :: rest) (exec.apply (ch :: rest) effect) := by
  obtain ⟨nread, hCounted⟩ := counted_eq scanner.parser
  have hRecount : scanner.parser.counted = scanner.parser.recount nread scanner.parser.isRunning :=
    hCounted
  rw [byteSwitch_recount] at hEffect
  obtain ⟨base, hBase, rfl⟩ := Option.map_eq_some_iff.1 hEffect
  have hHere : scanner.parser.counted.byteSwitch ch = some (base.recount
      (if scanner.parser.resets ch then 0 else nread) scanner.parser.isRunning) := by
    rw [hRecount, byteSwitch_recount, hBase]
    rfl
  have hSame : scanner.effect ch = base.recount (if scanner.parser.resets ch then 0 else nread)
      scanner.parser.isRunning := by
    rw [Scanner.effect, scanByte, hHere]
  rw [← hSame] at hHere
  have hMarks : scanner.parser.counted.state.Marks (pending.map Prod.fst) := by
    rw [hRecount]
    exact hTold.marks
  have hLegal := byteSwitch_legal (counted_sound hTold.sound.parser) hMarks hHere
  rw [hRecount] at hLegal
  have hNread : (scanner.effect ch).parser.nread = if scanner.parser.resets ch then 0 else nread := by
    rw [hSame]
    rfl
  have hHere' : (scanner.effect ch).Legal scanner.parser (pending.map Prod.fst) :=
    hLegal.congr rfl rfl
  have hApply := hTold.apply_follows hHere'
    (n := if scanner.parser.resets ch then 0 else n) (by
      rw [hNread]
      rw [hRecount] at hCount
      split_ifs
      · exact ⟨Nat.zero_le _, fun _ => ⟨le_rfl, Nat.zero_le _⟩⟩
      · exact hCount)
  rw [hSame] at hApply
  exact hApply

end Told

/-- One iteration of the loop. -/
theorem Related.iterate (hRelated : context.Related events scanner exec n (ch :: rest) pending) :
    context.Follows events scanner (ch :: rest) (exec.iterate ch rest) := by
  unfold Execution.iterate
  dsimp only
  rcases hRelated.count_byte with ⟨hOverflow, hHalted⟩ | ⟨m, hParser, hByte, hCount⟩
  · rw [if_pos hOverflow]
    exact .stop hHalted
  · have hErrno : ¬(scanner.parser.recount m true).httpErrno = .headerOverflow := by
      have hOk : (scanner.parser.recount m true).httpErrno = .ok := hRelated.errno
      rw [hOk]
      decide
    rw [hParser, if_neg hErrno]
    have hTold := hRelated.toTold.congr (scanner.parser.recount m true)
    cases hSwitch : (scanner.parser.recount m true).byteSwitch ch with
    | some effect => exact hTold.byte_follows hCount hSwitch
    | none =>
        unfold Execution.bulk
        dsimp only
        rw [show (scanner.parser.recount m true).state = scanner.parser.state from rfl]
        cases hState : scanner.parser.state
        case headerField =>
          exact hTold.headerField hState (by simp) rfl (hByte (by rw [hState]; rfl))
        case headerValue =>
          exact hTold.headerValue hState (by simp) rfl (hByte (by rw [hState]; rfl))
        case bodyIdentity =>
          have hCounted : scanner.parser.counted = scanner.parser := if_neg (by rw [hState]; decide)
          rw [hCounted] at hCount
          exact hTold.bodyIdentity hState (by simp) rfl hCount
        case chunkData =>
          have hCounted : scanner.parser.counted = scanner.parser := if_neg (by rw [hState]; decide)
          rw [hCounted] at hCount
          exact hTold.chunkData hState (by simp) rfl hCount
        all_goals
          rw [show (scanner.parser.recount m true).byteSwitch ch = _ from byteSwitch_recount m true,
            byteSwitch, hState] at hSwitch
          cases hSwitch

/-- How the loop over a buffer ends. -/
inductive Finished (context : Context) (events : List ParserEvent) (scanner : Scanner) (p : Bytes) :
    Execution → Bytes → Prop
  | ended {read : Bytes} {after : Scanner} {more : List ParserEvent} {exec : Execution} {n : Nat}
      (hScan : scanner.scan read = some (after, more))
      (hRead : context.fits → p = read)
      (hErrno : after.parser.httpErrno = .ok)
      (hParser : exec.parser = after.parser.recount n true)
      (hCount : Counted context.fits context.slack after.parser.nread n)
      (hOrder : context.phase.after exec.events = some exec.parser.phase)
      (hSame : context.fits → ParserEvent.joining.coalesce (context.past ++ exec.events) =
        ParserEvent.joining.coalesce (events ++ (more ++ after.pending.events))) :
      Finished context events scanner p exec []
  | halted {exec : Execution} {rest : Bytes} (hHalted : context.Halted events scanner p exec rest) :
      Finished context events scanner p exec rest

/-- What is left over in a buffer does not change the phase. -/
theorem phase_of_marks {parser : RequestParser} {callback : DataCallback} (piece : Bytes)
    (hMarks : parser.state.Marks (some callback)) :
    parser.phase.next (callback.event piece) = some parser.phase := by
  unfold State.Marks at hMarks
  rcases hMarks with hOpen | ⟨hBody, hState | hState | hState⟩
  · unfold RequestParser.phase
    cases hState : parser.state <;> rw [hState] at hOpen <;> cases hOpen
    all_goals first
      | rfl
      | (dsimp only; split_ifs <;> rfl)
  all_goals
    obtain rfl := Option.some.inj hBody
    simp only [RequestParser.phase, hState]
    rfl

theorem flush_events {exec : Execution} {pending : Pending} (hHas : exec.Has [] pending) :
    exec.flush.parser = exec.parser ∧ exec.flush.events = exec.events ++ pending.events := by
  unfold Execution.Has at hHas
  cases pending with
  | none =>
      simp [Execution.flush, Execution.callAll, Execution.call, hHas, Pending.marks, Pending.events]
  | some marked =>
      obtain ⟨callback, piece⟩ := marked
      cases callback <;>
        simp [Execution.flush, Execution.callAll, Execution.call, hHas, Pending.marks,
          Pending.events, upTo]

/-- The end of the buffer. -/
theorem Related.flush (hRelated : context.Related events scanner exec n [] pending) :
    context.Finished events scanner [] exec.flush [] := by
  obtain ⟨hParser, hEvents⟩ := flush_events hRelated.has
  have hAfter : context.phase.after exec.flush.events = some scanner.parser.phase := by
    rw [hEvents, after_append, hRelated.order]
    cases hPending : pending with
    | none => rfl
    | some marked =>
        have hMarks := hRelated.marks
        rw [hPending] at hMarks
        exact (after_singleton _ _).trans (phase_of_marks marked.2 hMarks)
  have hSame := hRelated.agree.same
  refine .ended scanner.scan_nil (fun _ => rfl) hRelated.errno (hParser.trans hRelated.parser)
    hRelated.count ?_ ?_
  · rw [hAfter, hParser, hRelated.parser]
    rfl
  · rw [hEvents]
    simpa using hSame

theorem Finished.prepend {first tail : Bytes} {middle : Scanner} {told events' : List ParserEvent}
    (hFirst : scanner.scan first = some (middle, told)) (hEvents : events ++ told = events')
    (hSplit : context.fits → p = first ++ tail)
    (hFinished : context.Finished events' middle tail exec rest) :
    context.Finished events scanner p exec rest := by
  subst hEvents
  cases hFinished with
  | ended hScan hRead hErrno hParser hCount hOrder hSame =>
      refine .ended (scan_append hFirst hScan) ?_ hErrno hParser hCount hOrder (by simpa using hSame)
      intro hFits
      rw [hSplit hFits, hRead hFits]
  | halted hHalted => exact .halted (hHalted.prepend hFirst rfl hSplit)

/-- The loop follows the scanner. -/
theorem Related.loop (hRelated : context.Related events scanner exec n p pending)
    (hNonempty : p ≠ []) : context.Finished events scanner p (loop exec p).1 (loop exec p).2 := by
  induction hLength : p.length using Nat.strong_induction_on generalizing p exec scanner events n
    pending with
  | _ length ih =>
      cases p with
      | nil => exact absurd rfl hNonempty
      | cons ch rest =>
          have hIterate := hRelated.iterate
          rw [RequestParser.loop]
          generalize exec.iterate ch rest = outcome at hIterate
          cases hIterate with
          | stop hHalted => exact .halted hHalted
          | @next read rest' after more exec' n' skipped pending' hScan hRead hRest hAfter =>
              change rest.drop skipped = rest' at hRest
              dsimp only
              rw [hRest]
              by_cases hEnd : rest' = []
              · subst hEnd
                rw [RequestParser.loop]
                exact hAfter.flush.prepend hScan rfl hRead
              · have hLess : rest'.length < length := by
                  rw [← hLength, ← hRest, List.length_drop, List.length_cons]
                  omega
                exact (ih _ hLess hAfter hEnd rfl).prepend hScan rfl hRead

end Context

section Execute

variable {fits : Prop} {slack n : Nat} {past events : List ParserEvent} {scanner : Scanner}
  {parser : RequestParser} {data : Bytes}

/-- A parser between two executions that has told what the scanner has. -/
structure Followed (fits : Prop) (slack : Nat) (past events : List ParserEvent)
    (scanner : Scanner) (n : Nat) (parser : RequestParser) : Prop where
  sound : scanner.Sound
  errno : scanner.parser.httpErrno = .ok
  parser : parser = scanner.parser.recount n false
  count : Counted fits slack scanner.parser.nread n
  same : fits → ParserEvent.joining.coalesce past =
    ParserEvent.joining.coalesce (events ++ scanner.pending.events)

/-- Where the execution of a parser starts. -/
def Followed.context (fits : Prop) (slack : Nat) (past : List ParserEvent) (scanner : Scanner) :
    Context where
  fits := fits
  slack := slack
  phase := scanner.parser.phase
  past := past

theorem Followed.entry (hFollowed : Followed fits slack past events scanner n parser)
    (hFits : fits → data.length + HTTP_MAX_HEADER_SIZE < 2 ^ 32) :
    (Followed.context fits slack past scanner).Related events scanner
      (RequestParser.entry { parser with isRunning := true } data) n data
      (scanner.parser.state.open.map (fun callback => (callback, []))) := by
  have hState : parser.state = scanner.parser.state := by rw [hFollowed.parser]; rfl
  have hSlot : (scanner.parser.state.open.map (fun callback => (callback, ([] : Bytes)))).map
      Prod.fst = scanner.parser.state.open := by
    cases scanner.parser.state.open <;> rfl
  refine ⟨⟨hFollowed.sound, hFollowed.errno, Or.inl hSlot, ?_, ⟨Or.inl ?_, ?_⟩, rfl, hFits⟩, ?_,
    hFollowed.count⟩
  · funext callback
    simp only [RequestParser.entry, hState]
    cases hOpen : scanner.parser.state.open with
    | none => simp [Pending.marks]
    | some marked => simp [Pending.marks]
  · rw [hSlot, hFollowed.sound.slot]
  · intro hHolds
    have hSame := hFollowed.same hHolds
    have hOpen := hFollowed.sound.slot
    change ParserEvent.joining.coalesce (past ++ [] ++ _) = _
    rw [List.append_nil]
    cases hPending : scanner.pending with
    | none =>
        rw [hPending] at hOpen hSame
        rw [← hOpen]
        simpa [Pending.events] using hSame
    | some marked =>
        rw [hPending] at hOpen hSame
        rw [← hOpen]
        have hJoin := Joining.coalesce_join (join_event marked.1 marked.2 []) events []
        have hMore := Joining.coalesce_congr hSame
          (rfl : _ = ParserEvent.joining.coalesce [marked.1.event []])
        simpa [Pending.events] using hMore.trans (by simpa [Pending.events] using hJoin)
  · rw [hFollowed.parser]
    rfl

/-- An execution follows the scanner. -/
theorem Followed.execute (hFollowed : Followed fits slack past events scanner n parser)
    (hNonempty : data ≠ []) (hFits : fits → data.length + HTTP_MAX_HEADER_SIZE < 2 ^ 32) :
    ∃ exec p, (Followed.context fits slack past scanner).Finished events scanner data exec p ∧
      execute parser data =
        ⟨{ exec.parser with isRunning := false }, data.length - p.length, exec.events⟩ := by
  refine ⟨_, _, (hFollowed.entry hFits).loop hNonempty, ?_⟩
  have hRunning : parser.isRunning = false := by rw [hFollowed.parser]; rfl
  have hErrno : parser.httpErrno = .ok := by
    rw [hFollowed.parser]
    exact hFollowed.errno
  simp [RequestParser.execute, hRunning, hErrno, hNonempty]

end Execute

end Httpuv.RequestParser
