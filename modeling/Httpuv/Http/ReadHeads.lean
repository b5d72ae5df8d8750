import Httpuv.Http.UpgradeRequests
import Httpuv.Parser.UpgradeHeads

/-! Heads of upgrade requests as `http_parser` reads them. What it reports of a head that
comes at once, it reports of the same head in pieces. -/
namespace Httpuv

open Semantics RequestParser

section Pieces

variable {events : List ParserEvent} {stage finish : LineStage}

/-- Pieces of data are joined with pieces of the same data only. So a whole piece that has
been joined comes from two of its own kind. -/
theorem join_eq_event {first second : ParserEvent} {callback : DataCallback} {whole : Bytes}
    (hJoin : ParserEvent.joining.join first second = some (callback.event whole)) :
    ∃ before behind, first = callback.event before ∧ second = callback.event behind ∧
      whole = before ++ behind := by
  change ParserEvent.join first second = _ at hJoin
  cases first <;> cases second <;> simp only [ParserEvent.join, reduceCtorEq] at hJoin <;>
    cases callback <;> cases hJoin <;> exact ⟨_, _, rfl, rfl, rfl⟩

/-- Nothing is joined to one of the other reports of a head, which come as they are. -/
theorem join_ne_notice {event : ParserEvent}
    (hEvent : event = .onMessageBegin ∨ ∃ upgrade, event = .onHeadersComplete upgrade)
    (first second : ParserEvent) : ParserEvent.joining.join first second ≠ some event := by
  rcases hEvent with rfl | ⟨upgrade, rfl⟩ <;> cases first <;> cases second <;>
    simp [ParserEvent.joining, ParserEvent.join]

/-- What comes to one piece of data has come in pieces of it, one behind the other. -/
theorem pieces_of_coalesce {callback : DataCallback} {whole : Bytes}
    (h : ParserEvent.joining.coalesce events = [callback.event whole]) :
    ∃ pieces, pieces ≠ [] ∧ events = pieces.map callback.event ∧ pieces.flatten = whole := by
  induction events generalizing whole with
  | nil => cases h
  | cons event events ih =>
      change ParserEvent.joining.push event (ParserEvent.joining.coalesce events) = _ at h
      cases hRest : ParserEvent.joining.coalesce events with
      | nil =>
          rw [hRest, Joining.push, List.cons.injEq] at h
          exact ⟨[whole], by simp, by rw [Joining.coalesce_nil hRest, h.1]; rfl, by simp⟩
      | cons next others =>
          cases hJoin : ParserEvent.joining.join event next with
          | none =>
              rw [hRest, Joining.push_cons_none hJoin] at h
              cases h
          | some joined =>
              rw [hRest, Joining.push_cons_some hJoin, List.cons.injEq] at h
              obtain ⟨rfl, rfl⟩ := h
              obtain ⟨before, behind, rfl, rfl, rfl⟩ := join_eq_event hJoin
              obtain ⟨pieces, -, rfl, rfl⟩ := ih hRest
              exact ⟨before :: pieces, by simp, rfl, rfl⟩

/-- The pieces of a name lead to a name, from wherever a line may begin. -/
theorem LineStage.after_name {pieces : List Bytes} (hPieces : pieces ≠ []) (stage : LineStage) :
    stage.after (pieces.map .onHeaderField) = some .named := by
  induction pieces generalizing stage with
  | nil => exact absurd rfl hPieces
  | cons piece pieces ih =>
      have hNext : stage.next (.onHeaderField piece) = some .named := by cases stage <;> rfl
      rw [List.map_cons, LineStage.after, List.foldlM_cons, hNext]
      by_cases hLast : pieces = []
      · subst hLast
        rfl
      · exact ih hLast .named

/-- Behind an empty piece of a value there is no other piece. A value that comes to nothing
has therefore come in one empty piece. -/
theorem LineStage.blank_alone {pieces : List Bytes} {more : List ParserEvent}
    (hAfter : LineStage.named.after (pieces.map .onHeaderValue ++ more) = some finish)
    (hFirst : pieces.head? = some []) : pieces.flatten = [] := by
  cases pieces with
  | nil => cases hFirst
  | cons first pieces =>
      obtain rfl : first = [] := Option.some.inj hFirst
      cases pieces with
      | nil => rfl
      | cons second pieces => cases hAfter

/-- The lines of a header block, from reports that come to the same fields when they are
joined. The stages see to it that each value stands behind its own name. -/
theorem lines_of_coalesce {fields : List (Bytes × Bytes)} {last : ParserEvent}
    (hLast : ∀ first second, ParserEvent.joining.join first second ≠ some last)
    (hSame : ParserEvent.joining.coalesce events =
      fields.flatMap (fun field => [.onHeaderField field.1, .onHeaderValue field.2]) ++ [last])
    (hNames : ∀ field ∈ fields, Framing.isToken field.1 = true)
    (hLined : stage.after events = some finish) :
    ∃ lines : List HeaderLine, events = lines.flatMap HeaderLine.events ++ [last] ∧
      lines.map (fun line => (line.name, line.value)) = fields := by
  induction fields generalizing events stage with
  | nil => exact ⟨[], Joining.coalesce_singleton hLast hSame, rfl⟩
  | cons field fields ih =>
      obtain ⟨first, rest, rfl, hFirst, hRest⟩ := Joining.coalesce_cons hSame
      obtain ⟨second, more, rfl, hSecond, hMore⟩ := Joining.coalesce_cons hRest
      obtain ⟨names, hNamed, rfl, hName⟩ := @pieces_of_coalesce _ .headerField _ hFirst
      obtain ⟨values, hValued, rfl, hValue⟩ := @pieces_of_coalesce _ .headerValue _ hSecond
      have hValues : LineStage.named.after (values.map .onHeaderValue ++ more) = some finish := by
        have hName := LineStage.after_name hNamed stage
        rw [LineStage.after_append] at hLined
        rwa [show stage.after (names.map DataCallback.headerField.event) = _ from hName] at hLined
      obtain ⟨middle, -, hLater⟩ := Option.bind_eq_some_iff.1
        ((LineStage.after_append _ _ _).symm.trans hValues)
      obtain ⟨lines, rfl, hLines⟩ := ih hMore
        (fun other hMem => hNames other (List.mem_cons_of_mem _ hMem)) hLater
      let line : HeaderLine := {
        namePieces := names
        valuePieces := values
        token := by
          rw [hName]
          exact hNames field List.mem_cons_self
        valued := hValued
        empty := LineStage.blank_alone hValues }
      refine ⟨line :: lines, ?_, ?_⟩
      · rw [List.flatMap_cons, HeaderLine.events, List.append_assoc, List.append_assoc]
        rfl
      · rw [List.map_cons, hLines, HeaderLine.name, HeaderLine.value, hName, hValue]

end Pieces

namespace UpgradeRequest

variable {request : UpgradeRequest} {key : Bytes}

/-- What is reported of a head, in whole pieces: a target, the fields with their values,
and the end of the headers as that of an upgrade. -/
def headReport (target : Bytes) (fields : List (Bytes × Bytes)) : List ParserEvent :=
  [.onMessageBegin, .onUrl target] ++
    (fields.flatMap (fun field => [.onHeaderField field.1, .onHeaderValue field.2]) ++
      [.onHeadersComplete true])

/-- From the joined reports of a head back to those that have come: the target in some
pieces, and for each field a line. -/
theorem headEvents_of_coalesce {events : List ParserEvent} {target : Bytes} {finish : LineStage}
    (hSame : ParserEvent.joining.coalesce events = headReport target request.fields)
    (hNames : ∀ field ∈ request.fields, Framing.isToken field.1 = true)
    (hLined : LineStage.apart.after events = some finish) :
    ∃ targets lines, events = headEvents targets lines ∧
      lines.map (fun line => (line.name, line.value)) = request.fields := by
  obtain ⟨first, rest, rfl, hFirst, hRest⟩ := Joining.coalesce_cons hSame
  obtain ⟨second, more, rfl, hSecond, hMore⟩ := Joining.coalesce_cons hRest
  obtain rfl := Joining.coalesce_singleton (join_ne_notice (Or.inl rfl)) hFirst
  obtain ⟨targets, -, rfl, -⟩ := @pieces_of_coalesce _ .url _ hSecond
  obtain ⟨middle, -, hLater⟩ := Option.bind_eq_some_iff.1
    ((LineStage.after_append _ (.onMessageBegin :: targets.map .onUrl) more).symm.trans hLined)
  obtain ⟨lines, rfl, hLines⟩ := lines_of_coalesce (join_ne_notice (Or.inr ⟨true, rfl⟩)) hMore
    hNames hLater
  refine ⟨targets, lines, ?_, hLines⟩
  rw [headEvents, List.append_assoc]
  rfl

/-- How `http_parser` reads the request. A head that comes at once is reported with its
fields, and the parser waits at its end. When it is told to go on it stops in front of
the key. All of this is about single executions, which can be computed. -/
structure Read (request : UpgradeRequest) (key : Bytes) (parser : RequestParser) : Prop where
  ready : parser.httpErrno = .ok ∧ parser.isRunning = false
  chars : ∀ ch ∈ request.head, isHeaderChar ch = true
  short : 2 * (parser.nread + (request.bytes key).length) < HTTP_MAX_HEADER_SIZE
  names : ∀ field ∈ request.fields, Framing.isToken field.1 = true
  parsed : (parser.execute (request.head ++ [10])).parsed = request.head.length
  errno : (parser.execute (request.head ++ [10])).parser.httpErrno = .ok
  waits : (parser.execute (request.head ++ [10])).parser.waitingForHeadersCompleted = true
  reports : ∃ target, ParserEvent.joining.coalesce (parser.execute (request.head ++ [10])).events =
    headReport target request.fields
  stops : ∀ rest, rest <+: key →
    let result := ((parser.execute (request.head ++ [10])).parser.headersCompleted 0).execute
      (10 :: rest)
    result.parsed = 1 ∧ result.events = [.onMessageComplete]

section Replays

local instance : HttpParser := httpParser

variable {parser : Held} {place : Scanner} {told : List ParserEvent} {pieces : List Bytes}
  {left rest : Bytes}

/-- A part of the head has been read. The scanner is behind the same bytes, what is left
leads it to the end, and the lines have been reported in their order. -/
structure Gone (parser : Held) (pieces : List Bytes) (left : Bytes) (place : Scanner)
    (told : List ParserEvent) : Prop where
  followed : ∃ scanner events last n,
    Followed True 0 (replay parser pieces).2 events scanner n (replay parser pieces).1.1 ∧
      scanner.Stops left place last ∧ told = events ++ last
  lined : ∃ stage, LineStage.apart.after (replay parser pieces).2 = some stage ∧
    (replay parser pieces).1.1.state.Settled stage

theorem Gone.start (hBetween : parser.1.phase = .between)
    (hFollowed : Followed True 0 [] [] parser.1.scanner parser.1.nread parser.1)
    (hStops : parser.1.scanner.Stops left place told) : Gone parser [] left place told where
  followed := ⟨_, _, _, _, hFollowed, hStops, rfl⟩
  lined := by
    refine ⟨.apart, rfl, settled_of_free ?_ _⟩
    change parser.1.state.free = true
    rcases state_of_between hBetween with hState | hState <;> rw [hState] <;> rfl

/-- What one more piece adds to the lines. A parser that has not failed is between two
buffers again, where its state tells how far the line is. -/
theorem lined_concat {piece : Bytes} {n n' : Nat} {events more : List ParserEvent}
    {scanner after : Scanner} {stage : LineStage}
    (hFollowed : Followed True 0 (replay parser pieces).2 events scanner n (replay parser pieces).1.1)
    (hNonempty : piece ≠ []) (hFits : piece.length + HTTP_MAX_HEADER_SIZE < 2 ^ 32)
    (hAfter : Followed True 0 (replay parser (pieces ++ [piece])).2 more after n'
      (replay parser (pieces ++ [piece])).1.1)
    (hStage : LineStage.apart.after (replay parser pieces).2 = some stage)
    (hSettled : (replay parser pieces).1.1.state.Settled stage) :
    ∃ stage', LineStage.apart.after (replay parser (pieces ++ [piece])).2 = some stage' ∧
      (replay parser (pieces ++ [piece])).1.1.state.Settled stage' := by
  obtain ⟨stage', hLined, hSettled'⟩ := execute_lined hFollowed hNonempty (fun _ => hFits) hSettled
  have hErrno : (replay parser (pieces ++ [piece])).1.1.httpErrno = .ok := by
    rw [hAfter.parser]
    exact hAfter.errno
  rw [replay_concat] at hErrno ⊢
  refine ⟨stage', ?_, hSettled' hErrno⟩
  rw [LineStage.after_append, hStage]
  exact hLined

theorem Gone.more {piece : Bytes} (hGone : Gone parser pieces (piece ++ left) place told)
    (hNonempty : piece ≠ []) (hFits : piece.length + HTTP_MAX_HEADER_SIZE < 2 ^ 32) :
    Gone parser (pieces ++ [piece]) left place told ∧
      (HttpParser.execute (replay parser pieces).1 piece).parsed = piece.length ∧
      HttpParser.waitingForHeadersCompleted (replay parser (pieces ++ [piece])).1 = false := by
  obtain ⟨⟨scanner, events, last, n, hFollowed, hStops, rfl⟩, stage, hStage, hSettled⟩ := hGone
  obtain ⟨hParsed, after, more, last, n', hStops', rfl, hMoving, hAfter⟩ :=
    hFollowed.arriving hStops hNonempty hFits
  have hReplayed : Followed True 0 (replay parser (pieces ++ [piece])).2 (events ++ more) after n'
      (replay parser (pieces ++ [piece])).1.1 := by
    rw [replay_concat]
    exact hAfter
  refine ⟨⟨⟨after, events ++ more, last, n', hReplayed, hStops', (List.append_assoc _ _ _).symm⟩,
    lined_concat hFollowed hNonempty hFits hReplayed hStage hSettled⟩, ?_, ?_⟩
  · change min _ piece.length = piece.length
    rw [hParsed, Nat.min_self]
  · have hState : (replay parser (pieces ++ [piece])).1.1.state = after.parser.state := by
      rw [hReplayed.parser]
      rfl
    exact decide_eq_false (hState ▸ hMoving)

/-- All pieces up to some byte of the head, by induction on their number. The head is short,
so that no piece of it is too long for the count. -/
theorem Gone.of_start {head : Bytes} (hStart : Gone parser [] head place told)
    (hShort : 2 * head.length < HTTP_MAX_HEADER_SIZE) (hFilled : [] ∉ pieces)
    (hHead : head = pieces.flatten ++ left) : Gone parser pieces left place told := by
  induction pieces using List.reverseRecOn generalizing left with
  | nil =>
      obtain rfl : head = left := hHead
      exact hStart
  | append_singleton pieces piece ih =>
      rw [List.flatten_concat, List.append_assoc] at hHead
      simp only [List.mem_append, List.mem_singleton, not_or] at hFilled
      have hLength := congrArg List.length hHead
      simp only [List.length_append] at hLength
      have hFits : piece.length + HTTP_MAX_HEADER_SIZE < 2 ^ 32 := by
        unfold HTTP_MAX_HEADER_SIZE at hShort ⊢
        omega
      exact ((ih hFilled.1 hHead).more (Ne.symm hFilled.2) hFits).1

/-- The piece with the end of the head. Behind it the parser waits, and all that has been
reported comes to what the scanner tells. -/
theorem Gone.stop (hGone : Gone parser pieces left place told)
    (hFits : (left ++ LF :: rest).length + HTTP_MAX_HEADER_SIZE < 2 ^ 32) :
    (HttpParser.execute (replay parser pieces).1 (left ++ LF :: rest)).parsed = left.length ∧
      (∃ n, n ≤ 2 * (place.effect LF).parser.nread ∧
        (replay parser (pieces ++ [left ++ LF :: rest])).1.1 =
          (place.effect LF).parser.recount n false) ∧
      ParserEvent.joining.coalesce (replay parser (pieces ++ [left ++ LF :: rest])).2 =
        ParserEvent.joining.coalesce (told ++ place.told LF) ∧
      ∃ stage, LineStage.apart.after (replay parser (pieces ++ [left ++ LF :: rest])).2 =
        some stage := by
  obtain ⟨⟨scanner, events, last, n, hFollowed, hStops, rfl⟩, stage, hStage, hSettled⟩ := hGone
  obtain ⟨hParsed, n', hAfter⟩ := hFollowed.stops hStops hFits
  have hReplayed : Followed True 0 (replay parser (pieces ++ [left ++ LF :: rest])).2
      (events ++ (last ++ place.told LF)) (place.stopped LF) n'
      (replay parser (pieces ++ [left ++ LF :: rest])).1.1 := by
    rw [replay_concat]
    exact hAfter
  obtain ⟨stage', hStage', -⟩ :=
    lined_concat hFollowed (by simp) hFits hReplayed hStage hSettled
  refine ⟨?_, ⟨n', (hReplayed.count.bounds trivial).2, hReplayed.parser⟩, ?_, stage', hStage'⟩
  · change min _ (left ++ LF :: rest).length = left.length
    rw [hParsed, List.length_append]
    omega
  · rw [hReplayed.same trivial, List.append_assoc]
    simp [Scanner.stopped, Pending.events]

/-- What comes behind the head while the parser waits changes its count alone, by one for
each read. -/
theorem replay_stored {waiting : RequestParser}
    (hState : waiting.state = .waitForOnHeadersCompleted) (hErrno : waiting.httpErrno = .ok)
    {n : Nat} (hParser : (replay parser pieces).1.1 = waiting.recount n false)
    (hRoom : n < HTTP_MAX_HEADER_SIZE) {piece : Bytes} (hNonempty : piece ≠ []) :
    (replay parser (pieces ++ [piece])).1.1 = waiting.recount (n + 1) false := by
  rw [replay_concat]
  change ((replay parser pieces).1.1.execute piece).parser = _
  rw [hParser, execute_stored hState hErrno hRoom hNonempty]

/-- The parser behind the whole head has what the scanner has, and its count tells the reads
that have come since. -/
theorem replay_waiting {head : Bytes} (hStart : Gone parser [] head place told)
    (hShort : 2 * (parser.1.nread + head.length + 1 + key.length) < HTTP_MAX_HEADER_SIZE)
    (hPlace : (place.effect LF).parser.nread ≤ parser.1.nread + head.length + 1)
    (hState : (place.effect LF).parser.state = .waitForOnHeadersCompleted)
    (hErrno : (place.effect LF).parser.httpErrno = .ok) (hFilled : [] ∉ pieces)
    (hPieces : pieces.flatten = head ++ LF :: rest) (hRest : rest <+: key) :
    ∃ n, n < HTTP_MAX_HEADER_SIZE ∧
      (replay parser pieces).1.1 = (place.effect LF).parser.recount n false := by
  suffices hCounted : ∃ n, n ≤ 2 * (place.effect LF).parser.nread + rest.length ∧
      (replay parser pieces).1.1 = (place.effect LF).parser.recount n false by
    obtain ⟨n, hBound, hParser⟩ := hCounted
    have hLength := hRest.length_le
    exact ⟨n, by omega, hParser⟩
  induction pieces using List.reverseRecOn generalizing rest with
  | nil => simp at hPieces
  | append_singleton pieces piece ih =>
      rw [List.flatten_concat] at hPieces
      simp only [List.mem_append, List.mem_singleton, not_or] at hFilled
      have hLength := hRest.length_le
      have hCross : ∀ left, head = pieces.flatten ++ left → piece = left ++ LF :: rest →
          ∃ n, n ≤ 2 * (place.effect LF).parser.nread + rest.length ∧
            (replay parser (pieces ++ [piece])).1.1 =
              (place.effect LF).parser.recount n false := by
        rintro left hHead rfl
        have hSum := congrArg List.length hHead
        rw [List.length_append] at hSum
        have hFits : (left ++ LF :: rest).length + HTTP_MAX_HEADER_SIZE < 2 ^ 32 := by
          rw [List.length_append, List.length_cons]
          unfold HTTP_MAX_HEADER_SIZE at hShort ⊢
          omega
        obtain ⟨-, ⟨n, hCount, hParser⟩, -⟩ :=
          (hStart.of_start (by omega) hFilled.1 hHead).stop hFits
        exact ⟨n, by omega, hParser⟩
      rcases List.append_eq_append_iff.1 hPieces with ⟨left, hHead, hPiece⟩ | ⟨behind, hBehind, hPiece⟩
      · exact hCross left hHead hPiece
      · cases behind with
        | nil => exact hCross [] (by simpa using hBehind.symm) hPiece.symm
        | cons ch behind =>
            rw [List.cons_append, List.cons.injEq] at hPiece
            obtain ⟨rfl, rfl⟩ := hPiece
            obtain ⟨n, hCount, hParser⟩ := ih hFilled.1 hBehind
              ((List.prefix_append _ _).trans hRest)
            have hPos := List.length_pos_iff.2 (Ne.symm hFilled.2)
            rw [List.length_append] at hLength ⊢
            exact ⟨n + 1, by omega, replay_stored hState hErrno hParser (by omega)
              (Ne.symm hFilled.2)⟩

/-- One execution tells how the parser goes through the head in any pieces. The pieces
up to the line feed are consumed, `replay_waiting` bounds the count while it waits, and
`stops` is asked of the same parser but for that count. -/
theorem reported_of_read {parser : Held} (hBetween : parser.1.phase = .between)
    (hRead : request.Read key parser.1) : request.Reported key parser := by
  have hFollowed := Followed.of_between parser.2 hBetween hRead.ready.1 hRead.ready.2
  have hLength : (request.bytes key).length = request.head.length + key.length + 1 := by
    rw [bytes, List.length_append, List.length_cons]
    omega
  have hShort := hRead.short
  rw [hLength] at hShort
  obtain ⟨target, hTarget⟩ := hRead.reports
  obtain ⟨place, told, n, hStops, hWaiting, hCount, hSame⟩ :=
    stops_of_execute hFollowed hRead.chars (by omega) hRead.parsed hRead.waits hRead.errno
  have hStart := Gone.start hBetween hFollowed hStops
  have hPlace : (place.effect LF).parser.nread ≤ parser.1.nread + request.head.length + 1 :=
    hStops.nread_le
  constructor
  · intro pieces piece hFilled hArrived
    obtain ⟨left, hLeft⟩ := hArrived
    rw [List.flatten_concat, List.append_assoc] at hLeft
    simp only [List.mem_append, List.mem_singleton, not_or] at hFilled
    have hSum := congrArg List.length hLeft
    simp only [List.length_append] at hSum
    have hFits : piece.length + HTTP_MAX_HEADER_SIZE < 2 ^ 32 := by
      unfold HTTP_MAX_HEADER_SIZE at hShort ⊢
      omega
    exact ((hStart.of_start (by omega) hFilled.1 hLeft.symm).more (Ne.symm hFilled.2) hFits).2
  · intro pieces piece rest hFilled hArrived hComplete hRest
    obtain ⟨left, hLeft⟩ := hArrived
    rw [List.flatten_concat, bytes, ← hLeft, List.append_assoc] at hComplete
    obtain rfl := List.append_cancel_left hComplete
    simp only [List.mem_append, List.mem_singleton, not_or] at hFilled
    have hSum := congrArg List.length hLeft
    simp only [List.length_append] at hSum
    have hKey := hRest.length_le
    have hFits : (left ++ LF :: rest).length + HTTP_MAX_HEADER_SIZE < 2 ^ 32 := by
      rw [List.length_append, List.length_cons]
      unfold HTTP_MAX_HEADER_SIZE at hShort ⊢
      omega
    obtain ⟨hParsed, ⟨m, -, hParser⟩, hReports, stage, hStage⟩ :=
      (hStart.of_start (by omega) hFilled.1 hLeft.symm).stop hFits
    have hReport := (hReports.trans hSame.symm).trans hTarget
    refine ⟨?_, ?_, headEvents_of_coalesce hReport hRead.names hStage⟩
    · rw [← hSum, Nat.add_sub_cancel_left]
      exact hParsed
    · change (replay parser (pieces ++ [left ++ LF :: rest])).1.1.waitingForHeadersCompleted = true
      rw [hParser]
      exact decide_eq_true hStops.state
  · intro pieces rest hFilled hPieces hRest
    obtain ⟨m, hRoom, hParser⟩ := replay_waiting hStart (by omega) hPlace hStops.state hStops.errno
      hFilled hPieces hRest
    let proceeding : Held := HttpParser.headersCompleted (replay parser pieces).1 0
    have hSameExecution : proceeding.1.execute (LF :: rest) =
        ((parser.1.execute (request.head ++ [LF])).parser.headersCompleted 0).execute
          (LF :: rest) := by
      change ((replay parser pieces).1.1.headersCompleted 0).execute (LF :: rest) = _
      rw [hParser, hWaiting]
      exact @execute_resumed m ((place.effect LF).parser.headersCompleted 0) LF n rfl rfl
        hStops.errno hRoom (by omega) rest
    obtain ⟨hParsed, hEvents⟩ := hRead.stops rest hRest
    have hPhase : proceeding.1.phase = .body := by
      change ((replay parser pieces).1.1.headersCompleted 0).phase = .body
      rfl
    have hComplete : (HttpParser.execute proceeding (LF :: rest)).events = [.onMessageComplete] :=
      (congrArg ExecuteResult.events hSameExecution).trans hEvents
    refine ⟨?_, hComplete, ?_⟩
    · change min (proceeding.1.execute (LF :: rest)).parsed (LF :: rest).length = 1
      rw [hSameExecution]
      exact (congrArg (min · (LF :: rest).length) hParsed).trans (Nat.min_eq_left (by simp))
    · refine Bool.eq_false_iff.2 fun hWaits => ?_
      have hAfter := (httpParserContract.waiting_iff _).1 hWaits
      rcases httpParserContract.execute proceeding (LF :: rest) with hFollows | ⟨hRefused, -⟩
      · rw [hComplete] at hFollows
        obtain ⟨next, hNext, hLast⟩ := hFollows
        rw [show httpParserContract.phase proceeding = .body from hPhase] at hNext
        have hBetween : next = .between := (Option.some.inj hNext).symm
        exact ParserPhase.noConfusion (hBetween.symm.trans (Eq.trans hLast hAfter))
      · exact ParserPhase.noConfusion (hPhase.symm.trans hRefused)

end Replays

/-! ## Requests in the usual form -/

/-- A request that both headers make an upgrade, as a client writes it: no field declares a
body, and no value is empty. The other fields are left open. -/
structure Written (request : UpgradeRequest) : Prop where
  head : ∃ path, request.head = upgradeHead path request.fields ∧ ∀ ch ∈ path, isVisible ch = true
  plain : ∀ field ∈ request.fields, PlainField field
  upgrade : ∃ field ∈ request.fields, Framing.sameName field.1 (ascii "upgrade") = true
  connection : ∃ field ∈ request.fields, Framing.sameName field.1 (ascii "connection") = true ∧
    Framing.sameName field.2 (ascii "upgrade") = true

/-- Nothing in the report of a head is joined. Its names and values take turns, and the
other reports are never parts of anything. -/
theorem coalesce_headReport (target : Bytes) (fields : List (Bytes × Bytes)) :
    ParserEvent.joining.coalesce (headReport target fields) = headReport target fields := by
  let block (fields : List (Bytes × Bytes)) : List ParserEvent :=
    fields.flatMap (fun field => [.onHeaderField field.1, .onHeaderValue field.2]) ++
      [.onHeadersComplete true]
  suffices hBlock : ParserEvent.joining.coalesce (block fields) = block fields by
    have hPush : ParserEvent.joining.push (.onUrl target) (block fields) =
        .onUrl target :: block fields := by
      cases fields <;> exact Joining.push_cons_none rfl
    change ParserEvent.joining.push _ (ParserEvent.joining.push _
      (ParserEvent.joining.coalesce (block fields))) = _
    rw [hBlock, hPush]
    exact Joining.push_cons_none rfl
  induction fields with
  | nil => rfl
  | cons field fields ih =>
      have hPush : ParserEvent.joining.push (.onHeaderValue field.2) (block fields) =
          .onHeaderValue field.2 :: block fields := by
        cases fields <;> exact Joining.push_cons_none rfl
      change ParserEvent.joining.push _ (ParserEvent.joining.push _
        (ParserEvent.joining.coalesce (block fields))) = _
      rw [ih, hPush]
      exact Joining.push_cons_none rfl

theorem isToken_of_plain {field : Bytes × Bytes} (hField : PlainField field) :
    Framing.isToken field.1 = true := by
  have hToken : ∀ ch : UInt8, RequestParser.isToken ch = true → Framing.isTokenByte ch = true := by
    decide +kernel
  rw [Framing.isToken, Bool.and_eq_true, bne_iff_ne, List.all_eq_true]
  exact ⟨hField.nonempty, fun ch hMem => hToken ch (hField.name ch hMem)⟩

/-- **A request in the usual form** is read as one, for every key. A parser that is at the
start of a request goes through its head and takes nothing of what follows. -/
theorem Written.read {parser : RequestParser} (hWritten : request.Written) (hIdle : parser.Idle)
    (hState : parser.state = .startReq) (hReady : parser.httpErrno = .ok ∧ parser.isRunning = false)
    (hShort : 2 * (parser.nread + (request.bytes key).length) < HTTP_MAX_HEADER_SIZE) :
    request.Read key parser := by
  obtain ⟨path, hHead, hPath⟩ := hWritten.head
  have hPhase : parser.phase = .between := by simp [phase, hState]
  have hFollowed := Followed.of_between hIdle hPhase hReady.1 hReady.2
  have hPending : parser.scanner.pending = none := by
    rw [RequestParser.scanner, hState]
    rfl
  have hLength : (request.bytes key).length = request.head.length + (key.length + 1) := by
    rw [bytes, List.length_append, List.length_cons]
  have hHeadShort : 2 * (parser.nread + request.head.length) < HTTP_MAX_HEADER_SIZE := by omega
  obtain ⟨place, hStops, hTold, hUpgrade, hChunked, hUnknown⟩ := @upgradeHead_stops parser.scanner
    path request.fields hState hReady.1 hPending hPath hWritten.plain hWritten.upgrade
    hWritten.connection (by rwa [← hHead])
  rw [← hHead] at hStops
  have hFits : (request.head ++ LF :: []).length + HTTP_MAX_HEADER_SIZE < 2 ^ 32 := by
    rw [List.length_append, List.length_singleton]
    unfold HTTP_MAX_HEADER_SIZE at hHeadShort ⊢
    omega
  obtain ⟨hParsed, n, hAfter⟩ := hFollowed.stops hStops hFits
  have hParser : (parser.execute (request.head ++ [10])).parser =
      (place.effect LF).parser.recount n false := hAfter.parser
  have hErrno : (parser.execute (request.head ++ [10])).parser.httpErrno = .ok := by
    rw [hParser]
    exact hStops.errno
  have hPlace : (place.effect LF).parser.nread ≤ parser.nread + request.head.length + 1 :=
    hStops.nread_le
  have hCount : n ≤ 2 * (place.effect LF).parser.nread := (hAfter.count.bounds trivial).2
  refine {
    ready := hReady
    chars := by
      rw [hHead]
      exact upgradeHead_chars hPath hWritten.plain
    short := hShort
    names := fun field hMem => isToken_of_plain (hWritten.plain field hMem)
    parsed := hParsed
    errno := hErrno
    waits := by
      rw [hParser]
      exact decide_eq_true hStops.state
    reports := ⟨ascii "/" ++ path, ?_⟩
    stops := fun rest _ => ?_ }
  · have hSame := hAfter.same trivial
    rw [hTold] at hSame
    refine (hSame.trans ?_).trans (coalesce_headReport (ascii "/" ++ path) request.fields)
    simp [Scanner.stopped, Pending.events, headReport]
  · rw [hParser] at hErrno ⊢
    exact execute_upgraded hErrno rfl (by change n < _; omega) hUpgrade hChunked (Or.inr hUnknown) rest

end UpgradeRequest

end Httpuv
