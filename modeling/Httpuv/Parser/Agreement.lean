import Httpuv.Parser.Scanner

/-! When an execution has told its caller the same as the scanner, and how the
macros keep it so. -/
namespace Httpuv.RequestParser

open Semantics

section Agree

/-- Both have reported the same, with the piece of data that is under way, when the
buffer fits into the count. A body is under way in the buffer only. -/
structure Agree (fits : Prop) (past : List ParserEvent) (real : Pending)
    (events : List ParserEvent) (pending : Pending) : Prop where
  slots : real.map Prod.fst = pending.map Prod.fst ∨
    pending = none ∧ real.map Prod.fst = some .body
  same : fits → ParserEvent.joining.coalesce (past ++ real.events) =
    ParserEvent.joining.coalesce (events ++ pending.events)

variable {fits : Prop} {past events : List ParserEvent} {real pending : Pending}

theorem coalesce_advance (before : List ParserEvent) (pending : Pending) (bytes : Bytes) :
    ParserEvent.joining.coalesce (before ++ (pending.advance bytes).events) =
      ParserEvent.joining.coalesce
        (before ++ pending.events ++ pending.toList.map (fun piece => piece.1.event bytes)) := by
  cases pending with
  | none => simp [Pending.advance, Pending.events]
  | some piece =>
      have hJoin := Joining.coalesce_join (join_event piece.1 piece.2 bytes) before []
      simpa [Pending.advance, Pending.events] using hJoin.symm

theorem Agree.advance (hAgree : Agree fits past real events pending)
    (hSlots : real.map Prod.fst = pending.map Prod.fst) {read bytes : Bytes}
    (hRead : fits → read = bytes) :
    Agree fits past (real.advance read) events (pending.advance bytes) where
  slots := by
    left
    rw [Pending.advance_slot, Pending.advance_slot, hSlots]
  same := by
    intro hFits
    rw [hRead hFits]
    have hSame : real.toList.map (fun piece => piece.1.event bytes) =
        pending.toList.map (fun piece => piece.1.event bytes) := by
      cases real <;> cases pending <;> simp_all
    rw [coalesce_advance, coalesce_advance, hSame]
    exact Joining.coalesce_congr (hAgree.same hFits) rfl

/-- The piece of a body that the scanner tells byte by byte. -/
theorem Agree.body (hAgree : Agree fits past real events none)
    (hSlot : real.map Prod.fst = some .body) (bytes : Bytes) :
    Agree fits past (real.advance bytes) (events ++ bytes.map (fun ch => .onBody [ch])) none where
  slots := Or.inr ⟨rfl, by rw [Pending.advance_slot, hSlot]⟩
  same := by
    intro hFits
    cases real with
    | none => cases hSlot
    | some piece =>
        obtain ⟨callback, piece⟩ := piece
        obtain rfl : callback = .body := by simpa using hSlot
        have hSame := hAgree.same hFits
        simp only [Pending.events, Option.toList_some, Option.toList_none, List.map_cons,
          List.map_nil, List.append_nil] at hSame
        simp only [Pending.advance, Pending.events, Option.map_some, Option.toList_some,
          Option.toList_none, List.map_cons, List.map_nil, List.append_nil]
        induction bytes using List.reverseRecOn with
        | nil => simpa using hSame
        | append_singleton bytes ch ih =>
            have hJoin := Joining.coalesce_join (join_event .body (piece ++ bytes) [ch]) past []
            rw [List.append_assoc] at hJoin
            rw [← hJoin, List.map_append, ← List.append_assoc]
            have hSplit : past ++ [DataCallback.body.event (piece ++ bytes),
                DataCallback.body.event [ch]] =
                past ++ [DataCallback.body.event (piece ++ bytes)] ++
                  [DataCallback.body.event [ch]] := by simp
            rw [hSplit]
            exact Joining.coalesce_congr ih rfl

/-- The mark of a body is set before its first byte. -/
theorem Agree.mark_body (hAgree : Agree fits past real events none) {bytes : Bytes}
    (hNonempty : bytes ≠ []) :
    Agree fits past ((real.report (.mark .body)).1.advance bytes)
      (events ++ bytes.map (fun ch => .onBody [ch])) none := by
  rcases hAgree.slots with hNone | ⟨-, hBody⟩
  · obtain rfl : real = none := by simpa using hNone
    cases bytes with
    | nil => exact absurd rfl hNonempty
    | cons ch bytes =>
        have hFirst : Agree fits past (some (.body, [ch])) (events ++ [.onBody [ch]]) none := by
          refine ⟨Or.inr ⟨rfl, rfl⟩, fun hFits => ?_⟩
          have hSame := Joining.coalesce_congr (hAgree.same hFits)
            (rfl : _ = ParserEvent.joining.coalesce [.onBody [ch]])
          simpa [Pending.events, DataCallback.event] using hSame
        have hMore := hFirst.body rfl bytes
        rw [List.append_assoc] at hMore
        exact hMore
  · have hMarked : (real.report (.mark .body)).1 = real := by
      cases real with
      | none => cases hBody
      | some piece => rfl
    rw [hMarked]
    exact hAgree.body hBody bytes

variable {place place' : ParserPhase × Option DataCallback}

/-- A macro reports the same of both pieces. -/
theorem Agree.report (hAgree : Agree fits past real events pending) {call : Call}
    (hSlot : place.2 = real.map Prod.fst) (hNext : Call.next place call = some place') :
    Agree fits (past ++ (real.report call).2) (real.report call).1 (events ++ (pending.report call).2)
      (pending.report call).1 := by
  cases call with
  | mark callback =>
      simp only [Call.next, hSlot] at hNext
      split_ifs at hNext with hNone
      obtain rfl : real = none := by simpa using hNone
      obtain rfl : pending = none := by simpa using hAgree.slots
      exact ⟨Or.inl rfl, fun hFits => Joining.coalesce_congr
        (by simpa [Pending.report, Pending.events] using hAgree.same hFits) rfl⟩
  | data callback =>
      simp only [Call.next, hSlot] at hNext
      split_ifs at hNext with hOpen
      cases real with
      | none =>
          obtain rfl : pending = none := by simpa using hAgree.slots
          exact ⟨Or.inl rfl, by simpa [Pending.report, Pending.events] using hAgree.same⟩
      | some piece =>
          obtain ⟨callback, piece⟩ := piece
          obtain rfl := by simpa using hOpen
          cases pending with
          | none =>
              exact ⟨Or.inl (by simp [Pending.report]),
                by simpa [Pending.report, Pending.events] using hAgree.same⟩
          | some other =>
              obtain ⟨other, told⟩ := other
              obtain rfl : callback = other := by simpa using hAgree.slots
              exact ⟨Or.inl (by simp [Pending.report]),
                by simpa [Pending.report, Pending.events] using hAgree.same⟩
  | notify event =>
      simp only [Call.next, hSlot] at hNext
      split_ifs at hNext with hNone
      obtain rfl : real = none := by simpa using hNone
      obtain rfl : pending = none := by simpa using hAgree.slots
      exact ⟨Or.inl rfl, fun hFits => Joining.coalesce_congr (Joining.coalesce_congr
        (by simpa [Pending.events] using hAgree.same hFits) rfl) rfl⟩

theorem Agree.reportAll (hAgree : Agree fits past real events pending) {calls : List Call}
    (hSlot : place.2 = real.map Prod.fst)
    (hPath : calls.foldlM Call.next place = some place') :
    Agree fits (past ++ (real.reportAll calls).2) (real.reportAll calls).1
      (events ++ (pending.reportAll calls).2) (pending.reportAll calls).1 := by
  induction calls generalizing past events real pending place with
  | nil => simpa [Pending.reportAll] using hAgree
  | cons call calls ih =>
      obtain ⟨middle, hNext, hRest⟩ := Option.bind_eq_some_iff.1 hPath
      have hMiddle := ih (hAgree.report hSlot hNext) (report_slot hSlot hNext) hRest
      simpa [Pending.reportAll] using hMiddle

end Agree

/-- The count of an execution and the one of the scanner. Every end of a buffer in a
name or a value counts one byte too many, and a buffer has at least one byte. A buffer
that makes the count wrap around has no relation to the scanner. -/
structure Counted (fits : Prop) (slack nread n : Nat) : Prop where
  limit : n ≤ HTTP_MAX_HEADER_SIZE
  bounds : fits → nread ≤ n ∧ n ≤ 2 * nread + slack

/-- The same, with one byte that the scanner has not consumed. -/
structure CountedByte (fits : Prop) (slack nread n : Nat) : Prop where
  limit : n ≤ HTTP_MAX_HEADER_SIZE
  bounds : fits → nread + 1 ≤ n ∧ n ≤ 2 * nread + 1 + slack

/-- What an execution starts from: the phase, what has been reported before, by how
much the count may be ahead, and whether its buffer fits into the count. -/
structure Context where
  fits : Prop
  slack : Nat
  phase : ParserPhase
  past : List ParserEvent

namespace Context

/-- The events lead from the phase of the context to the one of the parser. -/
def Ordered (context : Context) (reported : List ParserEvent) (parser : RequestParser) : Prop :=
  context.phase.after reported = some parser.phase ∨
    context.phase = .refused ∧ reported = [] ∧ parser.phase = .between

/-- An execution that has reported what the scanner has, with the pointer at `p`. -/
structure Told (context : Context) (events : List ParserEvent) (scanner : Scanner)
    (exec : Execution) (p : Bytes) (pending : Pending) : Prop where
  sound : scanner.Sound
  errno : scanner.parser.httpErrno = .ok
  marks : scanner.parser.state.Marks (pending.map Prod.fst)
  has : exec.Has p pending
  agree : Agree context.fits (context.past ++ exec.events) pending events scanner.pending
  order : context.phase.after exec.events = some scanner.parser.phase
  length : context.fits → p.length + HTTP_MAX_HEADER_SIZE < 2 ^ 32

/-- An execution with the parser of the scanner, which has counted `n` bytes. -/
structure Related (context : Context) (events : List ParserEvent)
    (scanner : Scanner) (exec : Execution) (n : Nat) (p : Bytes) (pending : Pending) : Prop extends
    Told context events scanner exec p pending where
  parser : exec.parser = scanner.parser.recount n true
  count : Counted context.fits context.slack scanner.parser.nread n

/-- How an execution is left before the end of its buffer. A failure leaves members
behind that no one looks at again. -/
inductive Halted (context : Context) (events : List ParserEvent) (scanner : Scanner) (p : Bytes) :
    Execution → Bytes → Prop
  | stopped {read rest : Bytes} {ch : UInt8} {after : Scanner} {more : List ParserEvent}
      {exec : Execution} {n : Nat} {consumed : Bool}
      (hScan : scanner.scan read = some (after, more))
      (hRead : context.fits → p = read ++ ch :: rest)
      (hControl : (after.effect ch).control = .stop consumed)
      (hParser : exec.parser = (after.effect ch).parser.recount n true)
      (hCount : Counted context.fits context.slack (after.effect ch).parser.nread n)
      (hOrder : context.Ordered exec.events exec.parser)
      (hSame : context.fits → ParserEvent.joining.coalesce (context.past ++ exec.events) =
        ParserEvent.joining.coalesce
          (events ++ (more ++ (after.pending.reportAll (after.effect ch).calls).2))) :
      Halted context events scanner p exec (if consumed then rest else ch :: rest)
  | error {read rest : Bytes} {ch : UInt8} {after : Scanner} {more : List ParserEvent}
      {exec : Execution} {pending : Pending}
      (hScan : scanner.scan read = some (after, more))
      (hRead : context.fits → p = read ++ ch :: rest)
      (hControl : (after.effect ch).control = .error)
      (hErrno : exec.parser.httpErrno = (after.effect ch).parser.httpErrno)
      (hSound : exec.parser.Sound)
      (hOrder : context.Ordered exec.events exec.parser)
      (hAgree : Agree context.fits (context.past ++ exec.events) pending
        (events ++ (more ++ (after.pending.reportAll (after.effect ch).calls).2))
        (after.pending.reportAll (after.effect ch).calls).1) :
      Halted context events scanner p exec (ch :: rest)
  | overflow {read rest : Bytes} {after : Scanner} {more : List ParserEvent} {exec : Execution}
      {pending : Pending}
      (hScan : scanner.scan read = some (after, more))
      (hRead : context.fits → p = read ++ rest)
      (hErrno : exec.parser.httpErrno = .headerOverflow)
      (hSound : exec.parser.Sound)
      (hOrder : context.Ordered exec.events exec.parser)
      (hPast : context.fits → HTTP_MAX_HEADER_SIZE ≤ 2 * after.parser.nread + context.slack)
      (hAgree : Agree context.fits (context.past ++ exec.events) pending (events ++ more)
        after.pending)
      (p' : Bytes) :
      Halted context events scanner p exec p'
  | control {read rest : Bytes} {ch : UInt8} {after : Scanner} {more : List ParserEvent}
      {exec : Execution} {pending : Pending}
      (hScan : scanner.scan read = some (after, more))
      (hRead : context.fits → p = read ++ ch :: rest)
      (hState : after.parser.state = .headerValue)
      (hControl : isHeaderChar ch = false)
      (hErrno : exec.parser.httpErrno = .invalidHeaderToken)
      (hSound : exec.parser.Sound)
      (hOrder : context.Ordered exec.events exec.parser)
      (hAgree : Agree context.fits (context.past ++ exec.events) pending (events ++ more)
        after.pending) :
      Halted context events scanner p exec (ch :: rest)

/-- How an iteration ends, when the scanner has told the execution. -/
inductive Follows (context : Context) (events : List ParserEvent) (scanner : Scanner)
    (p : Bytes) : Outcome → Prop
  | next {read rest : Bytes} {after : Scanner} {more : List ParserEvent} {exec : Execution}
      {n skipped : Nat} {pending : Pending}
      (hScan : scanner.scan read = some (after, more))
      (hRead : context.fits → p = read ++ rest)
      (hRest : p.drop (skipped + 1) = rest)
      (hRelated : Related context (events ++ more) after exec n rest pending) :
      Follows context events scanner p (.next exec skipped)
  | stop {exec : Execution} {rest : Bytes} (hHalted : Halted context events scanner p exec rest) :
      Follows context events scanner p (.stop exec rest)

end Context

end Httpuv.RequestParser
