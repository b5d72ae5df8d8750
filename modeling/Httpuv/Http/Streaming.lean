import Httpuv.Http.Connection
import Httpuv.Semantics.Trace

/-! The writes of one connection: which response each belongs to, and which
responses have begun and are not over. -/
namespace Httpuv

open Semantics

section Log

variable {File : Type}

/-- A byte of the response has been taken. -/
def HasPiece (serial : Nat) (log : List (Observation File)) : Prop :=
  ∃ bytes, .uvWrite (some serial) bytes ∈ log

/-- The response has begun and bytes of it are still missing. -/
def Unfinished (serial : Nat) (log : List (Observation File)) : Prop :=
  HasPiece serial log ∧ .handedOver serial ∉ log

/-- What is written belongs to a response that is not over, and no other
response has begun without being over. -/
def Uninterrupted (log : List (Observation File)) : Prop :=
  AtEach (fun before entry => ∀ serial bytes, entry = .uvWrite (some serial) bytes →
    .handedOver serial ∉ before ∧ ∀ other, Unfinished other before → other = serial) log

/-- Entries that are neither bytes nor the end of a response. -/
def Observation.IsApart : Observation File → Prop
  | .uvWrite (some _) _ | .handedOver _ => False
  | _ => True

/-- Entries that are not about a response at all. -/
def Observation.IsPlain : Observation File → Prop
  | .uvWrite (some _) _ | .handedOver _ | .writeResponse _ _ _ _ => False
  | _ => True

theorem Observation.IsPlain.isApart {entry : Observation File} (h : entry.IsPlain) :
    entry.IsApart := by
  cases entry with
  | uvWrite serial bytes =>
      cases serial with
      | none => trivial
      | some serial => exact h.elim
  | handedOver serial => exact h.elim
  | _ => trivial

variable {serial : Nat} {log entries : List (Observation File)} {entry : Observation File}

theorem HasPiece.append (h : HasPiece serial log) : HasPiece serial (log ++ entries) := by
  obtain ⟨bytes, hMem⟩ := h
  exact ⟨bytes, List.mem_append_left _ hMem⟩

theorem hasPiece_apart (hApart : entry.IsApart) :
    HasPiece serial (log ++ [entry]) ↔ HasPiece serial log := by
  refine ⟨?_, HasPiece.append⟩
  rintro ⟨bytes, hMem⟩
  rcases List.mem_append.1 hMem with hMem | hMem
  · exact ⟨bytes, hMem⟩
  · rw [← List.mem_singleton.1 hMem] at hApart
    exact hApart.elim

theorem handedOver_apart (hApart : entry.IsApart) :
    .handedOver serial ∈ log ++ [entry] ↔ .handedOver serial ∈ log := by
  refine ⟨?_, List.mem_append_left _⟩
  intro hMem
  rcases List.mem_append.1 hMem with hMem | hMem
  · exact hMem
  · rw [← List.mem_singleton.1 hMem] at hApart
    exact hApart.elim

theorem unfinished_apart (hApart : entry.IsApart) :
    Unfinished serial (log ++ [entry]) ↔ Unfinished serial log := by
  rw [Unfinished, Unfinished, hasPiece_apart hApart, handedOver_apart hApart]

theorem uninterrupted_apart (hApart : entry.IsApart) (h : Uninterrupted log) :
    Uninterrupted (log ++ [entry]) := by
  refine AtEach.concat_iff.2 ⟨h, ?_⟩
  rintro serial bytes rfl
  exact hApart.elim

variable {bytes : Bytes} {drained : Bool} {other : Nat}

theorem hasPiece_pieces : HasPiece other (log ++ pieces serial bytes drained) ↔
    other = serial ∨ HasPiece other log := by
  cases drained <;> simp [HasPiece, pieces, exists_or, or_comm]

theorem handedOver_pieces : .handedOver other ∈ log ++ pieces serial bytes drained ↔
    (drained = true ∧ other = serial) ∨ .handedOver other ∈ log := by
  cases drained <;> simp [pieces, or_comm]

theorem mem_pieces_of_apart (hApart : entry.IsApart) :
    entry ∈ log ++ pieces serial bytes drained ↔ entry ∈ log := by
  refine ⟨?_, List.mem_append_left _⟩
  intro hMem
  rcases List.mem_append.1 hMem with hMem | hMem
  · exact hMem
  · cases drained <;> cases entry <;> simp_all [pieces, Observation.IsApart]

/-- Another response is as far as it was. -/
theorem unfinished_pieces (hOther : Unfinished other (log ++ pieces serial bytes drained)) :
    other = serial ∧ drained = false ∨ Unfinished other log := by
  rw [Unfinished, hasPiece_pieces, handedOver_pieces] at hOther
  obtain ⟨hPiece, hOpen⟩ := hOther
  push Not at hOpen
  rcases hPiece with rfl | hPiece
  · exact Or.inl ⟨rfl, by simpa using hOpen.1⟩
  · exact Or.inr ⟨hPiece, hOpen.2⟩

/-- A piece of the only response that can be unfinished. -/
theorem Uninterrupted.pieces (h : Uninterrupted log) (hOpen : .handedOver serial ∉ log)
    (hAlone : ∀ other, Unfinished other log → other = serial) :
    Uninterrupted (log ++ pieces serial bytes drained) := by
  have hPiece : Uninterrupted (log ++ [.uvWrite (some serial) bytes]) := by
    refine AtEach.concat_iff.2 ⟨h, ?_⟩
    intro other piece hSame
    cases hSame
    exact ⟨hOpen, hAlone⟩
  cases drained with
  | false => exact hPiece
  | true =>
      have hBoth : Uninterrupted (log ++ [.uvWrite (some serial) bytes] ++ [.handedOver serial]) :=
        AtEach.concat_iff.2 ⟨hPiece, fun other piece hSame => by cases hSame⟩
      simpa [Httpuv.pieces] using hBoth

end Log

/-- A call of `next` makes one write, of a stream that has something to write,
or none. -/
theorem ExtendedWrite.next_effects {Source : Type} [DataSource Source]
    {write after : ExtendedWrite Source} {accepted : Bool} {effects : List WriteEffect}
    (h : write.next accepted = (after, effects)) :
    (write.issuesWrite = true ∧ write.drained = false ∧
      ∃ bufs, effects = [.uvWrite bufs accepted]) ∨
    (write.issuesWrite = false ∧ ∀ bufs answer, .uvWrite bufs answer ∉ effects) := by
  have hDispose : ∀ (write : ExtendedWrite Source) bufs answer,
      .uvWrite bufs answer ∉ write.dispose := by
    intro write bufs answer
    unfold dispose
    split_ifs <;> simp
  unfold next at h
  split_ifs at h with hOver
  · cases h
    exact Or.inr ⟨by simp [issuesWrite, hOver], hDispose _⟩
  · simp only [Bool.or_eq_true, not_or, Bool.not_eq_true] at hOver
    cases hData : DataSource.getData write.pDataSource bytesDesired with
    | none =>
        rw [hData] at h
        cases h
        refine Or.inr ⟨by simp [issuesWrite, hData], ?_⟩
        intro bufs answer
        dsimp only
        split_ifs <;> simp
    | some result =>
        obtain ⟨buf, source⟩ := result
        rw [hData] at h
        dsimp only at h
        split_ifs at h with hNothing
        · cases h
          obtain ⟨-, hBuf, hPost⟩ := hNothing
          have hChunked : write.chunked = false := by
            cases hChunked : write.chunked with
            | false => rfl
            | true => simp [post, hChunked, hBuf, TRAILER, ascii] at hPost
          refine Or.inr ⟨by simp [issuesWrite, hData, hBuf, hChunked], ?_⟩
          intro bufs answer hMem
          rcases List.mem_cons.1 hMem with hMem | hMem
          · cases hMem
          · exact hDispose _ bufs answer hMem
        · cases h
          left
          cases hChunked : write.chunked with
          | true =>
              exact ⟨by simp [issuesWrite, hOver, hData, hChunked],
                by simp [drained, hOver.2, hChunked], _, rfl⟩
          | false =>
              have hBuf : buf ≠ [] := by
                rintro rfl
                exact hNothing (by simp [pre, post, hChunked])
              refine ⟨by simp [issuesWrite, hOver, hData, hBuf], ?_, _, rfl⟩
              cases buf with
              | nil => exact absurd rfl hBuf
              | cons byte rest => simp [drained, hOver.2, hData]

/-- A write that is made is under way. -/
theorem ExtendedWrite.next_activeWrites {Source : Type} [DataSource Source]
    {write after : ExtendedWrite Source} {accepted answer : Bool} {bufs : List Bytes}
    (h : write.next accepted = (after, [.uvWrite bufs answer])) :
    after.activeWrites = write.activeWrites + 1 := by
  have hDispose : ∀ (write : ExtendedWrite Source), write.dispose ≠ [.uvWrite bufs answer] := by
    intro write
    unfold dispose
    split_ifs <;> simp
  unfold next at h
  split_ifs at h with hOver
  · exact absurd (Prod.mk.inj h).2 (hDispose write)
  · cases hData : DataSource.getData write.pDataSource bytesDesired with
    | none =>
        rw [hData] at h
        have hEffects := (Prod.mk.inj h).2
        split_ifs at hEffects
        cases hEffects
    | some result =>
        rw [hData] at h
        dsimp only at h
        split_ifs at h with hNothing
        · cases (Prod.mk.inj h).2
        · rw [← (Prod.mk.inj h).1]

namespace Write

variable {File : Type} [Zlib]

/-- The response a write belongs to. -/
def serial : Write File → Option Nat
  | .header serial _ => some serial
  | .body serial _ _ => some serial
  | .frame => none

/-- Whether the connection is closed when the response is destroyed. -/
def closeAfterWritten : Write File → Bool
  | .header _ response => response.closeAfterWritten
  | .body _ response _ => response.closeAfterWritten
  | .frame => false

/-- The write of a stream is the only one it has under way. -/
def Alone : Write File → Prop
  | .body _ _ write => write.activeWrites = 1
  | _ => True

end Write

section Backed

variable {File : Type} [Zlib] [DataSource File]

/-- What the log tells of a write under way. -/
structure Backed (log : List (Observation File)) (serial : Nat) (write : Write File) : Prop where
  begun : HasPiece serial log
  finished : .handedOver serial ∈ log → write.drained = true
  closing : ∀ request kind response, .writeResponse request serial kind response ∈ log →
    write.closeAfterWritten = response.closeAfterWritten
  alone : write.Alone

/-- Entries about something else leave the writes backed. -/
theorem Backed.apart {log : List (Observation File)} {serial : Nat} {write : Write File}
    (h : Backed log serial write) (hApart : entry.IsApart)
    (hOther : ∀ request kind response, entry ≠ .writeResponse request serial kind response) :
    Backed (log ++ [entry]) serial write where
  begun := h.begun.append
  finished := fun hMem => h.finished ((handedOver_apart hApart).1 hMem)
  closing := by
    intro request kind response hMem
    rcases List.mem_append.1 hMem with hMem | hMem
    · exact h.closing request kind response hMem
    · exact absurd (List.mem_singleton.1 hMem).symm (hOther request kind response)
  alone := h.alone

theorem Backed.pieces {log : List (Observation File)} {serial other : Nat} {write : Write File}
    {bytes : Bytes} {drained : Bool} (h : Backed log other write) (hOther : other ≠ serial) :
    Backed (log ++ pieces serial bytes drained) other write where
  begun := h.begun.append
  finished := by
    intro hOver
    rcases handedOver_pieces.1 hOver with ⟨-, hSame⟩ | hOver
    · exact absurd hSame hOther
    · exact h.finished hOver
  closing := by
    intro request kind response hMem
    exact h.closing request kind response ((mem_pieces_of_apart (by trivial)).1 hMem)
  alone := h.alone

end Backed

namespace Connection

variable {File : Type} [HttpParser] [Zlib] [DataSource File]

/-- What holds of the writes of a connection in every run. -/
structure Writing (conn : Connection File) : Prop where
  numbered : ∀ serial, HasPiece serial conn.log ∨ .handedOver serial ∈ conn.log ∨
    (∃ request kind response, .writeResponse request serial kind response ∈ conn.log) →
    serial < conn.serial
  distinct : (conn.writes.filterMap Write.serial).Nodup
  backed : ∀ write ∈ conn.writes, ∀ serial, write.serial = some serial →
    Backed conn.log serial write

/-- The responses follow one another. Nothing is written while the connection
is being closed. -/
structure Flowing (conn : Connection File) : Prop where
  uninterrupted : Uninterrupted conn.log
  alone : conn.isClosing = false → ∀ serial other, Unfinished serial conn.log →
    Unfinished other conn.log → serial = other

variable {conn : Connection File} {entry : Observation File}

theorem Writing.observe (h : conn.Writing) (hApart : entry.IsApart)
    (hOther : ∀ request serial kind response,
      entry ≠ .writeResponse request serial kind response) : (conn.observe entry).Writing where
  numbered := by
    rintro serial (hPiece | hOver | ⟨request, kind, response, hMem⟩)
    · exact h.numbered serial (Or.inl ((hasPiece_apart hApart).1 hPiece))
    · exact h.numbered serial (Or.inr (Or.inl ((handedOver_apart hApart).1 hOver)))
    · rcases List.mem_append.1 hMem with hMem | hMem
      · exact h.numbered serial (Or.inr (Or.inr ⟨request, kind, response, hMem⟩))
      · exact absurd (List.mem_singleton.1 hMem).symm (hOther request serial kind response)
  distinct := h.distinct
  backed := by
    intro write hMem serial hSerial
    exact (h.backed write hMem serial hSerial).apart hApart
      (fun request kind response => hOther request serial kind response)

/-- Steps that write nothing. -/
theorem Writing.extend {after : Connection File} {entries : List (Observation File)}
    (h : conn.Writing) (hWrites : after.writes = conn.writes) (hSerial : after.serial = conn.serial)
    (hLog : after.log = conn.log ++ entries) (hPlain : ∀ entry ∈ entries, entry.IsPlain) :
    after.Writing := by
  have hAll : Writing { conn with log := conn.log ++ entries } := by
    clear hLog
    induction entries using List.reverseRecOn with
    | nil =>
        rw [List.append_nil]
        exact h
    | append_singleton entries entry ih =>
        have hRest := ih (fun other hMem => hPlain other (List.mem_append_left _ hMem))
        have hEntry := hPlain entry (by simp)
        have hObserved := hRest.observe hEntry.isApart (by
          rintro request serial kind response rfl
          exact hEntry.elim)
        simpa [Connection.observe] using hObserved
  exact {
    numbered := by
      rw [hLog, hSerial]
      exact hAll.numbered
    distinct := by
      rw [hWrites]
      exact hAll.distinct
    backed := by
      rw [hLog, hWrites]
      exact hAll.backed }

theorem Writing.pop {write : Write File} {rest : List (Write File)} (h : conn.Writing)
    (hWrites : conn.writes = write :: rest) : Writing { conn with writes := rest } where
  numbered := h.numbered
  distinct := by
    have hDistinct := h.distinct
    rw [hWrites] at hDistinct
    exact hDistinct.sublist ((List.sublist_cons_self write rest).filterMap Write.serial)
  backed := fun other hMem => h.backed other (by simp [hWrites, hMem])

/-- A frame belongs to no response. -/
theorem Writing.frame (h : conn.Writing) :
    Writing { conn with writes := conn.writes ++ [Write.frame] } where
  numbered := h.numbered
  distinct := by
    have hFrame : [Write.frame].filterMap (fun write : Write File => write.serial) = [] := rfl
    rw [List.filterMap_append, hFrame, List.append_nil]
    exact h.distinct
  backed := by
    intro write hMem serial hSerial
    rcases List.mem_append.1 hMem with hMem | hMem
    · exact h.backed write hMem serial hSerial
    · rw [List.mem_singleton.1 hMem] at hSerial
      cases hSerial

/-- One more write of a response that has none under way. -/
theorem Writing.queue {serial : Nat} {write : Write File} (h : conn.Writing) (bytes : Bytes)
    (hNumber : serial < conn.serial) (hOpen : .handedOver serial ∉ conn.log)
    (hNone : ∀ write ∈ conn.writes, write.serial ≠ some serial)
    (hSerial : write.serial = some serial)
    (hClosing : ∀ request kind response, .writeResponse request serial kind response ∈ conn.log →
      write.closeAfterWritten = response.closeAfterWritten) (hAlone : write.Alone) :
    (conn.queue serial bytes write).Writing where
  numbered := by
    rintro other (hPiece | hOver | ⟨request, kind, response, hMem⟩)
    · rcases hasPiece_pieces.1 hPiece with rfl | hPiece
      · exact hNumber
      · exact h.numbered other (Or.inl hPiece)
    · rcases handedOver_pieces.1 hOver with ⟨-, rfl⟩ | hOver
      · exact hNumber
      · exact h.numbered other (Or.inr (Or.inl hOver))
    · have hBefore := (mem_pieces_of_apart (by trivial)).1 hMem
      exact h.numbered other (Or.inr (Or.inr ⟨request, kind, response, hBefore⟩))
  distinct := by
    rw [Connection.queue, List.filterMap_append]
    refine h.distinct.append (by simp [hSerial]) ?_
    intro other hOther hSame
    obtain ⟨older, hOlder, hNumbered⟩ := List.mem_filterMap.1 hOther
    have hOther : other = serial := by simpa [hSerial] using hSame
    exact hNone older hOlder (hNumbered.trans (congrArg some hOther))
  backed := by
    intro other hMem number hNumbered
    rcases List.mem_append.1 hMem with hOld | hNew
    · have hOther : number ≠ serial := by
        rintro rfl
        exact hNone other hOld hNumbered
      exact (h.backed other hOld number hNumbered).pieces hOther
    · obtain rfl := List.mem_singleton.1 hNew
      obtain rfl : serial = number := by simpa [hSerial] using hNumbered
      refine ⟨hasPiece_pieces.2 (Or.inl rfl), ?_, ?_, hAlone⟩
      · intro hOver
        rcases handedOver_pieces.1 hOver with ⟨hDrained, -⟩ | hOver
        · exact hDrained
        · exact absurd hOver hOpen
      · intro request kind response hMem
        exact hClosing request kind response ((mem_pieces_of_apart (by trivial)).1 hMem)

end Connection

end Httpuv
